import TensorGraph.Proofs.RepeatedInputs

/-!
# Names of the outputs

The optimisation makes up no name: what is an output in the end has the name of an output of the
given graph. But names get lost.
-/

namespace TensorGraph

open Build TensorGraph.Graph List

theorem Build.SameMarks.hasOutput_iff {g g' : Arena} (same : SameMarks g g') (named : g.Named)
    {t : TensorId} {n : String} :
    g'.HasOutput t n ↔ g.HasOutput t n := by
  refine ⟨fun ⟨mark, name⟩ => ?_, same.hasOutput⟩
  have old : t.idx < g.tensors.size := Nat.lt_of_not_le fun new => by
    rw [same.new t new] at mark
    cases mark
  rw [same.isOutput t old] at mark
  obtain ⟨m, given⟩ := Option.isSome_iff_exists.1 (named t mark)
  rw [same.name t m given] at name
  exact ⟨mark, given.trans name⟩

theorem tidy_outputs {g g' : Arena} {ts ts' : Graph} (run : tidy ts g = .ok ts' g')
    (named : g.Named) (n : String) :
    (∃ t ∈ ts', g'.HasOutput t n) ↔ ∃ t ∈ ts, g.HasOutput t n := by
  have same : SameMarks g g' := Frame.marks.keeps run
  refine exists_congr fun t => ?_
  rw [same.hasOutput_iff named]
  refine and_congr_left fun output => ?_
  rcases tidy_ok run with ⟨-, rfl, -⟩ | ⟨rfl, -⟩
  · rfl
  · simp [isLinked, output.1]

namespace ConcatFusion

def DropsOut (h : Arena) (pairs : List (OpId × OpId)) (t : TensorId) : Prop :=
  ∃ p ∈ pairs, InRuns (h.op p.1).outputList (h.op p.2).inputList ∧ t ∈ (h.op p.1).outputList

theorem Merged.marks {h h' : Arena} {o cat : OpId} {new : List TensorId} (m : Merged o cat new h h')
    (t : TensorId) :
    (h'.tensor t).name = (h.tensor t).name ∧
      ((h'.tensor t).isOutput = true ↔ (h.tensor t).isOutput = true ∧ t ∉ (h.op o).outputList) := by
  by_cases part : t ∈ (h.op o).outputList
  · simp [m.part t part, part]
  · by_cases whole : t ∈ (h.op o).inputList
    · simp [m.whole t whole, part]
    · simp [m.rest t part whole, part]

theorem merges_marks {h h' : Arena} {ts : Graph} {pairs : List (OpId × OpId)} {u : Unit}
    (linked : Linked h ts) (pairing : Pairing h ts pairs)
    (run : pairs.forM (fun p => merge p.1 p.2) h = .ok u h') (t : TensorId) :
    (h'.tensor t).name = (h.tensor t).name ∧
      ((h'.tensor t).isOutput = true ↔ (h.tensor t).isOutput = true ∧ ¬ DropsOut h pairs t) := by
  induction pairs generalizing h with
  | nil =>
    obtain ⟨-, rfl⟩ := pure_ok.1 run
    simp [DropsOut]
  | cons p pairs ih =>
    have c := pairing.candidates p mem_cons_self
    have clean := clean_of_merges linked pairing run p mem_cons_self
    simp only [List.forM, bind_ok] at run
    obtain ⟨_, h₁, first, rest⟩ := run
    by_cases runs : InRuns (h.op p.1).outputList (h.op p.2).inputList
    · obtain ⟨new, h₂, again, m⟩ := merge_returns linked c runs (clean runs)
      obtain ⟨-, rfl⟩ := EStateM.Result.ok.inj (first.symm.trans again)
      have used := c.all_used linked runs
      have later := m.pairing linked pairing used
      obtain ⟨name, mark⟩ := ih (m.stays_linked linked c used) later.1 rest
      -- the later pairs have their parts and runs still
      have same : DropsOut h₁ pairs t ↔ DropsOut h pairs t := by
        refine exists_congr fun q => and_congr_right fun hq => ?_
        obtain ⟨ne, ne_cat, cat_ne⟩ := (pairwise_cons.1 pairing.apart).1 q hq
        rw [m.inRuns_iff linked c used (pairing.candidates q (mem_cons_of_mem _ hq)) ne ne_cat
          cat_ne, m.outputList]
      obtain ⟨name', mark'⟩ := m.marks t
      refine ⟨name.trans name', ?_⟩
      rw [mark, mark', same]
      simp only [DropsOut, mem_cons, exists_eq_or_imp, runs, true_and, not_or, and_assoc]
    · obtain ⟨-, rfl⟩ := EStateM.Result.ok.inj (first.symm.trans (merge_skips linked c runs))
      obtain ⟨name, mark⟩ := ih linked pairing.tail rest
      refine ⟨name, ?_⟩
      rw [mark]
      simp only [DropsOut, mem_cons, exists_eq_or_imp, runs, false_and, false_or]

end ConcatFusion

open ConcatFusion

/-- The optimisation makes up no name of an output.  Merging keeps exactly the names of the outputs
that no operator that is merged makes. -/
theorem optimize_output_names {g : Arena} {ts : Graph} (named : g.Named)
    (whole : ∀ t, (g.tensor t).isOutput = true → t ∈ ts) :
    (∀ ts' g', Pass.optimize ts g = .ok ts' g' →
      g'.Named ∧ ∀ n, (∃ t ∈ ts', g'.HasOutput t n) → ∃ t ∈ ts, g.HasOutput t n) ∧
    (Regular g ts → ∃ pairs, findPairs ts g = .ok pairs g ∧ ∀ ts' g', mergePairs ts g = .ok ts' g' →
      ∀ n, (∃ t ∈ ts', g'.HasOutput t n) ↔ ∃ t ∈ ts, g.HasOutput t n ∧ ¬ DropsOut g pairs t) := by
  refine ⟨fun ts' g' run => ?_, fun regular => ?_⟩
  · have from_given : NamedFrom g g' := (Frame.named.keeps run) named
    refine ⟨from_given.named, fun n ⟨t, _, output⟩ => ?_⟩
    obtain ⟨u, given⟩ := from_given.from_output t n output
    exact ⟨u, whole u given.1, given⟩
  · obtain ⟨pairs, search, pairing⟩ := findPairs_run regular
    refine ⟨pairs, search, fun ts' g' run n => ?_⟩
    unfold mergePairs at run
    rw [bind_run search, forIn_eq_forM] at run
    obtain ⟨_, h, merged, tidied⟩ := bind_ok.1 run
    have marks := merges_marks regular.linked pairing merged
    have still : h.Named := fun t mark => by
      rw [(marks t).1]
      exact named t ((marks t).2.1 mark).1
    rw [tidy_outputs tidied still]
    refine exists_congr fun t => and_congr_right fun _ => ?_
    unfold Arena.HasOutput
    rw [(marks t).1, (marks t).2]
    exact and_right_comm

/-- `x` is split into `p` and `q`, which are joined with `z` to `y`; both `p` and `y` are
outputs. -/
def partedArena : Arena where
  dims := #[.static 4, .static 8, .static 12]
  tensors :=
    let leaf (name : String) (d o : Nat) : Tensor :=
      { Tensor.ofShape [⟨d⟩] with name := some name, isInput := true, dst := ⟨[⟨o⟩], false⟩ }
    let made (name : String) (d o : Nat) (users : List OpId) (isOutput : Bool) : Tensor :=
      { Tensor.ofShape [⟨d⟩] with
        name := some name, src := ⟨[⟨o⟩], false⟩, dst := ⟨users, false⟩, isOutput := isOutput }
    #[leaf "x" 1 0, leaf "z" 0 1, made "p" 0 0 [⟨1⟩] true, made "q" 0 0 [⟨1⟩] false,
      made "y" 2 1 [] true]
  ops :=
    #[{ Operator.ofClass .split "split" with
        name := some "split_0"
        inputs := some [⟨0⟩]
        outputs := some [⟨2⟩, ⟨3⟩]
        params := [("split_dim", .int 0), ("split_sizes", .ints [4, 4])] },
      { Operator.ofClass .concatenate "concatenate" with
        name := some "concatenate_1"
        inputs := some [⟨2⟩, ⟨3⟩, ⟨1⟩]
        outputs := some [⟨4⟩]
        givenInputs := some [⟨2⟩, ⟨3⟩, ⟨1⟩]
        inputMasks := some [true, true, true]
        inputAccessors := some [.ofShape [⟨0⟩], .ofShape [⟨0⟩], .ofShape [⟨0⟩]]
        params := [("concat_dim", .int 0)] }]
  namer := ⟨0, 0, [], []⟩
  target := some ⟨.cuda, []⟩

def partedGraph : Graph := [⟨0⟩, ⟨1⟩, ⟨2⟩, ⟨3⟩, ⟨4⟩]

theorem outputs_parted {t : TensorId} (mark : (partedArena.tensor t).isOutput = true) :
    t = ⟨2⟩ ∨ t = ⟨4⟩ := by
  have inside : t.idx < 5 :=
    Nat.lt_of_not_le fun outside => by simp_all [isOutput_of_le, partedArena]
  have known : ∀ i < 5, (partedArena.tensor ⟨i⟩).isOutput = true → i = 2 ∨ i = 4 := by decide
  exact (known t.idx inside mark).imp (congrArg TensorId.mk) (congrArg TensorId.mk)

theorem regular_parted : Regular partedArena partedGraph := by
  have operators : ∀ o, InGraph partedArena partedGraph o → o = ⟨0⟩ ∨ o = ⟨1⟩ := by
    intro o ho
    have known : ∀ o ∈ sources partedArena partedGraph, o = ⟨0⟩ ∨ o = ⟨1⟩ := by decide
    exact known o (mem_sources.2 ho)
  have checked : check true partedGraph partedArena = .ok true partedArena := rfl
  refine ⟨by decide, (check_ok.1 checked).1, by decide, by decide, by decide, by decide,
    fun o ho kind => ?_, fun o ho kind => ?_⟩
  · rcases operators o ho with rfl | rfl
    · exact ⟨nofun, rfl⟩
    · exact absurd kind (by decide)
  · rcases operators o ho with rfl | rfl
    · exact absurd kind (by decide)
    · exact ⟨nofun, rfl, ⟨_, rfl, rfl⟩, ⟨_, rfl, rfl⟩⟩

/-- The output `p` gets lost when the split is merged into the join. -/
theorem optimize_output_names_parted :
    partedArena.HasOutput ⟨2⟩ "p" ∧ partedArena.HasOutput ⟨4⟩ "y" ∧
    (∃ ts' g', mergePairs partedGraph partedArena = .ok ts' g' ∧
      ∀ n, (∃ t ∈ ts', g'.HasOutput t n) ↔ n = "y") ∧
    ∃ ts' g', Pass.optimize partedGraph partedArena = .ok ts' g' ∧ (∃ t ∈ ts', g'.HasOutput t "y") ∧
      ∀ n, (∃ t ∈ ts', g'.HasOutput t n) → n ≠ "p" ∧ ∃ t ∈ partedGraph, partedArena.HasOutput
        t n := by
  have named : partedArena.Named :=
    fun t mark => by rcases outputs_parted mark with rfl | rfl <;> rfl
  have whole : ∀ t, (partedArena.tensor t).isOutput = true → t ∈ partedGraph := fun t mark => by
    rcases outputs_parted mark with rfl | rfl <;> decide
  obtain ⟨none_new, kept⟩ := optimize_output_names named whole
  refine ⟨⟨rfl, rfl⟩, ⟨rfl, rfl⟩, ?_, ?_⟩
  · obtain ⟨pairs, search, names⟩ := kept regular_parted
    have found : findPairs partedGraph partedArena = .ok [(⟨0⟩, ⟨1⟩)] partedArena := rfl
    obtain ⟨rfl, -⟩ := EStateM.Result.ok.inj (found.symm.trans search)
    have returns : (match mergePairs partedGraph partedArena with
      | .ok _ _ => true
      | .error _ _ => false) = true := by decide
    cases run : mergePairs partedGraph partedArena with
    | error => simp [run] at returns
    | ok ts' g' =>
      refine ⟨ts', g', rfl, fun n => (names ts' g' run n).trans ⟨?_, ?_⟩⟩
      · rintro ⟨t, -, ⟨mark, name⟩, stays⟩
        rcases outputs_parted mark with rfl | rfl
        · exact absurd ⟨_, mem_singleton_self _, .run (.other (by decide) .nil), by decide⟩ stays
        · exact (Option.some.inj name).symm
      · rintro rfl
        refine ⟨⟨4⟩, by decide, ⟨rfl, rfl⟩, fun ⟨p, hp, _, part⟩ => ?_⟩
        obtain rfl := mem_singleton.1 hp
        exact absurd part (by decide)
  · have computed : (match Pass.optimize partedGraph partedArena with
      | .ok ts' g' => decide ((ts'.filter fun t => (g'.tensor t).isOutput).map
        (fun t => (g'.tensor t).name) = [some "y"])
      | .error _ _ => false) = true := by decide +kernel
    cases run : Pass.optimize partedGraph partedArena with
    | error => simp [run] at computed
    | ok ts' g' =>
      rw [run] at computed
      have left := of_decide_eq_true computed
      refine ⟨ts', g', rfl, ?_, fun n output => ⟨?_, (none_new ts' g' run).2 n output⟩⟩
      · obtain ⟨t, mem, name⟩ := mem_map.1 (left ▸ mem_singleton_self (some "y"))
        obtain ⟨inside, mark⟩ := mem_filter.1 mem
        exact ⟨t, inside, mark, name⟩
      · obtain ⟨t, inside, mark, name⟩ := output
        have marked : t ∈ ts'.filter fun t => (g'.tensor t).isOutput := mem_filter.2 ⟨inside, mark⟩
        have mem := mem_map_of_mem (f := fun t => (g'.tensor t).name) marked
        rw [left, name, mem_singleton] at mem
        rw [Option.some.inj mem]
        decide

end TensorGraph

import TensorGraph.Proofs.Bypassing

/-!
# Values after the removal of splits and concatenations

Splits and concatenations are merged and bypassed in rounds until the number of operators no longer
changes.
-/

namespace TensorGraph

namespace ConcatFusion

open Build TensorGraph.Graph List

variable {α : Type} {functions : Functions α} {val : TensorId → Block α} {ts ts' : Graph}
  {g g' : Arena}

/-! ## One round -/

theorem single_reads (fitting : Fitting functions val g ts) {o : OpId} (ho : InGraph g ts o)
    (kind : (g.op o).kind = "concatenate") : (g.op o).inputList ≠ [] := by
  intro none
  have holds := fitting.holds o ho
  unfold Holds at holds
  rw [none] at holds
  obtain ⟨k, y, -, joined, -⟩ := (Operator.meaning_concat kind).1 holds
  cases joined

theorem isSingle_ok {o : OpId} (reads : (g.op o).kind = "concatenate" → (g.op o).inputList ≠ [])
    {b : Bool} {h : Arena} (run : isSingle o g = .ok b h) :
    g = h ∧ (b = true → (g.op o).kind = "concatenate" ∧ ∃ x, x ∈ (g.op o).inputList) := by
  unfold isSingle at run
  rw [bind_run (op_run _)] at run
  split at run
  · simp_all
  next kind =>
  have concat : (g.op o).kind = "concatenate" := by simpa using kind
  simp only [bind_ok, outputs_ok] at run
  obtain ⟨ys, _, ⟨-, rfl⟩, run⟩ := run
  rcases ys with _ | ⟨y, _ | _⟩
  · simp_all
  · simp only [bind_ok, inputs_ok] at run
    obtain ⟨xs, _, ⟨hxs, rfl⟩, run⟩ := run
    have inputList : (g.op o).inputList = xs := by simp [Operator.inputList, hxs]
    rcases xs with _ | ⟨x, _ | _⟩
    · exact absurd inputList (reads concat)
    · simp only [bind_ok, expect_ok, pure_ok] at run
      obtain ⟨_, _, ⟨-, rfl⟩, -, rfl⟩ := run
      simp_all
    · simp_all
  · simp_all

theorem dropSingle_fitting (fitting : Fitting functions val g ts)
    (run : dropSingle ts g = .ok ts' g') :
    Fitting functions val g' ts' ∧ Carried val g ts g' ts' := by
  unfold dropSingle at run
  simp only [bind_ok, get_ok] at run
  obtain ⟨_, _, ⟨rfl, rfl⟩, run⟩ := run
  split at run
  · obtain ⟨rfl, rfl⟩ := pure_ok.1 run
    exact ⟨fitting, .refl val g ts⟩
  simp only [bind_ok, forIn_eq_forM] at run
  obtain ⟨single, _, search, _, h, bypassed, tidied⟩ := run
  have reads : ∀ o ∈ sources g ts, (g.op o).kind = "concatenate" → (g.op o).inputList ≠ [] :=
    fun o ho => single_reads fitting (mem_sources.1 ho)
  obtain ⟨rfl, sub, passed⟩ := filterM_passed (fun o ho b h run => (isSingle_ok (reads o ho) run).1)
    search
  have inGraph : ∀ o ∈ single, InGraph g ts o := fun o ho => mem_sources.1 (sub.subset ho)
  have concats : ∀ o ∈ single, (g.op o).kind = "concatenate" ∧ ∃ x, x ∈ (g.op o).inputList :=
    fun o ho => (isSingle_ok (reads o (sub.subset ho)) (passed o ho)).2 rfl
  have r : Rewritten functions val ts g h := by
    refine bypasses_rewrite ((nodup_distinct _).sublist sub) (.refl fitting) fitting.valid.wired
      inGraph inGraph
      (fun o ho => (concats o ho).1) (fun o ho => ?_) bypassed
    obtain ⟨x, hx⟩ := (concats o ho).2
    exact fitting.valid.outputs_mem (inGraph o ho) hx
  refine r.tidy fitting (fun one => ?_) tidied
  have none : single = [] := by
    refine eq_nil_iff_forall_not_mem.2 fun o ho => ?_
    exact fitting.not_single (inGraph o ho) (Or.inl (concats o ho).1) one
  simp_all

theorem round_fitting (fitting : Fitting functions val g ts) (run : round ts g = .ok ts' g') :
    Fitting functions val g' ts' ∧ Carried val g ts g' ts' := by
  obtain ⟨ts₁, g₁, merged, dropped⟩ := bind_ok.1 run
  obtain ⟨fitting₁, carried₁⟩ := mergePairs_fitting fitting merged
  obtain ⟨fitting₂, carried₂⟩ := dropSingle_fitting fitting₁ dropped
  exact ⟨fitting₂, carried₁.trans carried₂⟩

theorem tidy_sub (run : Graph.tidy ts g = .ok ts' g') : ∀ t ∈ ts', t ∈ ts := by
  obtain ⟨-, rfl, -⟩ | ⟨rfl, -⟩ := tidy_ok run
  · exact fun _ h => h
  · exact fun t ht => (mem_filter.1 ht).1

theorem sources_round (run : round ts g = .ok ts' g') : (sources g' ts').length ≤
    (sources g ts).length := by
  have fewer := Frame.fewer.keeps run
  obtain ⟨ts₁, g₁, merged, dropped⟩ := bind_ok.1 run
  have sub₁ : ∀ t ∈ ts₁, t ∈ ts := by
    unfold mergePairs at merged
    grind [bind_ok, tidy_sub]
  have sub₂ : ∀ t ∈ ts', t ∈ ts₁ := by
    unfold dropSingle at dropped
    simp only [bind_ok, get_ok] at dropped
    obtain ⟨_, _, ⟨rfl, rfl⟩, dropped⟩ := dropped
    split at dropped
    · simp_all
    · grind [bind_ok, tidy_sub]
  refine ((nodup_distinct _).subperm fun o ho => ?_).length_le
  obtain ⟨t, ht, source⟩ := mem_sources.1 ho
  exact mem_sources.2 ⟨t, sub₁ t (sub₂ t ht), fewer t o source⟩

/-! ## All rounds -/

/-- The loop without a bound on its rounds: what it ends with, if it ends. -/
inductive Loop : Option Nat → Graph → Arena → EStateM.Result Fault Arena Graph → Prop
  | fail {count : Option Nat} {ts : Graph} {g h : Arena} {f : Fault}
    (run : round ts g = .error f h) :
      Loop count ts g (.error f h)
  | stop {ts ts' : Graph} {g g' : Arena} (run : round ts g = .ok ts' g') :
      Loop (some (sources g' ts').length) ts g (.ok ts' g')
  | again {count : Option Nat} {ts ts' : Graph} {g g' : Arena}
    {r : EStateM.Result Fault Arena Graph}
      (run : round ts g = .ok ts' g') (changed : count ≠ some (sources g' ts').length)
      (rest : Loop (some (sources g' ts').length) ts' g' r) : Loop count ts g r

theorem loop_succ {n : Nat} {count : Option Nat}
    (rest : ∀ ts' g', round ts g = .ok ts' g' → count ≠ some (sources g' ts').length →
      Loop (some (sources g' ts').length) ts' g'
        (repeatUntilStable n (some (sources g' ts').length) ts' g')) :
    Loop count ts g (repeatUntilStable (n + 1) count ts g) := by
  unfold repeatUntilStable
  cases run : round ts g with
  | error f h =>
    have failed : (round ts >>= fun ts => do
        let now := (sources (← get) ts).length
        if count == some now then return ts else repeatUntilStable n (some now) ts) g =
          .error f h := by
      show EStateM.bind _ _ g = _
      unfold EStateM.bind
      rw [run]
    rw [failed]
    exact .fail run
  | ok ts₁ g₁ =>
    rw [bind_run run, bind_run get_run]
    split
    · next same =>
      rw [eq_of_beq same]
      exact .stop run
    · next changed =>
      have other : count ≠ some (sources g₁ ts₁).length := fun same => changed (by simp [same])
      exact .again run other (rest ts₁ g₁ run other)

theorem loop_repeatUntilStable {n c : Nat} (few : (sources g ts).length ≤ c) (enough : c + 1 ≤ n) :
    Loop (some c) ts g (repeatUntilStable n (some c) ts g) := by
  induction n generalizing c ts g with
  | zero => omega
  | succ n ih =>
    refine loop_succ fun ts' g' run changed => ih (Nat.le_refl _) ?_
    have less := sources_round run
    grind

theorem sources_le_size (valid : Valid g ts) : (sources g ts).length ≤ g.ops.size := by
  have low : ∀ o ∈ sources g ts, o.idx ∈ range g.ops.size := by
    intro o ho
    obtain ⟨t, ht, source⟩ := mem_sources.1 ho
    exact mem_range.2 (Arena.lt_of_applied (valid.applied ht source).1)
  have nodup : ((sources g ts).map OpId.idx).Nodup :=
    (nodup_distinct _).map fun a b same => by
      cases a
      cases b
      exact congrArg OpId.mk same
  have sub : ((sources g ts).map OpId.idx).Subset (range g.ops.size) := by
    intro i hi
    grind
  have := (nodup.subperm sub).length_le
  rwa [length_map, length_range] at this

theorem repeatUntilStable_fitting {n : Nat} {count : Option Nat}
    (fitting : Fitting functions val g ts) (run : repeatUntilStable n count ts g = .ok ts' g') :
    Fitting functions val g' ts' ∧ Carried val g ts g' ts' := by
  induction n generalizing count ts g with
  | zero =>
    unfold repeatUntilStable at run
    obtain ⟨rfl, rfl⟩ := pure_ok.1 run
    exact ⟨fitting, .refl val g ts⟩
  | succ n ih =>
    unfold repeatUntilStable at run
    simp only [bind_ok, get_ok] at run
    obtain ⟨ts₁, g₁, first, _, _, ⟨rfl, rfl⟩, run⟩ := run
    obtain ⟨fitting₁, carried₁⟩ := round_fitting fitting first
    split at run
    · simp_all
    · obtain ⟨fitting₂, carried₂⟩ := ih fitting₁ run
      exact ⟨fitting₂, carried₁.trans carried₂⟩

/-- In a valid graph whose concatenations copy all their inputs as they are, removing splits and
concatenations that cancel comes to an end.  Whenever it returns, the tensors that are left hold
what they held before, whatever the inputs and parameters hold and whatever the other operators
compute, and each output holds what the output of its name held. -/
theorem fuse_keeps_values (functions : Functions α) (valid : Valid g ts)
    (copies : ∀ o, InGraph g ts o → (g.op o).kind = "concatenate" → (g.op o).CopiesAll) :
    Loop none ts g (fuse ts g) ∧
      ∀ ts' g', fuse ts g = .ok ts' g' → ∀ given val, Computes functions g ts given val →
        (∀ t ∈ ts', t ∈ ts) ∧ Computes functions g' ts' given val ∧
        (∀ o, InGraph g' ts' o → (g'.op o).kind = "concatenate" → (g'.op o).CopiesAll) ∧
        ∀ val', Computes functions g' ts' given val' →
          (∀ t ∈ ts', val' t = val t) ∧
          ∀ t ∈ ts', (g'.tensor t).isOutput = true → ∃ y ∈ ts, (g.tensor y).isOutput = true ∧
            (∀ n, (g.tensor y).name = some n → (g'.tensor t).name = some n) ∧ val' t = val y := by
  have unfolded : fuse ts g = repeatUntilStable (g.ops.size + 1 + 1) none ts g := rfl
  refine ⟨?_, fun ts' g' run given val computes => ?_⟩
  · rw [unfolded]
    refine loop_succ fun ts' g' run _ => loop_repeatUntilStable (Nat.le_refl _) ?_
    have := sources_round run
    have := sources_le_size valid
    omega
  · obtain ⟨fitting, carried⟩ := repeatUntilStable_fitting ⟨valid, computes.made, copies⟩
      (unfolded ▸ run)
    have result : Computes functions g' ts' given val := by
      refine ⟨fun t ht leaf => ?_, fitting.holds⟩
      rw [carried.src t ht] at leaf
      exact computes.leaf t (carried.sub t ht) leaf
    refine ⟨carried.sub, result, fitting.copies, fun val' computes' => ?_⟩
    have same : ∀ t ∈ ts', val' t = val t := computes'.unique fitting.valid result
    refine ⟨same, fun t ht mark => ?_⟩
    obtain ⟨y, hy, output, name, held⟩ := carried.mark t ht mark
    exact ⟨y, hy, output, name, (same t ht).trans held.symm⟩

/-- `x` is split into `p` and `q`, which are joined with `z` to `y`; the output `w` is the join of
`y` alone. -/
def rejoinedArena : Arena where
  dims := #[.static 1, .static 2, .static 3]
  tensors :=
    let leaf (name : String) (d o : Nat) : Tensor :=
      { Tensor.ofShape [⟨d⟩] with name := some name, isInput := true, dst := ⟨[⟨o⟩], false⟩ }
    let made (name : String) (d o : Nat) (users : List OpId) : Tensor :=
      { Tensor.ofShape [⟨d⟩] with name := some name, src := ⟨[⟨o⟩], false⟩, dst := ⟨users, false⟩ }
    #[leaf "x" 1 0, leaf "z" 0 1, made "p" 0 0 [⟨1⟩], made "q" 0 0 [⟨1⟩], made "y" 2 1 [⟨2⟩],
      { made "w" 2 2 [] with isOutput := true }]
  ops :=
    let join (xs : List TensorId) (y : TensorId) : Operator :=
      { Operator.ofClass .concatenate "concatenate" with
        inputs := some xs
        outputs := some [y]
        inputMasks := some (xs.map fun _ => true)
        inputAccessors := some (xs.map fun _ => .ofShape [⟨0⟩])
        params := [("concat_dim", .int 0)] }
    #[{ Operator.ofClass .split "split" with
        inputs := some [⟨0⟩]
        outputs := some [⟨2⟩, ⟨3⟩]
        params := [("split_dim", .int 0), ("split_sizes", .ints [1, 1])] },
      join [⟨2⟩, ⟨3⟩, ⟨1⟩] ⟨4⟩, join [⟨4⟩] ⟨5⟩]
  namer := ⟨0, 0, [], []⟩
  target := none

def rejoinedGraph : Graph := [⟨0⟩, ⟨1⟩, ⟨2⟩, ⟨3⟩, ⟨4⟩, ⟨5⟩]

def rejoinedGiven (t : TensorId) : Block Nat := if t.idx = 0 then .row [7, 8] else .row [9]

def rejoinedBlocks (t : TensorId) : Block Nat :=
  match t.idx with
  | 0 => .row [7, 8]
  | 1 => .row [9]
  | 2 => .row [7]
  | 3 => .row [8]
  | _ => .row [7, 8, 9]

theorem operators_rejoined {o : OpId} (ho : InGraph rejoinedArena rejoinedGraph o) : o = ⟨0⟩ ∨
    o = ⟨1⟩ ∨ o = ⟨2⟩ := by
  have operators : ∀ o ∈ sources rejoinedArena rejoinedGraph, o = ⟨0⟩ ∨ o = ⟨1⟩ ∨ o = ⟨2⟩ := by
    decide
  exact operators o (mem_sources.2 ho)

theorem computes_rejoined :
    Computes (fun _ _ => none) rejoinedArena rejoinedGraph rejoinedGiven rejoinedBlocks := by
  refine ⟨fun t ht leaf => ?_, fun o ho => ?_⟩
  · have leaves : ∀ t ∈ rejoinedGraph, (rejoinedArena.tensor t).src.ops = [] → t = ⟨0⟩ ∨
      t = ⟨1⟩ := by decide
    rcases leaves t ht leaf with rfl | rfl <;> rfl
  · rcases operators_rejoined ho with rfl | rfl | rfl
    · show Block.split? 0 [1, 1] (.row [7, 8]) = some [.row [7], .row [8]]
      unfold Block.split?
      rw [dif_pos (by decide), if_pos (by decide)]
      simp only [Block.parts, Block.slice_row]
      rfl
    · refine (Operator.meaning_concat rfl).2 ⟨0, .row [7, 8, 9], rfl, ?_, rfl⟩
      show (Block.join? 0 [.row [8], .row [9]]).bind (Block.append? 0 (.row [7])) = _
      show ((some (.row [9])).bind (Block.append? 0 (.row [8]))).bind
        (Block.append? 0 (.row [7])) = _
      rw [Option.bind_some, Block.append?_row, Option.bind_some, Block.append?_row]
      rfl
    · exact (Operator.meaning_concat rfl).2 ⟨0, .row [7, 8, 9], rfl, rfl, rfl⟩

/-- The join reads `x` in the place of its parts, and `y` is the output `w`, with the same
entries. -/
theorem fuse_keeps_values_rejoined :
    Loop none rejoinedGraph rejoinedArena (fuse rejoinedGraph rejoinedArena) ∧
    ∃ ts' g', fuse rejoinedGraph rejoinedArena = .ok ts' g' ∧ ts' = [⟨0⟩, ⟨1⟩, ⟨4⟩] ∧
      (g'.op ⟨1⟩).inputs = some [⟨0⟩, ⟨1⟩] ∧ (g'.tensor ⟨4⟩).name = some "w" ∧
      Computes (fun _ _ => none) g' ts' rejoinedGiven rejoinedBlocks ∧
      ∀ val, Computes (fun _ _ => none) g' ts' rejoinedGiven val → val ⟨4⟩ = .row [7, 8, 9] := by
  have checked : check true rejoinedGraph rejoinedArena = .ok true rejoinedArena := rfl
  have copies : ∀ o, InGraph rejoinedArena rejoinedGraph o →
      (rejoinedArena.op o).kind = "concatenate" → (rejoinedArena.op o).CopiesAll := by
    intro o ho concat
    rcases operators_rejoined ho with rfl | rfl | rfl
    · exact absurd concat (by decide)
    · exact ⟨⟨_, rfl, rfl⟩, ⟨_, rfl, rfl⟩⟩
    · exact ⟨⟨_, rfl, rfl⟩, ⟨_, rfl, rfl⟩⟩
  obtain ⟨ends, keeps⟩ := fuse_keeps_values (fun _ _ => none) (check_ok.1 checked).1 copies
  refine ⟨ends, ?_⟩
  have computed : (match fuse rejoinedGraph rejoinedArena with
      | .ok ts' g' => decide (ts' = [⟨0⟩, ⟨1⟩, ⟨4⟩] ∧ (g'.op ⟨1⟩).inputs = some [⟨0⟩, ⟨1⟩] ∧
        (g'.tensor ⟨4⟩).name = some "w")
      | .error _ _ => false) = true := by decide +kernel
  cases run : fuse rejoinedGraph rejoinedArena with
  | error => simp [run] at computed
  | ok ts' g' =>
    rw [run] at computed
    obtain ⟨left, inputs, name⟩ := of_decide_eq_true computed
    obtain ⟨-, computes, -, unique⟩ := keeps ts' g' run rejoinedGiven rejoinedBlocks
      computes_rejoined
    refine ⟨ts', g', rfl, left, inputs, name, computes, fun val hval => ?_⟩
    exact (unique val hval).1 ⟨4⟩ (by simp [left])

end ConcatFusion

end TensorGraph

import TensorGraph.Proofs.MergingReturns

/-!
# Operators that read a tensor twice

Merging splits and concatenations works on pairs that are found before the first of them is merged.
-/

namespace TensorGraph

open Build TensorGraph.Graph List

variable {u : Unit}

-- the instances for a long step are found, but their terms are large
set_option synthInstance.maxSize 1024

variable {h h' : Arena} {done : Graph} {t x : TensorId} {cat o : OpId}

namespace ConcatFusion

variable {pairs : List (OpId × OpId)}

/-! ## Merging pair after pair -/

def Clean (h : Arena) (o cat : OpId) : Prop :=
  InRuns (h.op o).outputList (h.op cat).inputList → (h.op o).inputList.Nodup

/-- Pairs that can be merged one after the other. -/
structure Pairing (h : Arena) (ts : Graph) (pairs : List (OpId × OpId)) : Prop where
  candidates : ∀ p ∈ pairs, Candidate h ts p.1 p.2
  apart : pairs.Pairwise fun p q => q.1 ≠ p.1 ∧ q.1 ≠ p.2 ∧ q.2 ≠ p.1

theorem Merged.pairing {ts : Graph} {new : List TensorId}
    (m : Merged o cat new h h') (linked : Linked h ts) (pairing : Pairing h ts ((o, cat) :: pairs))
    (used : ∀ p ∈ (h.op o).outputList, (h.tensor p).dst.ops = [cat]) :
    Pairing h' ts pairs ∧ ∀ p ∈ pairs, Clean h' p.1 p.2 ↔ Clean h p.1 p.2 := by
  obtain ⟨first, rest⟩ := pairwise_cons.1 pairing.apart
  have c := pairing.candidates (o, cat) mem_cons_self
  have others : ∀ p ∈ pairs, Candidate h ts p.1 p.2 := fun p hp =>
    pairing.candidates p (mem_cons_of_mem _ hp)
  refine ⟨⟨fun p hp => ?_, rest⟩, fun p hp => ?_⟩
  · obtain ⟨ne, ne_cat, cat_ne⟩ := first p hp
    exact m.candidate linked c (others p hp) ne ne_cat cat_ne
  · obtain ⟨ne, ne_cat, cat_ne⟩ := first p hp
    unfold Clean
    rw [m.inRuns_iff linked c used (others p hp) ne ne_cat cat_ne, m.other p.1 ne_cat]

theorem Pairing.tail {ts : Graph} {p : OpId × OpId} (pairing : Pairing h ts (p :: pairs)) :
    Pairing h ts pairs :=
  ⟨fun q hq => pairing.candidates q (mem_cons_of_mem _ hq), (pairwise_cons.1 pairing.apart).2⟩

/-- Merging a clean pair returns, and leaves the later pairs as clean as they were. -/
theorem merge_step {ts : Graph} {p : OpId × OpId} (linked : Linked h ts)
    (pairing : Pairing h ts (p :: pairs)) (clean : Clean h p.1 p.2) : ∃ h₁, merge p.1 p.2 h =
    .ok () h₁ ∧ Linked h₁ ts ∧ Pairing h₁ ts pairs ∧
      ∀ q ∈ pairs, Clean h₁ q.1 q.2 ↔ Clean h q.1 q.2 := by
  have c := pairing.candidates p mem_cons_self
  by_cases runs : InRuns (h.op p.1).outputList (h.op p.2).inputList
  · obtain ⟨new, h₁, first, m⟩ := merge_returns linked c runs (clean runs)
    have used := c.all_used linked runs
    exact ⟨h₁, first, m.stays_linked linked c used, m.pairing linked pairing used⟩
  · exact ⟨h, merge_skips linked c runs, linked, pairing.tail, fun _ _ => Iff.rfl⟩

theorem merges_return {ts : Graph} (linked : Linked h ts) (pairing : Pairing h ts pairs)
    (clean : ∀ p ∈ pairs, Clean h p.1 p.2) : ∃ h', pairs.forM (fun p => merge p.1 p.2) h =
    .ok () h' ∧ Linked h' ts := by
  induction pairs generalizing h with
  | nil => exact ⟨h, rfl, linked⟩
  | cons p pairs ih =>
    obtain ⟨h₁, first, linked₁, pairing₁, same⟩ := merge_step linked pairing (clean p mem_cons_self)
    obtain ⟨h', rest, linked'⟩ := ih linked₁ pairing₁ fun q hq =>
      (same q hq).2 (clean q (mem_cons_of_mem _ hq))
    exact ⟨h', by rw [List.forM, bind_run first]; exact rest, linked'⟩

theorem clean_of_merges {ts : Graph} (linked : Linked h ts)
    (pairing : Pairing h ts pairs) (run : pairs.forM (fun p => merge p.1 p.2) h = .ok u h') :
    ∀ p ∈ pairs, Clean h p.1 p.2 := by
  induction pairs generalizing h with
  | nil => simp
  | cons p pairs ih =>
    simp only [List.forM, bind_ok] at run
    obtain ⟨_, h₁, first, rest⟩ := run
    have here : Clean h p.1 p.2 := fun runs =>
      nodup_of_merge linked (pairing.candidates p mem_cons_self) runs first
    obtain ⟨h₂, again, linked₁, pairing₁, same⟩ := merge_step linked pairing here
    obtain ⟨-, rfl⟩ := EStateM.Result.ok.inj (first.symm.trans again)
    exact forall_mem_cons.2 ⟨here, fun q hq => (same q hq).1 (ih linked₁ pairing₁ rest q hq)⟩

/-! ## The search for pairs -/

/-- A graph of operators that have been applied, as merging expects it: a tensor has one source at
most, and splits and concatenations read something and know their axis. -/
structure Regular (g : Arena) (ts : Graph) : Prop where
  nodup : ts.Nodup
  valid : Valid g ts
  loose : ∀ t ∈ ts, (g.tensor t).dst.fixed = false
  sole : ∀ t ∈ ts, (g.tensor t).src.ops.length ≤ 1
  active : ∀ t ∈ ts, ∀ o ∈ (g.tensor t).dst.ops, (g.op o).outputList ≠ []
  named : ∀ t ∈ ts, ∀ o ∈ (g.tensor t).src.ops, (g.op o).name.isSome → (g.tensor t).name.isSome
  splits : ∀ o, InGraph g ts o → (g.op o).kind = "split" → (g.op o).inputList ≠ [] ∧
    ((g.op o).param? "split_dim").isSome
  concats : ∀ o, InGraph g ts o → (g.op o).kind = "concatenate" →
    (g.op o).inputList ≠ [] ∧ ((g.op o).param? "concat_dim").isSome ∧ (g.op o).CopiesAll

section Search

variable {g : Arena} {ts : Graph} (regular : Regular g ts)
include regular

variable {rest : Graph}

theorem Regular.linked : Linked g ts := by
  refine ⟨⟨fun t ht o ho => ?_, fun t ht o ho => regular.valid.writes ht ho, fun t ht o ho x hx =>
    regular.valid.reads ht ho hx, fun t ht o ho => (regular.valid.uses ht ho).2.1, fun t ht o ho =>
    (regular.valid.uses ht ho).2.2⟩,
    regular.valid.ordered, regular.loose, regular.active, regular.named,
    fun o ho kind => (regular.concats o ho kind).2.2⟩
  rcases ho with source | user
  · exact regular.valid.applied ht source
  · exact (regular.valid.uses ht user).1

theorem Regular.made (inGraph : InGraph g ts o) (reads : (g.op o).inputList ≠ []) :
    ∀ p ∈ (g.op o).outputList, p ∈ ts ∧ (g.tensor p).src.ops = [o] := by
  intro p hp
  obtain ⟨t, ht, source⟩ := inGraph
  obtain ⟨x, hx⟩ := exists_mem_of_ne_nil _ reads
  obtain ⟨mem, user⟩ := regular.valid.reads ht source hx
  obtain ⟨inside, known⟩ := (regular.valid.uses mem user).2.2 p hp
  refine ⟨inside, ?_⟩
  obtain ⟨q, alone⟩ := length_eq_one_iff.1
    (Nat.le_antisymm (regular.sole p inside) (length_pos_of_mem known))
  grind

theorem Regular.work (inGraph : InGraph g ts o)
    (kind : (g.op o).kind = "split" ∨ (g.op o).kind = "concatenate") :
    (g.op o).inputList ≠ [] ∧ ∃ v, workAxis o g = .ok v g := by
  rcases kind with split | concat
  · obtain ⟨reads, axis⟩ := regular.splits o inGraph split
    obtain ⟨v, hv⟩ := Option.isSome_iff_exists.1 axis
    exact ⟨reads, v, by simp [workAxis, param, split, hv]⟩
  · obtain ⟨reads, axis, -⟩ := regular.concats o inGraph concat
    obtain ⟨v, hv⟩ := Option.isSome_iff_exists.1 axis
    exact ⟨reads, v, by simp [workAxis, param, concat, hv]⟩

theorem Regular.user_inGraph (ht : t ∈ ts) (user : o ∈ (g.tensor t).dst.ops) : InGraph g ts o := by
  obtain ⟨y, hy⟩ := exists_mem_of_ne_nil _ (regular.active t ht o user)
  obtain ⟨mem, source⟩ := (regular.valid.uses ht user).2.2 y hy
  exact ⟨y, mem, source⟩

omit regular in
theorem soleUser?_run (us : List TensorId) (cat? : Option OpId) :
    ∃ r, soleUser? us cat? g = .ok r g := by
  induction us generalizing cat? with
  | nil => exact ⟨cat?, rfl⟩
  | cons t us ih =>
    unfold soleUser?
    rw [bind_run (tensor_run t)]
    cases (g.tensor t).dst.ops with
    | nil => exact ⟨cat?, rfl⟩
    | cons o others =>
      cases others with
      | cons => exact ⟨none, rfl⟩
      | nil =>
        dsimp only
        rw [bind_run (op_run o)]
        split
        · exact ⟨none, rfl⟩
        split
        · exact ⟨none, rfl⟩
        · exact ih (some o)

theorem target?_candidate (inGraph : InGraph g ts o) (run : target? o g = .ok (some cat) h) :
    Candidate g ts o cat := by
  obtain ⟨-, kind, key, -, -, kinds, -⟩ := target?_mergeable inGraph run
  have reads := (regular.work inGraph (kinds.symm.imp And.left And.left)).1
  unfold target? at run
  rw [bind_run (op_run _)] at run
  split at run
  · cases (pure_ok.1 run).1
  simp only [bind_ok, outputs_ok] at run
  obtain ⟨ys, _, ⟨outs, rfl⟩, user?, g₁, search, run⟩ := run
  have written : (g.op o).outputList = ys := by simp [Operator.outputList, outs]
  cases user? with
  | none => cases (pure_ok.1 run).1
  | some user =>
    simp only [bind_ok] at run
    obtain ⟨_, _, -, _, _, -, run⟩ := run
    split at run
    · cases (pure_ok.1 run).1
    obtain rfl := Option.some.inj (pure_ok.1 run).1
    obtain ⟨-, used, alone⟩ := soleUser?_uses search
    exact ⟨kind, reads, regular.made inGraph reads, by grind, written ▸ alone⟩

theorem target?_run (inGraph : InGraph g ts o) : ∃ r, target? o g = .ok r g := by
  obtain ⟨t, ht, source⟩ := id inGraph
  obtain ⟨ys, outs⟩ := Option.isSome_iff_exists.1 (regular.valid.applied ht source).2
  unfold target?
  rw [bind_run (op_run o)]
  split
  · exact ⟨none, rfl⟩
  next kind =>
  obtain ⟨user?, search⟩ := soleUser?_run (g := g) ys none
  rw [bind_run (outputs_ok.2 ⟨outs, rfl⟩), bind_run search]
  cases user? with
  | none => exact ⟨none, rfl⟩
  | some cat =>
    have work := regular.work inGraph (by simpa [imp_iff_not_or] using kind)
    obtain ⟨w, here⟩ := work.2
    -- the user joins something that the operator makes, so it is in the graph
    obtain ⟨concat, p, hp, users⟩ := (soleUser?_uses search).2.1.resolve_left (by simp)
    have mem := (regular.made inGraph work.1 p (by simpa [Operator.outputList, outs] using hp)).1
    have inside := regular.user_inGraph mem (o := cat) (by simp [users])
    obtain ⟨v, hv⟩ := Option.isSome_iff_exists.1 (regular.concats cat inside concat).2.1
    have there : param cat "concat_dim" g = .ok v g := by simp [param, hv]
    dsimp only
    rw [bind_run there, bind_run here]
    split
    · exact ⟨none, rfl⟩
    · exact ⟨some cat, rfl⟩

/-- What holds of the pairs when some tensors have been passed. -/
structure Found (g : Arena) (ts done : Graph) (pairs : List (OpId × OpId)) : Prop where
  pairing : Pairing g ts pairs
  firsts : ∀ p ∈ pairs, ∃ t ∈ done, (g.tensor t).src.ops = [p.1]
  complete : ∀ t ∈ done, ∀ o cat, (g.tensor t).src.ops = [o] → target? o g = .ok (some cat) g →
    ∃ p ∈ pairs, p.1 = o ∨ p.2 = o

omit regular in
theorem Found.skip (found : Found g ts done pairs)
    (known : ∀ o cat, (g.tensor t).src.ops = [o] → target? o g = .ok (some cat) g →
      ∃ p ∈ pairs, p.1 = o ∨ p.2 = o) :
    Found g ts (done ++ [t]) pairs := by
  refine ⟨found.pairing, fun p hp => ?_, forall_mem_snoc.2 ⟨found.complete, known⟩⟩
  obtain ⟨u, hu, src⟩ := found.firsts p hp
  exact ⟨u, mem_append_left _ hu, src⟩

theorem Found.target_apart (found : Found g ts done pairs)
    (split : ts = done ++ t :: rest) (c : Candidate g ts o cat)
    (target : target? o g = .ok (some cat) g) (fresh : ∀ p ∈ pairs, p.1 ≠ o ∧ p.2 ≠ o) :
    ∀ p ∈ pairs, cat ≠ p.1 := by
  rintro p hp rfl
  obtain ⟨u, hu, src⟩ := found.firsts p hp
  obtain ⟨q, hq, users⟩ := c.used
  obtain ⟨mem, made⟩ := c.made q hq
  have inside : u ∈ ts := by
    rw [split]
    exact mem_append_left _ hu
  have reads := regular.linked.agrees.user_reads q mem p.1 (by simp [users])
  have before := (regular.linked.ordered u inside p.1 (by simp [src])).2 q reads
  obtain ⟨l, r, rfl⟩ := append_of_mem hu
  rw [split, append_assoc, cons_append] at before
  obtain ⟨p', hp', met⟩ := found.complete q (mem_append_left _ before.mem_front) o p.1 made target
  exact met.elim (fresh p' hp').1 (fresh p' hp').2

theorem Found.add (found : Found g ts done pairs)
    (split : ts = done ++ t :: rest) (src : (g.tensor t).src.ops = [o])
    (target : target? o g = .ok (some cat) g) (fresh : ∀ p ∈ pairs, p.1 ≠ o ∧ p.2 ≠ o) :
    Found g ts (done ++ [t]) (pairs ++ [(o, cat)]) := by
  have ht : t ∈ ts := by simp [split]
  have c := target?_candidate regular ⟨t, ht, by simp [src]⟩ target
  have apart := found.target_apart regular split c target fresh
  refine ⟨⟨forall_mem_snoc.2 ⟨found.pairing.candidates, c⟩, ?_⟩,
    forall_mem_snoc.2 ⟨fun p hp => ?_, t, by simp, src⟩, forall_mem_snoc.2
    ⟨fun u hu o' cat' src' target' => ?_, fun o' cat' src' _ => ?_⟩⟩
  · refine pairwise_append.2 ⟨found.pairing.apart, pairwise_singleton _ _, fun p hp q hq => ?_⟩
    grind
  · obtain ⟨u, hu, src⟩ := found.firsts p hp
    exact ⟨u, mem_append_left _ hu, src⟩
  · obtain ⟨p, hp, met⟩ := found.complete u hu o' cat' src' target'
    exact ⟨p, mem_append_left _ hp, met⟩
  · simp_all

theorem findPairs_run : ∃ pairs, findPairs ts g = .ok pairs g ∧ Pairing g ts pairs := by
  have start : Found g ts [] [] := ⟨⟨by simp, Pairwise.nil⟩, by simp, by simp⟩
  suffices search : ∃ pairs, findPairs ts g = .ok pairs g ∧ Found g ts ts pairs from
    search.imp fun _ h => ⟨h.1, h.2.pairing⟩
  refine foldlM_passes (Found g ts) (fun done t rest pairs split found => ?_) start
  rw [bind_run (tensor_run t)]
  cases sole : (g.tensor t).src.sole? with
  | none =>
    refine ⟨pairs, rfl, found.skip fun o cat src => ?_⟩
    rw [Links.sole?_eq_some.2 src] at sole
    cases sole
  | some o =>
    have src := Links.sole?_eq_some.1 sole
    have ht : t ∈ ts := by simp [split]
    dsimp only
    split
    · next met =>
      refine ⟨pairs, rfl, found.skip fun o' cat src' _ => ?_⟩
      grind
    · next fresh =>
      obtain ⟨cat?, target⟩ := target?_run regular (o := o) ⟨t, ht, by simp [src]⟩
      rw [bind_run target]
      cases cat? with
      | none =>
        refine ⟨pairs, rfl, found.skip fun o' cat src' target' => ?_⟩
        grind
      | some cat =>
        refine ⟨pairs ++ [(o, cat)], rfl, found.add regular split src target fun p hp => ?_⟩
        grind

end Search

end ConcatFusion

/-! ## Products that are replaced -/

section Products

variable {g h : Arena}

theorem LayoutRule.replace?_nodup {r : LayoutRule} {q : TensorId × TensorId}
    (run : r.replace? t g = .ok (some q) h) : ∃ p o, r.candidate? t g = .ok (some (p, o)) g ∧
    (g.op o).inputList.Nodup := by
  unfold LayoutRule.replace? at run
  obtain ⟨found, g₁, candidate, run⟩ := bind_ok.1 run
  obtain rfl := ReadOnly.keeps candidate
  cases found with
  | none => cases (pure_ok.1 run).1
  | some found =>
    obtain ⟨p, o⟩ := found
    simp only [bind_ok, inputs_ok] at run
    obtain ⟨ts, _, ⟨reads, rfl⟩, _, g₂, batches, run⟩ := run
    refine ⟨p, o, candidate, ?_⟩
    rw [show (g.op o).inputList = ts by simp [Operator.inputList, reads]]
    split at run
    · cases (pure_ok.1 run).1
    obtain ⟨reads', _, -, run⟩ := bind_ok.1 run
    rcases reads' with _ | ⟨before, _ | _⟩
    · cases run
    · obtain ⟨writes, _, -, run⟩ := bind_ok.1 run
      rcases writes with _ | ⟨y, _ | _⟩
      · cases run
      · grind [bind_ok, pure_ok, forgetUse_nodup]
      · cases run
    · cases run

theorem Chain.replace?_nodup {chains : List Chain} {q : TensorId × List TensorId}
    (run : Chain.replace? chains t g = .ok (some q) h) : ∃ o, (g.tensor t).src.ops = [o] ∧
    (g.op o).inputList.Nodup := by
  unfold Chain.replace? at run
  rw [bind_run (tensor_run _)] at run
  cases sole : (g.tensor t).src.sole? with
  | none =>
    rw [sole] at run
    cases (pure_ok.1 run).1
  | some o =>
    rw [sole] at run
    obtain ⟨found, g₁, search, run⟩ := bind_ok.1 run
    obtain rfl := ReadOnly.keeps search
    cases found with
    | none => cases (pure_ok.1 run).1
    | some found =>
      simp only [bind_ok, inputs_ok] at run
      obtain ⟨ts, _, ⟨reads, rfl⟩, others, _, -, fits, _, -, run⟩ := run
      refine ⟨o, Links.sole?_eq_some.1 sole, ?_⟩
      grind [Operator.inputList, pure_ok, bind_ok, forgetUse_nodup]

theorem Alignment.transposeProduct?_nodup {done : Alignment.Transposed}
    {q : Alignment.Transposed × List TensorId}
    (run : Alignment.transposeProduct? done t g = .ok (some q) h) :
    ∃ o, (g.tensor t).src.ops = [o] ∧ (g.op o).inputList.Nodup := by
  unfold Alignment.transposeProduct? at run
  rw [bind_run (tensor_run _)] at run
  cases sole : (g.tensor t).src.sole? with
  | none =>
    rw [sole] at run
    cases (pure_ok.1 run).1
  | some o =>
    simp only [sole, bind_run (op_run _)] at run
    cases known : OpClass.ofLabel? (g.op o).kind with
    | none =>
      rw [known] at run
      cases (pure_ok.1 run).1
    | some c =>
      rw [known] at run
      cases inner : Alignment.innerAxes c with
      | none => simp_all
      | some axes =>
        simp only [inner] at run
        obtain ⟨⟨p, q⟩, g₁, choice, run⟩ := bind_ok.1 run
        obtain rfl := ReadOnly.keeps choice
        dsimp only at run
        split at run
        · cases (pure_ok.1 run).1
        simp only [bind_ok, inputs_ok] at run
        grind [Links.sole?_eq_some, Operator.inputList, forgetUse_nodup]

end Products

/-! ## Products that are padded

An operand is padded along one axis after the other, and the product reads the padded operand in its
place.  Only when all operands have been padded, the uses of what the product reads then are
forgotten. -/

namespace Alignment

def keeping (P : Arena → Prop) : Frame where
  rel g g' := P g → P g'
  refl _ h := h
  trans first second h := second (first h)

/-- While the operands of an operator are padded: `ts` are those that it had. -/
structure Padding (ts : List TensorId) (o : OpId) (h : Arena) : Prop where
  known : o.idx < h.ops.size
  each : ∀ (i : Nat) x, ts[i]? = some x → (h.op o).inputList[i]? = some x ∨
    o ∉ (h.tensor x).dst.ops ∧ x.idx < h.tensors.size
  once : ∀ (i j : Nat) x, i ≠ j → ts[i]? = some x → ts[j]? = some x →
    (h.op o).inputList[i]? = some x ∨ (h.op o).inputList[j]? = some x

theorem Padding.nodup {ts : List TensorId} (padding : Padding ts o h)
    (nodup : (h.op o).inputList.Nodup) (uses : ∀ x ∈ (h.op o).inputList, o ∈ (h.tensor x).dst.ops) :
    ts.Nodup := by
  have stays : ∀ (i j : Nat) x, ts[j]? = some x → (h.op o).inputList[i]? = some x →
    (h.op o).inputList[j]? = some x := by
    intro i j x hj hi
    exact (padding.each j x hj).resolve_right fun gone => gone.1 (uses x (List.mem_of_getElem? hi))
  refine List.nodup_iff_getElem?_ne_getElem?.2 fun i j lt bound same => ?_
  obtain ⟨x, hj⟩ : ∃ x, ts[j]? = some x := ⟨_, List.getElem?_eq_getElem bound⟩
  have hi : ts[i]? = some x := same.trans hj
  have both : (h.op o).inputList[i]? = some x ∧ (h.op o).inputList[j]? = some x := by
    rcases padding.once i j x (Nat.ne_of_lt lt) hi hj with here | here
    · exact ⟨here, stays i j x hj here⟩
    · exact ⟨stays j i x hi here, here⟩
  obtain ⟨low, -⟩ := List.getElem?_eq_some_iff.1 both.2
  exact List.nodup_iff_getElem?_ne_getElem?.1 nodup i j lt low (both.1.trans both.2.symm)

instance (o : OpId) (ts : List TensorId) (d : Int) : MakesNew (Concat.apply o ts d) := .of_parts

instance (ts : List TensorId) (d : Int) : MakesNew (Concat.concat ts d) := .of_parts

theorem Padding.other_reads {ts : List TensorId} (padding : Padding ts o h) {i j : Nat}
    (operand : (h.op o).inputList[i]? = some t) (uses : o ∈ (h.tensor t).dst.ops) (ne : i ≠ j)
    (hi : ts[i]? = some x) (hj : ts[j]? = some x) : (h.op o).inputList[j]? = some x := by
  rcases padding.once i j x ne hi hj with here | here
  · obtain rfl := Option.some.inj (operand.symm.trans here)
    exact (padding.each j t hj).resolve_right fun unused => unused.1 uses
  · exact here

section Replacing

variable {ts : List TensorId} {o : OpId} {h h₁ : Arena} {i : Nat} {t y : TensorId}
  (built : Built (o.idx + 1) (h.modifyTensor t fun x => { x with dst := x.dst.erase o }) h₁)
  (uses : o ∈ (h.tensor t).dst.ops) (new : h.tensors.size ≤ y.idx)
include built

theorem inputList_replaced :
    ((h₁.modifyOp o fun x => { x with inputs := x.inputs.map (·.set i y) }).op o).inputList =
    (h.op o).inputList.set i y := by
  rw [Arena.op_modifyOp_self built.size, built.op o (Nat.lt_succ_self _)]
  show (((h.op o).inputs.map (·.set i y)).getD []) = (h.op o).inputList.set i y
  unfold Operator.inputList
  cases (h.op o).inputs <;> simp

include uses new

theorem not_uses_replaced (low : x.idx < h.tensors.size) (why : x = t ∨ o ∉ (h.tensor x).dst.ops) :
    o ∉ (((h₁.modifyOp o fun x => { x with inputs := x.inputs.map (·.set i y) }).modifyTensor y
      fun x => { x with dst := x.dst.insert o }).tensor x).dst.ops := by
  have ne : x ≠ y := by
    rintro rfl
    omega
  rw [Arena.tensor_modifyTensor_ne ne]
  show o ∉ (h₁.tensor x).dst.ops
  rw [built.dst x o (Nat.lt_succ_self _), Arena.tensor_modifyTensor _ _ _ (Arena.lt_of_dst uses)]
  grind [Links.erase]

theorem Padding.step (padding : Padding ts o h) (operand : (h.op o).inputList[i]? = some t) :
    Padding ts o
    ((h₁.modifyOp o fun x => { x with inputs := x.inputs.map (·.set i y) }).modifyTensor y
      fun x => { x with dst := x.dst.insert o }) := by
  have size := built.marks.size
  have inputs := inputList_replaced (i := i) (y := y) built
  have gone : ∀ x : TensorId, x.idx < h.tensors.size → x = t ∨ o ∉ (h.tensor x).dst.ops → _ :=
    fun x =>
    not_uses_replaced (i := i) built uses new
  have known : o.idx < h₁.ops.size := built.size
  refine ⟨by simpa using known, fun k x hk => ?_, fun j k x ne hj hk => ?_⟩
  · show ((h₁.modifyOp o _).op o).inputList[k]? = some x ∨ _
    rw [inputs]
    by_cases e : k = i
    · subst e
      rcases padding.each k x hk with here | ⟨unused, low⟩
      · obtain rfl := Option.some.inj (operand.symm.trans here)
        have low := Arena.lt_of_dst uses
        exact Or.inr ⟨gone t low (Or.inl rfl), by simp at size ⊢; omega⟩
      · exact Or.inr ⟨gone x low (Or.inr unused), by simp at size ⊢; omega⟩
    · rw [getElem?_set_ne (Ne.symm e)]
      refine (padding.each k x hk).imp_right fun ⟨unused, low⟩ =>
        ⟨gone x low (Or.inr unused), by simp at size ⊢; omega⟩
  · show ((h₁.modifyOp o _).op o).inputList[j]? = some x ∨
      ((h₁.modifyOp o _).op o).inputList[k]? = some x
    rw [inputs]
    by_cases ej : j = i
    · subst ej
      rw [getElem?_set_ne ne]
      exact Or.inr (padding.other_reads operand uses ne hj hk)
    · rw [getElem?_set_ne (Ne.symm ej)]
      by_cases ek : k = i
      · subst ek
        exact Or.inl (padding.other_reads operand uses ne.symm hk hj)
      · rw [getElem?_set_ne (Ne.symm ek)]
        exact padding.once j k x ne hj hk

end Replacing

theorem Padding.built {ts : List TensorId} (padding : Padding ts o h)
    (built : Built (o.idx + 1) h h') : Padding ts o h' := by
  have size := built.marks.size
  have same : h'.op o = h.op o := built.op o (Nat.lt_succ_self _)
  refine ⟨built.size, fun i x hi => ?_, fun i j x ne hi hj => ?_⟩
  · rw [same, built.dst x o (Nat.lt_succ_self _)]
    exact (padding.each i x hi).imp_right fun ⟨unused, low⟩ => ⟨unused, Nat.lt_of_lt_of_le low size⟩
  · rw [same]
    exact padding.once i j x ne hi hj

instance (ts : List TensorId) (o : OpId) (i : Nat) (axisName? : Nat → Option String)
    (growth : Growth) :
    Within (keeping (Padding ts o)) (padInput o i axisName? growth) := by
  unfold padInput
  refine .bind_of fun _ => .bind_of fun whole => @Within.foldlM _ _ _ _ _ (fun new d => ?_) _
  dsimp only
  refine ⟨fun {h h' _} run padding => ?_⟩
  obtain ⟨t, h₀, operand, run⟩ := bind_ok.1 run
  simp only [inputAt, bind_ok, inputs_ok, expect_ok, at?_natCast] at operand
  obtain ⟨xs, _, ⟨reads, rfl⟩, operand, rfl⟩ := operand
  cases grows : (axisName? d.2).bind fun name => growth.lookup name with
  | none =>
    simp only [grows] at run
    obtain ⟨-, rfl⟩ := pure_ok.1 run
    exact padding
  | some n =>
    simp only [grows] at run
    obtain ⟨extra, h₁, grown, run⟩ := bind_ok.1 run
    have built := ((Frame.built (o.idx + 1)).keeps grown) padding.known
    have same : h₁.op o = h.op o := built.op o (Nat.lt_succ_self _)
    have padding := padding.built built
    simp only [bind_ok] at run
    obtain ⟨_, h₂, shown, _, h₃, sized, _, h₄, removed, _, h₅, typed, zeros, h₆, filled, y, h₇,
      joined, _, h₈, set, _, h₉, added, run⟩ := run
    obtain rfl := ReadOnly.keeps shown
    obtain rfl := ReadOnly.keeps sized
    obtain rfl := ReadOnly.keeps typed
    obtain ⟨uses, rfl, -⟩ := removeDst_takes removed
    obtain ⟨-, rfl⟩ := addDst_ok.1 added
    obtain ⟨-, rfl⟩ := pure_ok.1 run
    rw [modifyOp_ok] at set
    subst set
    have filledBuilt := ((Frame.built (o.idx + 1)).keeps filled) padding.known
    have joinedBuilt := ((Frame.built (o.idx + 1)).keeps joined) filledBuilt.size
    refine Padding.step ((Frame.built _).trans (fun _ => filledBuilt) (fun _ => joinedBuilt)
      padding.known) uses ?_ padding ?_
    · have first := filledBuilt.marks.size
      have second := (MakesNew.new joined).1
      simp only [Arena.tensors_size_modifyTensor] at first
      omega
    · rw [same, Operator.inputList, reads]
      exact operand

theorem padProduct_nodup {c : OpClass} {g : Arena} {new : List TensorId}
    (run : padProduct c o g = .ok new h) (some : new ≠ []) : (g.op o).inputList.Nodup := by
  unfold padProduct at run
  obtain ⟨table, g₁, sized, run⟩ := bind_ok.1 run
  obtain rfl := ReadOnly.keeps sized
  obtain ⟨growth, g₁, needed, run⟩ := bind_ok.1 run
  obtain rfl := ReadOnly.keeps needed
  split at run
  · exact absurd (pure_ok.1 run).1.symm some
  simp only [bind_ok, inputs_ok] at run
  obtain ⟨operands, _, ⟨reads, rfl⟩, _, g₁, matrices, y, g₂, first, x, g₃, looked, xs, _, ⟨-, rfl⟩,
    _, g₄, others, last, _, ⟨reads', rfl⟩, _, g₅, forgotten, -⟩ := run
  have start : Padding (g.op o).inputList o g :=
    ⟨Arena.lt_of_some rfl reads, fun i x h => Or.inl h, fun i j x _ h _ => Or.inl h⟩
  have padded : Padding (g.op o).inputList o g₁ := ((keeping (Padding _ o)).keeps matrices) start
  obtain rfl := ReadOnly.keeps first
  obtain rfl := ReadOnly.keeps looked
  have padded : Padding (g.op o).inputList o g₄ := by
    refine ((keeping (Padding (g.op o).inputList o)).keeps others) padded
  have left : (g₄.op o).inputList = last := by simp [Operator.inputList, reads']
  obtain ⟨nodup, uses⟩ := forgetUse_nodup forgotten
  exact padded.nodup (left ▸ nodup) (left ▸ uses)

end Alignment

/-! ## Parts of a split -/

theorem mem_set_findIdx? {xs : List TensorId} (ne : t ≠ x) {i : Nat}
    (found : xs.findIdx? (· == t) = some i) : t ∈ xs.set i x ↔ 2 ≤ xs.count t := by
  induction xs generalizing i with
  | nil => cases found
  | cons a xs ih =>
    rw [findIdx?_cons] at found
    split at found
    · next here => grind
    · next other =>
      obtain ⟨j, later, rfl⟩ := Option.map_eq_some_iff.1 found
      grind

theorem Strided.readPart_reads {g : Arena} {dim start : Int} (ne : t ≠ x)
    (run : Strided.readPart x dim start t o g = .ok u h) : t ∈ (h.op o).inputList ↔
    2 ≤ (g.op o).inputList.count t := by
  unfold Strided.readPart at run
  simp only [bind_ok, inputs_ok] at run
  obtain ⟨xs, _, ⟨reads, rfl⟩, run⟩ := run
  have list : (g.op o).inputList = xs := by simp [Operator.inputList, reads]
  have known : o.idx < g.ops.size := by
    refine Nat.lt_of_not_le fun outside => ?_
    rw [Arena.op_of_le outside] at reads
    cases reads
  have added : ∀ {k : Arena}, addDst x o k = .ok u h → (h.op o).inputList = (k.op o).inputList := by
    simp_all [addDst, bind_ok, tensor_ok, require_ok, modifyTensor_ok]
  cases found : xs.findIdx? (· == t) with
  | none =>
    simp only [found] at run
    grind
  | some i =>
    simp only [found, bind_ok, updateInputAccessor, setInput, modifyOp_ok] at run
    obtain ⟨s, g₁, shown, _, g₃, ⟨p, _, looked, as, _, strides, a, _, stride, look, _, table, _, _,
      rfl, checked⟩, _, _, rfl, run⟩ :=
      run
    obtain rfl := ReadOnly.keeps shown
    obtain rfl := ReadOnly.keeps looked
    obtain rfl := ReadOnly.keeps strides
    obtain rfl := ReadOnly.keeps stride
    obtain rfl := ReadOnly.keeps table
    -- the change of the accessors may be refused, but nothing follows then
    have same : g.modifyOp o
      (fun x => { x with inputAccessors := some (as.set i (a.rebase look s dim start).1) }) =
      g₃ := by
      cases fault : (a.rebase look s dim start).2 with
      | none => simp_all
      | some e => simp_all
    subst same
    rw [added run, Arena.op_modifyOp_self (by simpa using known), Arena.op_modifyOp_self known,
      list]
    simp only [Operator.inputList, reads, Option.map_some, Option.getD_some]
    exact mem_set_findIdx? ne found

/-! ## Rewriting operators that read a tensor twice -/

open ConcatFusion

/-- Merging splits and concatenations returns exactly if no operator that is merged reads a tensor
twice, and then gives a graph that passes the check. A product that is replaced, to drop a
transposition, to fuse what follows it, to transpose its operands or to pad them, reads no tensor
twice. -/
theorem rewriting_reads_once {g : Arena} {ts : Graph} (regular : Regular g ts) :
    (∃ pairs, findPairs ts g = .ok pairs g ∧
      ((∃ ts' g', mergePairs ts g = .ok ts' g') ↔
        ∀ p ∈ pairs, InRuns (g.op p.1).outputList (g.op p.2).inputList →
          (g.op p.1).inputList.Nodup) ∧
      ∀ ts' g', mergePairs ts g = .ok ts' g' → Valid g' ts') ∧
    (∀ (r : LayoutRule) t q h, r.replace? t g = .ok (some q) h →
      ∃ p o, r.candidate? t g = .ok (some (p, o)) g ∧ (g.op o).inputList.Nodup) ∧
    (∀ chains t q h, Chain.replace? chains t g = .ok (some q) h →
      ∃ o, (g.tensor t).src.ops = [o] ∧ (g.op o).inputList.Nodup) ∧
    (∀ done t q h, Alignment.transposeProduct? done t g = .ok (some q) h →
      ∃ o, (g.tensor t).src.ops = [o] ∧ (g.op o).inputList.Nodup) ∧
    (∀ c o new h, Alignment.padProduct c o g = .ok new h → new ≠ [] → (g.op o).inputList.Nodup) ∧
    ∀ x dim start t o u h, Strided.readPart x dim start t o g = .ok u h → t ≠ x →
      (t ∈ (h.op o).inputList ↔ 2 ≤ (g.op o).inputList.count t) := by
  refine ⟨?_, fun _ _ _ _ run => LayoutRule.replace?_nodup run, fun _ _ _ _ run =>
    Chain.replace?_nodup run, fun _ _ _ _ run => Alignment.transposeProduct?_nodup run,
    fun _ _ _ _ run some => Alignment.padProduct_nodup run some,
    fun _ _ _ _ _ _ _ run ne => Strided.readPart_reads ne run⟩
  obtain ⟨pairs, search, pairing⟩ := findPairs_run regular
  have clean : ∀ ts' g', mergePairs ts g = .ok ts' g' → ∀ p ∈ pairs, Clean g p.1 p.2 := by
    intro ts' g' run
    unfold mergePairs at run
    rw [bind_run search, forIn_eq_forM] at run
    obtain ⟨_, _, merged, -⟩ := bind_ok.1 run
    exact clean_of_merges regular.linked pairing merged
  have returns : (∀ p ∈ pairs, Clean g p.1 p.2) → ∃ ts' g', mergePairs ts g = .ok ts' g' ∧
    Valid g' ts' := by
    intro clean
    obtain ⟨h, merged, linked⟩ := merges_return regular.linked pairing clean
    obtain ⟨ts', g', run, -, valid, -⟩ := tidy_run regular.nodup linked.agrees linked.ordered
      linked.active linked.named
    refine ⟨ts', g', ?_, valid⟩
    unfold mergePairs
    rw [bind_run search, forIn_eq_forM, bind_run merged, run]
  refine ⟨pairs, search, ⟨fun ⟨ts', g', run⟩ => clean ts' g' run, fun clean => ?_⟩,
    fun ts' g' run => ?_⟩
  · obtain ⟨ts', g', run, -⟩ := returns clean
    exact ⟨ts', g', run⟩
  · obtain ⟨_, _, again, valid⟩ := returns (clean ts' g' run)
    obtain ⟨rfl, rfl⟩ := EStateM.Result.ok.inj (run.symm.trans again)
    exact valid

def joinedArena (v : TensorId) : Arena where
  dims := #[.static 2]
  tensors :=
    let leaf (name : String) (users : List OpId) : Tensor :=
      { Tensor.ofShape [⟨0⟩] with name := some name, isInput := true, dst := ⟨users, false⟩ }
    let made (name : String) (o : Nat) (users : List OpId) : Tensor :=
      { Tensor.ofShape [⟨0⟩] with name := some name, src := ⟨[⟨o⟩], false⟩, dst := ⟨users, false⟩ }
    #[leaf "x" [⟨0⟩], leaf "w" (if v = ⟨1⟩ then [⟨0⟩] else []), leaf "y" [⟨1⟩], made "a" 0 [⟨1⟩],
      { made "z" 1 [] with isOutput := true }]
  ops :=
    let join (xs : List TensorId) (y : TensorId) : Operator :=
      { Operator.ofClass .concatenate "concatenate" with
        inputs := some xs
        outputs := some [y]
        inputMasks := some (xs.map fun _ => true)
        inputAccessors := some (xs.map fun _ => .ofShape [⟨0⟩])
        params := [("concat_dim", .int 0)] }
    #[join [⟨0⟩, v] ⟨3⟩, join [⟨3⟩, ⟨2⟩] ⟨4⟩]
  namer := ⟨0, 0, [], []⟩
  target := none

def joinedGraph : Graph := [⟨0⟩, ⟨1⟩, ⟨2⟩, ⟨3⟩, ⟨4⟩]

theorem regular_joined {v : TensorId} (hv : v = ⟨0⟩ ∨ v = ⟨1⟩) :
    Regular (joinedArena v) joinedGraph := by
  have operators : ∀ o, InGraph (joinedArena v) joinedGraph o → o = ⟨0⟩ ∨ o = ⟨1⟩ := by
    intro o ho
    have known : ∀ o ∈ sources (joinedArena v) joinedGraph, o = ⟨0⟩ ∨ o = ⟨1⟩ := by
      rcases hv with rfl | rfl <;> decide
    exact known o (mem_sources.2 ho)
  have checked : check true joinedGraph (joinedArena v) = .ok true (joinedArena v) := by
    rcases hv with rfl | rfl <;> rfl
  refine ⟨by decide, (check_ok.1 checked).1, ?_, ?_, ?_, ?_, fun o ho kind => ?_, fun o ho _ => ?_⟩
  · rcases hv with rfl | rfl <;> decide
  · rcases hv with rfl | rfl <;> decide
  · rcases hv with rfl | rfl <;> decide
  · rcases hv with rfl | rfl <;> decide
  · rcases operators o ho with rfl | rfl <;> exact absurd kind
      (show "concatenate" ≠ "split" by decide)
  · rcases operators o ho with rfl | rfl
    · exact ⟨nofun, rfl, ⟨_, rfl, rfl⟩, ⟨_, rfl, rfl⟩⟩
    · exact ⟨nofun, rfl, ⟨_, rfl, rfl⟩, ⟨_, rfl, rfl⟩⟩

/-- The join of two tensors is merged into the one behind it, but the join of a tensor with itself
is not. -/
theorem rewriting_reads_once_joined :
    (∃ ts' g', mergePairs joinedGraph (joinedArena ⟨1⟩) = .ok ts' g' ∧ Valid g' ts') ∧
    ¬ ∃ ts' g', mergePairs joinedGraph (joinedArena ⟨0⟩) = .ok ts' g' := by
  constructor
  · obtain ⟨⟨pairs, search, returns, valid⟩, -⟩ :=
      rewriting_reads_once (regular_joined (Or.inr rfl))
    have found : findPairs joinedGraph (joinedArena ⟨1⟩) = .ok [(⟨0⟩, ⟨1⟩)] (joinedArena ⟨1⟩) := rfl
    obtain ⟨rfl, -⟩ := EStateM.Result.ok.inj (found.symm.trans search)
    obtain ⟨ts', g', run⟩ := returns.2 fun p hp _ => by
      obtain rfl := mem_singleton.1 hp
      decide
    exact ⟨ts', g', run, valid ts' g' run⟩
  · obtain ⟨⟨pairs, search, returns, -⟩, -⟩ := rewriting_reads_once (regular_joined (Or.inl rfl))
    have found : findPairs joinedGraph (joinedArena ⟨0⟩) = .ok [(⟨0⟩, ⟨1⟩)] (joinedArena ⟨0⟩) := rfl
    obtain ⟨rfl, -⟩ := EStateM.Result.ok.inj (found.symm.trans search)
    intro run
    have runs : InRuns [(⟨3⟩ : TensorId)] [⟨3⟩, ⟨2⟩] := .run (.other (by decide) .nil)
    exact absurd (returns.1 run (⟨0⟩, ⟨1⟩) (by simp) runs) (by decide)

end TensorGraph

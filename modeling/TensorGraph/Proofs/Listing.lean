import TensorGraph.Proofs.Sorting

/-!
# What sorting lists

Without cycles, sorting lists exactly what a walk from the given tensors comes to, with everything
that is read before what is computed from it.
-/

namespace TensorGraph

namespace Graph

def Found (g : Arena) (roots : List TensorId) (t : TensorId) : Prop :=
  ∃ r ∈ roots, Relation.ReflTransGen (Leads g) r t

/-- What is found has been applied and does not depend on itself. -/
structure Listable (g : Arena) (roots : List TensorId) : Prop where
  known : ∀ t, Found g roots t → t.idx < g.tensors.size
  applied : ∀ t, Found g roots t → ∀ o ∈ (g.tensor t).src.ops, (g.op o).inputs.isSome ∧
    (g.op o).outputs.isSome
  acyclic : ∀ t, Found g roots t → ¬ Relation.TransGen (Needs g) t t

theorem Listable.walkable {g : Arena} {roots : List TensorId} (h : Listable g roots) :
    Walkable g (Found g roots) where
  known := h.known
  applied := h.applied
  leads _ _ := fun ⟨r, hr, path⟩ leads => ⟨r, hr, path.tail leads⟩

/-- What shows that tensors can be listed, in a form that can be computed: they are all among some
tensors that no walk leaves and that are numbered in order. -/
theorem Listable.of_closed {g : Arena} {roots : List TensorId} (ts : List TensorId)
    (start : ∀ r ∈ roots, r ∈ ts) (known : ∀ t ∈ ts, t.idx < g.tensors.size)
    (closed : ∀ t ∈ ts, ∀ o ∈ (g.tensor t).src.ops, (g.op o).inputs.isSome ∧
      (g.op o).outputs.isSome ∧ (∀ x ∈ (g.op o).inputList, x ∈ ts ∧ x.idx < t.idx) ∧
      ∀ y ∈ (g.op o).outputList, y ∈ ts) : Listable g roots := by
  have inside : ∀ t, Found g roots t → t ∈ ts := by
    rintro t ⟨r, hr, path⟩
    induction path with
    | refl => exact start r hr
    | tail _ leads ih =>
      rcases leads with ⟨o, ho, hx⟩ | ⟨o, ho, hy⟩
      · exact ((closed _ ih o ho).2.2.1 _ hx).1
      · exact (closed _ ih o ho).2.2.2 _ hy
  have below : ∀ t u, u ∈ ts → Relation.TransGen (Needs g) t u → t.idx < u.idx ∧ t ∈ ts := by
    intro t u hu path
    induction path using Relation.TransGen.head_induction_on with
    | single needs =>
      obtain ⟨o, ho, hx⟩ := needs
      exact ((closed _ hu o ho).2.2.1 _ hx).symm
    | head needs _ ih =>
      obtain ⟨o, ho, hx⟩ := needs
      grind
  exact ⟨fun t ht => known t (inside t ht),
    fun t ht o ho => ⟨(closed t (inside t ht) o ho).1, (closed t (inside t ht) o ho).2.1⟩,
    fun t ht path => Nat.lt_irrefl _ (below t t (inside t ht) path).1⟩

/-- Sorting a graph without cycles returns all that is found, what is read before what is computed
from it.  It lists a tensor once, wherever it starts, if the tensor is not tangled, and more than
once if it is and sorting starts there. -/
theorem sort_lists {g : Arena} {roots : List TensorId} (listable : Listable g roots) :
    ∃ ts, sort roots g = .ok ts g ∧ (∀ t, t ∈ ts ↔ Found g roots t) ∧
      (∀ t ∈ ts, ∀ o ∈ (g.tensor t).src.ops, ∀ x ∈ (g.op o).inputList, Before ts x t) ∧
      (∀ t ∈ ts, ¬ Tangled g t → ts.count t = 1) ∧
      ∀ t ∈ ts, Tangled g t → ∃ us, sort [t] g = .ok us g ∧ 2 ≤ us.count t := by
  obtain ⟨ts, run⟩ := sort_succeeds listable.walkable listable.acyclic fun r hr => ⟨r, hr, .refl⟩
  obtain ⟨-, walks⟩ := walks_of_sort run
  have ordered := (sort_ordered run).2.2
  refine ⟨ts, run, fun t => walks.mem_iff, fun t ht o ho => (ordered t ht o ho).2,
    fun t ht untangled => ?_, fun t ht tangled => ?_⟩
  · exact Nat.le_antisymm (walks.count_le_one untangled (by simp)) (List.one_le_count_iff.2 ht)
  · have found : ∀ r ∈ [t], Found g roots r := fun r hr =>
      List.mem_singleton.1 hr ▸ walks.mem_iff.1 ht
    obtain ⟨us, run⟩ := sort_succeeds listable.walkable listable.acyclic found
    exact ⟨us, run, (walks_of_sort run).2.two_le_count tangled⟩

/-- `[a, b] = f x`, `n = h a`, and `b` is also written by an operator that reads `n`. -/
def tangledArena : Arena where
  dims := #[.static 4]
  tensors :=
    let made (depth : Nat) (sources : List Nat) : Tensor :=
      { Tensor.ofShape [⟨0⟩] with depth := depth, src := ⟨sources.map OpId.mk, false⟩ }
    #[made 0 [], made 1 [0], made 2 [1], made 3 [0, 2]]
  ops :=
    let applied (x : Nat) (ys : List Nat) : Operator :=
      { Operator.ofClass .elementwise "elementwise" with
        inputs := some [⟨x⟩], outputs := some (ys.map TensorId.mk) }
    #[applied 0 [1, 3], applied 1 [2], applied 2 [3]]
  namer := ⟨0, 0, [], []⟩
  target := none

/-- From `a` each of its tensors is listed, `x` and `a` once; from `n` that one is listed twice. -/
theorem sort_lists_tangled : Listable tangledArena [⟨1⟩] ∧
    (∃ ts, sort [⟨1⟩] tangledArena = .ok ts tangledArena ∧ (∀ t ∈ [⟨0⟩, ⟨1⟩, ⟨2⟩, ⟨3⟩], t ∈ ts) ∧
      ts.count ⟨0⟩ = 1 ∧ Before ts ⟨2⟩ ⟨3⟩) ∧
    ∃ us, sort [⟨2⟩] tangledArena = .ok us tangledArena ∧ 2 ≤ us.count ⟨2⟩ := by
  have listable : Listable tangledArena [⟨1⟩] :=
    .of_closed [⟨0⟩, ⟨1⟩, ⟨2⟩, ⟨3⟩] (by decide) (by decide) (by decide)
  obtain ⟨ts, run, found, reads, once, twice⟩ := sort_lists listable
  have a : (⟨1⟩ : TensorId) ∈ ts := (found _).2 ⟨⟨1⟩, by simp, .refl⟩
  have ab : Leads tangledArena ⟨1⟩ ⟨3⟩ := Or.inr ⟨⟨0⟩, by decide, by decide⟩
  have bn : Leads tangledArena ⟨3⟩ ⟨2⟩ := Or.inl ⟨⟨2⟩, by decide, by decide⟩
  have ax : Leads tangledArena ⟨1⟩ ⟨0⟩ := Or.inl ⟨⟨0⟩, by decide, by decide⟩
  have b : (⟨3⟩ : TensorId) ∈ ts := (found _).2 ⟨⟨1⟩, by simp, .single ab⟩
  have n : (⟨2⟩ : TensorId) ∈ ts := (found _).2 ⟨⟨1⟩, by simp, .tail (.single ab) bn⟩
  have x : (⟨0⟩ : TensorId) ∈ ts := (found _).2 ⟨⟨1⟩, by simp, .single ax⟩
  refine ⟨listable, ⟨ts, run, by simp [a, b, n, x], ?_, ?_⟩, ?_⟩
  · refine once _ x ?_
    rintro ⟨_, ⟨o, ho, -⟩, -⟩
    have none : (tangledArena.tensor ⟨0⟩).src.ops = [] := rfl
    rw [none] at ho
    cases ho
  · exact reads ⟨3⟩ b ⟨2⟩ (by decide) ⟨2⟩ (by decide)
  · exact twice ⟨2⟩ n ⟨⟨1⟩, ⟨⟨1⟩, by decide, by decide⟩, .tail (.single ab) bn⟩

end Graph

end TensorGraph

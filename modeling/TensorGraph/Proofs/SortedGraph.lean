import Mathlib.Data.List.Nodup
import Mathlib.Data.List.Perm.Subperm
import TensorGraph.Graph.Order

/-!
# Sorted graphs

In a sorted graph everything that a source of a tensor reads stands before the tensor, and an
operator that produces one tensor of the graph produces all of its outputs there.
-/

namespace TensorGraph

open List

variable {g : Arena} {l r ts : Graph} {t u : TensorId} {o : OpId} {i : Nat}

namespace Graph

def Before (ts : Graph) (u t : TensorId) : Prop := ts.idxOf u < ts.idxOf t

instance (ts : Graph) (u t : TensorId) : Decidable (Before ts u t) :=
  inferInstanceAs (Decidable (_ < _))

theorem Before.mem (h : Before ts u t) : u ∈ ts :=
  idxOf_lt_length_iff.1 (Nat.lt_of_lt_of_le h idxOf_le_length)

theorem Before.mem_front (h : Before (l ++ t :: r) u t) : u ∈ l := by
  unfold Before at h
  by_contra front
  rw [idxOf_append_of_notMem front] at h
  have : (l ++ t :: r).idxOf t ≤ l.length := by grind
  omega

theorem before_of_mem_front (nodup : (l ++ t :: r).Nodup) (h : u ∈ l) :
    Before (l ++ t :: r) u t := by
  have ht : t ∉ l := fun ht => (nodup_append.1 nodup).2.2 t ht t mem_cons_self rfl
  unfold Before
  grind

theorem before_of_mem_back (nodup : (l ++ t :: r).Nodup) (h : u ∈ r) :
    Before (l ++ t :: r) t u := by
  have split : l ++ t :: r = (l ++ [t]) ++ r := by simp
  have hu : u ∉ l ++ [t] := fun hu => (nodup_append.1 (split ▸ nodup)).2.2 u hu u h rfl
  have ht : t ∈ l ++ [t] := by simp
  unfold Before
  grind

/-- A graph in an order in which everything that is read stands before what is written. -/
structure Sorted (g : Arena) (ts : Graph) : Prop where
  nodup : ts.Nodup
  known : ∀ t ∈ ts, t.idx < g.tensors.size
  /-- what a source reads stands before what it writes -/
  reads : ∀ t ∈ ts, ∀ o ∈ (g.tensor t).src.ops, ∀ x ∈ (g.op o).inputList, Before ts x t
  /-- a source of a tensor has it among its outputs -/
  writes : ∀ t ∈ ts, ∀ o ∈ (g.tensor t).src.ops, t ∈ (g.op o).outputList
  /-- all that a source writes is in the graph and knows it -/
  siblings : ∀ t ∈ ts, ∀ o ∈ (g.tensor t).src.ops, ∀ y ∈ (g.op o).outputList, y ∈ ts ∧
    o ∈ (g.tensor y).src.ops

instance (g : Arena) (ts : Graph) : Decidable (Sorted g ts) :=
  decidable_of_iff (ts.Nodup ∧ (∀ t ∈ ts, t.idx < g.tensors.size) ∧
      (∀ t ∈ ts, ∀ o ∈ (g.tensor t).src.ops, ∀ x ∈ (g.op o).inputList, Before ts x t) ∧
      (∀ t ∈ ts, ∀ o ∈ (g.tensor t).src.ops, t ∈ (g.op o).outputList) ∧
      ∀ t ∈ ts, ∀ o ∈ (g.tensor t).src.ops, ∀ y ∈ (g.op o).outputList, y ∈ ts ∧
        o ∈ (g.tensor y).src.ops)
    ⟨fun ⟨a, b, c, d, e⟩ => ⟨a, b, c, d, e⟩, fun h =>
      ⟨h.nodup, h.known, h.reads, h.writes, h.siblings⟩⟩

theorem length_le_size (nodup : ts.Nodup) (known : ∀ t ∈ ts, t.idx < g.tensors.size) :
    ts.length ≤ g.tensors.size := by
  have inj : (ts.map (·.idx)).Nodup := nodup.map fun a b h => by cases a; cases b; cases h; rfl
  have sub : ts.map (·.idx) ⊆ range g.tensors.size := by grind
  have := (subperm_of_subset inj sub).length_le
  simpa using this

/-! ## Steps -/

theorem sourceSteps_split (h : (sourceSteps g ts)[i]? = some o) :
    ∃ l t r, ts = l ++ t :: r ∧ o ∈ (g.tensor t).src.ops ∧ (sourceSteps g l).length ≤ i := by
  induction ts generalizing i with
  | nil => simp [sourceSteps] at h
  | cons t ts ih =>
    have split : sourceSteps g (t :: ts) = (g.tensor t).src.ops ++ sourceSteps g ts := rfl
    rw [split] at h
    by_cases hi : i < (g.tensor t).src.ops.length
    · rw [getElem?_append_left hi] at h
      exact ⟨[], t, ts, rfl, mem_of_getElem? h, Nat.zero_le _⟩
    · rw [getElem?_append_right (by omega)] at h
      obtain ⟨l, u, r, rfl, ho, hl⟩ := ih h
      grind [sourceSteps]

theorem step_of_front (ht : t ∈ l) (ho : o ∈ (g.tensor t).src.ops) :
    ∃ i, i < (sourceSteps g l).length ∧ (sourceSteps g (l ++ r))[i]? = some o := by
  have mem : o ∈ sourceSteps g l := mem_flatMap.2 ⟨t, ht, ho⟩
  obtain ⟨i, hi, he⟩ := getElem_of_mem mem
  refine ⟨i, hi, ?_⟩
  have split : sourceSteps g (l ++ r) = sourceSteps g l ++ sourceSteps g r := flatMap_append
  grind

def Touches (g : Arena) (steps : List OpId) (t : TensorId) (i : Nat) : Prop :=
  ∃ o, steps[i]? = some o ∧ (t ∈ (g.op o).inputList ∨ t ∈ (g.op o).outputList)

instance (g : Arena) (steps : List OpId) (t : TensorId) (i : Nat) :
    Decidable (Touches g steps t i) :=
  decidable_of_iff (∃ o ∈ steps[i]?, t ∈ (g.op o).inputList ∨ t ∈ (g.op o).outputList) Iff.rfl

theorem Touches.lt {steps : List OpId} (h : Touches g steps t i) : i < steps.length := by
  obtain ⟨o, ho, -⟩ := h
  exact (List.getElem?_eq_some_iff.1 ho).1

namespace Sorted

variable {g : Arena} {ts : Graph}

theorem mem_of_touches (sorted : Sorted g ts) (h : Touches g (sourceSteps g ts) t i) : t ∈ ts := by
  obtain ⟨o, ho, ht⟩ := h
  obtain ⟨l, u, r, rfl, hu, -⟩ := sourceSteps_split ho
  rcases ht with ht | ht
  · exact (sorted.reads u (by simp) o hu t ht).mem
  · exact (sorted.siblings u (by simp) o hu t ht).1

theorem touches_of_source (sorted : Sorted g ts) (ht : t ∈ ts) (ho : o ∈ (g.tensor t).src.ops) :
    ∃ i, Touches g (sourceSteps g ts) t i := by
  obtain ⟨i, -, hi⟩ := step_of_front (r := []) ht ho
  rw [append_nil] at hi
  exact ⟨i, o, hi, Or.inr (sorted.writes t ht o ho)⟩

/-- A step that touches a tensor produces it or comes after its sources. -/
theorem touches_cases (sorted : Sorted g ts) (h : Touches g (sourceSteps g ts) t i) :
    (∃ o ∈ (g.tensor t).src.ops, (sourceSteps g ts)[i]? = some o) ∨
      ∀ o ∈ (g.tensor t).src.ops, ∃ j, j < i ∧ (sourceSteps g ts)[j]? = some o := by
  obtain ⟨o, ho, ht⟩ := h
  obtain ⟨l, u, r, rfl, hu, hl⟩ := sourceSteps_split ho
  rcases ht with ht | ht
  · right
    intro p hp
    obtain ⟨j, hj, he⟩ := step_of_front (r := u :: r)
      (sorted.reads u (by simp) o hu t ht).mem_front hp
    exact ⟨j, by omega, he⟩
  · exact Or.inl ⟨o, (sorted.siblings u (by simp) o hu t ht).2, ho⟩

end Sorted

end Graph

end TensorGraph

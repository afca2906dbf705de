import Mathlib.Data.List.Pairwise
import TensorGraph.Proofs.Nodes
import TensorGraph.Proofs.Reachability
import TensorGraph.Proofs.Sorting
import TensorGraph.Proofs.ValidGraph

/-!
# Merging groups of operators

When every group of operators becomes one operator, the links inside a group disappear and those
between different groups stay.
-/

namespace TensorGraph

namespace Graph

open Relation

/-! ## Cycles of operators and of tensors -/

section Cycles

variable {g : Arena} {ts : Graph}

theorem reaches_of_needs {u t : TensorId} (h : TransGen (Needs g) u t) :
    ∃ o ∈ (g.tensor t).src.ops, ∀ p ∈ (g.tensor u).src.ops, Reaches g p o := by
  induction h with
  | single h =>
    obtain ⟨o, ho, hu⟩ := h
    exact ⟨o, ho, fun p hp => .single ⟨_, hu, hp⟩⟩
  | tail _ h ih =>
    obtain ⟨q, hq, reaches⟩ := ih
    obtain ⟨o, ho, hb⟩ := h
    exact ⟨o, ho, fun p hp => (reaches p hp).tail ⟨_, hb, hq⟩⟩

theorem Valid.ordered (valid : Valid g ts) : Ordered g ts := fun _ ht _ ho =>
  ⟨(valid.applied ht ho).1, fun _ hx => valid.before ht ho hx⟩

theorem Ordered.reaches_before (ordered : Ordered g ts) {a b : OpId} (h : Reaches g a b)
    {t : TensorId} (ht : t ∈ ts) (hb : b ∈ (g.tensor t).src.ops) : ∃ u, a ∈ (g.tensor u).src.ops ∧
    Before ts u t := by
  induction h generalizing t with
  | single h =>
    obtain ⟨x, hx, ha⟩ := h
    exact ⟨x, ha, (ordered t ht _ hb).2 x hx⟩
  | tail _ h ih =>
    obtain ⟨x, hx, hc⟩ := h
    have before := (ordered t ht _ hb).2 x hx
    obtain ⟨u, ha, hu⟩ := ih before.mem hc
    exact ⟨u, ha, Nat.lt_trans hu before⟩

theorem Ordered.not_reaches (ordered : Ordered g ts) {o : OpId} (member : InGraph g ts o) :
    ¬ Reaches g o o := by
  intro cycle
  obtain ⟨t, ht, ho⟩ := member
  -- going round the cycle leads from each tensor that the operator writes to an earlier one
  suffices below : ∀ n, ∀ t ∈ ts, o ∈ (g.tensor t).src.ops → n < ts.idxOf t from Nat.lt_irrefl _
    (below _ t ht ho)
  intro n
  induction n with
  | zero =>
    intro t ht ho
    obtain ⟨u, -, before⟩ := ordered.reaches_before cycle ht ho
    exact Nat.zero_lt_of_lt before
  | succ n ih =>
    intro t ht ho
    obtain ⟨u, hu, before⟩ := ordered.reaches_before cycle ht ho
    exact Nat.lt_of_le_of_lt (ih u before.mem hu) before

end Cycles

/-! ## Blocks -/

def SameBlock (groups : List (List OpId)) (a b : OpId) : Prop :=
  a = b ∨ ∃ ms ∈ groups, a ∈ ms ∧ b ∈ ms

instance (groups : List (List OpId)) (a b : OpId) : Decidable (SameBlock groups a b) :=
  inferInstanceAs (Decidable (_ ∨ _))

def FeedsMerged (g : Arena) (groups : List (List OpId)) (a b : OpId) : Prop :=
  ¬ SameBlock groups a b ∧ ∃ a' b', SameBlock groups a a' ∧ Feeds g a' b' ∧ SameBlock groups b' b

def MergesAcyclic (g : Arena) (ts : Graph) (groups : List (List OpId)) : Prop :=
  ∀ o, InGraph g ts o → ¬ TransGen (FeedsMerged g groups) o o

section Blocks

variable {g : Arena} {groups : List (List OpId)} {a b c : OpId}

theorem SameBlock.refl (a : OpId) : SameBlock groups a a := Or.inl rfl

theorem SameBlock.symm (h : SameBlock groups a b) : SameBlock groups b a := by
  rcases h with rfl | ⟨ms, hms, ha, hb⟩
  · exact .refl _
  · exact Or.inr ⟨ms, hms, hb, ha⟩

variable (disjoint : groups.Pairwise List.Disjoint)
include disjoint

theorem group_unique {ms ns : List OpId} (hm : ms ∈ groups) (hn : ns ∈ groups) (ha : a ∈ ms)
    (ha' : a ∈ ns) : ms = ns := by
  have symm : Std.Symm (List.Disjoint (α := OpId)) := ⟨fun _ _ h => h.symm⟩
  by_contra ne
  exact disjoint.forall hm hn ne ha ha'

theorem SameBlock.trans (h : SameBlock groups a b) (h' : SameBlock groups b c) :
    SameBlock groups a c := by
  rcases h with rfl | ⟨ms, hms, ha, hb⟩
  · exact h'
  · rcases h' with rfl | ⟨ns, hns, hb', hc⟩
    · exact Or.inr ⟨ms, hms, ha, hb⟩
    · rw [group_unique disjoint hms hns hb hb'] at ha
      exact Or.inr ⟨ns, hns, ha, hc⟩

theorem FeedsMerged.of_left (same : SameBlock groups a b) (h : FeedsMerged g groups b c) :
    FeedsMerged g groups a c := by
  obtain ⟨apart, b', c', hb, feeds, hc⟩ := h
  exact ⟨fun h => apart (same.symm.trans disjoint h), b', c', same.trans disjoint hb, feeds, hc⟩

theorem FeedsMerged.of_right (h : FeedsMerged g groups a b) (same : SameBlock groups b c) :
    FeedsMerged g groups a c := by
  obtain ⟨apart, a', b', ha, feeds, hb⟩ := h
  exact ⟨fun h => apart (h.trans disjoint same.symm), a', b', ha, feeds, hb.trans disjoint same⟩

theorem mergedPath_of_right (h : TransGen (FeedsMerged g groups) a b)
    (same : SameBlock groups b c) :
    TransGen (FeedsMerged g groups) a c := by
  obtain ⟨d, rest, last⟩ := TransGen.tail'_iff.1 h
  exact TransGen.tail' rest (last.of_right disjoint same)

theorem reaches_merged (h : Reaches g a b) : SameBlock groups a b ∨
    TransGen (FeedsMerged g groups) a b := by
  have step : ∀ {x y}, Feeds g x y → SameBlock groups x y ∨ FeedsMerged g groups x y := by
    intro x y feeds
    by_cases same : SameBlock groups x y
    · exact Or.inl same
    · exact Or.inr ⟨same, x, y, .refl _, feeds, .refl _⟩
  induction h with
  | single h => exact (step h).imp_right .single
  | tail _ h ih =>
    rcases ih with same | path
    · rcases step h with same' | feeds
      · exact Or.inl (same.trans disjoint same')
      · exact Or.inr (.single (feeds.of_left disjoint same))
    · grind [mergedPath_of_right]

/-- What lies between two members of a group is one itself. -/
theorem MergesAcyclic.convex {ts : Graph} (acyclic : MergesAcyclic g ts groups)
    (ha : InGraph g ts a) (same : SameBlock groups a b) (there : Reaches g a c)
    (back : Reaches g c b) : SameBlock groups a c := by
  rcases reaches_merged disjoint there with same' | there
  · exact same'
  · exfalso
    rcases reaches_merged disjoint back with same' | back
    · exact acyclic a ha (mergedPath_of_right disjoint there (same'.trans disjoint same.symm))
    · exact acyclic a ha (there.trans (mergedPath_of_right disjoint back same.symm))

theorem mergesAcyclic_of_rank {ts : Graph} (rank : OpId → Nat)
    (level : ∀ ms ∈ groups, ∀ a ∈ ms, ∀ b ∈ ms, rank a = rank b)
    (grows : ∀ k < g.ops.size, ∀ t ∈ (g.op ⟨k⟩).inputList, ∀ a ∈ (g.tensor t).src.ops,
      SameBlock groups a ⟨k⟩ ∨ rank a < rank ⟨k⟩) : MergesAcyclic g ts groups := by
  have same : ∀ {x y}, SameBlock groups x y → rank x = rank y := by
    rintro x y (rfl | ⟨ms, hms, hx, hy⟩)
    · rfl
    · exact level ms hms x hx y hy
  have step : ∀ {x y}, FeedsMerged g groups x y → rank x < rank y := by
    rintro x y ⟨apart, x', y', hx, ⟨t, ht, source⟩, hy⟩
    have low : y'.idx < g.ops.size := by
      refine Nat.lt_of_not_le fun h => ?_
      rw [Arena.op_of_le h] at ht
      cases ht
    rw [same hx, ← same hy]
    rcases grows y'.idx low t ht x' source with h | h
    · exact absurd ((hx.trans disjoint h).trans disjoint hy) apart
    · exact h
  intro o _ cycle
  have grown : rank o < rank o := by
    refine TransGen.trans_induction_on (motive := fun {x y} _ => rank x < rank y) cycle step fun _ _
      h h' => h.trans h'
  exact Nat.lt_irrefl _ grown

end Blocks

end Graph

end TensorGraph

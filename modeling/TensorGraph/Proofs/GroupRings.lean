import TensorGraph.Proofs.MergedGraph

/-!
# Rings of groups

Groups of operators that are all merged at once become blocks; groups that share an operator become
one block.
-/

namespace TensorGraph

namespace Graph

open Relation

def Together (groups : List (List OpId)) (a b : OpId) : Prop := ∃ ms ∈ groups, a ∈ ms ∧ b ∈ ms

def OneBlock (groups : List (List OpId)) : OpId → OpId → Prop := ReflTransGen (Together groups)

def FeedsBlock (g : Arena) (groups : List (List OpId)) (a b : OpId) : Prop :=
  ∃ a' b', OneBlock groups a a' ∧ Feeds g a' b' ∧ OneBlock groups b' b

def BlocksAcyclic (g : Arena) (ts : Graph) (groups : List (List OpId)) : Prop :=
  ∀ o, InGraph g ts o → ¬ TransGen (FeedsBlock g groups) o o

def Precedes (g : Arena) (ms ns : List OpId) : Prop := ∃ a ∈ ms, ∃ b ∈ ns, Reaches g a b

def LeadsOn (g : Arena) (groups : List (List OpId)) (ms ns : List OpId) : Prop :=
  ns ∈ groups ∧ (Precedes g ms ns ∨ ∃ a ∈ ms, a ∈ ns)

def Ring (g : Arena) (groups : List (List OpId)) (ms ns : List OpId) : Prop :=
  Precedes g ms ns ∧ ReflTransGen (LeadsOn g groups) ns ms

section Paths

variable {g : Arena} {ts : Graph} {groups : List (List OpId)} {a b c : OpId}

theorem Reaches.blocks (h : Reaches g a b) : TransGen (FeedsBlock g groups) a b :=
  TransGen.mono (fun _ _ feeds => ⟨_, _, .refl, feeds, .refl⟩) _ _ h

theorem blocks_together (h : TransGen (FeedsBlock g groups) a b) (same : Together groups b c) :
    TransGen (FeedsBlock g groups) a c := by
  obtain ⟨d, rest, a', b', ha, feeds, hb⟩ := TransGen.tail'_iff.1 h
  exact TransGen.tail' rest ⟨a', b', ha, feeds, hb.tail same⟩

theorem blocks_leadsOn {ms ns : List OpId} (h : ReflTransGen (LeadsOn g groups) ns ms)
    (start : ∀ b ∈ ns, TransGen (FeedsBlock g groups) a b) :
    ∀ b ∈ ms, TransGen (FeedsBlock g groups) a b := by
  induction h with
  | refl => exact start
  | tail _ step ih =>
    intro b hb
    obtain ⟨member, ⟨c, hc, d, hd, path⟩ | ⟨c, hc, hd⟩⟩ := step
    · exact blocks_together ((ih c hc).trans path.blocks) ⟨_, member, hd, hb⟩
    · exact blocks_together (ih c hc) ⟨_, member, hd, hb⟩

theorem Ring.cycle {ms ns : List OpId} (hn : ns ∈ groups) (ring : Ring g groups ms ns) :
    ∃ a ∈ ms, TransGen (FeedsBlock g groups) a a := by
  obtain ⟨⟨a, ha, b, hb, path⟩, back⟩ := ring
  exact ⟨a, ha, blocks_leadsOn back (fun c hc => blocks_together path.blocks ⟨ns, hn, hb, hc⟩) a ha⟩

/-- A way along links and through groups is a path, or it leads into a group and, from group to
group, out of one. -/
theorem way_cases {z : OpId}
    (way : ReflTransGen (fun x y => Feeds g x y ∨ Together groups x y) b z) :
    ReflTransGen (Feeds g) b z ∨
    ∃ ms ∈ groups, ∃ ns ∈ groups, (∃ c ∈ ms, ReflTransGen (Feeds g) b c) ∧
    ReflTransGen (LeadsOn g groups) ms ns ∧ ∃ c ∈ ns, ReflTransGen (Feeds g) c z := by
  induction way with
  | refl => exact Or.inl .refl
  | @tail y z _ step ih =>
    rcases step with feeds | ⟨os, member, hy, hz⟩
    · grind
    · rcases ih with path | ⟨ms, hms, ns, hns, into, on, c, hc, path⟩
      · grind
      · refine Or.inr ⟨ms, hms, os, member, into, on.tail ⟨member, ?_⟩, z, hz, .refl⟩
        rcases reflTransGen_iff_eq_or_transGen.1 path with rfl | path
        · exact Or.inr ⟨y, hc, hy⟩
        · exact Or.inl ⟨c, hc, y, hy, path⟩

theorem OneBlock.way (h : OneBlock groups a b) :
    ReflTransGen (fun x y => Feeds g x y ∨ Together groups x y) a b :=
  ReflTransGen.mono (fun _ _ => Or.inr) _ _ h

theorem FeedsBlock.way (h : FeedsBlock g groups a b) :
    ReflTransGen (fun x y => Feeds g x y ∨ Together groups x y) a b := by
  obtain ⟨a', b', ha, feeds, hb⟩ := h
  exact (ha.way.tail (Or.inl feeds)).trans hb.way

theorem blocksAcyclic_iff (ordered : Ordered g ts)
    (inside : ∀ ms ∈ groups, ∀ a ∈ ms, InGraph g ts a) :
    BlocksAcyclic g ts groups ↔ ∀ ms ∈ groups, ∀ ns ∈ groups, ¬ Ring g groups ms ns := by
  constructor
  · intro acyclic ms hms ns hns ring
    obtain ⟨a, ha, cycle⟩ := ring.cycle hns
    exact acyclic a (inside ms hms a ha) cycle
  · intro ringless o ho cycle
    obtain ⟨c, ⟨a, b, ha, feeds, hb⟩, rest⟩ := TransGen.head'_iff.1 cycle
    have member : InGraph g ts a := by
      rcases ReflTransGen.cases_tail ha with rfl | ⟨d, -, ms, hms, -, ha⟩
      · exact ho
      · exact inside ms hms a ha
    have back : ReflTransGen (fun x y => Feeds g x y ∨ Together groups x y) b a :=
      (hb.way.trans (reflTransGen_closed (fun _ _ h => FeedsBlock.way h) _ _ rest)).trans ha.way
    rcases way_cases back with path | ⟨ms, hms, ns, hns, ⟨d, hd, into⟩, on, c, hc, out⟩
    · exact ordered.not_reaches member (TransGen.head' feeds path)
    · exact ringless ns hns ms hms
        ⟨⟨c, hc, d, hd, TransGen.trans_left (TransGen.tail' out feeds) into⟩, on⟩

end Paths

end Graph

end TensorGraph

import Mathlib.Data.List.Perm.Subperm
import Mathlib.Logic.Relation
import TensorGraph.Graph.Reach
import TensorGraph.Proofs.Nodes

/-!
# Reachability

An operator feeds another one if it produces one of its inputs.  The search layer by layer ends,
also where operators feed each other in a ring:

    isAncestor a b g = .ok true g  ↔  Reaches g a b          (isAncestor_returns_iff)
-/

namespace TensorGraph

namespace Graph

open Build

def Feeds (g : Arena) (a b : OpId) : Prop := ∃ t ∈ (g.op b).inputList, a ∈ (g.tensor t).src.ops

instance (g : Arena) (a b : OpId) : Decidable (Feeds g a b) :=
  inferInstanceAs (Decidable (∃ t ∈ (g.op b).inputList, a ∈ (g.tensor t).src.ops))

def Reaches (g : Arena) : OpId → OpId → Prop := Relation.TransGen (Feeds g)

def InGraph (g : Arena) (ts : List TensorId) (o : OpId) : Prop := ∃ t ∈ ts, o ∈ (g.tensor t).src.ops

theorem length_le_of_applied {g : Arena} {os : List OpId} (nodup : os.Nodup)
    (applied : ∀ o ∈ os, (g.op o).inputs.isSome) :
    os.length ≤ g.ops.size := by
  have known : os ⊆ (List.range g.ops.size).map OpId.mk := fun o ho =>
    List.mem_map.2 ⟨o.idx, List.mem_range.2 (Arena.lt_of_applied (applied o ho)), rfl⟩
  simpa using (List.subperm_of_subset nodup known).length_le

/-- A set of applied operators that holds everything it is fed by. -/
structure Closed (g : Arena) (S : OpId → Prop) : Prop where
  applied : ∀ o, S o → (g.op o).inputs.isSome
  fed : ∀ a b, S b → Feeds g a b → S a

section

variable {g : Arena} {S : OpId → Prop} (closed : Closed g S)
include closed

theorem Closed.inputs_run {o : OpId} (ho : S o) : inputs o g = .ok (g.op o).inputList g := by
  obtain ⟨ts, hts⟩ := Option.isSome_iff_exists.1 (closed.applied o ho)
  grind [inputs_ok, Operator.inputList]

theorem Closed.isParent_run (a : OpId) {b : OpId} (hb : S b) :
    isParent a b g = .ok (decide (Feeds g a b)) g := by
  unfold isParent
  rw [bind_run (closed.inputs_run hb)]
  have : ((g.op b).inputList.any fun t => (g.tensor t).src.ops.contains a) = decide
    (Feeds g a b) := by
    rw [Bool.eq_iff_iff, decide_eq_true_iff]
    simp [Feeds]
  rw [← this]
  rfl

/-- What a search has visited is not fed by what it looks for, and all that feeds it was visited or
lies ahead. -/
structure Explored (g : Arena) (S : OpId → Prop) (a : OpId) (visited ahead : List OpId) : Prop where
  nodup : visited.Nodup
  inside : ∀ o ∈ visited, S o
  missed : ∀ o ∈ visited, ¬ Feeds g a o
  fed : ∀ o ∈ visited, ∀ p, Feeds g p o → p ∈ visited ∨ p ∈ ahead

/-- Where the search stands within a layer: it has hit what it looks for, or visited the front of
the layer. -/
structure Scanned (g : Arena) (S : OpId → Prop) (a : OpId) (visited layer front : List OpId)
    (r : Bool × List OpId × List OpId) : Prop where
  hit : r.1 = true → ∃ o ∈ layer, Feeds g a o
  ahead : ∀ p ∈ r.2.2, ∃ o ∈ layer, Feeds g p o
  missed : r.1 = false → Explored g S a r.2.1 (layer ++ r.2.2) ∧
    (∀ o, o ∈ r.2.1 ↔ o ∈ visited ∨ o ∈ front) ∧
    (r.2.1 = visited ∧ r.2.2 = [] ∨ visited.length < r.2.1.length)

section Search

variable {a : OpId} {visited layer : List OpId}

omit closed in
theorem Explored.not_reaches (done : Explored g S a visited []) {o : OpId} (ho : o ∈ visited) :
    ¬ Reaches g a o := by
  intro reaches
  induction reaches with
  | single feeds => exact done.missed _ ho feeds
  | tail _ feeds ih => exact ih ((done.fed _ ho _ feeds).resolve_right (by simp))

theorem Closed.length_le (explored : Explored g S a visited layer) : visited.length ≤ g.ops.size :=
  length_le_of_applied explored.nodup fun o ho => closed.applied o (explored.inside o ho)

theorem Closed.seekLayer_run (hlayer : ∀ o ∈ layer, S o) (explored : Explored g S a visited layer) :
    ∃ r, seekLayer a visited layer g = .ok r g ∧ Scanned g S a visited layer layer r := by
  have start : Scanned g S a visited layer [] (false, visited, []) :=
    ⟨by simp, by simp, fun _ => ⟨by simpa using explored, by simp, by simp⟩⟩
  refine foldlM_passes (Scanned g S a visited layer) (fun front o rest r split scanned => ?_) start
  obtain ⟨found, seen, next⟩ := r
  obtain ⟨hit, ahead, missed⟩ := scanned
  have ho : o ∈ layer := by simp [split]
  dsimp only at hit ahead missed ⊢
  split
  · next skip =>
    refine ⟨_, rfl, hit, ahead, fun none => ?_⟩
    obtain ⟨explored, mem, more⟩ := missed none
    have old : o ∈ seen := by simpa [show found = false from none] using skip
    exact ⟨explored, fun p => by grind, more⟩
  · next turn =>
    have mem : ∀ p, p ∈ ((g.op o).inputList.flatMap fun t => (g.tensor t).src.ops) ↔ Feeds g p o :=
      fun p => List.mem_flatMap
    rw [bind_run (closed.inputs_run (hlayer o ho)), bind_run get_run]
    generalize ((g.op o).inputList.flatMap fun t => (g.tensor t).src.ops) = sources at mem
    refine ⟨_, rfl, fun h => ⟨o, ho, (mem a).1 (by simpa using h)⟩,
      List.forall_mem_append.2 ⟨ahead, fun p hp => ⟨o, ho, (mem p).1 hp⟩⟩, fun none => ?_⟩
    obtain ⟨explored, visits, more⟩ := missed (by grind)
    refine ⟨⟨?_, ?_, ?_, ?_⟩, ?_, ?_⟩
    · exact List.nodup_cons.2 ⟨by grind, explored.nodup⟩
    · exact List.forall_mem_cons.2 ⟨hlayer o ho, explored.inside⟩
    · exact List.forall_mem_cons.2 ⟨by grind, explored.missed⟩
    · have := explored.fed
      grind
    · grind
    · grind

/-- With enough layers to come, a search from some operators finds exactly what reaches one of
them. -/
theorem Closed.seek_run (n : Nat) (hlayer : ∀ o ∈ layer, S o)
    (explored : Explored g S a visited layer) (turn : 0 < n)
    (enough : layer = [] ∨ g.ops.size + 1 < n + visited.length) :
    ∃ found, seek a n visited layer g = .ok found g ∧
    (found = true ↔ ∃ o ∈ visited ++ layer, Reaches g a o) := by
  induction n generalizing visited layer with
  | zero => exact absurd turn (Nat.lt_irrefl 0)
  | succ n ih =>
    unfold seek
    split
    · next empty =>
      obtain rfl := List.isEmpty_iff.1 empty
      exact ⟨false, rfl, by simpa using fun o ho => explored.not_reaches ho⟩
    · next some =>
      obtain ⟨⟨found, visited', next⟩, run, hit, ahead, missed⟩ :=
        closed.seekLayer_run hlayer explored
      rw [bind_run run]
      cases found with
      | true =>
        obtain ⟨o, ho, feeds⟩ := hit rfl
        exact ⟨true, rfl, fun _ => ⟨o, List.mem_append_right _ ho, .single feeds⟩, fun _ => rfl⟩
      | false =>
        obtain ⟨explored', mem, more⟩ := missed rfl
        have explored' : Explored g S a visited' next :=
          ⟨explored'.nodup, explored'.inside, explored'.missed, by
          have := explored'.fed
          grind⟩
        have hnext : ∀ p ∈ next, S p := fun p hp => by
          obtain ⟨o, ho, feeds⟩ := ahead p hp
          exact closed.fed p o (hlayer o ho) feeds
        have := closed.length_le explored'
        have room := enough.resolve_left (by simpa using some)
        obtain ⟨found, run, exact⟩ := ih hnext explored' (by grind) (by grind)
        refine ⟨found, run, exact.trans ⟨?_, ?_⟩⟩
        · rintro ⟨p, hp, reaches⟩
          rcases List.mem_append.1 hp with hp | hp
          · grind
          · obtain ⟨o, ho, feeds⟩ := ahead p hp
            exact ⟨o, List.mem_append_right _ ho, reaches.tail feeds⟩
        · grind

theorem Closed.isAncestor_run (a : OpId) {b : OpId} (hb : S b) :
    ∃ found, isAncestor a b g = .ok found g ∧ (found = true ↔ Reaches g a b) := by
  have start : Explored g S a [] [b] := ⟨by simp, by simp, by simp, by simp⟩
  obtain ⟨found, run, exact⟩ := closed.seek_run (g.ops.size + 2) (by simpa using hb) start (by simp)
    (by simp)
  exact ⟨found, run, by simpa using exact⟩

end Search

end

/-- On any graph, also on one with cycles, the search ends and finds exactly the operators that a
path leads from. -/
theorem isAncestor_returns_iff {g : Arena} {a b : OpId}
    (applied : ∀ o, o = b ∨ Reaches g o b → (g.op o).inputs.isSome) :
    ∃ found, isAncestor a b g = .ok found g ∧ (found = true ↔ Reaches g a b) := by
  refine Closed.isAncestor_run (S := fun o => o = b ∨ Reaches g o b) ⟨applied, ?_⟩ a (Or.inl rfl)
  rintro p o (rfl | reaches) feeds
  · exact Or.inr (.single feeds)
  · exact Or.inr (.head feeds reaches)

/-- Two operators that feed each other, and one that reads what the first one makes. -/
theorem isAncestor_returns_iff_ring :
    let g := Arena.ofNodes [4] [([0], [1], [0]), ([0], [0], [1, 2]), ([0], [2], [])]
      #[.between .softmax [0] [1], .between .softmax [1] [0], .between .softmax [1] [2]]
    isAncestor ⟨0⟩ ⟨0⟩ g = .ok true g ∧ Reaches g ⟨0⟩ ⟨0⟩ ∧ isAncestor ⟨2⟩ ⟨0⟩ g = .ok false g ∧
    ¬ Reaches g ⟨2⟩ ⟨0⟩ := by
  intro g
  -- whatever feeds an operator is one of the three
  have known : ∀ o p, Feeds g o p → (g.op o).inputs.isSome := by
    rintro o p ⟨t, -, ho⟩
    have all : ∀ i < 3, ∀ o ∈ (g.tensor ⟨i⟩).src.ops, (g.op o).inputs.isSome := by decide
    exact all t.idx (Arena.lt_of_src ho) o ho
  have applied : ∀ o, o = (⟨0⟩ : OpId) ∨ Reaches g o ⟨0⟩ → (g.op o).inputs.isSome := by
    rintro o (rfl | reaches)
    · rfl
    · obtain ⟨p, feeds, -⟩ := Relation.TransGen.head'_iff.1 reaches
      exact known o p feeds
  have ring : isAncestor ⟨0⟩ ⟨0⟩ g = .ok true g := rfl
  have apart : isAncestor ⟨2⟩ ⟨0⟩ g = .ok false g := rfl
  obtain ⟨_, run, found⟩ := isAncestor_returns_iff (a := ⟨0⟩) applied
  obtain ⟨_, run', missed⟩ := isAncestor_returns_iff (a := ⟨2⟩) applied
  cases ring.symm.trans run
  cases apart.symm.trans run'
  exact ⟨ring, found.1 rfl, apart, fun reaches => by simpa using missed.2 reaches⟩

end Graph

end TensorGraph

import Mathlib
import TensorGraph.Proofs.Tidying

/-!
# Users that are forgotten

`forgetUnused` visits the users of the listed tensors, the users of what they write, and so on, also
outside of the list. A visited one that produces nothing in the list is `Forgotten` by its inputs.
-/

namespace TensorGraph.Graph

open List Build

variable {g h : Arena} {S V N layer : List OpId} {o p : OpId} {t : TensorId}

/-- Some users of tensors have been discarded, and no other link has changed. -/
structure Without (R : OpId → TensorId → Prop) (g h : Arena) : Prop where
  op : ∀ o, h.op o = g.op o
  src : ∀ t, (h.tensor t).src = (g.tensor t).src
  fixed : ∀ t, (h.tensor t).dst.fixed = (g.tensor t).dst.fixed
  users : ∀ t p, p ∈ (h.tensor t).dst.ops ↔ p ∈ (g.tensor t).dst.ops ∧ ¬ R p t

theorem Without.trans {R R' R'' : OpId → TensorId → Prop} {k : Arena} (first : Without R g h)
    (second : Without R' h k) (both : ∀ p t, R'' p t ↔ R p t ∨ R' p t) : Without R'' g k where
  op o := (second.op o).trans (first.op o)
  src t := (second.src t).trans (first.src t)
  fixed t := (second.fixed t).trans (first.fixed t)
  users t p := by rw [second.users, first.users, both, not_or, and_assoc]

theorem Without.none {R : OpId → TensorId → Prop} (empty : ∀ p t, ¬ R p t) (g : Arena) :
    Without R g g :=
  ⟨fun _ => rfl, fun _ => rfl, fun _ => rfl, by simp [empty]⟩

theorem discardDst_without {x : TensorId} (changeable : (g.tensor x).dst.fixed = false) :
    ∃ h, discardDst x o g = .ok () h ∧ Without (fun p t => p = o ∧ t = x) g h := by
  have run : discardDst x o g = .ok () (g.modifyTensor x fun y =>
    { y with dst := y.dst.erase o }) := by
    rw [discardDst, bind_run (Build.tensor_run x), bind_run (require_run (by simp [changeable])),
      modifyTensor_run]
  refine ⟨_, run, fun _ => rfl, fun t => ?_, fun t => ?_, fun t p => ?_⟩
  all_goals rw [Arena.tensor_modifyTensor_ite]
  · split <;> rfl
  · split <;> rfl
  · split
    · simp [Links.erase, *]
    · have := Arena.lt_of_dst (g := g) (t := t) (o := p)
      grind

theorem discards_without (xs : List TensorId) (changeable : ∀ x, (g.tensor x).dst.fixed = false) :
    ∃ h, xs.forM (discardDst · o) g = .ok () h ∧ Without (fun p t => p = o ∧ t ∈ xs) g h := by
  refine forM_arrives (fun done h => Without (fun p t => p = o ∧ t ∈ done) g h)
    (fun done x rest _ h without => ?_) (.none (by simp) g)
  obtain ⟨h', run, last⟩ := discardDst_without (o := o) (x := x) (g := h)
    (by rw [without.fixed, changeable])
  exact ⟨h', run, without.trans last (by simp [and_or_left])⟩

def Forgotten (g : Arena) (S V : List OpId) (p : OpId) (t : TensorId) : Prop := p ∈ V ∧ p ∉ S ∧
    t ∈ (g.op p).inputList

/-- A walk that has visited `V` and has still to visit `N`. -/
structure Walking (g : Arena) (S V N : List OpId) (h : Arena) : Prop where
  without : Without (Forgotten g S V) g h
  nodup : V.Nodup
  applied : ∀ o ∈ V ++ N, (g.op o).inputs.isSome ∧ (g.op o).outputs.isSome
  closed : ∀ o ∈ V, ∀ y ∈ (g.op o).outputList, ∀ p ∈ (h.tensor y).dst.ops, p ∈ V ++ N

theorem Walking.pass (walking : Walking g S V (layer ++ N) h) (visited : layer ⊆ V) :
    Walking g S V N h where
  without := walking.without
  nodup := walking.nodup
  applied o ho := walking.applied o (by grind)
  closed o ho y hy p hp := by
    have := walking.closed o ho y hy p hp
    grind

theorem Walking.length_le (walking : Walking g S V N h) : V.length ≤ g.ops.size :=
  length_le_of_applied walking.nodup fun o ho => (walking.applied o (mem_append_left _ ho)).1

section Walk

variable (changeable : ∀ x, (g.tensor x).dst.fixed = false)
  (known : ∀ x, ∀ o ∈ (g.tensor x).dst.ops, (g.op o).inputs.isSome ∧ (g.op o).outputs.isSome)
include known

theorem Walking.visit {k : Arena} (walking : Walking g S V N h) (pending : o ∈ N) (new : o ∉ V)
    (without : Without (Forgotten g S (o :: V)) g k) :
    Walking g S (o :: V) (N ++ (g.op o).outputList.flatMap fun y => (k.tensor y).dst.ops) k := by
  refine ⟨without, nodup_cons.2 ⟨new, walking.nodup⟩, fun p hp => ?_, fun p hp y hy q hq => ?_⟩
  · by_cases old : p ∈ V ++ N
    · exact walking.applied p old
    · obtain ⟨y, -, user⟩ : ∃ y ∈ (g.op o).outputList, p ∈ (k.tensor y).dst.ops := by grind
      exact known y p ((without.users y p).1 user).1
  · by_cases here : p = o
    · grind
    · have before : q ∈ (h.tensor y).dst.ops := by
        rw [walking.without.users]
        rw [without.users] at hq
        exact ⟨hq.1, fun forgotten => hq.2 ⟨mem_cons_of_mem _ forgotten.1, forgotten.2⟩⟩
      have := walking.closed p ((mem_cons.1 hp).resolve_left here) y hy q before
      grind

include changeable

theorem Walking.layer_run (walking : Walking g S V layer h) :
    ∃ V' N h', pruneLayer S V layer h = .ok (V', N) h' ∧ Walking g S V' N h' ∧ layer ⊆ V' ∧ V ⊆ V' ∧
      (V.length < V'.length ∨ V' = V ∧ N = []) := by
  suffices walk : ∃ r h', pruneLayer S V layer h = .ok r h' ∧ Walking g S r.1 (layer ++ r.2) h' ∧
    layer ⊆ r.1 ∧ V ⊆ r.1 ∧
      (V.length < r.1.length ∨ r.1 = V ∧ r.2 = []) by
    obtain ⟨⟨V', N⟩, h', run, walked, all, old, grown⟩ := walk
    exact ⟨V', N, h', run, walked.pass all, all, old, grown⟩
  refine foldlM_arrives (fun done (r : List OpId × List OpId) k => Walking g S r.1 (layer ++ r.2)
    k ∧ done ⊆ r.1 ∧ V ⊆ r.1 ∧
    (V.length < r.1.length ∨ r.1 = V ∧ r.2 = [])) ?_ (by simpa using walking)
  rintro done o rest split ⟨V', N⟩ k ⟨walked, front, old, grown⟩
  have pending : o ∈ layer ++ N := by grind
  obtain ⟨applied, written⟩ := walked.applied o (mem_append_right _ pending)
  obtain ⟨ys, hys⟩ := Option.isSome_iff_exists.1 written
  have outputList : (g.op o).outputList = ys := by simp [Operator.outputList, hys]
  dsimp only
  split
  · next visited => exact ⟨_, k, rfl, walked, by grind, old, grown⟩
  · next new =>
    have new : o ∉ V' := by simpa using new
    have reach {k' : Arena} (without : Without (Forgotten g S (o :: V')) g k') :
        Walking g S (o :: V') (layer ++ (N ++ ys.flatMap fun y => (k'.tensor y).dst.ops)) k' ∧
        done ++ [o] ⊆ o :: V' ∧ V ⊆ o :: V' ∧ (V.length < (o :: V').length ∨ o :: V' = V ∧
          N ++ (ys.flatMap fun y => (k'.tensor y).dst.ops) = []) := by
      refine ⟨?_, by grind, by grind, Or.inl (by grind)⟩
      rw [← append_assoc, ← outputList]
      exact walked.visit known pending new without
    split
    · next unlisted =>
      obtain ⟨xs, hxs⟩ := Option.isSome_iff_exists.1 applied
      have inputList : (g.op o).inputList = xs := by simp [Operator.inputList, hxs]
      obtain ⟨k', loop, last⟩ := discards_without (o := o) (g := k) xs
        (by simp [walked.without.fixed, changeable])
      refine ⟨(_, _), k', ?_, reach (walked.without.trans last ?_)⟩
      · rw [← walked.without.op] at hxs hys
        rw [← last.op] at hys
        rw [bind_run (inputs_ok.2 ⟨hxs, rfl⟩), forIn_eq_forM, bind_run loop,
          bind_run (outputs_ok.2 ⟨hys, rfl⟩)]
        rfl
      · grind [Forgotten]
    · next listed =>
      refine ⟨(_, _), k, ?_, reach (walked.without.trans (.none (R := fun _ _ => False) (by simp) k)
        ?_)⟩
      · rw [← walked.without.op] at hys
        rw [bind_run (outputs_ok.2 ⟨hys, rfl⟩)]
        rfl
      · grind [Forgotten]

theorem Walking.layers_run (n : Nat) (walking : Walking g S V layer h) (turn : 0 < n)
    (enough : layer = [] ∨ g.ops.size + 1 < n + V.length) :
    ∃ V' h', pruneLayers S n V layer h = .ok () h' ∧ Walking g S V' [] h' ∧ layer ⊆ V' ∧
    V ⊆ V' := by
  induction n generalizing V layer h with
  | zero => exact absurd turn (Nat.lt_irrefl 0)
  | succ n ih =>
    unfold pruneLayers
    split
    · next empty =>
      obtain rfl := isEmpty_iff.1 empty
      exact ⟨V, h, rfl, walking, nil_subset V, Subset.refl V⟩
    · next some =>
      obtain ⟨V', N, h', run, walking', all, old, grown⟩ := walking.layer_run changeable known
      have := walking'.length_le
      have room := enough.resolve_left (by simpa using some)
      obtain ⟨V'', h'', run', last, -, new⟩ := ih walking' (by grind) (by grind)
      rw [bind_run run]
      exact ⟨V'', h'', run', last, Subset.trans all new, Subset.trans old new⟩

end Walk

/-- An operator that uses a listed tensor stays known to it exactly if it produces something in the
list, no other link changes, and forgetting again changes nothing. -/
theorem forgetUnused_users (ts : Graph) (changeable : ∀ x, (g.tensor x).dst.fixed = false)
    (known : ∀ x, ∀ o ∈ (g.tensor x).dst.ops, (g.op o).inputs.isSome ∧ (g.op o).outputs.isSome)
    (reads : ∀ t ∈ ts, ∀ o ∈ (g.tensor t).dst.ops, t ∈ (g.op o).inputList) :
    ∃ g', forgetUnused ts g = .ok () g' ∧
      (∀ t ∈ ts, ∀ o, o ∈ (g'.tensor t).dst.ops ↔ o ∈ (g.tensor t).dst.ops ∧ InGraph g ts o) ∧
      (∀ t, (g'.tensor t).src = (g.tensor t).src) ∧ (∀ o, g'.op o = g.op o) ∧
        forgetUnused ts g' = .ok () g' := by
  have start : Walking g (sources g ts) [] (ts.flatMap fun t => (g.tensor t).dst.ops) g := by
    refine ⟨.none (by simp [Forgotten]) g, nodup_nil, fun o ho => ?_, by simp⟩
    obtain ⟨t, -, user⟩ := mem_flatMap.1 ho
    exact known t o user
  obtain ⟨V, g', run, walked, all, -⟩ := start.layers_run changeable known (g.ops.size + 2)
    (by simp) (by simp)
  have visited {t : TensorId} {o : OpId} (ht : t ∈ ts) (ho : o ∈ (g.tensor t).dst.ops) : o ∈ V :=
    all (mem_flatMap.2 ⟨t, ht, ho⟩)
  have users : ∀ t ∈ ts, ∀ o, o ∈ (g'.tensor t).dst.ops ↔ o ∈ (g.tensor t).dst.ops ∧
    InGraph g ts o := by
    intro t ht o
    rw [walked.without.users, ← mem_sources, Forgotten]
    grind
  have again : forgetUnused ts g' = .ok () g' := by
    refine pruneLayers_run (S := (· ∈ V)) (fun o ho => ?_) (fun o ho => ?_)
      (fun o ho y hy p hp => ?_) _
      ⟨nodup_nil, by simp⟩ (fun o ho => ?_) (by simp) (by simp)
    · by_cases listed : InGraph g ts o
      · exact Or.inl (mem_sources.2 (by simpa [InGraph, walked.without.src] using listed))
      · refine Or.inr ⟨by rw [walked.without.op]; exact (walked.applied o (by simpa)).1, fun x hx =>
          ⟨?_, fun user => ?_⟩⟩
        · rw [walked.without.fixed, changeable]
        · rw [walked.without.op] at hx
          exact ((walked.without.users x o).1 user).2 ⟨ho, mt mem_sources.1 listed, hx⟩
    · rw [walked.without.op]
      exact walked.applied o (by simpa)
    · rw [walked.without.op] at hy
      simpa using walked.closed o ho y hy p hp
    · obtain ⟨t, ht, user⟩ := mem_flatMap.1 ho
      exact visited ht ((walked.without.users t o).1 user).1
  exact ⟨g', run, users, walked.without.src, walked.without.op, again⟩

/-- Of the two users of an input the one that produces an unlisted tensor is forgotten. -/
theorem forgetUnused_users_unlisted :
    let g := Arena.ofNodes [4] [([0], [], [0, 1]), ([0], [0], []), ([0], [1], [])]
      #[.between .elementwise [0] [1], .between .softmax [0] [2]]
    ∃ g', forgetUnused [⟨0⟩, ⟨1⟩] g = .ok () g' ∧ ⟨1⟩ ∉ (g'.tensor ⟨0⟩).dst.ops := by
  intro g
  have inside : ∀ i < 3, (g.tensor ⟨i⟩).dst.fixed = false ∧
      ∀ o ∈ (g.tensor ⟨i⟩).dst.ops, (g.op o).inputs.isSome ∧ (g.op o).outputs.isSome := by decide
  have all : ∀ x, (g.tensor x).dst.fixed = false ∧
      ∀ o ∈ (g.tensor x).dst.ops, (g.op o).inputs.isSome ∧ (g.op o).outputs.isSome := by
    intro x
    rcases lt_or_ge x.idx 3 with lt | ge
    · exact inside x.idx lt
    · rw [Arena.tensor_of_le (g := g) ge]
      exact ⟨rfl, by decide⟩
  obtain ⟨g', run, users, -⟩ := forgetUnused_users [⟨0⟩, ⟨1⟩] (fun x => (all x).1)
    (fun x => (all x).2) (by decide)
  exact ⟨g', run, fun user => absurd (mem_sources.2 ((users _ (by simp) _).1 user).2) (by decide)⟩

end TensorGraph.Graph

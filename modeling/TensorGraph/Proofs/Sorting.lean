import Mathlib.Data.Finset.Card
import Mathlib.Logic.Relation
import TensorGraph.Proofs.Lists
import TensorGraph.Proofs.SortedGraph
import TensorGraph.Proofs.Steps

/-!
# Sorting a graph

`sort` walks from the given tensors to all they depend on and to all that is written beside those.
-/

namespace TensorGraph

open List

variable {g : Arena} {done done' roots : Graph} {t u x : TensorId}

namespace Graph

open Build

def Needs (g : Arena) (u t : TensorId) : Prop := ∃ o ∈ (g.tensor t).src.ops, u ∈ (g.op o).inputList

def Beside (g : Arena) (t u : TensorId) : Prop := ∃ o ∈ (g.tensor t).src.ops, u ∈
    (g.op o).outputList

def Ordered (g : Arena) (ts : Graph) : Prop :=
  ∀ t ∈ ts, ∀ o ∈ (g.tensor t).src.ops, (g.op o).inputs.isSome ∧
    ∀ x ∈ (g.op o).inputList, Before ts x t

/-! ## Walks -/

def readFor (g : Arena) (t : TensorId) : List TensorId :=
  (g.tensor t).src.ops.flatMap fun o => deepestFirst g (g.op o).inputList

def writtenBeside (g : Arena) (t : TensorId) : List TensorId :=
  (g.tensor t).src.ops.flatMap fun o => (g.op o).outputList

theorem mem_insertByDepth {us : List TensorId} : x ∈ insertByDepth g t us ↔ x = t ∨ x ∈ us := by
  induction us with
  | nil => simp [insertByDepth]
  | cons u us ih =>
    unfold insertByDepth
    grind

theorem mem_deepestFirst {us : List TensorId} : x ∈ deepestFirst g us ↔ x ∈ us := by
  induction us with
  | nil => rfl
  | cons u us ih => rw [deepestFirst, foldr_cons, mem_insertByDepth, ← deepestFirst, ih, mem_cons]

theorem mem_readFor : x ∈ readFor g t ↔ Needs g x t := by
  simp only [readFor, mem_flatMap, mem_deepestFirst]
  exact Iff.rfl

theorem mem_writtenBeside {y : TensorId} : y ∈ writtenBeside g t ↔ Beside g t y := mem_flatMap

/-- A walk to some tensors, one after the other: from those listed at its start to those listed at
its end. -/
inductive Walks (g : Arena) : List TensorId → Graph → Graph → Prop
  | nil {done : Graph} : Walks g [] done done
  | listed {t : TensorId} {ts done done' : Graph} (known : t ∈ done) (rest : Walks g ts done done')
    : Walks g (t :: ts) done done'
  | fresh {t : TensorId} {ts done done₁ done₂ done' : Graph} (new : t ∉ done)
      (applied : ∀ o ∈ (g.tensor t).src.ops, (g.op o).inputs.isSome)
      (reads : Walks g (readFor g t) done done₁)
        (writes : Walks g (writtenBeside g t) (done₁ ++ [t]) done₂)
      (rest : Walks g ts done₂ done') : Walks g (t :: ts) done done'

namespace Walks

variable {g : Arena} {ts us : List TensorId} {done done' done'' : Graph}

theorem append (h : Walks g ts done done') (h' : Walks g us done' done'') :
    Walks g (ts ++ us) done done'' := by
  induction h with
  | nil => exact h'
  | listed known _ ih => exact .listed known (ih h')
  | fresh new applied reads writes _ _ _ ih => exact .fresh new applied reads writes (ih h')

theorem isPrefix (h : Walks g ts done done') : done <+: done' := by
  induction h with
  | nil => exact prefix_refl _
  | listed _ _ ih => exact ih
  | fresh _ _ _ _ _ reads writes rest => grind

theorem subset (h : Walks g ts done done') : ts ⊆ done' := by
  induction h with
  | nil => exact nil_subset _
  | listed known rest ih => exact cons_subset.2 ⟨rest.isPrefix.subset known, ih⟩
  | fresh _ _ _ writes rest _ _ ih =>
    exact cons_subset.2 ⟨rest.isPrefix.subset (writes.isPrefix.subset (by simp)), ih⟩

end Walks

section Loops

variable {α β ε : Type} {l : List α} {f : β → α → Except ε β} {b c : β}

theorem foldlM_cons_ok {a : α} (run : (a :: l).foldlM f b = .ok c) : ∃ d, f b a = .ok d ∧
    l.foldlM f d = .ok c := by
  cases first : f b a with
  | error e => simp [first, bind, Except.bind] at run
  | ok d => exact ⟨d, rfl, by simpa [first, bind, Except.bind] using run⟩

theorem foldlM_succeeds (P : β → Prop) (turn : ∀ a ∈ l, ∀ b, P b → ∃ c, f b a = .ok c ∧ P c)
    (start : P b) :
    ∃ c, l.foldlM f b = .ok c ∧ P c := by
  induction l generalizing b with
  | nil => exact ⟨b, rfl, start⟩
  | cons a l ih =>
    obtain ⟨d, first, kept⟩ := turn a mem_cons_self b start
    obtain ⟨c, run, done⟩ := ih (fun x hx => turn x (mem_cons_of_mem _ hx)) kept
    refine ⟨c, ?_, done⟩
    rw [foldlM_cons, first]
    exact run

end Loops

def visitAll (g : Arena) (n : Nat) (fault : Fault) (tensors : Operator → Option (List TensorId))
    (done : Graph) (o : OpId) :
    Except Fault Graph :=
  match tensors (g.op o) with
  | some ts => ts.foldlM (visit g n) done
  | none => .error fault

theorem visit_succ (g : Arena) (n : Nat) (done : Graph) (t : TensorId) :
    visit g (n + 1) done t = if done.contains t then .ok done else
      (g.tensor t).src.ops.foldlM (visitAll g n .badType fun o => o.inputs.map (deepestFirst g))
        done >>= fun done => (g.tensor t).src.ops.foldlM (visitAll g n .badKey (·.outputs))
        (done ++ [t]) := by
  have reads : (visitAll g n .badType fun o => o.inputs.map (deepestFirst g)) = fun acc o => (do
      let ts ← match (g.op o).inputs with
        | some ts => .ok ts
        | none => .error .badType
      (deepestFirst g ts).foldlM (visit g n) acc : Except Fault Graph) := by
    funext acc o
    unfold visitAll
    dsimp only
    cases (g.op o).inputs <;> rfl
  have writes : visitAll g n .badKey (·.outputs) = fun acc o => (do
      let ts ← match (g.op o).outputs with
        | some ts => .ok ts
        | none => .error .badKey
      ts.foldlM (visit g n) acc : Except Fault Graph) := by
    funext acc o
    unfold visitAll
    dsimp only
    cases (g.op o).outputs <;> rfl
  rw [reads]
  rfl

section Returned

variable {g : Arena} {n : Nat} (ih : ∀ {done done' : Graph} {t : TensorId}, visit g n done t =
  .ok done' →
  Walks g [t] done done')
include ih

theorem walks_of_foldlM {ts : List TensorId} (run : ts.foldlM (visit g n) done = .ok done') :
    Walks g ts done done' := by
  induction ts generalizing done with
  | nil =>
    cases run
    exact .nil
  | cons t ts rest =>
    obtain ⟨done₁, first, run⟩ := foldlM_cons_ok run
    exact (ih first).append (rest run)

theorem walks_of_visitAll {fault : Fault} {tensors : Operator → Option (List TensorId)}
    {os : List OpId} (run : os.foldlM (visitAll g n fault tensors) done = .ok done') :
    Walks g (os.flatMap fun o => (tensors (g.op o)).getD []) done done' ∧
    ∀ o ∈ os, (tensors (g.op o)).isSome := by
  induction os generalizing done with
  | nil =>
    cases run
    exact ⟨.nil, by simp⟩
  | cons o os rest =>
    obtain ⟨done₁, first, run⟩ := foldlM_cons_ok run
    obtain ⟨walks, applied⟩ := rest run
    unfold visitAll at first
    split at first
    · next ts hts =>
      rw [flatMap_cons, hts]
      exact ⟨(walks_of_foldlM ih first).append walks, forall_mem_cons.2 ⟨by simp [hts], applied⟩⟩
    · cases first

end Returned

theorem walks_of_visit (n : Nat) (run : visit g n done t = .ok done') : Walks g [t] done done' := by
  induction n generalizing done done' t with
  | zero => cases run
  | succ n ih =>
    rw [visit_succ] at run
    split at run
    · next listed =>
      cases run
      exact .listed (by simpa using listed) .nil
    · next new =>
      cases first : (g.tensor t).src.ops.foldlM
        (visitAll g n .badType fun o => o.inputs.map (deepestFirst g)) done with
      | error e => simp [first, bind, Except.bind] at run
      | ok done₁ =>
        simp only [first, bind, Except.bind] at run
        obtain ⟨reads, applied⟩ := walks_of_visitAll ih first
        obtain ⟨writes, -⟩ := walks_of_visitAll ih run
        have inTurn :
            (g.tensor t).src.ops.flatMap (fun o => ((g.op o).inputs.map (deepestFirst g)).getD []) =
            readFor g t := by
          refine congrArg (flatMap · _) (funext fun o => ?_)
          unfold Operator.inputList
          cases (g.op o).inputs with
          | none => rfl
          | some xs => rfl
        rw [inTurn] at reads
        exact .fresh (by simpa using new) (by simpa using applied) reads writes .nil

theorem walks_of_sort {g' : Arena} {ts : Graph} (run : sort roots g = .ok ts g') :
    g = g' ∧ Walks g roots [] ts := by
  unfold sort at run
  grind [bind_ok, get_ok, ofExcept_ok, walks_of_foldlM, walks_of_visit]

/-! ## What a walk lists is ordered -/

theorem Before.append {ts us : Graph} (h : Before ts x t) (ht : t ∈ ts) :
    Before (ts ++ us) x t := by
  unfold Before at *
  grind

theorem Ordered.append (ordered : Ordered g done)
    (reads : ∀ o ∈ (g.tensor t).src.ops, (g.op o).inputs.isSome ∧
      ∀ x ∈ (g.op o).inputList, x ∈ done) :
    Ordered g (done ++ [t]) := by
  intro u hu o ho
  by_cases known : u ∈ done
  · obtain ⟨applied, before⟩ := ordered u known o ho
    exact ⟨applied, fun x hx => (before x hx).append known⟩
  · obtain rfl : u = t := by grind
    refine ⟨(reads o ho).1, fun x hx => ?_⟩
    have hx := (reads o ho).2 x hx
    unfold Before
    grind

theorem Walks.ordered {ts : List TensorId} (h : Walks g ts done done') (start : Ordered g done) :
    Ordered g done' := by
  induction h with
  | nil => exact start
  | listed _ _ ih => exact ih start
  | fresh _ applied reads _ _ ihReads ihWrites ih =>
    refine ih (ihWrites ((ihReads start).append fun o ho => ⟨applied o ho, fun x hx => ?_⟩))
    exact reads.subset (mem_readFor.2 ⟨o, ho, hx⟩)

theorem sort_ordered {g' : Arena} {ts : Graph} (run : sort roots g = .ok ts g') :
    g = g' ∧ roots ⊆ ts ∧ Ordered g ts := by
  obtain ⟨rfl, walks⟩ := walks_of_sort run
  exact ⟨rfl, walks.subset, walks.ordered (by simp [Ordered])⟩

/-! ## What a walk lists -/

def Leads (g : Arena) (t u : TensorId) : Prop := Needs g u t ∨ Beside g t u

theorem Walks.new {ts : List TensorId} (h : Walks g ts done done')
    (hu : u ∈ done') : u ∈ done ∨ (∃ t ∈ ts, Relation.ReflTransGen (Leads g) t u) ∧
    ∀ y, Beside g u y → y ∈ done' := by
  induction h with
  | nil => exact Or.inl hu
  | listed _ _ ih => grind
  | @fresh t ts done done₁ done₂ done' _ _ reads writes rest ihReads ihWrites ih =>
    have kept : done₂ ⊆ done' := rest.isPrefix.subset
    rcases ih hu with hu | ⟨⟨v, hv, path⟩, beside⟩
    · rcases ihWrites hu with hu | ⟨⟨v, hv, path⟩, beside⟩
      · rcases mem_append.1 hu with hu | hu
        · refine (ihReads hu).imp_right fun ⟨⟨v, hv, path⟩, beside⟩ =>
            ⟨⟨t, mem_cons_self, ?_⟩, fun y hy => ?_⟩
          · exact .head (Or.inl (mem_readFor.1 hv)) path
          · exact kept (writes.isPrefix.subset (mem_append_left _ (beside y hy)))
        · obtain rfl := mem_singleton.1 hu
          exact Or.inr ⟨⟨u, mem_cons_self, .refl⟩, fun y hy =>
            kept (writes.subset (mem_writtenBeside.2 hy))⟩
      · refine Or.inr ⟨⟨t, mem_cons_self, ?_⟩, fun y hy => kept (beside y hy)⟩
        exact .head (Or.inr (mem_writtenBeside.1 hv)) path
    · grind

theorem Walks.mem_iff {ts : List TensorId} (h : Walks g ts [] done) :
    u ∈ done ↔ ∃ t ∈ ts, Relation.ReflTransGen (Leads g) t u := by
  refine ⟨fun hu => ?_, ?_⟩
  · rcases h.new hu with hu | ⟨found, -⟩
    · cases hu
    · exact found
  · rintro ⟨t, ht, path⟩
    induction path with
    | refl => exact h.subset ht
    | tail _ leads ih =>
      rcases leads with ⟨o, ho, read⟩ | beside
      · exact ((h.ordered (by simp [Ordered]) _ ih o ho).2 _ read).mem
      · rcases h.new ih with hu | ⟨-, written⟩
        · cases hu
        · exact written _ beside

def Tangled (g : Arena) (t : TensorId) : Prop := ∃ a, Needs g a t ∧ Relation.ReflTransGen
    (Leads g) a t

theorem Walks.fresh_after {done₁ : Graph} (reads : Walks g (readFor g t) done done₁)
    (new : t ∉ done) (untangled : ¬ Tangled g t) : t ∉ done₁ := by
  intro ht
  rcases reads.new ht with ht | ⟨⟨a, ha, path⟩, -⟩
  · exact new ht
  · exact untangled ⟨a, mem_readFor.1 ha, path⟩

theorem Walks.count_le_one (untangled : ¬ Tangled g u) {ts : List TensorId}
    (h : Walks g ts done done') (start : done.count u ≤ 1) : done'.count u ≤ 1 := by
  induction h with
  | nil => exact start
  | listed _ _ ih => exact ih start
  | @fresh t ts done done₁ done₂ done' new _ reads _ _ ihReads ihWrites ih =>
    refine ih (ihWrites ?_)
    rw [count_append]
    by_cases same : t = u
    · subst same
      rw [count_eq_zero_of_not_mem (reads.fresh_after new untangled), count_singleton_self]
    · grind

theorem Walks.two_le_count (h : Walks g [t] [] done) (tangled : Tangled g t) :
    2 ≤ done.count t := by
  obtain ⟨a, needs, path⟩ := tangled
  cases h with
  | listed known _ => cases known
  | @fresh _ _ _ done₁ done₂ _ _ _ reads writes rest =>
    have first : 1 ≤ done₁.count t :=
      one_le_count_iff.2 (reads.mem_iff.2 ⟨a, mem_readFor.2 needs, path⟩)
    have kept := (writes.isPrefix.trans rest.isPrefix).sublist.count_le t
    grind

/-! ## A walk without cycles returns -/

open Classical in
/-- How many tensors a tensor depends on. -/
noncomputable def rank (g : Arena) (t : TensorId) : Nat :=
  ((Finset.range g.tensors.size).filter fun i => Relation.TransGen (Needs g) ⟨i⟩ t).card

theorem rank_le (g : Arena) (t : TensorId) : rank g t ≤ g.tensors.size := by
  classical
  exact (Finset.card_filter_le _ _).trans_eq (Finset.card_range _)

theorem rank_lt (acyclic : ¬ Relation.TransGen (Needs g) u u) (known : u.idx < g.tensors.size)
    (needs : Needs g u t) : rank g u < rank g t := by
  classical
  refine Finset.card_lt_card (Finset.ssubset_iff_of_subset ?_ |>.2 ⟨u.idx, ?_, ?_⟩)
  · grind
  · simp only [Finset.mem_filter, Finset.mem_range]
    exact ⟨known, .single needs⟩
  · simp_all

theorem rank_congr {y : TensorId}
    (same : ∀ p, p ∈ (g.tensor y).src.ops ↔ p ∈ (g.tensor t).src.ops) : rank g y = rank g t := by
  classical
  have needs : ∀ u, Needs g u y ↔ Needs g u t := by
    intro u
    unfold Needs
    simp only [same]
  have reach : ∀ u, Relation.TransGen (Needs g) u y ↔ Relation.TransGen (Needs g) u t := by grind
  unfold rank
  simp only [reach]

def unlisted (g : Arena) (done : Graph) : Nat :=
  ((Finset.range g.tensors.size).filter fun i => ⟨i⟩ ∉ done).card

theorem unlisted_le (g : Arena) (done : Graph) : unlisted g done ≤ g.tensors.size :=
  (Finset.card_filter_le _ _).trans_eq (Finset.card_range _)

theorem unlisted_mono (sub : done ⊆ done') : unlisted g done' ≤ unlisted g done :=
  Finset.card_le_card (Finset.monotone_filter_right _ fun _ _ h hd => h (sub hd))

theorem unlisted_lt (sub : done ⊆ done') (known : t.idx < g.tensors.size)
    (new : t ∉ done) (listed : t ∈ done') : unlisted g done' < unlisted g done := by
  refine Finset.card_lt_card (Finset.ssubset_iff_of_subset ?_ |>.2 ⟨t.idx, ?_, ?_⟩)
  · grind
  · simpa using ⟨known, new⟩
  · simpa using fun _ => listed

/-- A set of tensors that no walk leaves, and all of whose sources have been applied. -/
structure Walkable (g : Arena) (S : TensorId → Prop) : Prop where
  known : ∀ t, S t → t.idx < g.tensors.size
  applied : ∀ t, S t → ∀ o ∈ (g.tensor t).src.ops, (g.op o).inputs.isSome ∧ (g.op o).outputs.isSome
  leads : ∀ t u, S t → Leads g t u → S u

section Returns

variable {g : Arena} {S : TensorId → Prop} (walkable : Walkable g S)
  (acyclic : ∀ t, S t → ¬ Relation.TransGen (Needs g) t t)
include walkable acyclic

theorem visit_returns (n : Nat) (ht : S t)
    (fuel : unlisted g done * (g.tensors.size + 1) + rank g t < n) :
    ∃ done', visit g n done t = .ok done' := by
  induction n generalizing done t with
  | zero => omega
  | succ n ih =>
    rw [visit_succ]
    split
    · exact ⟨done, rfl⟩
    · next new =>
      have new : t ∉ done := by simpa using new
      have applied := walkable.applied t ht
      -- a walk to some tensors of an operator returns if the walk to each of them does
      have all : ∀ fault (tensors : Operator → Option (List TensorId)) (start : Graph),
          (∀ o ∈ (g.tensor t).src.ops, (tensors (g.op o)).isSome) →
          (∀ o ∈ (g.tensor t).src.ops, ∀ x ∈ (tensors (g.op o)).getD [], ∀ acc, start ⊆ acc →
            ∃ acc', visit g n acc x = .ok acc') →
          ∃ acc, (g.tensor t).src.ops.foldlM (visitAll g n fault tensors) start = .ok acc ∧
            start ⊆ acc := by
        intro fault tensors start some walk
        refine foldlM_succeeds (start ⊆ ·) (fun o ho acc kept => ?_) (Subset.refl _)
        obtain ⟨xs, hxs⟩ := Option.isSome_iff_exists.1 (some o ho)
        have walk := walk o ho
        unfold visitAll
        rw [hxs] at walk ⊢
        refine foldlM_succeeds (start ⊆ ·) (fun x hx acc kept => ?_) kept
        obtain ⟨acc', run⟩ := walk x hx acc kept
        exact ⟨acc', run, fun u hu => (walks_of_visit n run).isPrefix.subset (kept hu)⟩
      have bound : ∀ {acc acc' : Graph}, acc ⊆ acc' →
          unlisted g acc' * (g.tensors.size + 1) ≤ unlisted g acc * (g.tensors.size + 1) :=
        fun sub => Nat.mul_le_mul_right _ (unlisted_mono sub)
      -- all that the sources read ranks lower than the tensor
      obtain ⟨done₁, first, sub₁⟩ := all .badType (fun o => o.inputs.map (deepestFirst g)) done
        (fun o ho => by simpa using (applied o ho).1)
        (by
          intro o ho x hx acc sub
          have needs : Needs g x t := by
            refine mem_readFor.1 (mem_flatMap.2 ⟨o, ho, ?_⟩)
            unfold Operator.inputList
            cases h : (g.op o).inputs with
            | none => simp [h] at hx
            | some xs => simpa [h] using hx
          have hxS := walkable.leads t x ht (Or.inl needs)
          have lower := rank_lt (acyclic x hxS) (walkable.known x hxS) needs
          have := bound sub
          exact ih hxS (by omega))
      -- one more tensor is listed, so there is room for what is written beside it, whatever that
      -- depends on
      have room : unlisted g (done₁ ++ [t]) < unlisted g done :=
        unlisted_lt (fun u hu => mem_append_left _ (sub₁ hu)) (walkable.known t ht) new (by simp)
      obtain ⟨done₂, second, -⟩ := all .badKey (·.outputs) (done₁ ++ [t])
        (fun o ho => (applied o ho).2)
        (by
          intro o ho y hy acc sub
          have hyS := walkable.leads t y ht (Or.inr ⟨o, ho, hy⟩)
          have low := rank_le g y
          have := bound sub
          have : (unlisted g (done₁ ++ [t]) + 1) * (g.tensors.size + 1) ≤ unlisted g done *
            (g.tensors.size + 1) :=
            Nat.mul_le_mul_right _ room
          rw [Nat.succ_mul] at this
          exact ih hyS (by omega))
      exact ⟨done₂, by rw [first]; exact second⟩

theorem sort_succeeds (start : ∀ r ∈ roots, S r) : ∃ ts, sort roots g = .ok ts g := by
  obtain ⟨ts, run, -⟩ := foldlM_succeeds (l := roots) (f := visit g (depthBound g)) (b := [])
    (fun _ => True)
    (fun t ht done _ => by
      have fuel : unlisted g done * (g.tensors.size + 1) + rank g t < depthBound g := by
        have low := rank_le g t
        have : unlisted g done * (g.tensors.size + 1) ≤ g.tensors.size * (g.tensors.size + 1) :=
          Nat.mul_le_mul_right _ (unlisted_le g done)
        grind [depthBound, Nat.succ_mul]
      obtain ⟨done', run⟩ := visit_returns walkable acyclic (depthBound g) (start t ht) fuel
      exact ⟨done', run, trivial⟩) trivial
  refine ⟨ts, ?_⟩
  unfold sort
  simp_all

end Returns

/-! ## Whole graphs -/

/-- The tensors of a graph hold all that their sources read and write, and the outputs of one
operator have the same sources. -/
structure Whole (g : Arena) (ts : Graph) : Prop where
  nodup : ts.Nodup
  known : ∀ t ∈ ts, t.idx < g.tensors.size
  applied : ∀ t ∈ ts, ∀ o ∈ (g.tensor t).src.ops, (g.op o).inputs.isSome ∧ (g.op o).outputs.isSome
  reads : ∀ t ∈ ts, ∀ o ∈ (g.tensor t).src.ops, ∀ x ∈ (g.op o).inputList, x ∈ ts
  siblings : ∀ t ∈ ts, ∀ o ∈ (g.tensor t).src.ops, ∀ y ∈ (g.op o).outputList,
    y ∈ ts ∧ ∀ p, p ∈ (g.tensor y).src.ops ↔ p ∈ (g.tensor t).src.ops

section Whole

variable {g : Arena} {ts : Graph} (whole : Whole g ts)
include whole

theorem Whole.walkable : Walkable g (· ∈ ts) where
  known := whole.known
  applied := whole.applied
  leads t u ht leads := by
    rcases leads with ⟨o, ho, hu⟩ | ⟨o, ho, hu⟩
    · exact whole.reads t ht o ho u hu
    · exact (whole.siblings t ht o ho u hu).1

variable (acyclic : ∀ t ∈ ts, ¬ Relation.TransGen (Needs g) t t)
include acyclic

theorem Whole.rank_le_of_leads (ht : t ∈ ts) (path : Relation.ReflTransGen (Leads g) t u) :
    u ∈ ts ∧ rank g u ≤ rank g t := by
  induction path with
  | refl => exact ⟨ht, Nat.le_refl _⟩
  | tail _ leads ih =>
    have mem := whole.walkable.leads _ _ ih.1 leads
    refine ⟨mem, Nat.le_trans ?_ ih.2⟩
    rcases leads with needs | ⟨o, ho, hy⟩
    · exact Nat.le_of_lt (rank_lt (acyclic _ mem) (whole.known _ mem) needs)
    · exact Nat.le_of_eq (rank_congr (whole.siblings _ ih.1 o ho _ hy).2)

theorem Whole.untangled (ht : t ∈ ts) : ¬ Tangled g t := by
  rintro ⟨a, needs, path⟩
  have ha := whole.walkable.leads t a ht (Or.inl needs)
  have lower := rank_lt (acyclic a ha) (whole.known a ha) needs
  have := (whole.rank_le_of_leads acyclic ha path).2
  omega

/-- Sorting a whole graph again returns its tensors. -/
theorem sort_returns : ∃ ts', sort ts g = .ok ts' g ∧ ts'.Perm ts := by
  obtain ⟨ts', run⟩ := sort_succeeds whole.walkable acyclic fun r hr => hr
  obtain ⟨-, walks⟩ := walks_of_sort run
  have inside : ∀ t ∈ ts', t ∈ ts := by
    intro t ht
    obtain ⟨r, hr, path⟩ := walks.mem_iff.1 ht
    exact (whole.rank_le_of_leads acyclic hr path).1
  have nodup : ts'.Nodup := by
    refine nodup_iff_count_le_one.2 fun t => ?_
    by_cases ht : t ∈ ts'
    · exact walks.count_le_one (whole.untangled acyclic (inside t ht)) (by simp)
    · simp [count_eq_zero_of_not_mem ht]
  exact ⟨ts', run, (subperm_of_subset nodup inside).antisymm
    (subperm_of_subset whole.nodup walks.subset)⟩

end Whole

end Graph

end TensorGraph

import Mathlib.Data.List.Induction
import TensorGraph.Graph.Mark
import TensorGraph.Proofs.Lifetimes
import TensorGraph.Proofs.Nodes

/-!
# What the marks say about views

`markParams` goes backwards and overwrites the mark of a tensor at each of its views, so the view
that stands first in the graph has the last word:

    alias v = isOutput u || alias u      for the first view u of v

`markViews` goes forwards; a view gets outside storage exactly if something that it shows, directly
or through other views, is produced by nothing or is an output (`Inside` says that there is no such
tensor).
-/

namespace TensorGraph

open List

variable {g : Arena} {ts : Graph} {t u v : TensorId}

namespace Graph

open Build

/-- Two arenas that differ in marks of tensors only: parameters, output aliases and outside
storage. -/
structure Remarked (g g' : Arena) : Prop where
  dim : g'.dim = g.dim
  ops : g'.ops = g.ops
  size : g'.tensors.size = g.tensors.size
  tensor : ∀ t, g'.tensor t = { g.tensor t with
    isParam := (g'.tensor t).isParam
    hasOutputAliases := (g'.tensor t).hasOutputAliases
    external := (g'.tensor t).external }

namespace Remarked

variable {g g' g'' : Arena} {t : TensorId}

theorem refl (g : Arena) : Remarked g g := ⟨rfl, rfl, rfl, fun _ => rfl⟩

theorem trans (h : Remarked g g') (h' : Remarked g' g'') : Remarked g g'' := by
  refine ⟨h'.dim.trans h.dim, h'.ops.trans h.ops, h'.size.trans h.size, fun t => ?_⟩
  rw [h'.tensor t, h.tensor t]

theorem op (h : Remarked g g') (o : OpId) :
    g'.op o = g.op o := by rw [Arena.op_eq, h.ops, Arena.op_eq]

theorem viewOf (h : Remarked g g') : (g'.tensor t).viewOf =
    (g.tensor t).viewOf := by rw [h.tensor t]

theorem src (h : Remarked g g') : (g'.tensor t).src = (g.tensor t).src := by rw [h.tensor t]

theorem isInput (h : Remarked g g') : (g'.tensor t).isInput =
    (g.tensor t).isInput := by rw [h.tensor t]

theorem isOutput (h : Remarked g g') : (g'.tensor t).isOutput =
    (g.tensor t).isOutput := by rw [h.tensor t]

theorem modifyTensor (t : TensorId) {f : Tensor → Tensor}
    (marks : ∀ x, f x = { x with
      isParam := (f x).isParam, hasOutputAliases := (f x).hasOutputAliases, external :=
        (f x).external }) :
    Remarked g (g.modifyTensor t f) := by
  refine ⟨rfl, rfl, by simp, fun u => ?_⟩
  by_cases known : t.idx < g.tensors.size
  · by_cases same : u = t
    · grind [Arena.tensor_modifyTensor_self]
    · rw [Arena.tensor_modifyTensor_ne same]
  · rw [Arena.tensor_modifyTensor_of_le (by omega)]

theorem sorted (h : Remarked g g') (sorted : Sorted g ts) : Sorted g' ts := by
  refine ⟨sorted.nodup, ?_, ?_, ?_, ?_⟩
  · rw [h.size]
    exact sorted.known
  all_goals simp only [h.src, h.op]
  · exact sorted.reads
  · exact sorted.writes
  · exact sorted.siblings

end Remarked

def ViewsBack (g : Arena) (ts : Graph) : Prop :=
  ∀ l t r, ts = l ++ t :: r → ∀ v, (g.tensor t).viewOf = some v → v ∉ t :: r

theorem viewsBack_of_sorted (sorted : Sorted g ts) (views : ViewsRead g ts) : ViewsBack g ts := by
  rintro l t r rfl v hv mem
  have front := (view_before sorted views (by simp) hv).mem_front
  exact (nodup_append.1 sorted.nodup).2.2 v front v mem rfl

theorem ViewsBack.tail (h : ViewsBack g (t :: ts)) : ViewsBack g ts :=
  fun l u r split => h (t :: l) u r (by rw [split, cons_append])

theorem ViewsBack.front (h : ViewsBack g (ts ++ [t])) : ViewsBack g ts :=
  fun l u r split v hv mem => h l u (r ++ [t]) (by simp [split]) v hv (by
    grind)

/-! ## Parameters and output aliases -/

def firstView? (g : Arena) (ts : Graph) (v : TensorId) : Option TensorId :=
  ts.find? fun u => (g.tensor u).viewOf == some v

theorem firstView?_some (h : firstView? g ts v = some u) : u ∈ ts ∧ (g.tensor u).viewOf = some v :=
  ⟨mem_of_find?_eq_some h, by simpa using find?_some h⟩

theorem firstView?_of_view (hu : u ∈ ts) (hv : (g.tensor u).viewOf = some v) :
    ∃ w, firstView? g ts v = some w := by
  refine Option.isSome_iff_exists.1 ?_
  unfold firstView?
  grind

/-- What the backward walk leaves: parameters are what nothing produces, and the first view decides
on an alias. -/
structure AliasMarks (g : Arena) (ts : Graph) (g' : Arena) : Prop where
  same : Remarked g g'
  external : ∀ t, (g'.tensor t).external = (g.tensor t).external
  param : ∀ t ∈ ts, (g'.tensor t).isParam =
    ((g.tensor t).isParam || ((g.tensor t).src.ops.isEmpty && !(g.tensor t).isInput))
  shown : ∀ v, (g'.tensor v).hasOutputAliases =
    match firstView? g ts v with
    | some u => (g.tensor u).isOutput || (g'.tensor u).hasOutputAliases
    | none => (g.tensor v).hasOutputAliases

theorem forM_run {α : Type} {f : α → Build Unit} {F : Arena → α → Arena}
    (turn : ∀ a h, f a h = .ok () (F h a)) (l : List α) (g : Arena) :
    l.forM f g = .ok () (l.foldl F g) := by
  induction l generalizing g with
  | nil => rfl
  | cons a l ih => simp_all

/-- One turn of the backward walk: the tensor is a parameter if nothing produces it, and what it
shows has an output alias if the tensor is an output or has one. -/
def markTurn (g : Arena) (t : TensorId) : Arena :=
  let marked := g.modifyTensor t fun x =>
    { x with isParam := x.isParam || (x.src.ops.isEmpty && !x.isInput) }
  match (g.tensor t).viewOf with
  | some v => marked.modifyTensor v fun y => { y with
      hasOutputAliases := (g.tensor t).isOutput || (g.tensor t).hasOutputAliases }
  | none => marked

theorem markParams_eq (g : Arena) (ts : Graph) :
    markParams ts g = .ok () (ts.foldr (fun t g => markTurn g t) g) := by
  rw [← foldl_reverse]
  refine forM_run (fun t h => ?_) ts.reverse g
  unfold markTurn
  rw [bind_run (tensor_run t)]
  by_cases free : (h.tensor t).src.ops.isEmpty && !(h.tensor t).isInput
  · have marked : (h.modifyTensor t fun x =>
      { x with isParam := x.isParam || (x.src.ops.isEmpty && !x.isInput) }) =
        h.modifyTensor t fun x => { x with isParam := true } := Arena.modifyTensor_congr
          (by simp [free])
    rw [marked]
    simp only [free]
    cases (h.tensor t).viewOf <;> rfl
  · rw [Arena.modifyTensor_eq_self (by simp [free])]
    simp only [free]
    cases (h.tensor t).viewOf <;> rfl

theorem markTurn_same (g : Arena) (t : TensorId) : Remarked g (markTurn g t) := by
  have first : Remarked g (g.modifyTensor t fun x =>
    { x with isParam := x.isParam || (x.src.ops.isEmpty && !x.isInput) }) :=
    .modifyTensor t fun _ => rfl
  unfold markTurn
  cases (g.tensor t).viewOf with
  | none => exact first
  | some v => exact first.trans (.modifyTensor v fun _ => rfl)

theorem markTurn_tensor (g : Arena) (known : t.idx < g.tensors.size)
    (inside : ∀ v ∈ (g.tensor t).viewOf, v.idx < g.tensors.size) (u : TensorId) :
    (markTurn g t).tensor u = { g.tensor u with
      isParam := (g.tensor u).isParam ||
        (u == t && (g.tensor t).src.ops.isEmpty && !(g.tensor t).isInput)
      hasOutputAliases := if (g.tensor t).viewOf = some u then (g.tensor t).isOutput ||
        (g.tensor t).hasOutputAliases else (g.tensor u).hasOutputAliases } := by
  have param : (g.modifyTensor t fun x =>
    { x with isParam := x.isParam || (x.src.ops.isEmpty && !x.isInput) }).tensor u =
      { g.tensor u with
        isParam := (g.tensor u).isParam ||
          (u == t && (g.tensor t).src.ops.isEmpty && !(g.tensor t).isInput) } := by
    rw [Arena.tensor_modifyTensor t u _ known]
    by_cases same : u = t
    · simp [same]
    · have apart : (u == t) = false := by simpa using same
      rw [if_neg same, apart, Bool.false_and, Bool.false_and, Bool.or_false]
  unfold markTurn
  cases hv : (g.tensor t).viewOf with
  | none => exact param
  | some v =>
    rw [Arena.tensor_modifyTensor v u _ (by simpa using inside v hv)]
    grind

theorem markParams_marks (nodup : ts.Nodup) (known : ∀ t ∈ ts, t.idx < g.tensors.size)
    (inside : ∀ t ∈ ts, ∀ v ∈ (g.tensor t).viewOf, v.idx < g.tensors.size)
    (older : ViewsBack g ts) :
    AliasMarks g ts (ts.foldr (fun t g => markTurn g t) g) ∧
      ∀ t ∉ ts, ((ts.foldr (fun t g => markTurn g t) g).tensor t).isParam =
        (g.tensor t).isParam := by
  induction ts with
  | nil => exact ⟨⟨.refl g, fun _ => rfl, by simp, fun v => rfl⟩, fun _ _ => rfl⟩
  | cons t ts ih =>
    obtain ⟨fresh, nodup⟩ := nodup_cons.1 nodup
    obtain ⟨marks, others⟩ := ih nodup (fun u hu => known u (mem_cons_of_mem _ hu))
      (fun u hu => inside u (mem_cons_of_mem _ hu)) older.tail
    rw [foldr_cons]
    generalize hg : ts.foldr (fun t g => markTurn g t) g = g₁ at marks others
    have same := marks.same
    have turn := markTurn_tensor g₁ (t := t) (by rw [same.size]; exact known t mem_cons_self)
      (by rw [same.size, same.viewOf]; exact inside t mem_cons_self)
    have shownFresh : ∀ v, (g.tensor t).viewOf = some v → v ∉ t :: ts := older [] t ts rfl
    refine ⟨⟨same.trans (markTurn_same g₁ t), fun u => ?_, fun u hu => ?_, fun v => ?_⟩,
      fun u hu => ?_⟩
    · rw [turn u]
      exact marks.external u
    · rw [turn u, same.src, same.isInput]
      rcases mem_cons.1 hu with rfl | hu
      · simp [others u fresh]
      · have ne : u ≠ t := fun h => fresh (h ▸ hu)
        simp [marks.param u hu, ne]
    · have kept : ∀ u ∈ t :: ts, ((markTurn g₁ t).tensor u).hasOutputAliases =
        (g₁.tensor u).hasOutputAliases := by
        intro u hu
        rw [turn u]
        exact if_neg fun h => shownFresh u (same.viewOf ▸ h) hu
      rw [turn v, same.viewOf, same.isOutput]
      show (if _ then _ else _) = _
      unfold firstView?
      by_cases hv : (g.tensor t).viewOf = some v
      · grind
      · rw [if_neg hv, find?_cons_of_neg (by simpa using hv), marks.shown v]
        show _ = match firstView? g ts v with | some u => _ | none => _
        cases hf : firstView? g ts v with
        | none => rfl
        | some u => grind [mem_cons_of_mem, firstView?_some]
    · grind

/-! ## Outside storage -/

def outside (g : Arena) (t : TensorId) : Option TensorId :=
  match (g.tensor t).viewOf with
  | none => (g.tensor t).external
  | some v => (g.tensor v).external.or
      (if (g.tensor v).src.ops.isEmpty || (g.tensor v).isOutput then some v else
        (g.tensor t).external)

def viewTurn (g : Arena) (t : TensorId) : Arena := g.modifyTensor t fun x =>
    { x with external := outside g t }

theorem markViews_eq (g : Arena) (ts : Graph) : markViews ts g = .ok () (ts.foldl viewTurn g) := by
  refine forM_run (fun t h => ?_) ts g
  unfold viewTurn outside
  rw [bind_run (tensor_run t)]
  cases hv : (h.tensor t).viewOf with
  | none =>
    rw [Arena.modifyTensor_eq_self rfl]
    rfl
  | some v =>
    dsimp only
    rw [bind_run (tensor_run v)]
    cases he : (h.tensor v).external with
    | some e => rfl
    | none =>
      split
      · rfl
      · rw [Arena.modifyTensor_eq_self rfl]
        rfl

/-- What the forward walk leaves. -/
structure StorageMarks (g : Arena) (ts : Graph) (g' : Arena) : Prop where
  same : Remarked g g'
  param : ∀ t, (g'.tensor t).isParam = (g.tensor t).isParam
  shown : ∀ t, (g'.tensor t).hasOutputAliases = (g.tensor t).hasOutputAliases
  external : ∀ t ∈ ts, (g'.tensor t).external =
    match (g.tensor t).viewOf with
    | none => (g.tensor t).external
    | some v => (g'.tensor v).external.or
        (if (g.tensor v).src.ops.isEmpty || (g.tensor v).isOutput then some v else
          (g.tensor t).external)

/-- The forward walk sets storage as `StorageMarks` says, inside the graph only. -/
theorem markViews_marks (nodup : ts.Nodup) (known : ∀ t ∈ ts, t.idx < g.tensors.size)
    (older : ViewsBack g ts) :
    StorageMarks g ts (ts.foldl viewTurn g) ∧
      ∀ t ∉ ts, ((ts.foldl viewTurn g).tensor t).external = (g.tensor t).external := by
  induction ts using reverseRecOn with
  | nil => exact ⟨⟨.refl g, fun _ => rfl, fun _ => rfl, by simp⟩, fun _ _ => rfl⟩
  | append_singleton ts t ih =>
    have fresh : t ∉ ts := fun h => (nodup_append.1 nodup).2.2 t h t (by simp) rfl
    obtain ⟨marks, others⟩ := ih (nodup_append.1 nodup).1
      (fun u hu => known u (mem_append_left _ hu)) older.front
    rw [foldl_append]
    generalize ts.foldl viewTurn g = g₁ at marks others
    have same := marks.same
    show StorageMarks g (ts ++ [t]) (viewTurn g₁ t) ∧ ∀ u ∉ ts ++
      [t], ((viewTurn g₁ t).tensor u).external = _
    have turn : ∀ u, (viewTurn g₁ t).tensor u = if u = t then
      { g₁.tensor t with external := outside g₁ t } else g₁.tensor u :=
      fun u => Arena.tensor_modifyTensor t u _ (by rw [same.size]; exact known t (by simp))
    have kept : ∀ u, u ≠ t → (viewTurn g₁ t).tensor u = g₁.tensor u :=
      fun u ne => by rw [turn u, if_neg ne]
    refine ⟨⟨same.trans (.modifyTensor t fun _ => rfl), fun u => ?_, fun u => ?_, fun u hu => ?_⟩,
      fun u hu => ?_⟩
    · rw [turn u]
      split
      · next h => rw [h, ← marks.param t]
      · exact marks.param u
    · rw [turn u]
      split
      · next h => rw [h, ← marks.shown t]
      · exact marks.shown u
    · rcases mem_append.1 hu with hu | hu
      · rw [kept u fun h => fresh (h ▸ hu), marks.external u hu]
        cases hv : (g.tensor u).viewOf with
        | none => rfl
        | some v =>
          -- what an earlier view shows is not the tensor of this turn
          obtain ⟨l, r, split⟩ := append_of_mem hu
          have ne : v ≠ t := fun h => older l u (r ++ [t]) (by simp [split]) v hv (by simp [h])
          dsimp only
          rw [kept v ne]
      · obtain rfl : u = t := by simpa using hu
        rw [turn u, if_pos rfl]
        show outside g₁ u = _
        unfold outside
        rw [same.viewOf, others u fresh]
        cases hv : (g.tensor u).viewOf with
        | none => rfl
        | some v =>
          have ne : v ≠ u := fun h => older ts u [] rfl v hv (by simp [h])
          dsimp only
          rw [kept v ne, same.src, same.isOutput]
    · grind

/-- All that a view shows, directly or through other views, is produced by the graph and is no
output. -/
def Inside (g : Arena) (t : TensorId) : Prop :=
  ∀ v, Relation.TransGen (fun u v => (g.tensor u).viewOf = some v) t v →
    (g.tensor v).src.ops ≠ [] ∧ (g.tensor v).isOutput = false

theorem inside_of_base (h : (g.tensor t).viewOf = none) : Inside g t := by
  intro v hv
  grind [Relation.TransGen.head'_iff]

theorem inside_view (h : (g.tensor t).viewOf = some v) :
    Inside g t ↔ (g.tensor v).src.ops ≠ [] ∧ (g.tensor v).isOutput = false ∧ Inside g v := by
  constructor
  · intro inside
    obtain ⟨produced, inner⟩ := inside v (.single h)
    exact ⟨produced, inner, fun w hw => inside w (.head h hw)⟩
  · rintro ⟨produced, inner, inside⟩ w hw
    obtain ⟨u, first, rest⟩ := Relation.TransGen.head'_iff.1 hw
    cases h.symm.trans first
    rcases Relation.reflTransGen_iff_eq_or_transGen.1 rest with rfl | rest
    · exact ⟨produced, inner⟩
    · exact inside w rest

section Storage

variable {g g' : Arena} {ts : Graph} (sorted : Sorted g ts) (views : ViewsRead g ts)
  (unmarked : ∀ t ∈ ts, (g.tensor t).external = none) (marks : StorageMarks g ts g')
include sorted views unmarked marks

theorem external_none_iff (ht : t ∈ ts) : (g'.tensor t).external = none ↔ Inside g t := by
  induction hn : ts.idxOf t using Nat.strongRecOn generalizing t with
  | _ n ih =>
    rw [marks.external t ht]
    cases hv : (g.tensor t).viewOf with
    | none => simpa [unmarked t ht] using inside_of_base hv
    | some v =>
      have before := view_before sorted views ht hv
      have shown := ih _ (hn ▸ before) before.mem rfl
      rw [inside_view hv, ← shown, unmarked t ht]
      grind

theorem shows_external {e : TensorId} (ht : t ∈ ts) (h : (g'.tensor t).external = some e) :
    Shows g t e := by
  induction hn : ts.idxOf t using Nat.strongRecOn generalizing t with
  | _ n ih =>
    rw [marks.external t ht] at h
    cases hv : (g.tensor t).viewOf with
    | none => simp [hv, unmarked t ht] at h
    | some v =>
      have before := view_before sorted views ht hv
      simp only [hv] at h
      cases hx : (g'.tensor v).external with
      | some x =>
        obtain rfl : x = e := by simpa [hx] using h
        exact .head hv (ih _ (hn ▸ before) before.mem hx rfl)
      | none =>
        rw [hx, unmarked t ht] at h
        split at h
        · cases h
          exact .single hv
        · cases h

end Storage

/-! ## Chains of first views -/

section Chains

variable {g : Arena} {ts : Graph} (before : ∀ t ∈ ts, ∀ v, (g.tensor t).viewOf = some v →
  Before ts v t)
include before

theorem shows_mem (ht : t ∈ ts) (h : Shows g t v) : v ∈ ts := by
  induction h with
  | refl => exact ht
  | tail _ hv ih => exact (before _ ih _ hv).mem

theorem shows_le (ht : t ∈ ts) (h : Shows g t v) : ts.idxOf v ≤ ts.idxOf t := by
  induction h with
  | refl => exact Nat.le_refl _
  | tail chain hv ih =>
    have earlier := before _ (shows_mem before ht chain) _ hv
    unfold Before at earlier
    omega

theorem view_unique {w : TensorId} (ht : t ∈ ts) (hu : Shows g t u) (hw : Shows g t w)
    (huv : (g.tensor u).viewOf = some v) (hwv : (g.tensor w).viewOf = some v) : u = w := by
  have functional : Relator.RightUnique fun u v => (g.tensor u).viewOf = some v :=
    fun _ _ _ hb hc => Option.some.inj (hb.symm.trans hc)
  have eq_of_shows : ∀ {a b : TensorId}, b ∈ ts → Shows g a b → (g.tensor a).viewOf = some v →
      (g.tensor b).viewOf = some v → a = b := by
    intro a b hb hab hav hbv
    rcases Relation.ReflTransGen.cases_head hab with rfl | ⟨c, hc, rest⟩
    · rfl
    · cases hav.symm.trans hc
      -- `b` would stand both behind and before what it shows
      have behind := before b hb v hbv
      have earlier := shows_le before behind.mem rest
      unfold Before at behind
      omega
  rcases Relation.ReflTransGen.total_of_right_unique functional hu hw with h | h
  · exact eq_of_shows (shows_mem before ht hw) h huv hwv
  · exact (eq_of_shows (shows_mem before ht hu) h hwv huv).symm

variable (produced : ∀ t ∈ ts, (g.tensor t).viewOf.isSome → (g.tensor t).src.ops ≠ [])
include produced

theorem output_of_alias (decided : ∀ v ∈ ts, (g.tensor v).hasOutputAliases →
      ∃ u, firstView? g ts v = some u ∧ ((g.tensor u).isOutput ∨ (g.tensor u).hasOutputAliases))
    (hv : v ∈ ts) (marked : (g.tensor v).hasOutputAliases) :
    ∃ w t, firstView? g ts v = some w ∧ t ∈ ts ∧ (g.tensor t).isOutput ∧ Shows g t w ∧
    (Inside g w → Inside g t) := by
  induction hn : ts.length - ts.idxOf v using Nat.strongRecOn generalizing v with
  | _ n ih =>
    obtain ⟨w, first, output⟩ := decided v hv marked
    obtain ⟨hw, hwv⟩ := firstView?_some first
    cases inner : (g.tensor w).isOutput with
    | true => exact ⟨w, w, first, hw, inner, .refl, id⟩
    | false =>
      have markedW : (g.tensor w).hasOutputAliases := output.resolve_left (by simp [inner])
      have behind := before w hw v hwv
      have inList := idxOf_lt_length_iff.2 hw
      unfold Before at behind
      obtain ⟨x, t, firstX, ht, outputT, chain, inside⟩ := ih _ (by omega) hw markedW rfl
      have hxw := (firstView?_some firstX).2
      refine ⟨w, t, first, ht, outputT, chain.tail hxw, fun insideW =>
        inside ((inside_view hxw).2 ⟨?_, inner, insideW⟩)⟩
      exact produced w hw (by simp [hwv])

end Chains

/-- Every output that the graph stores itself is reached by first views only from what it shows. -/
def FirstViewsLead (g : Arena) (ts : Graph) : Prop :=
  ∀ t ∈ ts, (g.tensor t).isOutput → Inside g t → ∀ u v, Shows g t u → (g.tensor u).viewOf = some v →
    firstView? g ts v = some u

theorem FirstViewsLead.unique (lead : FirstViewsLead g ts) {t' : TensorId} (ht : t ∈ ts)
    (ht' : t' ∈ ts) (output : (g.tensor t).isOutput) (output' : (g.tensor t').isOutput)
    (inside : Inside g t) (inside' : Inside g t') (h : Shows g t v) (h' : Shows g t' v) :
    t = t' := by
  -- an output that the other one shows would not be inside
  have eq_of_output : ∀ {a b : TensorId}, Shows g a b → Inside g a → (g.tensor b).isOutput →
    a = b := by
    intro a b hab insideA outputB
    rcases Relation.reflTransGen_iff_eq_or_transGen.1 hab with rfl | chain
    · rfl
    · simp [(insideA b chain).2] at outputB
  induction h with
  | refl => exact (eq_of_output h' inside' output).symm
  | tail chain hv ih =>
    rcases Relation.ReflTransGen.cases_tail h' with rfl | ⟨w, chain', hw⟩
    · exact eq_of_output (chain.tail hv) inside output'
    · have same : firstView? g ts _ = some w := lead t' ht' output' inside' w _ chain' hw
      rw [lead t ht output inside _ _ chain hv] at same
      cases same
      exact ih chain'

/-- Two arenas with the same views, sources and outputs. -/
structure SameViews (g g' : Arena) : Prop where
  viewOf : ∀ t, (g'.tensor t).viewOf = (g.tensor t).viewOf
  src : ∀ t, (g'.tensor t).src = (g.tensor t).src
  isOutput : ∀ t, (g'.tensor t).isOutput = (g.tensor t).isOutput

namespace SameViews

variable {g g' : Arena} (h : SameViews g g')
include h

theorem shows_eq : Shows g' = Shows g := by
  unfold Shows
  simp only [h.viewOf]

theorem inside_eq : Inside g' = Inside g := by
  unfold Inside
  simp only [h.viewOf, h.src, h.isOutput]

theorem firstView?_eq : firstView? g' = firstView? g := by
  unfold firstView?
  simp only [h.viewOf]

theorem firstViewsLead_iff : FirstViewsLead g' ts ↔ FirstViewsLead g ts := by
  unfold FirstViewsLead
  simp only [h.shows_eq, h.inside_eq, h.firstView?_eq, h.viewOf, h.isOutput]

end SameViews

end Graph

end TensorGraph

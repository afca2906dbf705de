import Mathlib
import TensorGraph.Proofs.Lifetimes
import TensorGraph.Proofs.Nodes

/-!
# Memory plans keep live tensors apart

`plan` writes the offsets that `placeAll` found, then the places of the constants and of the views,
and at last asks for scratch memory.
-/

namespace TensorGraph

namespace Graph

open Build List

variable {a m b n : Int} {u : Unit} {look : DimTable}

/-- The bytes of a tensor: where they start and how many there are, aligned to 64. -/
structure Occupies (g : Arena) (t : TensorId) (start size : Int) : Prop where
  offset : (g.tensor t).offset = some start
  aligned : Dtype.alignedSize? g.dim (g.tensor t).shape (g.tensor t).dtype 64 = .ok size

theorem Occupies.unique {g : Arena} {t : TensorId} (h : Occupies g t a m) (h' : Occupies g t b n) :
    a = b ∧ m = n := by
  cases h.offset.symm.trans h'.offset
  cases h.aligned.symm.trans h'.aligned
  exact ⟨rfl, rfl⟩

def SeparateBytes (g : Arena) (t u : TensorId) : Prop :=
  ∀ a m b n, Occupies g t a m → Occupies g u b n → Disjoint (Set.Ico a (a + m)) (Set.Ico b (b + n))

theorem SeparateBytes.of_le {g : Arena} {t u : TensorId} (ht : Occupies g t a m)
    (hu : Occupies g u b n) (h : a + m ≤ b ∨ b + n ≤ a) : SeparateBytes g t u := by
  intro a' m' b' n' ht' hu'
  obtain ⟨rfl, rfl⟩ := ht'.unique ht
  obtain ⟨rfl, rfl⟩ := hu'.unique hu
  grind

instance (g : Arena) : Std.Symm (SeparateBytes g) :=
  ⟨fun _ _ h a m b n ht hu => (h b n a m hu ht).symm⟩

/-- Two arenas that differ in the offsets of tensors and in operators only. -/
structure Moved (g g' : Arena) : Prop where
  dim : g'.dim = g.dim
  size : g'.tensors.size = g.tensors.size
  tensor : ∀ t, g'.tensor t = { g.tensor t with offset := (g'.tensor t).offset }

namespace Moved

variable {g g' g'' : Arena} {t : TensorId}

theorem refl (g : Arena) : Moved g g := ⟨rfl, rfl, fun _ => rfl⟩

theorem trans (h : Moved g g') (h' : Moved g' g'') : Moved g g'' := by
  refine ⟨h'.dim.trans h.dim, h'.size.trans h.size, fun t => ?_⟩
  rw [h'.tensor t, h.tensor t]

theorem shape (h : Moved g g') : (g'.tensor t).shape = (g.tensor t).shape := by rw [h.tensor t]

theorem viewOf (h : Moved g g') : (g'.tensor t).viewOf = (g.tensor t).viewOf := by rw [h.tensor t]

theorem data (h : Moved g g') : (g'.tensor t).data = (g.tensor t).data := by rw [h.tensor t]

theorem alignedSize (h : Moved g g') :
    Dtype.alignedSize? g'.dim (g'.tensor t).shape (g'.tensor t).dtype 64 =
      Dtype.alignedSize? g.dim (g.tensor t).shape (g.tensor t).dtype 64 := by
  rw [h.dim, h.tensor t]

theorem setOffset (t : TensorId) (a : Option Int) :
    Moved g (g.modifyTensor t fun x => { x with offset := a }) := by
  refine ⟨rfl, by simp, fun u => ?_⟩
  rw [Arena.tensor_modifyTensor_ite]
  split <;> rfl

end Moved

/-! ## Sizes -/

theorem maxElements_nonneg {shape : List DimId} (bounds : ∀ d ∈ shape, 0 ≤ (look d).upper) :
    0 ≤ Shape.maxElements look shape := by
  refine foldlRecOn shape _ (motive := (0 ≤ ·)) (by decide) fun n hn d hd => ?_
  exact Int.mul_nonneg hn (bounds d hd)

theorem alignedSize_spec {shape : List DimId} {dtype : String}
    (bounds : ∀ d ∈ shape, 0 ≤ (look d).upper)
    (h : Dtype.alignedSize? look shape dtype 64 = .ok n) : 0 ≤ n ∧ 64 ∣ n := by
  unfold Dtype.alignedSize? at h
  cases hs : Dtype.size? dtype with
  | error => simp [hs, bind, Except.bind] at h
  | ok size =>
    have pos : 0 ≤ size := by
      unfold Dtype.size? at hs
      split at hs <;> cases hs <;> decide
    have elements := Int.mul_nonneg (maxElements_nonneg bounds) pos
    simp only [hs, bind, Except.bind] at h
    generalize Shape.maxElements look shape * size = m at h elements
    unfold Dtype.roundUp? at h
    rw [if_neg (by decide), Int.fmod_eq_emod_of_nonneg _ (by decide),
      Int.fdiv_eq_ediv_of_nonneg _ (by decide)] at h
    grind

/-! ## The loops of a plan -/

theorem offsets_written {g g' : Arena} (ps : List Placed) (once : (ps.map (·.life.tensor)).Nodup)
    (known : ∀ p ∈ ps, p.life.tensor.idx < g.tensors.size)
    (run : (ps.forM fun p => modifyTensor p.life.tensor fun x => { x with offset := some p.offset })
      g = .ok u g') :
    Moved g g' ∧ (∀ p ∈ ps, (g'.tensor p.life.tensor).offset = some p.offset) ∧
      ∀ t, t ∉ ps.map (·.life.tensor) → g'.tensor t = g.tensor t := by
  induction ps generalizing g with
  | nil => simp_all [pure_ok, Moved.refl]
  | cons p ps ih =>
    simp only [List.forM, bind_ok, modifyTensor_ok] at run
    obtain ⟨_, _, rfl, run⟩ := run
    rw [map_cons, nodup_cons] at once
    obtain ⟨moved, written, others⟩ := ih once.2 (by simp_all) run
    refine ⟨(Moved.setOffset _ _).trans moved, fun q hq => ?_, fun t ht => ?_⟩
    · rcases mem_cons.1 hq with rfl | hq
      · rw [others _ once.1, Arena.tensor_modifyTensor_self (known q mem_cons_self)]
      · exact written q hq
    · rw [map_cons, mem_cons, not_or] at ht
      rw [others t ht.2, Arena.tensor_modifyTensor_ne ht.1]

theorem placeConstants_spec {g g' : Arena} {s e : Int} (ts : Graph) (nodup : ts.Nodup)
    (known : ∀ t ∈ ts, t.idx < g.tensors.size)
    (bounds : ∀ t ∈ ts, ∀ d ∈ (g.tensor t).shape, 0 ≤ (g.dim d).upper)
    (run : (ts.foldlM (fun offset t => do
      if (← tensor t).data.isNone then return offset
      modifyTensor t fun x => { x with offset := some offset }
      return offset + (← sizeBytes t 64)) s : Build Int) g = .ok e g') :
    Moved g g' ∧ s ≤ e ∧ (∀ t, t ∉ ts ∨ (g.tensor t).data = none → g'.tensor t = g.tensor t) ∧
      (∀ t ∈ ts, (g.tensor t).data.isSome → ∃ a n, Occupies g' t a n ∧ s ≤ a ∧ a + n ≤ e) ∧
      (ts.filter fun t => (g.tensor t).data.isSome).Pairwise (SeparateBytes g') := by
  induction ts generalizing g s with
  | nil =>
    simp only [foldlM_nil, pure_ok] at run
    obtain ⟨rfl, rfl⟩ := run
    exact ⟨Moved.refl g, Int.le_refl s, fun _ _ => rfl, by simp, Pairwise.nil⟩
  | cons t ts ih =>
    rw [nodup_cons] at nodup
    simp only [foldlM_cons, bind_ok, tensor_ok] at run
    obtain ⟨s', g₁, ⟨_, _, ⟨rfl, rfl⟩, first⟩, run⟩ := run
    have rest : ∀ g₁, Moved g g₁ → (∀ u ∈ ts, u.idx < g₁.tensors.size) ∧
        ∀ u ∈ ts, ∀ d ∈ (g₁.tensor u).shape, 0 ≤ (g₁.dim d).upper := by
      intro g₁ moved
      rw [moved.size, moved.dim]
      simp only [moved.shape]
      grind
    split at first
    · next noData =>
      rw [Option.isNone_iff_eq_none] at noData
      obtain ⟨rfl, rfl⟩ := pure_ok.1 first
      obtain ⟨moved, grows, others, inside, apart⟩ := ih nodup.2 (rest g (Moved.refl g)).1
        (rest g (Moved.refl g)).2 run
      refine ⟨moved, grows, fun u hu => others u ?_,
        fun u hu data => ?_, by simpa [noData] using apart⟩
      · grind
      · rcases mem_cons.1 hu with rfl | hu
        · rw [noData] at data
          cases data
        · exact inside u hu data
    · next hasData =>
      have hasData : (g.tensor t).data.isSome := by simpa [Option.isSome_iff_ne_none] using hasData
      simp only [bind_ok, modifyTensor_ok, sizeBytes_ok, pure_ok] at first
      obtain ⟨_, _, rfl, size, _, ⟨hsize, rfl⟩, rfl, rfl⟩ := first
      have moved₁ := Moved.setOffset (g := g) t (some s)
      obtain ⟨moved, grows, others, inside, apart⟩ := ih nodup.2 (rest _ moved₁).1
        (rest _ moved₁).2 run
      simp only [moved₁.data] at others inside apart
      rw [moved₁.alignedSize] at hsize
      have nonneg := (alignedSize_spec (bounds t mem_cons_self) hsize).1
      have here : Occupies g' t s size := by
        refine ⟨?_, by rw [(moved₁.trans moved).alignedSize]; exact hsize⟩
        rw [others t (Or.inl nodup.1), Arena.tensor_modifyTensor_self (known t mem_cons_self)]
      refine ⟨moved₁.trans moved, by omega, fun u hu => ?_, fun u hu data => ?_, ?_⟩
      · have ne : u ≠ t := by
          rintro rfl
          rcases hu with hu | hu
          · exact hu mem_cons_self
          · rw [hu] at hasData
            cases hasData
        rw [others u (hu.imp_left fun h h' => h (mem_cons_of_mem _ h')),
          Arena.tensor_modifyTensor_ne ne]
      · rcases mem_cons.1 hu with rfl | hu
        · exact ⟨s, size, here, Int.le_refl s, grows⟩
        · obtain ⟨a, n, occupies, lower, upper⟩ := inside u hu data
          exact ⟨a, n, occupies, by omega, upper⟩
      · rw [filter_cons_of_pos (by simpa using hasData)]
        refine pairwise_cons.2 ⟨fun u hu => ?_, apart⟩
        obtain ⟨hu, data⟩ := mem_filter.1 hu
        obtain ⟨b, n, occupies, lower, -⟩ := inside u hu data
        exact SeparateBytes.of_le here occupies (Or.inl lower)

theorem placeViews_spec {g g' : Arena} {ts : Graph} (nodup : ts.Nodup)
    (known : ∀ t ∈ ts, t.idx < g.tensors.size)
    (before : ∀ t ∈ ts, ∀ v, (g.tensor t).viewOf = some v → Before ts v t)
    (run : placeViews ts g = .ok u g') :
    Moved g g' ∧ (∀ t, (g.tensor t).viewOf = none → g'.tensor t = g.tensor t) ∧
      ∀ t ∈ ts, ∀ v, (g.tensor t).viewOf = some v → (g'.tensor t).offset =
        (g'.tensor v).offset := by
  -- along the loop the views in front are placed; later turns change neither them nor what they
  -- show
  refine forM_walks (fun done g₁ => Moved g g₁ ∧
    (∀ t, (g.tensor t).viewOf = none → g₁.tensor t = g.tensor t) ∧
      ∀ t ∈ done, ∀ v, (g.tensor t).viewOf = some v → (g₁.tensor t).offset = (g₁.tensor v).offset)
    (fun done t rest split g₁ g₂ _ before' turn => ?_) ⟨Moved.refl g, fun _ _ => rfl, by simp⟩ run
  obtain ⟨moved, others, placed⟩ := before'
  rw [bind_run (tensor_run _)] at turn
  have ht : t ∈ ts := by rw [split]; simp
  rw [split] at nodup
  have fresh : t ∉ done := fun h => (nodup_append.1 nodup).2.2 t h t mem_cons_self rfl
  rw [moved.viewOf] at turn
  cases hv : (g.tensor t).viewOf with
  | none =>
    simp only [hv, pure_ok] at turn
    grind
  | some v =>
    simp only [hv, bind_ok, tensor_ok, modifyTensor_ok] at turn
    obtain ⟨_, _, ⟨rfl, rfl⟩, rfl⟩ := turn
    -- what is shown stands in front of the view that shows it
    have front : ∀ w ∈ done ++ [t], ∀ x, (g.tensor w).viewOf = some x → x ≠ t := by
      rintro w hw x hx rfl
      have before := before w (by grind) x hx
      rcases mem_append.1 hw with hw | hw
      · rw [split] at before
        exact Nat.lt_asymm before (before_of_mem_front nodup hw)
      · rw [mem_singleton.1 hw] at before
        exact Nat.lt_irrefl _ before
    refine ⟨moved.trans (Moved.setOffset _ _), fun w hw => ?_, fun w hw x hx => ?_⟩
    · grind [Arena.tensor_modifyTensor_ne]
    · rw [Arena.tensor_modifyTensor_ne (front w hw x hx)]
      rcases mem_append.1 hw with hw | hw
      · grind [Arena.tensor_modifyTensor_ne]
      · rw [mem_singleton.1 hw, hv, Option.some.injEq] at hx
        subst hx
        rw [mem_singleton.1 hw, Arena.tensor_modifyTensor_self (moved.size ▸ known t ht)]

theorem ownScratch_spec {h h' : Arena} {o : OpId} {shared unique : Number} {b : Number × Number}
    (step : (match (h.op o).param? "unique_workspace",
      (h.op o).param? "unique_workspace_offset" with
      | some v, none => do
        setParam o "unique_workspace_offset" unique.toValue
        return (shared, unique + (← expect .badType (Number.ofValue? v)))
      | _, _ => return (shared, unique) : Build (Number × Number)) h = .ok b h') :
    h'.tensors = h.tensors ∧ h'.dims = h.dims := by
  cases hv : (h.op o).param? "unique_workspace" with
  | none => simp_all
  | some v =>
    cases hf : (h.op o).param? "unique_workspace_offset" with
    | some f => simp_all
    | none =>
      simp only [hv, hf, setParam, bind_ok, modifyOp_ok, expect_ok, pure_ok] at step
      obtain ⟨_, _, rfl, _, _, ⟨-, rfl⟩, -, rfl⟩ := step
      exact ⟨rfl, rfl⟩

theorem scratch_spec {g g' : Arena} {ts : Graph} {r : Number × Number}
    (run : scratch ts g = .ok r g') :
    g'.tensors = g.tensors ∧ g'.dims = g.dims := by
  unfold scratch at run
  simp only [bind_ok, get_ok] at run
  obtain ⟨_, _, ⟨rfl, rfl⟩, run⟩ := run
  refine foldlM_keeps (fun _ h => h.tensors = g.tensors ∧ h.dims = g.dims) ?_ ⟨rfl, rfl⟩ run
  rintro o - ⟨shared, unique⟩ b h h' same step
  rw [bind_run (op_run _)] at step
  cases hw : (h.op o).param? "workspace" with
  | some v =>
    simp only [hw, bind_ok, expect_ok, pure_ok] at step
    obtain ⟨_, _, ⟨-, rfl⟩, _, _, ⟨-, rfl⟩, step⟩ := step
    exact (ownScratch_spec step).imp (·.trans same.1) (·.trans same.2)
  | none =>
    simp only [hw, bind_ok, pure_ok] at step
    obtain ⟨_, _, ⟨-, rfl⟩, step⟩ := step
    exact (ownScratch_spec step).imp (·.trans same.1) (·.trans same.2)

/-! ## The plan -/

def NeedsPlace (g : Arena) (t : TensorId) : Prop := (g.tensor t).isParam = false ∧
    (g.tensor t).viewOf = none

/-- What the loops of a plan leave, given the lifetimes that were placed. -/
structure Planned (g : Arena) (ts : Graph) (ls : List Lifetime) (p : Plan) (g' : Arena) : Prop where
  moved : Moved g g'
  blob : ∀ q ∈ placeAll ls, q.stop ≤ p.blob
  placed : ∀ q ∈ placeAll ls, NeedsPlace g q.life.tensor → (g'.tensor q.life.tensor).offset =
    some q.offset
  views : ∀ t ∈ ts, ∀ v, (g.tensor t).viewOf = some v → (g'.tensor t).offset = (g'.tensor v).offset
  inside : ∀ t ∈ ts, (g.tensor t).data.isSome → ∃ a n, Occupies g' t a n ∧ 0 ≤ a ∧
    a + n ≤ p.constants
  apart : (ts.filter fun t => (g.tensor t).data.isSome).Pairwise (SeparateBytes g')

section Plan

variable {g g' : Arena} {ts : Graph} {p : Plan} (sorted : Sorted g ts) (views : ViewsRead g ts)
  (bounds : ∀ t ∈ ts, ∀ d ∈ (g.tensor t).shape, 0 ≤ (g.dim d).upper)
include sorted views bounds

theorem layout_lifetimes {ls : List Lifetime} (lives : lifetimes (sourceSteps g ts) g = .ok ls g) :
    Layout (placeAll ls) ∧ ((placeAll ls).map (·.life)).Perm ls ∧
    ((placeAll ls).map (·.life.tensor)).Nodup ∧
      ∀ q ∈ placeAll ls, q.life.tensor ∈ ts := by
  obtain ⟨-, records, once, -⟩ := lifetimes_spec sorted views lives
  have known : ∀ l ∈ ls, l.tensor ∈ ts := fun l hl => by
    obtain ⟨-, -, -, -, i, touched⟩ := records l hl
    exact sorted.mem_of_touches touched
  have sized : ∀ l ∈ ls, l.Sized := fun l hl => by
    obtain ⟨nonneg, aligned⟩ := alignedSize_spec (bounds _ (known l hl)) (records l hl).size
    exact ⟨nonneg, aligned⟩
  grind [layout_placeAll, tensor, map_map, mem_map_of_mem]

variable (constants : ∀ t ∈ ts, (g.tensor t).data.isSome → (g.tensor t).isParam ∧
  (g.tensor t).viewOf = none)
include constants

/-- The loops of a plan write the places of different tensors, so none undoes what another one
did. -/
theorem planned_of_run (run : plan ts g = .ok p g') :
    ∃ ls, lifetimes (sourceSteps g ts) g = .ok ls g ∧ Planned g ts ls p g' := by
  unfold plan at run
  simp only [bind_ok, get_ok, pure_ok] at run
  obtain ⟨_, _, ⟨rfl, rfl⟩, ls, _, lives, _, g₁, written, c, g₂, const, _, g₃, shown, _, g', scr,
    rfl, rfl⟩ := run
  obtain ⟨rfl, -⟩ := lifetimes_spec sorted views lives
  obtain ⟨-, -, once, known⟩ := layout_lifetimes sorted views bounds lives
  rw [forIn_eq_forM] at written
  obtain ⟨moved₁, offsets, -⟩ := offsets_written (placeAll ls) once
    (fun q hq => sorted.known _ (known q hq)) written
  obtain ⟨moved₂, -, others₂, inside, apart⟩ := placeConstants_spec ts sorted.nodup
    (by rw [moved₁.size]; exact sorted.known)
      (by simp only [moved₁.shape, moved₁.dim]; exact bounds) const
  have moved := moved₁.trans moved₂
  obtain ⟨moved₃, others₃, follows⟩ := placeViews_spec sorted.nodup
    (by rw [moved.size]; exact sorted.known)
    (by simp only [moved.viewOf]; exact fun t ht v => view_before sorted views ht) shown
  simp only [moved₁.data] at others₂ inside apart
  simp only [moved.viewOf] at others₃ follows
  obtain ⟨tensors, dims⟩ := scratch_spec scr
  have same : g'.tensor = g₃.tensor := funext
    fun t => by rw [Arena.tensor_eq, tensors, ← Arena.tensor_eq]
  have ends : Moved g₂ g' := by
    refine ⟨?_, by rw [tensors, moved₃.size], fun t => by rw [same, moved₃.tensor t]⟩
    rw [← moved₃.dim]
    unfold Arena.dim
    rw [dims]
  -- constants are no views, so they stay where they were put
  have stays : ∀ t ∈ ts, (g.tensor t).data.isSome → ∀ a n, Occupies g' t a n ↔
    Occupies g₂ t a n := by
    intro t ht data a n
    have offset : (g'.tensor t).offset = (g₂.tensor t).offset := by rw [same,
      others₃ t (constants t ht data).2]
    refine ⟨fun h => ⟨offset ▸ h.offset, ?_⟩, fun h => ⟨offset ▸ h.offset, ?_⟩⟩
    · rw [← ends.alignedSize]
      exact h.aligned
    · rw [ends.alignedSize]
      exact h.aligned
  refine ⟨ls, lives, moved.trans ends, fun q hq => (stop_le_foldl_max (placeAll ls) 0).2 q hq, ?_,
    ?_, ?_, ?_⟩
  · intro q hq need
    have noData : (g.tensor q.life.tensor).data = none := by
      by_contra data
      have := (constants _ (known q hq) (Option.isSome_iff_ne_none.2 data)).1
      rw [need.1] at this
      cases this
    rw [same, others₃ _ need.2, others₂ _ (Or.inr noData)]
    exact offsets q hq
  · rw [same]
    exact follows
  · simp_all
  · refine apart.imp_of_mem fun {t u} ht hu h a m b n ht' hu' => ?_
    obtain ⟨ht, dataT⟩ := mem_filter.1 ht
    obtain ⟨hu, dataU⟩ := mem_filter.1 hu
    exact h a m b n ((stays t ht dataT a m).1 ht') ((stays u hu dataU b n).1 hu')

end Plan

/-- After planning, tensors that need a place take bytes of the block, starting at a multiple of 64,
and separate ones if they are live at the same step; a view starts where the tensor that it shows
starts; and constants take separate bytes of their own block. -/
theorem plan_separates {g g' : Arena} {ts : Graph} {p : Plan} (sorted : Sorted g ts)
    (views : ViewsRead g ts) (bounds : ∀ t ∈ ts, ∀ d ∈ (g.tensor t).shape, 0 ≤ (g.dim d).upper)
    (constants : ∀ t ∈ ts, (g.tensor t).data.isSome → (g.tensor t).isParam ∧
      (g.tensor t).viewOf = none)
    (run : plan ts g = .ok p g') :
    (∀ t, NeedsPlace g t → (∃ i, LiveAt g ts t i) →
      ∃ a n, Occupies g' t a n ∧ Set.Ico a (a + n) ⊆ Set.Ico 0 p.blob ∧ 64 ∣ a) ∧
    (∀ t u, t ≠ u → NeedsPlace g t → NeedsPlace g u → (∃ i, LiveAt g ts t i ∧ LiveAt g ts u i) →
      SeparateBytes g' t u) ∧
    (∀ t ∈ ts, ∀ v, (g.tensor t).viewOf = some v → (g'.tensor t).offset = (g'.tensor v).offset) ∧
    (∀ t ∈ ts, (g.tensor t).data.isSome →
      ∃ a n, Occupies g' t a n ∧ Set.Ico a (a + n) ⊆ Set.Ico 0 p.constants) ∧
    (∀ t ∈ ts, ∀ u ∈ ts, t ≠ u → (g.tensor t).data.isSome → (g.tensor u).data.isSome →
      SeparateBytes g' t u) := by
  obtain ⟨ls, lives, planned⟩ := planned_of_run sorted views bounds constants run
  obtain ⟨layout, perm, -⟩ := layout_lifetimes sorted views bounds lives
  obtain ⟨-, records, -, covers⟩ := lifetimes_spec sorted views lives
  -- the lifetime of a live tensor was placed, and that is where its bytes are
  have placed : ∀ t i, NeedsPlace g t → LiveAt g ts t i → ∃ q ∈ placeAll ls,
      q.life.tensor = t ∧ q.life.first ≤ i ∧ i ≤ q.life.last ∧
        Occupies g' t q.offset q.life.size := by
    intro t i need live
    obtain ⟨l, hl, rfl, first, last⟩ := covers t i need.1 need.2 live
    obtain ⟨q, hq, rfl⟩ := mem_map.1 (perm.mem_iff.2 hl)
    refine ⟨q, hq, rfl, first, last, planned.placed q hq need, ?_⟩
    rw [planned.moved.alignedSize]
    exact (records q.life hl).size
  refine ⟨?_, ?_, planned.views, ?_, ?_⟩
  · rintro t need ⟨i, live⟩
    obtain ⟨q, hq, -, -, -, occupies⟩ := placed t i need live
    obtain ⟨start, aligned⟩ := layout.start q hq
    exact ⟨_, _, occupies, Set.Ico_subset_Ico start (planned.blob q hq), aligned⟩
  · rintro t u ne needT needU ⟨i, liveT, liveU⟩
    obtain ⟨q, hq, ownT, firstT, lastT, occT⟩ := placed t i needT liveT
    obtain ⟨r, hr, ownU, firstU, lastU, occU⟩ := placed u i needU liveU
    have both : q.life.overlaps r.life := by
      simp only [Lifetime.overlaps, decide_eq_true_eq]
      omega
    have differ : q ≠ r := by
      rintro rfl
      exact ne (ownT.symm.trans ownU)
    exact SeparateBytes.of_le occT occU (layout.apart.forall hq hr differ both)
  · intro t ht data
    obtain ⟨a, n, occupies, lower, upper⟩ := planned.inside t ht data
    exact ⟨a, n, occupies, Set.Ico_subset_Ico lower upper⟩
  · intro t ht u hu ne dataT dataU
    exact planned.apart.forall (mem_filter.2 ⟨ht, dataT⟩) (mem_filter.2 ⟨hu, dataU⟩) ne

/-- `y` is made of `x` and a constant, `v` shows `y`, and the output `z` is made of `v` and a second
constant. -/
def viewedArena : Arena where
  dims := #[.static 5, .static 3, .static 15]
  tensors :=
    let made (name : String) (o : Nat) (shape : List DimId) : Tensor :=
      { Tensor.ofShape shape with name := some name, src := ⟨[⟨o⟩], false⟩ }
    let constant (name : String) : Tensor :=
      { Tensor.ofShape [⟨0⟩, ⟨1⟩] with
        name := some name, isParam := true, data := some ⟨30, "float16"⟩ }
    #[{ Tensor.ofShape [⟨0⟩, ⟨1⟩] with name := some "x", isInput := true }, constant "c",
      made "y" 0 [⟨0⟩, ⟨1⟩], { made "v" 1 [⟨2⟩] with viewOf := some ⟨2⟩ }, constant "d",
      { made "z" 2 [⟨2⟩] with isOutput := true }]
  ops :=
    let applied (xs : List Nat) (y : Nat) : Operator :=
      { Operator.ofClass .elementwise "elementwise" with
        inputs := some (xs.map TensorId.mk), outputs := some [⟨y⟩] }
    #[applied [0, 1] 2, applied [2] 3, applied [3, 4] 5]
  namer := ⟨0, 0, [], []⟩
  target := none

def viewedGraph : Graph := [⟨0⟩, ⟨1⟩, ⟨2⟩, ⟨3⟩, ⟨4⟩, ⟨5⟩]

/-- The view keeps `y` alive while `z` is written, so the two are apart. -/
theorem plan_separates_viewed :
    Sorted viewedArena viewedGraph ∧ ViewsRead viewedArena viewedGraph ∧
    ∃ p g', plan viewedGraph viewedArena = .ok p g' ∧ SeparateBytes g' ⟨2⟩ ⟨5⟩ ∧
    SeparateBytes g' ⟨1⟩ ⟨4⟩ ∧ (g'.tensor ⟨3⟩).offset = (g'.tensor ⟨2⟩).offset := by
  have sorted : Sorted viewedArena viewedGraph := by decide
  have views : ViewsRead viewedArena viewedGraph := by decide
  have returns :
      (match plan viewedGraph viewedArena with | .ok _ _ => true | .error _ _ => false) = true := by
    cbv
  cases run : plan viewedGraph viewedArena with
  | error => simp [run] at returns
  | ok p g' =>
    obtain ⟨-, apart, follows, -, constants⟩ :=
      plan_separates sorted views (by decide) (by decide) run
    have live : LiveAt viewedArena viewedGraph ⟨2⟩ 2 ∧ LiveAt viewedArena viewedGraph ⟨5⟩ 2 :=
      ⟨⟨⟨⟨2⟩, 0, .refl, by decide, by decide⟩, Or.inl ⟨⟨3⟩, 2, .single rfl, by decide, by decide⟩⟩,
        ⟨⟨⟨5⟩, 2, .refl, by decide, by decide⟩, Or.inl ⟨⟨5⟩, 2, .refl, by decide, by decide⟩⟩⟩
    refine ⟨sorted, views, p, g', rfl, ?_, ?_, follows ⟨3⟩ (by decide) ⟨2⟩ rfl⟩
    · exact apart ⟨2⟩ ⟨5⟩ (by decide) ⟨rfl, rfl⟩ ⟨rfl, rfl⟩ ⟨2, live⟩
    · exact constants ⟨1⟩ (by decide) ⟨4⟩ (by decide) (by decide) rfl rfl
end Graph

end TensorGraph

import TensorGraph.Proofs.Dimensions

/-!
# Steps that only add

Applying an operator adds dimensions and tensors to the arena.
-/

namespace TensorGraph

open List

/-- All dimensions are still there, and all tensors with their shapes and element types. -/
structure Arena.Extends (g g' : Arena) : Prop where
  dims : g.dims.size ≤ g'.dims.size
  dim : ∀ d, d.idx < g.dims.size → g'.dim d = g.dim d
  tensors : g.tensors.size ≤ g'.tensors.size
  tensor : ∀ t, t.idx < g.tensors.size → (g'.tensor t).shape = (g.tensor t).shape ∧
    (g'.tensor t).dtype = (g.tensor t).dtype
  fixed : ∀ t, t.idx < g.tensors.size → (g'.tensor t).dst.fixed = (g.tensor t).dst.fixed

namespace Arena.Extends

variable {g g₁ g' : Arena}

theorem refl (g : Arena) : g.Extends g :=
  ⟨Nat.le_refl _, fun _ _ => rfl, Nat.le_refl _, fun _ _ => ⟨rfl, rfl⟩, fun _ _ => rfl⟩

theorem trans (h : g.Extends g₁) (h' : g₁.Extends g') : g.Extends g' where
  dims := Nat.le_trans h.dims h'.dims
  dim d hd := (h'.dim d (Nat.lt_of_lt_of_le hd h.dims)).trans (h.dim d hd)
  tensors := Nat.le_trans h.tensors h'.tensors
  tensor t ht := by
    obtain ⟨shape, dtype⟩ := h.tensor t ht
    obtain ⟨shape', dtype'⟩ := h'.tensor t (Nat.lt_of_lt_of_le ht h.tensors)
    grind
  fixed t ht := (h'.fixed t (Nat.lt_of_lt_of_le ht h.tensors)).trans (h.fixed t ht)

theorem modifyTensor (g : Arena) (t : TensorId) {f : Tensor → Tensor}
    (shape : ∀ x, (f x).shape = x.shape) (dtype : ∀ x, (f x).dtype = x.dtype)
    (fixed : ∀ x, (f x).dst.fixed = x.dst.fixed) : g.Extends (g.modifyTensor t f) where
  dims := Nat.le_refl _
  dim _ _ := rfl
  tensors := by simp
  tensor u hu := by
    by_cases same : u = t
    · simp_all
    · grind [Arena.tensor_modifyTensor_ne]
  fixed u hu := by
    by_cases same : u = t
    · simp_all
    · rw [Arena.tensor_modifyTensor_ne same]

theorem pushDim (g : Arena) (d : Dim) : g.Extends { g with dims := g.dims.push d } where
  dims := by simp
  dim e he := by rw [Arena.dim_push, if_neg (Nat.ne_of_lt he)]
  tensors := Nat.le_refl _
  tensor _ _ := ⟨rfl, rfl⟩
  fixed _ _ := rfl

theorem pushTensor (g : Arena) (x : Tensor) : g.Extends { g with tensors := g.tensors.push x } := by
  have same (t : TensorId) (ht : t.idx < g.tensors.size) := (Arena.tensor_push g x t).trans
    (if_neg (Nat.ne_of_lt ht))
  exact ⟨Nat.le_refl _, fun _ _ =>
    rfl, by simp, fun t ht => by simp [same t ht], fun t ht => by rw [same t ht]⟩

theorem map_dim {α : Type} (h : g.Extends g') {s : List DimId}
    (known : ∀ d ∈ s, d.idx < g.dims.size) (f : Dim → α) :
    s.map (fun d => f (g'.dim d)) = s.map fun d => f (g.dim d) :=
  map_congr_left fun d hd => by rw [h.dim d (known d hd)]

end Arena.Extends

namespace Build

open Arena

def Frame.extends : Frame where
  rel := Arena.Extends
  refl := Extends.refl
  trans := Extends.trans

namespace Extending

instance seesOp (o : OpId) : Within.SeesOp .extends o fun _ => () where
  modify _ := ⟨fun run => by
    obtain rfl := modifyOp_ok.1 run
    exact ⟨Nat.le_refl _, fun _ _ => rfl, Nat.le_refl _, fun _ _ => ⟨rfl, rfl⟩, fun _ _ => rfl⟩⟩

instance seesTensor (t : TensorId) : Within.SeesTensor .extends t fun x =>
    (x.shape, x.dtype, x.dst.fixed) where
  modify same := ⟨fun {g _ _} run => by
    obtain rfl := modifyTensor_ok.1 run
    simp only [Prod.mk.injEq] at same
    exact .modifyTensor g t (fun x => (same x).1) (fun x => (same x).2.1) fun x => (same x).2.2⟩

instance addDim (d : Dim) : Within .extends (addDim d) where
  keeps {g _ _} run := by
    obtain ⟨-, rfl⟩ := EStateM.Result.ok.inj (run : EStateM.Result.ok _ _ = _)
    exact .pushDim g d

instance addTensor (x : Tensor) : Within .extends (addTensor x) where
  keeps {g _ _} run := by
    obtain ⟨-, rfl⟩ := EStateM.Result.ok.inj (run : EStateM.Result.ok _ _ = _)
    exact .pushTensor g x

instance newOp (cls : OpClass) (kind : String) (settings : List (String × Value)) :
    Within .extends (newOp cls kind settings) where
  keeps run := by
    obtain ⟨-, rfl⟩ := EStateM.Result.ok.inj (run : EStateM.Result.ok _ _ = _)
    exact ⟨Nat.le_refl _, fun _ _ => rfl, Nat.le_refl _, fun _ _ => ⟨rfl, rfl⟩, fun _ _ => rfl⟩

instance addDst (t : TensorId) (o : OpId) : Within .extends (addDst t o) := by
  have : Within .extends (modifyTensor t fun x => { x with dst := x.dst.insert o }) :=
    Within.SeesTensor.modify fun x => by
    unfold Links.insert
    dsimp only
    split <;> rfl
  unfold Build.addDst
  exact .of_parts

instance soleOutput (o : OpId) (shape : List DimId) (dtype : String) :
    Within .extends (soleOutput o shape dtype) := .of_parts

end Extending

theorem dimOfValues_ok {g g' : Arena} {vs : List Int} {name : Option String} {e : DimId}
    (run : dimOfValues vs name g = .ok e g') : e.idx < g'.dims.size ∧ Dim.ofValues? vs name =
    .ok (g'.dim e) := by
  unfold dimOfValues at run
  simp only [bind_ok, ofExcept_ok] at run
  obtain ⟨d, _, ⟨made, rfl⟩, added⟩ := run
  obtain ⟨rfl, rfl⟩ := EStateM.Result.ok.inj (added : EStateM.Result.ok _ _ = _)
  refine ⟨by simp, ?_⟩
  rw [Arena.dim_push, if_pos rfl, made]

/-- What each turn of a loop has achieved still holds behind the loop. -/
theorem mapM_extends {α β : Type} {f : α → Build β} {Q : Arena → α → β → Prop}
    (stable : ∀ {g g' a b}, g.Extends g' → Q g a b → Q g' a b) {l : List α} {g g' : Arena}
    {bs : List β} (turn : ∀ a ∈ l, ∀ {h h' b}, g.Extends h → f a h = .ok b h' → Q h' a b)
    (run : l.mapM f g = .ok bs g') (each : ∀ a, Within .extends
    (f a) := by exact fun _ => Build.Within.of_parts) : Forall₂ (Q g') l bs := by
  rw [← mapM'_eq_mapM] at run
  suffices from_here : ∀ h bs, g.Extends h → l.mapM' f h = .ok bs g' → Forall₂ (Q g') l bs from
    from_here g bs (.refl g) run
  clear run
  induction l with
  | nil => simp_all
  | cons a l ih =>
    intro h bs more run
    rw [mapM'_cons] at run
    simp only [bind_ok, pure_ok] at run
    obtain ⟨b, h₁, first, bs, h₂, rest, rfl, rfl⟩ := run
    have grown : h₁.Extends h₂ := by
      rw [mapM'_eq_mapM] at rest
      exact Frame.extends.keeps rest
    exact .cons (stable grown (turn a mem_cons_self more first))
      (ih (fun b hb => turn b (mem_cons_of_mem a hb)) h₁ bs (more.trans (Frame.extends.keeps first))
        rest)

end Build

end TensorGraph

import TensorGraph.Proofs.Nodes

/-!
# Sizes of dimensions

A dimension lists its possible sizes in increasing order, so the first and the last bound all others
(`lower_le`, `le_upper`), and the dimension that is made from a list of sizes has exactly those
(`ofValues?_ok`).
-/

namespace TensorGraph

open List

variable {o : OpId} {n : Int} {ns : List Int} {name : Option String} {d : Dim}

namespace Dim

/-- A dimension as it is made: sizes are listed in order, only one if it is fixed; a dynamic one has
no negative size. -/
structure WellFormed (d : Dim) : Prop where
  listed : d.values ≠ []
  sorted : d.values.Pairwise (· ≤ ·)
  fixed : d.isStatic = true → d.values.length = 1
  nonneg : d.isStatic = false → ∀ n ∈ d.values, 0 ≤ n

instance (d : Dim) : Decidable d.WellFormed :=
  decidable_of_iff (d.values ≠ [] ∧ d.values.Pairwise (· ≤ ·) ∧
    (d.isStatic = true → d.values.length = 1) ∧
      (d.isStatic = false → ∀ n ∈ d.values, 0 ≤ n))
    ⟨fun ⟨a, b, c, e⟩ => ⟨a, b, c, e⟩, fun ⟨a, b, c, e⟩ => ⟨a, b, c, e⟩⟩

def Admits (d : Dim) (n : Int) : Prop := d.lower ≤ n ∧ n ≤ d.upper

section Bounds

variable {d : Dim}

theorem WellFormed.lower_mem (wf : d.WellFormed) : d.lower ∈ d.values := by
  unfold lower
  cases h : d.values with
  | nil => exact absurd h wf.listed
  | cons n ns => exact mem_cons_self

theorem WellFormed.upper_mem (wf : d.WellFormed) : d.upper ∈ d.values := by
  unfold upper
  rw [getLastD_eq_getLast?, getLast?_eq_some_getLast wf.listed]
  exact getLast_mem wf.listed

theorem WellFormed.lower_le (wf : d.WellFormed) (h : n ∈ d.values) : d.lower ≤ n := by
  have sorted := wf.sorted
  unfold lower
  cases e : d.values with
  | nil => exact absurd e wf.listed
  | cons m ms =>
    rw [e] at h sorted
    rcases mem_cons.1 h with rfl | h
    · exact Int.le_refl _
    · exact (pairwise_cons.1 sorted).1 n h

theorem WellFormed.le_upper (wf : d.WellFormed) (h : n ∈ d.values) : n ≤ d.upper := by
  have sorted := wf.sorted
  unfold upper
  rw [getLastD_eq_getLast?, getLast?_eq_some_getLast wf.listed]
  have split := dropLast_append_getLast wf.listed
  rw [← split] at h sorted
  rcases mem_append.1 h with h | h
  · exact (pairwise_append.1 sorted).2.2 n h _ (mem_singleton.2 rfl)
  · exact Int.le_of_eq (mem_singleton.1 h)

theorem WellFormed.lower_le_upper (wf : d.WellFormed) : d.lower ≤ d.upper :=
  wf.lower_le wf.upper_mem

theorem WellFormed.admits_lower (wf : d.WellFormed) : d.Admits d.lower :=
  ⟨Int.le_refl _, wf.lower_le_upper⟩

theorem WellFormed.admits_upper (wf : d.WellFormed) : d.Admits d.upper :=
  ⟨wf.lower_le_upper, Int.le_refl _⟩

end Bounds

/-! ## Making dimensions -/

theorem static_wellFormed (n : Int) (name : Option String) : (static n name).WellFormed :=
  ⟨by simp [static], by simp [static], fun _ => rfl, fun h => by cases h⟩

theorem dynamic?_ok (h : dynamic? ns name = .ok d) :
    d.WellFormed ∧ d.isStatic = false ∧ d.name = name ∧ ∀ n, n ∈ d.values ↔ n ∈ ns := by
  unfold dynamic? at h
  split at h
  · cases h
  split at h
  · cases h
  next long positive =>
  have nonneg : ∀ n ∈ ns, 0 ≤ n := by simpa using positive
  have members : ∀ n, n ∈ sortedValues ns ↔ n ∈ ns := fun n => mem_sortedValues
  split at h
  · next n only =>
    obtain rfl := Except.ok.inj h
    have single : ∀ m, m ∈ [n, n] ↔ m ∈ ns := by
      intro m
      rw [← members, only]
      simp
    exact ⟨⟨by simp, by simp, fun h => (by cases h), fun _ m hm => nonneg m ((single m).1 hm)⟩, rfl,
      rfl, single⟩
  · obtain rfl := Except.ok.inj h
    refine ⟨⟨fun empty => ?_, ?_, fun h => (by cases h), fun _ m hm => nonneg m ((members m).1 hm)⟩,
      rfl, rfl, members⟩
    · have none : ns = [] := eq_nil_iff_forall_not_mem.2 fun m hm => by grind
      simp [none] at long
    · exact (sortedValues_increasing ns).imp Int.le_of_lt

theorem dynamic?_returns (name : Option String) (long : 2 ≤ ns.length) (nonneg : ∀ n ∈ ns, 0 ≤ n) :
    ∃ d, dynamic? ns name = .ok d := by
  unfold dynamic?
  rw [if_neg (by omega), if_neg (by simpa using nonneg)]
  split <;> exact ⟨_, rfl⟩

theorem mem_listed : n ∈ listed ns ↔ n ∈ ns := mem_mergeSort

/-- A dimension that is made from sizes has exactly those. -/
theorem ofValues?_ok (h : ofValues? ns name = .ok d) : d.WellFormed ∧ ∀ n, n ∈ d.values ↔
    n ∈ ns := by
  have members : ∀ n, n ∈ ns.distinct ↔ n ∈ ns := fun n => mem_distinct
  unfold ofValues? at h
  split at h
  · cases h
  · next n only =>
    obtain rfl := Except.ok.inj h
    refine ⟨static_wellFormed n name, fun m => ?_⟩
    rw [← members, only]
    rfl
  · obtain ⟨wf, -, -, same⟩ := dynamic?_ok h
    exact ⟨wf, fun n => (same n).trans (mem_listed.trans (members n))⟩

theorem ofValues?_name (h : ofValues? ns name = .ok d) : d.name = name := by
  unfold ofValues? at h
  split at h
  · cases h
  · obtain rfl := Except.ok.inj h
    rfl
  · exact (dynamic?_ok h).2.2.1

theorem ofValues?_returns (name : Option String) (some : ns ≠ []) (nonneg : ∀ n ∈ ns, 0 ≤ n) :
    ∃ d, ofValues? ns name = .ok d := by
  have members : ∀ n, n ∈ ns.distinct ↔ n ∈ ns := fun n => mem_distinct
  unfold ofValues?
  split
  · next none =>
    obtain ⟨n, hn⟩ := exists_mem_of_ne_nil _ some
    rw [← members, none] at hn
    cases hn
  · exact ⟨_, rfl⟩
  · next many single =>
    refine dynamic?_returns name ?_ fun n hn => nonneg n ((members n).1 (mem_listed.1 hn))
    unfold listed
    match h : ns.distinct with
    | [] => exact (many h).elim
    | [n] => exact (single n h).elim
    | _ :: _ :: _ => simp

end Dim

/-! ## Dimensions in the arena -/

namespace Arena

variable {g : Arena}

theorem dim_push (x : Dim) (d : DimId) :
    Arena.dim { g with dims := g.dims.push x } d = if d.idx = g.dims.size then x else g.dim d := by
  unfold Arena.dim
  simp only [Array.getD_eq_getD_getElem?, Array.getElem?_push]
  split <;> rfl

theorem tensor_push_new (x : Tensor) : Arena.tensor { g with tensors := g.tensors.push x }
    ⟨g.tensors.size⟩ = x := by
  simp [Arena.tensor, Array.getD_eq_getD_getElem?]

theorem lt_of_wellFormed {d : DimId} (wf : (g.dim d).WellFormed) : d.idx < g.dims.size := by
  refine Nat.lt_of_not_le fun outside => wf.listed ?_
  have : g.dim d = default := by
    unfold Arena.dim
    grind
  rw [this]
  rfl

end Arena

/-- There may be more dimensions, and nothing else has changed. -/
structure MoreDims (g g' : Arena) : Prop where
  rest : g' = { g with dims := g'.dims }
  size : g.dims.size ≤ g'.dims.size
  old : ∀ d, d.idx < g.dims.size → g'.dim d = g.dim d

namespace MoreDims

variable {g g₁ g' : Arena}

theorem refl (g : Arena) : MoreDims g g := ⟨rfl, Nat.le_refl _, fun _ _ => rfl⟩

theorem trans (h : MoreDims g g₁) (h' : MoreDims g₁ g') : MoreDims g g' where
  rest := by rw [h'.rest, h.rest]
  size := Nat.le_trans h.size h'.size
  old d hd := (h'.old d (Nat.lt_of_lt_of_le hd h.size)).trans (h.old d hd)

theorem push (g : Arena) (d : Dim) : MoreDims g { g with dims := g.dims.push d } :=
  ⟨rfl, by simp, fun e he => by rw [Arena.dim_push, if_neg (Nat.ne_of_lt he)]⟩

end MoreDims

namespace Build

variable {g g' : Arena}

theorem mapM_dims {α : Type} {l : List α} {f : α → Build DimId} (Q : α → Dim → Prop)
    (turn : ∀ a ∈ l, ∀ h, MoreDims g h → ∃ e h', f a h = .ok e h' ∧ MoreDims h h' ∧
      e.idx < h'.dims.size ∧ Q a (h'.dim e)) :
    ∃ es g', l.mapM f g = .ok es g' ∧ MoreDims g g' ∧
    Forall₂ (fun a e => e.idx < g'.dims.size ∧ Q a (g'.dim e)) l es := by
  rw [← mapM'_eq_mapM]
  suffices from_here : ∀ h, MoreDims g h → ∃ es g', l.mapM' f h = .ok es g' ∧ MoreDims h g' ∧
      Forall₂ (fun a e => e.idx < g'.dims.size ∧ Q a (g'.dim e)) l es from from_here g (.refl g)
  induction l with
  | nil => exact fun h _ => ⟨[], h, rfl, .refl h, .nil⟩
  | cons a l ih =>
    intro h grown
    obtain ⟨e, h₁, first, more, known, holds⟩ := turn a mem_cons_self h grown
    obtain ⟨es, g', run, rest, all⟩ := ih (fun b hb => turn b (mem_cons_of_mem _ hb)) h₁
      (grown.trans more)
    refine ⟨e :: es, g', ?_, more.trans rest, .cons ⟨Nat.lt_of_lt_of_le known rest.size, ?_⟩ all⟩
    · simp_all
    · rw [rest.old e known]
      exact holds

/-- Steps after which all dimensions and the shapes of all tensors are as they were; operators keep
the position of the size that is computed when the program runs. -/
def Frame.layout : Frame where
  rel g g' := g'.dims = g.dims ∧ (∀ t, (g'.tensor t).shape = (g.tensor t).shape) ∧
    ∀ o, (g'.op o).param? "unknown_idx" = (g.op o).param? "unknown_idx"
  refl _ := ⟨rfl, fun _ => rfl, fun _ => rfl⟩
  trans h₁ h₂ := ⟨h₂.1.trans h₁.1, fun t => (h₂.2.1 t).trans (h₁.2.1 t), fun o =>
    (h₂.2.2 o).trans (h₁.2.2 o)⟩

instance : Within.SeesOp .layout o (Operator.param? · "unknown_idx") where
  modify same := ⟨fun {g _ _} run => by
    obtain rfl := modifyOp_ok.1 run
    refine ⟨rfl, fun _ => rfl, fun p => ?_⟩
    grind [Arena.op_modifyOp_ite]⟩

instance : Within.SeesTensor .layout t Tensor.shape where
  modify same := ⟨fun {g _ _} run => by
    obtain rfl := modifyTensor_ok.1 run
    refine ⟨rfl, fun u => ?_, fun _ => rfl⟩
    grind [Arena.tensor_modifyTensor_ite]⟩

theorem setParam_layout {key : String} {v : Value} (other : "unknown_idx" ≠ key) :
    Within .layout (setParam o key v) :=
  Within.SeesOp.modify fun x => by rw [Operator.param?_setParam, if_neg (by simpa using other)]

instance linkInputs_layout (o : OpId) : Within .layout (linkInputs o) := .of_parts

theorem linkInputs_returns {g : Arena}
    (free : ∀ t ∈ (g.op o).inputList, (g.tensor t).dst.fixed = false) :
    ∃ g', linkInputs o g = .ok () g' := by
  unfold linkInputs
  simp only [forIn_eq_forM]
  rw [bind_run (op_run o)]
  obtain ⟨g', run, -⟩ := forM_returns (g := g) (l := (g.op o).inputList) (f := fun t => addDst t o)
    (fun h => ∀ t ∈ (g.op o).inputList, (h.tensor t).dst.fixed = false) (fun t ht h free => by
      refine ⟨h.modifyTensor t fun u => { u with dst := u.dst.insert o }, ?_, fun u hu => ?_⟩
      · unfold addDst
        simp_all
      · grind [Arena.tensor_modifyTensor_ite, Links.insert]) free
  rw [bind_run run]
  exact ⟨_, rfl⟩

theorem soleOutput_run {g : Arena} (o : OpId) (shape : List DimId) (dtype : String) :
    ∃ y g', soleOutput o shape dtype g = .ok y g' ∧ (g'.tensor y).shape = shape ∧
    (g'.tensor y).dtype = dtype ∧
      g'.dims = g.dims :=
  ⟨_, _, rfl, congrArg Tensor.shape (Arena.tensor_push_new _),
    congrArg Tensor.dtype (Arena.tensor_push_new _), rfl⟩

end Build

end TensorGraph

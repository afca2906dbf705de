import Mathlib.Algebra.Order.BigOperators.GroupWithZero.List
import Mathlib.Data.List.Perm.Basic
import TensorGraph.Op.View
import TensorGraph.Proofs.RuntimeSizes

/-!
# Solved shapes

Whether a shape can be given another form is decided by trial: the listed shapes of the input are
paired with listed target shapes, and an unknown size is solved for (`Solution`).
-/

namespace TensorGraph

open List

variable {d : DimId} {i : Nat} {n : Int} {r source : List Int}

namespace View

open Build Arena

/-! ## Solving for an unknown size -/

/-- A shape that has the sizes asked for, and as many elements as the source. -/
structure Solution (source target shape : List Int) : Prop where
  rank : shape.length = target.length
  elements : shape.prod = source.prod
  kept : ∀ (i : Nat) (n : Int), target[i]? = some n → n ≠ -1 → shape[i]? = some n
  found : (∀ n ∈ source, 0 ≤ n) → ∀ i : Nat, target[i]? = some (-1) →
    ∃ n, shape[i]? = some n ∧ 0 ≤ n ∧ 0 < (shape.eraseIdx i).prod

theorem split_at {t : List Int} (h : t[i]? = some n) : t = t.take i ++ n :: t.drop (i + 1) ∧
    (t.take i).length = i := by
  obtain ⟨lt, rfl⟩ := List.getElem?_eq_some_iff.1 h
  refine ⟨?_, by rw [List.length_take]; omega⟩
  simp_all

theorem sole_unknown {t : List Int} (one : (t.filter (· == -1)).length = 1)
    (unknown : t[i]? = some (-1)) :
    ∃ l r, t = l ++ -1 :: r ∧ l.length = i ∧ ∀ n ∈ l ++ r, n ≠ -1 := by
  obtain ⟨split, len⟩ := split_at unknown
  refine ⟨_, _, split, len, fun n hn same => ?_⟩
  rw [split, filter_append, filter_cons_of_pos (by simp), length_append, length_cons] at one
  have none : ((t.take i ++ t.drop (i + 1)).filter (· == -1)).length = 0 := by grind
  have : n ∈ (t.take i ++ t.drop (i + 1)).filter (· == -1) := mem_filter.2 ⟨hn, by simp [same]⟩
  grind

def fill (q : Int) (t : List Int) : List Int := t.map fun n => if n == -1 then q else n

theorem fill_split {l : List Int} (known : ∀ n ∈ l ++ r, n ≠ -1) (q : Int) :
    fill q (l ++ -1 :: r) = l ++ q :: r ∧ (l ++ -1 :: r).filter (· != -1) = l ++ r := by
  have same : ∀ n ∈ l ++ r, (if n == -1 then q else n) = n := fun n hn =>
    if_neg (by simpa using known n hn)
  have keep : ∀ n ∈ l ++ r, (n != -1) = true := fun n hn => by simpa using known n hn
  constructor
  · unfold fill
    rw [map_append, map_cons, if_pos (by simp),
      map_congr_left fun n hn => same n (mem_append_left _ hn), map_id',
      map_congr_left fun n hn => same n (mem_append_right _ hn), map_id']
  · rw [filter_append, filter_cons_of_neg (by simp), ← filter_append]
    exact filter_eq_self.2 keep

theorem solution_self {target : List Int} (known : ∀ n ∈ target, n ≠ -1)
    (count : source.prod = target.prod) :
    Solution source target target :=
  ⟨rfl, count.symm, fun _ _ at_i _ => at_i, fun _ _ unknown =>
    absurd rfl (known _ (mem_of_getElem? unknown))⟩

theorem solution_fill {target : List Int} {q : Int} (one : (target.filter (· == -1)).length = 1)
    (positive : 0 < (target.filter (· != -1)).prod)
    (count : source.prod = q * (target.filter (· != -1)).prod) :
    Solution source target (fill q target) := by
  have found : ∀ i : Nat, target[i]? = some (-1) →
      ∃ l r, fill q target = l ++ q :: r ∧ l.length = i ∧ (target.filter (· != -1)) = l ++ r := by
    grind [sole_unknown, fill_split]
  obtain ⟨i, first⟩ : ∃ i : Nat, target[i]? = some (-1) := by
    obtain ⟨n, only⟩ := length_eq_one_iff.1 one
    have mem : n ∈ target.filter (· == -1) := by simp [only]
    obtain ⟨mem, same⟩ := mem_filter.1 mem
    rw [eq_of_beq same] at mem
    exact mem_iff_getElem?.1 mem
  refine ⟨by simp [fill], ?_, fun j n at_j known => ?_, fun nonneg j unknown => ?_⟩
  · grind
  · rw [fill, getElem?_map, at_j, Option.map_some, if_neg (by simpa using known)]
  · obtain ⟨l, r, filled, rfl, rest⟩ := found j unknown
    have erased : (fill q target).eraseIdx l.length = l ++ r := by grind
    refine ⟨q, by rw [filled]; simp, ?_, by rw [erased, ← rest]; exact positive⟩
    have elements : 0 ≤ source.prod := prod_nonneg nonneg
    simp_all

theorem solve?_solution {target shape : List Int} (h : solve? source target = .ok shape) :
    Solution source target shape := by
  unfold solve? at h
  simp only [prodInt_eq] at h
  split at h
  · next none =>
    have known : ∀ n ∈ target, n ≠ -1 := by simp_all
    have all : target.filter (· != -1) = target :=
      filter_eq_self.2 fun n hn => by simpa using known n hn
    split at h
    · next count =>
      obtain rfl := Except.ok.inj h
      rw [all] at count
      exact solution_self known (eq_of_beq count)
    · cases h
  · next one =>
    split at h
    · cases h
    next positive =>
    split at h
    · cases h
    next whole =>
    obtain rfl := Except.ok.inj h
    refine solution_fill one (by omega) ?_
    have whole : Int.fmod source.prod (target.filter (· != -1)).prod = 0 := by simpa using whole
    have := Int.mul_fdiv_add_fmod source.prod (target.filter (· != -1)).prod
    grind
  · cases h

/-! ## Shapes that are tried -/

def Choice (g : Arena) (ds : List DimId) (s : List Int) : Prop :=
  Forall₂ (fun n d => n ∈ (g.dim d).values) s ds

section Choices

variable {g : Arena} {ds : List DimId} {s : List Int}

theorem mem_choices : s ∈ Shape.choices (ds.map fun d => (g.dim d).values) ↔ Choice g ds s := by
  unfold Choice
  induction ds generalizing s with
  | nil => simp [Shape.choices]
  | cons d ds ih =>
    simp only [map_cons, Shape.choices, mem_flatMap, mem_map, ih]
    constructor
    · rintro ⟨n, hn, s, rest, rfl⟩
      exact .cons hn rest
    · rintro (_ | ⟨hn, rest⟩)
      exact ⟨_, hn, _, rest, rfl⟩

theorem Choice.at (c : Choice g ds s) (h : ds[i]? = some d) :
    ∃ n ∈ (g.dim d).values, s[i]? = some n := by
  induction c generalizing i with
  | nil => cases h
  | cons hn _ ih => grind

theorem choice_lowest (wf : ∀ d ∈ ds, (g.dim d).WellFormed) :
    Choice g ds (ds.map (Sizes.lowest g).size) :=
  forall₂_map_left_iff.2 (forall₂_same.2 fun d hd => (wf d hd).lower_mem)

theorem choice_highest (wf : ∀ d ∈ ds, (g.dim d).WellFormed) :
    Choice g ds (ds.map (Sizes.highest g).size) :=
  forall₂_map_left_iff.2 (forall₂_same.2 fun d hd => (wf d hd).upper_mem)

theorem Choice.nonneg (c : Choice g ds s)
    (sizes : ∀ d ∈ ds, (g.dim d).WellFormed ∧ 0 ≤ (g.dim d).lower) : ∀ n ∈ s, 0 ≤ n := by
  induction c with
  | nil => exact fun n hn => absurd hn not_mem_nil
  | cons hn _ ih =>
    intro n hn'
    rcases mem_cons.1 hn' with rfl | hn'
    · obtain ⟨wf, low⟩ := sizes _ mem_cons_self
      exact Int.le_trans low (wf.lower_le hn)
    · simp_all

end Choices

/-! ## What a reshaped tensor has to be -/

/-- Reshaping does what it is asked for, whatever the sizes: the sizes of the new shape are not
negative, those asked for are there, and the elements stay the same. -/
def Honours (g : Arena) (shape target : List DimId) (unknown : Int) (outs : List Int) : Prop :=
  ∀ σ : Sizes g, ∃ sizes, runtimeSizes unknown (shape.map σ.size) outs = some sizes ∧
    (∀ n ∈ sizes, 0 ≤ n) ∧
    sizes.length = target.length ∧
    (∀ (i : Nat) (d : DimId), target[i]? = some d → (g.dim d).isFixed (-1) = false →
      sizes[i]? = some (σ.size d)) ∧
    sizes.prodInt = (shape.map σ.size).prodInt

/-- What is enough and what is needed for that. -/
structure Sound (g : Arena) (shape target : List DimId) (unknown : Int) (outs : List Int) :
    Prop where
  nonneg : ∀ d ∈ target, (g.dim d).isFixed (-1) = false → 0 ≤ (g.dim d).lower
  fixed : ∀ (i : Nat) (d : DimId), target[i]? = some d → (i : Int) ≠ unknown → g.IsFixed d
  rest : ∀ d, 0 ≤ unknown → target[unknown.toNat]? = some d →
    if (g.dim d).isFixed (-1) then (outs.eraseIdx unknown.toNat).prodInt ∣ g.fixedElements shape
    else g.Carries shape d ∧ (outs.eraseIdx unknown.toNat).prodInt = g.fixedElements shape ∧
      g.fixedElements shape ≠ 0

/-- The sizes of a reshaped tensor, as they are found from the shapes that are tried. -/
structure Reshaped (g : Arena) (shape target : List DimId) (unknown : Int) (outs : List Int)
    (shapes : List (List Int)) :
    Prop where
  tried : ∀ s, Choice g shape s → ∃ t, Choice g target t ∧ ∃ r ∈ shapes, Solution s t r
  solved : ∀ r ∈ shapes, ∃ s t, Choice g shape s ∧ Choice g target t ∧ Solution s t r
  rank : outs.length = target.length
  agree : ∀ r ∈ shapes, ∀ i : Nat, (i : Int) ≠ unknown → r[i]? = outs[i]?
  differ : 0 ≤ unknown → unknown < target.length ∧ ∃ r ∈ shapes, ∃ r' ∈ shapes, r[unknown.toNat]? ≠
    r'[unknown.toNat]?

section Lists

variable {i : Nat} {xs ys : List Int}

theorem prod_eraseIdx (h : xs[i]? = some n) : xs.prod = n * (xs.eraseIdx i).prod := by
  obtain ⟨lt, rfl⟩ := List.getElem?_eq_some_iff.1 h
  simp_all

theorem eraseIdx_congr (h : ∀ j, j ≠ i → xs[j]? = ys[j]?) : xs.eraseIdx i = ys.eraseIdx i := by
  refine ext_getElem? fun j => ?_
  grind

theorem prod_set (h : i < xs.length) : (xs.set i n).prod = n * (xs.eraseIdx i).prod := by
  have at_i : (xs.set i n)[i]? = some n := by simp [h]
  rw [prod_eraseIdx at_i]
  grind

end Lists

namespace Reshaped

variable {g : Arena} {shape target : List DimId} {unknown : Int} {outs : List Int}
  {shapes : List (List Int)}

theorem ne_of_asked {d : Dim} (wf : d.WellFormed) (asked : d.isFixed (-1) = false)
    (h : n ∈ d.values) : n ≠ -1 := by
  rintro rfl
  cases static : d.isStatic with
  | false => exact absurd (wf.nonneg static _ h) (by decide)
  | true =>
    obtain ⟨m, only⟩ := length_eq_one_iff.1 (wf.fixed static)
    grind [mem_singleton, Dim.isFixed]

theorem eq_of_unknown {d : Dim} (any : d.isFixed (-1) = true) (h : n ∈ d.values) : n = -1 := by
  have : d.values = [-1] := by simpa using (Bool.and_eq_true_iff.1 any).2
  simpa [this] using h

variable (h : Reshaped g shape target unknown outs shapes)
  (sizes : ∀ d ∈ shape, (g.dim d).WellFormed ∧ 0 ≤ (g.dim d).lower)
  (asked : ∀ d ∈ target, (g.dim d).WellFormed)

include h asked in
theorem mem_values (hr : r ∈ shapes) (hd : target[i]? = some d)
    (given : (g.dim d).isFixed (-1) = false) : ∃ n ∈ (g.dim d).values, r[i]? = some n := by
  obtain ⟨s, t, -, choice, solution⟩ := h.solved r hr
  obtain ⟨n, hn, at_i⟩ := choice.at hd
  exact ⟨n, hn, solution.kept i n at_i (ne_of_asked (asked d (mem_of_getElem? hd)) given hn)⟩

include h sizes in
theorem found (hr : r ∈ shapes) (hd : target[i]? = some d)
    (any : (g.dim d).isFixed (-1) = true) : ∃ n, r[i]? = some n ∧ 0 ≤ n ∧
    0 < (r.eraseIdx i).prod := by
  obtain ⟨s, t, source, choice, solution⟩ := h.solved r hr
  obtain ⟨n, hn, at_i⟩ := choice.at hd
  obtain rfl := eq_of_unknown any hn
  exact solution.found (source.nonneg sizes) i at_i

include h sizes in
theorem exists_shape : ∃ r, r ∈ shapes := by
  obtain ⟨t, -, r, hr, -⟩ := h.tried _ (choice_lowest fun d hd => (sizes d hd).1)
  exact ⟨r, hr⟩

include h sizes asked in
theorem out_asked (other : (i : Int) ≠ unknown) (hd : target[i]? = some d)
    (given : (g.dim d).isFixed (-1) = false) : ∃ n ∈ (g.dim d).values, outs[i]? = some n := by
  obtain ⟨r, hr⟩ := h.exists_shape sizes
  obtain ⟨n, hn, at_i⟩ := h.mem_values asked hr hd given
  exact ⟨n, hn, (h.agree r hr i other).symm.trans at_i⟩

include h sizes in
theorem out_found (other : (i : Int) ≠ unknown) (hd : target[i]? = some d)
    (any : (g.dim d).isFixed (-1) = true) : ∃ n, outs[i]? = some n ∧ 0 ≤ n := by
  obtain ⟨r, hr⟩ := h.exists_shape sizes
  obtain ⟨n, at_i, nonneg, -⟩ := h.found sizes hr hd any
  exact ⟨n, (h.agree r hr i other).symm.trans at_i, nonneg⟩

include h in
theorem eraseIdx_eq (hr : r ∈ shapes) (here : 0 ≤ unknown) :
    r.eraseIdx unknown.toNat = outs.eraseIdx unknown.toNat :=
  eraseIdx_congr fun j ne => h.agree r hr j (by omega)

include h sizes in
theorem others_pos (here : 0 ≤ unknown) (hd : target[unknown.toNat]? = some d)
    (any : (g.dim d).isFixed (-1) = true) : 0 < (outs.eraseIdx unknown.toNat).prod := by
  obtain ⟨r, hr⟩ := h.exists_shape sizes
  obtain ⟨_, -, -, positive⟩ := h.found sizes hr hd any
  rwa [h.eraseIdx_eq hr here] at positive

include h asked in
theorem varies (here : 0 ≤ unknown) (hd : target[unknown.toNat]? = some d)
    (given : (g.dim d).isFixed (-1) = false) : ¬ g.IsFixed d := by
  intro fixed
  obtain ⟨-, r, hr, r', hr', apart⟩ := h.differ here
  have wf := asked d (mem_of_getElem? hd)
  obtain ⟨n, hn, at_u⟩ := h.mem_values asked hr hd given
  obtain ⟨m, hm, at_u'⟩ := h.mem_values asked hr' hd given
  have low := wf.lower_le hn
  have high := wf.le_upper hn
  have low' := wf.lower_le hm
  have high' := wf.le_upper hm
  unfold IsFixed at fixed
  grind

include h sizes in
theorem elements_eq (none : unknown < 0) (σ : Sizes g) : σ.elements shape = outs.prod := by
  have wf := fun d hd => (sizes d hd).1
  have at_choice : ∀ s, Choice g shape s → s.prod = outs.prod := by
    intro s choice
    obtain ⟨t, -, r, hr, solution⟩ := h.tried s choice
    rw [← solution.elements]
    congr 1
    exact ext_getElem? fun i => h.agree r hr i (by omega)
  exact Sizes.elements_eq_of_ends sizes (at_choice _ (choice_lowest wf))
    (at_choice _ (choice_highest wf)) σ

end Reshaped

section Runtime

variable {unknown : Int} {source outs sizes : List Int}

theorem runtimeSizes_eq_some (here : 0 ≤ unknown) : runtimeSizes unknown source outs = some sizes ↔
    (outs.eraseIdx unknown.toNat).prod ≠ 0 ∧
      sizes = outs.set unknown.toNat (Int.tdiv source.prod (outs.eraseIdx unknown.toNat).prod) := by
  unfold runtimeSizes
  rw [if_neg (by omega)]
  simp only [prodInt_eq]
  grind

theorem runtimeSizes_other (run : runtimeSizes unknown source outs = some sizes)
    (other : (i : Int) ≠ unknown) :
    sizes[i]? = outs[i]? := by
  by_cases none : unknown < 0
  · rw [runtimeSizes, if_pos none] at run
    rw [Option.some.inj run]
  · grind [runtimeSizes_eq_some, getElem?_set_ne]

end Runtime

namespace Reshaped

variable {g : Arena} {shape target : List DimId} {unknown : Int} {outs : List Int}
  {shapes : List (List Int)}
  (h : Reshaped g shape target unknown outs shapes)
    (sizes : ∀ d ∈ shape, (g.dim d).WellFormed ∧ 0 ≤ (g.dim d).lower)
  (asked : ∀ d ∈ target, (g.dim d).WellFormed)

include asked in
theorem asked_nonneg (sound : Sound g shape target unknown outs) (σ : Sizes g) (hd : d ∈ target)
    (given : (g.dim d).isFixed (-1) = false) : 0 ≤ σ.size d :=
  σ.size_nonneg (asked d hd) (sound.nonneg d hd given)

include h sizes asked in
theorem out_size (sound : Sound g shape target unknown outs) (σ : Sizes g)
    (other : (i : Int) ≠ unknown) (hd : target[i]? = some d)
    (given : (g.dim d).isFixed (-1) = false) : outs[i]? = some (σ.size d) := by
  have wf := asked d (mem_of_getElem? hd)
  have fixed := sound.fixed i d hd other
  obtain ⟨n, hn, at_i⟩ := h.out_asked sizes asked other hd given
  have low := wf.lower_le hn
  have high := wf.le_upper hn
  rw [at_i, σ.size_of_isFixed wf fixed]
  grind [IsFixed]

include h in
theorem exists_target (lt : i < outs.length) : ∃ d, target[i]? = some d :=
  ⟨_, getElem?_eq_getElem (h.rank ▸ lt)⟩

include h sizes asked in
theorem out_nonneg (sound : Sound g shape target unknown outs) (other : (i : Int) ≠ unknown)
    (at_i : outs[i]? = some n) : 0 ≤ n := by
  obtain ⟨d, hd⟩ := h.exists_target (List.getElem?_eq_some_iff.1 at_i).1
  cases given : (g.dim d).isFixed (-1) with
  | true =>
    obtain ⟨m, at_i', pos⟩ := h.out_found sizes other hd given
    grind
  | false =>
    rw [h.out_size sizes asked sound (Sizes.lowest g) other hd given] at at_i
    exact Option.some.inj at_i ▸ asked_nonneg asked sound _ (mem_of_getElem? hd) given

include h sizes asked in
theorem exists_computed (sound : Sound g shape target unknown outs) (σ : Sizes g)
    (here : 0 ≤ unknown) (hd : target[unknown.toNat]? = some d) :
    ∃ q, 0 ≤ q ∧ (outs.eraseIdx unknown.toNat).prod ≠ 0 ∧
      (shape.map σ.size).prod = q * (outs.eraseIdx unknown.toNat).prod ∧
        ((g.dim d).isFixed (-1) = false → q = σ.size d) := by
  have rest := sound.rest d here hd
  rw [prodInt_eq] at rest
  cases given : (g.dim d).isFixed (-1) with
  | true =>
    rw [if_pos given] at rest
    have positive := h.others_pos sizes here hd given
    obtain ⟨q, count⟩ := (Sizes.dvd_elements_iff fun d hd => (sizes d hd).1).2 rest σ
    rw [mul_comm] at count
    refine ⟨q, ?_, by omega, count, fun no => by cases no⟩
    have elements : 0 ≤ σ.elements shape := by
      refine prod_nonneg fun n hn => ?_
      obtain ⟨e, he, rfl⟩ := mem_map.1 hn
      exact σ.size_nonneg (sizes e he).1 (sizes e he).2
    simp_all
  | false =>
    rw [if_neg (by simp [given])] at rest
    obtain ⟨carries, others, ne⟩ := rest
    rw [← others] at ne
    have hd' := mem_of_getElem? hd
    have count := (Sizes.mul_eq_elements_iff ne (asked d hd') (sound.nonneg d hd' given)
      (h.varies asked here hd given)
      sizes).2 ⟨carries, others⟩ σ
    exact ⟨σ.size d, asked_nonneg asked sound σ hd' given,
      ne, by rw [mul_comm]; exact count.symm, fun _ => rfl⟩

include h sizes asked in
/-- What is sound holds at run time, too. -/
theorem honours_of_sound (sound : Sound g shape target unknown outs) :
    Honours g shape target unknown outs := by
  intro σ
  by_cases none : unknown < 0
  · refine ⟨outs, by rw [runtimeSizes, if_pos none], fun n hn => ?_, h.rank,
      fun i d => h.out_size sizes asked sound σ (by omega), ?_⟩
    · obtain ⟨i, at_i⟩ := mem_iff_getElem?.1 hn
      exact h.out_nonneg sizes asked sound (by omega) at_i
    · rw [prodInt_eq, prodInt_eq]
      exact (h.elements_eq sizes none σ).symm
  · have here : 0 ≤ unknown := by omega
    have inside := (h.differ here).1
    have lt : unknown.toNat < outs.length := by rw [h.rank]; omega
    obtain ⟨d, hd⟩ := h.exists_target lt
    obtain ⟨q, pos, ne, count, size⟩ := h.exists_computed sizes asked sound σ here hd
    have computed : Int.tdiv (shape.map σ.size).prod (outs.eraseIdx unknown.toNat).prod = q := by
      rw [count, Int.mul_tdiv_cancel _ ne]
    refine ⟨outs.set unknown.toNat q, (runtimeSizes_eq_some here).2 ⟨ne, by rw [computed]⟩,
      fun n hn => ?_, by rw [length_set, h.rank], fun i e he given => ?_, ?_⟩
    · obtain ⟨i, at_i⟩ := mem_iff_getElem?.1 hn
      by_cases this : unknown.toNat = i
      · grind
      · rw [getElem?_set_ne this] at at_i
        exact h.out_nonneg sizes asked sound (by omega) at_i
    · by_cases this : unknown.toNat = i
      · grind
      · rw [getElem?_set_ne this]
        exact h.out_size sizes asked sound σ (by omega) he given
    · rw [prodInt_eq, prodInt_eq, prod_set lt, count]

include h sizes asked in
theorem sound_of_honours (honours : Honours g shape target unknown outs) :
    Sound g shape target unknown outs := by
  have wf := fun d hd => (sizes d hd).1
  have nonneg : ∀ d ∈ target, (g.dim d).isFixed (-1) = false → 0 ≤ (g.dim d).lower := by
    intro d hd given
    obtain ⟨i, at_i⟩ := mem_iff_getElem?.1 hd
    obtain ⟨ns, -, pos, -, size, -⟩ := honours (Sizes.lowest g)
    exact pos _ (mem_of_getElem? (size i d at_i given))
  refine ⟨nonneg, fun i d hd other => ?_, fun d here hd => ?_⟩
  · cases given : (g.dim d).isFixed (-1) with
    | true =>
      have wfd := asked d (mem_of_getElem? hd)
      exact (eq_of_unknown given wfd.lower_mem).trans (eq_of_unknown given wfd.upper_mem).symm
    | false =>
      have at_i : ∀ σ : Sizes g, outs[i]? = some (σ.size d) := by
        intro σ
        obtain ⟨ns, run, -, -, size, -⟩ := honours σ
        grind [runtimeSizes_other]
      exact Option.some.inj ((at_i (Sizes.lowest g)).symm.trans (at_i (Sizes.highest g)))
  · have inside := (h.differ here).1
    have lt : unknown.toNat < outs.length := by rw [h.rank]; omega
    have counts : ∀ σ : Sizes g, (outs.eraseIdx unknown.toNat).prod ≠ 0 ∧
        ∃ q, σ.elements shape = q * (outs.eraseIdx unknown.toNat).prod ∧
        ((g.dim d).isFixed (-1) = false → q = σ.size d) := by
      intro σ
      obtain ⟨ns, run, -, -, size, count⟩ := honours σ
      obtain ⟨ne, rfl⟩ := (runtimeSizes_eq_some here).1 run
      refine ⟨ne, Int.tdiv (shape.map σ.size).prod (outs.eraseIdx unknown.toNat).prod, ?_,
        fun given => ?_⟩
      · rw [prodInt_eq, prodInt_eq, prod_set lt] at count
        exact count.symm
      · grind
    rw [prodInt_eq]
    cases given : (g.dim d).isFixed (-1) with
    | true =>
      refine (Sizes.dvd_elements_iff wf).1 fun σ => ?_
      obtain ⟨-, q, count, -⟩ := counts σ
      exact ⟨q, by rw [count, mul_comm]⟩
    | false =>
      have hd' := mem_of_getElem? hd
      obtain ⟨ne, -⟩ := counts (Sizes.lowest g)
      obtain ⟨carries, others⟩ := (Sizes.mul_eq_elements_iff ne (asked d hd') (nonneg d hd' given)
        (h.varies asked here hd given)
        sizes).1 fun σ => by simp_all [mul_comm]
      exact ⟨carries, others, others ▸ ne⟩

end Reshaped

end View

end TensorGraph

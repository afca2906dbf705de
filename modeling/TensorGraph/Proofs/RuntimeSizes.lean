import Mathlib.Algebra.BigOperators.Group.List.Basic
import Mathlib.Algebra.Order.Ring.Int
import Mathlib.RingTheory.Coprime.Lemmas
import Mathlib.Tactic.Ring
import TensorGraph.Proofs.Dimensions

/-!
# Sizes at run time

When a program runs each dimension has a size between its bounds (`Sizes`); dynamic dimensions of
one name have one size.
-/

theorem List.prodInt_eq (xs : List Int) : xs.prodInt = xs.prod := by
  unfold prodInt
  rw [prod_eq_foldl]

namespace TensorGraph

open List

variable {d q : DimId} {ds : List DimId} {n : Int}

namespace Arena

variable {g : Arena}

def OneSize (g : Arena) (d e : DimId) : Prop :=
  d = e ∨ (g.dim d).isStatic = false ∧ (g.dim d).name ≠ none ∧ g.dim d = g.dim e

instance (d e : DimId) : Decidable (g.OneSize d e) := inferInstanceAs (Decidable (_ ∨ _))

def IsFixed (g : Arena) (d : DimId) : Prop := (g.dim d).lower = (g.dim d).upper

instance (d : DimId) : Decidable (g.IsFixed d) := inferInstanceAs (Decidable (_ = _))

def fixedElements (g : Arena) (ds : List DimId) : Int :=
  ((ds.filter (g.IsFixed ·)).map fun d => (g.dim d).lower).prod

def Carries (g : Arena) (ds : List DimId) (e : DimId) : Prop :=
  (∀ d ∈ ds, g.OneSize e d ∨ g.IsFixed d) ∧
    (ds.countP (g.OneSize e ·) = 1 ∨ 0 < ds.countP (g.OneSize e ·) ∧ (g.dim e).upper = 1)

instance (ds : List DimId) (e : DimId) : Decidable (g.Carries ds e) :=
  inferInstanceAs (Decidable (_ ∧ _))

namespace OneSize

variable {c d e : DimId}

theorem refl (d : DimId) : g.OneSize d d := Or.inl rfl

theorem dim (h : g.OneSize d e) : g.dim d = g.dim e := by
  rcases h with rfl | ⟨-, -, h⟩
  · rfl
  · exact h

theorem symm (h : g.OneSize d e) : g.OneSize e d := by
  rcases h with rfl | ⟨dynamic, named, same⟩
  · exact refl d
  · rw [same] at dynamic named
    exact Or.inr ⟨dynamic, named, same.symm⟩

theorem trans (h : g.OneSize c d) (h' : g.OneSize d e) : g.OneSize c e := by
  rcases h with rfl | ⟨dynamic, named, same⟩
  · exact h'
  · exact Or.inr ⟨dynamic, named, same.trans h'.dim⟩

theorem isFixed_iff (h : g.OneSize d e) : g.IsFixed d ↔ g.IsFixed e := by
  unfold IsFixed
  rw [h.dim]

end OneSize

end Arena

open Arena

/-- The sizes of all dimensions when a program runs. -/
structure Sizes (g : Arena) where
  size : DimId → Int
  admits : ∀ d, (g.dim d).WellFormed → (g.dim d).Admits (size d)
  respects : ∀ d e, g.OneSize d e → size d = size e

namespace Sizes

variable {g : Arena}

def lowest (g : Arena) : Sizes g where
  size d := (g.dim d).lower
  admits _ wf := wf.admits_lower
  respects _ _ h := congrArg Dim.lower h.dim

def highest (g : Arena) : Sizes g where
  size d := (g.dim d).upper
  admits _ wf := wf.admits_upper
  respects _ _ h := congrArg Dim.upper h.dim

def set (σ : Sizes g) (q : DimId) (n : Int) (ok : (g.dim q).Admits n) : Sizes g where
  size d := if g.OneSize q d then n else σ.size d
  admits d wf := by
    split
    · next same => exact same.dim ▸ ok
    · exact σ.admits d wf
  respects d e h := by
    have : g.OneSize q d ↔ g.OneSize q e := ⟨fun h' => h'.trans h, fun h' => h'.trans h.symm⟩
    simp only [this]
    rw [σ.respects d e h]

def elements (σ : Sizes g) (ds : List DimId) : Int := (ds.map σ.size).prod

theorem size_of_isFixed (σ : Sizes g) (wf : (g.dim d).WellFormed) (fixed : g.IsFixed d) :
    σ.size d = (g.dim d).lower := by
  obtain ⟨low, high⟩ := σ.admits d wf
  unfold IsFixed at fixed
  omega

theorem size_nonneg (σ : Sizes g) (wf : (g.dim d).WellFormed) (nonneg : 0 ≤ (g.dim d).lower) :
    0 ≤ σ.size d :=
  Int.le_trans nonneg (σ.admits d wf).1

@[simp] theorem size_set_self (σ : Sizes g) {ok : (g.dim q).Admits n} : (σ.set q n ok).size q = n :=
  if_pos (OneSize.refl q)

theorem size_set_ne (σ : Sizes g) {ok : (g.dim q).Admits n} (other : ¬ g.OneSize q d) :
    (σ.set q n ok).size d = σ.size d :=
  if_neg other

/-! ## Parts of a shape -/

theorem elements_filter (σ : Sizes g) (ds : List DimId) (p : DimId → Prop) [DecidablePred p] :
    σ.elements ds = σ.elements (ds.filter (p ·)) * σ.elements (ds.filter (¬ p ·)) := by
  unfold elements
  induction ds with
  | nil => rfl
  | cons d ds ih =>
    by_cases h : p d
    · grind
    · grind

theorem elements_oneSize (σ : Sizes g) (q : DimId) (ds : List DimId) :
    σ.elements (ds.filter (g.OneSize q ·)) = σ.size q ^ ds.countP (g.OneSize q ·) := by
  rw [countP_eq_length_filter, ← length_map (f := σ.size)]
  refine prod_eq_pow_card _ _ fun n hn => ?_
  obtain ⟨d, hd, rfl⟩ := mem_map.1 hn
  exact (σ.respects q d (by simpa using (mem_filter.1 hd).2)).symm

theorem elements_split (σ : Sizes g) (q : DimId) (ds : List DimId) :
    σ.elements ds =
    σ.size q ^ ds.countP (g.OneSize q ·) * σ.elements (ds.filter (¬ g.OneSize q ·)) := by
  rw [σ.elements_filter ds (g.OneSize q ·), elements_oneSize]

theorem elements_congr {σ τ : Sizes g} (h : ∀ d ∈ ds, σ.size d = τ.size d) :
    σ.elements ds = τ.elements ds :=
  congrArg prod (map_congr_left h)

theorem elements_set (σ : Sizes g) (ok : (g.dim q).Admits n) (ds : List DimId) :
    (σ.set q n ok).elements ds =
    n ^ ds.countP (g.OneSize q ·) * σ.elements (ds.filter (¬ g.OneSize q ·)) := by
  rw [elements_split _ q, size_set_self]
  congr 1
  exact elements_congr fun d hd => σ.size_set_ne (by simpa using (mem_filter.1 hd).2)

theorem elements_isFixed (σ : Sizes g) (wf : ∀ d ∈ ds, (g.dim d).WellFormed) :
    σ.elements (ds.filter (g.IsFixed ·)) = g.fixedElements ds := by
  refine congrArg prod (map_congr_left fun d hd => ?_)
  obtain ⟨hd, fixed⟩ := mem_filter.1 hd
  exact σ.size_of_isFixed (wf d hd) (by simpa using fixed)

/-! ## Bounds -/

theorem elements_mono {σ τ : Sizes g} (h : ∀ d ∈ ds, 0 ≤ σ.size d ∧ σ.size d ≤ τ.size d) :
    0 ≤ σ.elements ds ∧ σ.elements ds ≤ τ.elements ds := by
  unfold elements
  induction ds with
  | nil => simp
  | cons d ds ih =>
    obtain ⟨nonneg, le⟩ := h d mem_cons_self
    obtain ⟨nonneg', le'⟩ := ih fun e he => h e (mem_cons_of_mem _ he)
    exact ⟨Int.mul_nonneg nonneg nonneg', Int.mul_le_mul le le' nonneg' (Int.le_trans nonneg le)⟩

theorem elements_between (sizes : ∀ d ∈ ds, (g.dim d).WellFormed ∧ 0 ≤ (g.dim d).lower)
    (σ : Sizes g) :
    0 ≤ (lowest g).elements ds ∧ (lowest g).elements ds ≤ σ.elements ds ∧ σ.elements ds ≤
    (highest g).elements ds := by
  have above := elements_mono (σ := lowest g) (τ := σ) fun d hd =>
    ⟨(sizes d hd).2, (σ.admits d (sizes d hd).1).1⟩
  have below := elements_mono (σ := σ) (τ := highest g) fun d (hd : d ∈ ds) =>
    ⟨σ.size_nonneg (sizes d hd).1 (sizes d hd).2, (σ.admits d (sizes d hd).1).2⟩
  exact ⟨above.1, above.2, below.2⟩

theorem elements_eq_of_ends (sizes : ∀ d ∈ ds, (g.dim d).WellFormed ∧ 0 ≤ (g.dim d).lower)
    (low : (lowest g).elements ds = n) (high : (highest g).elements ds = n) (σ : Sizes g) :
    σ.elements ds = n := by
  have between := elements_between sizes σ
  omega

/-! ## Divisors -/

theorem dvd_without (wf : (g.dim q).WellFormed) (varies : ¬ g.IsFixed q)
    (all : ∀ σ : Sizes g, n ∣ σ.elements ds) (σ : Sizes g) :
    n ∣ σ.elements (ds.filter (¬ g.OneSize q ·)) := by
  have ends := wf.lower_le_upper
  unfold IsFixed at varies
  have next : (g.dim q).Admits ((g.dim q).lower + 1) := ⟨by omega, by omega⟩
  have first := all (σ.set q _ wf.admits_lower)
  have second := all (σ.set q _ next)
  rw [elements_set] at first second
  obtain ⟨a, b, bezout⟩ : IsCoprime ((g.dim q).lower ^ ds.countP (g.OneSize q ·))
      (((g.dim q).lower + 1) ^ ds.countP (g.OneSize q ·)) :=
    IsCoprime.pow ⟨-1, 1, by ring⟩
  have both := dvd_add (Dvd.dvd.mul_left first a) (Dvd.dvd.mul_left second b)
  grind

theorem dvd_without_all {qs : List DimId} (varies : ∀ q ∈ qs, (g.dim q).WellFormed ∧ ¬ g.IsFixed q)
    (all : ∀ σ : Sizes g, n ∣ σ.elements ds) (σ : Sizes g) :
    n ∣ σ.elements (ds.filter fun d => ∀ q ∈ qs, ¬ g.OneSize q d) := by
  induction qs generalizing ds with
  | nil => simpa using all σ
  | cons q qs ih =>
    obtain ⟨wf, free⟩ := varies q mem_cons_self
    have rest := ih (fun p hp => varies p (mem_cons_of_mem _ hp)) (dvd_without wf free all)
    rw [filter_filter] at rest
    grind

theorem dvd_elements_iff (wf : ∀ d ∈ ds, (g.dim d).WellFormed) :
    (∀ σ : Sizes g, n ∣ σ.elements ds) ↔ n ∣ g.fixedElements ds := by
  constructor
  · intro all
    have varies : ∀ q ∈ ds.filter (¬ g.IsFixed ·), (g.dim q).WellFormed ∧ ¬ g.IsFixed q := by grind
    have rest := dvd_without_all varies all (lowest g)
    -- what is left are the dimensions with one size
    have left : ds.filter (fun d => ∀ q ∈ ds.filter (¬ g.IsFixed ·), ¬ g.OneSize q d) = ds.filter
      (g.IsFixed ·) := by
      refine filter_congr fun d hd => decide_eq_decide.2
        ⟨fun alone => ?_, fun fixed q hq same => ?_⟩
      · by_contra varies
        exact alone d (mem_filter.2 ⟨hd, by simpa using varies⟩) (OneSize.refl d)
      · have varies : ¬ g.IsFixed q := by simpa using (mem_filter.1 hq).2
        exact varies (same.isFixed_iff.2 fixed)
    rwa [left] at rest
  · intro dvd σ
    rw [σ.elements_filter ds (g.IsFixed ·), elements_isFixed _ wf]
    exact Dvd.dvd.mul_right dvd _

/-! ## One dimension that varies -/

theorem elements_of_carries (wf : ∀ d ∈ ds, (g.dim d).WellFormed) {e : DimId}
    (varies : ¬ g.IsFixed e) (only : ∀ d ∈ ds, g.OneSize e d ∨ g.IsFixed d) (σ : Sizes g) :
    σ.elements ds = σ.size e ^ ds.countP (g.OneSize e ·) * g.fixedElements ds := by
  rw [elements_split σ e, ← elements_isFixed σ wf]
  congr 2
  refine filter_congr fun d hd => decide_eq_decide.2 ⟨fun other => ?_, fun fixed same => ?_⟩
  · exact (only d hd).resolve_left other
  · exact varies (same.isFixed_iff.2 fixed)

theorem eq_of_mul_pow_eq {m a : Int} {k : Nat} (hm : 0 ≤ m) (hn : 0 ≤ n) (hk : k ≠ 0) (ha : a ≠ 0)
    (h : m ^ k * a = n ^ k * a) : m = n :=
  (pow_left_inj₀ hm hn hk).1 (mul_right_cancel₀ ha h)

/-- One size times `n` is the number of elements, whatever the sizes. -/
theorem mul_eq_elements_iff (ne : n ≠ 0) {e : DimId} (wfe : (g.dim e).WellFormed)
    (nonneg : 0 ≤ (g.dim e).lower) (varies : ¬ g.IsFixed e)
    (sizes : ∀ d ∈ ds, (g.dim d).WellFormed ∧ 0 ≤ (g.dim d).lower) :
    (∀ σ : Sizes g, n * σ.size e = σ.elements ds) ↔ g.Carries ds e ∧ n = g.fixedElements ds := by
  have wf := fun d hd => (sizes d hd).1
  have less : (g.dim e).lower < (g.dim e).upper := lt_of_le_of_ne wfe.lower_le_upper varies
  constructor
  · intro all
    have only : ∀ d ∈ ds, g.OneSize e d ∨ g.IsFixed d := by
      intro d hd
      by_contra other
      obtain ⟨other, free⟩ := not_or.1 other
      -- with all else at its largest, two sizes of `d` give equally many elements
      have ends := (sizes d hd).1.lower_le_upper
      have high := all ((highest g).set d _ (sizes d hd).1.admits_upper)
      have low := all ((highest g).set d _ (sizes d hd).1.admits_lower)
      have apart : ¬ g.OneSize d e := fun same => other same.symm
      rw [size_set_ne _ apart, elements_set] at high low
      have some : ds.countP (g.OneSize d ·) ≠ 0 := by
        grind [Nat.ne_zero_iff_zero_lt, countP_pos_iff, OneSize.refl]
      have rest : (highest g).elements (ds.filter (¬ g.OneSize d ·)) ≠ 0 := by
        intro zero
        rw [zero, mul_zero] at high
        have : (g.dim e).upper = 0 := (Int.mul_eq_zero.1 high).resolve_left ne
        omega
      exact free (eq_of_mul_pow_eq (sizes d hd).2 (Int.le_trans (sizes d hd).2 ends) some rest
        (low.symm.trans high))
    have power :
        ∀ m, (g.dim e).Admits m → n * m = m ^ ds.countP (g.OneSize e ·) * g.fixedElements ds := by
      intro m ok
      have here := all ((lowest g).set e m ok)
      rwa [elements_of_carries wf varies only, size_set_self] at here
    have low := power _ wfe.admits_lower
    have high := power _ wfe.admits_upper
    have before := power ((g.dim e).upper - 1) ⟨by omega, by omega⟩
    obtain ⟨k, hk⟩ : ∃ k, ds.countP (g.OneSize e ·) = k + 1 := by
      refine Nat.exists_eq_succ_of_ne_zero fun zero => varies ?_
      rw [zero, pow_zero] at low high
      exact Int.eq_of_mul_eq_mul_left ne (low.trans high.symm)
    have reduced : ∀ m, m ≠ 0 → n * m = m ^ ds.countP (g.OneSize e ·) * g.fixedElements ds →
      n = m ^ k * g.fixedElements ds := by
      intro m hm h
      rw [hk, pow_succ, mul_right_comm] at h
      exact mul_right_cancel₀ hm h
    have high := reduced _ (by omega) high
    by_cases once : k = 0
    · refine ⟨⟨only, Or.inl (by rw [hk, once])⟩, ?_⟩
      rwa [once, pow_zero, one_mul] at high
    · by_cases small : (g.dim e).upper = 1
      · refine ⟨⟨only, Or.inr ⟨by omega, small⟩⟩, ?_⟩
        rwa [small, one_pow, one_mul] at high
      · have before := reduced _ (by omega) before
        have nonzero : g.fixedElements ds ≠ 0 := by grind
        have := eq_of_mul_pow_eq (by omega) (by omega) once nonzero (before.symm.trans high)
        omega
  · rintro ⟨⟨only, count⟩, rfl⟩ σ
    rw [elements_of_carries wf varies only, mul_comm]
    rcases count with once | ⟨several, small⟩
    · rw [once, pow_one]
    · obtain ⟨low, high⟩ := σ.admits e wfe
      obtain zero | one : σ.size e = 0 ∨ σ.size e = 1 := by omega
      · rw [zero, zero_pow (by omega)]
      · rw [one, one_pow]

end Sizes

end TensorGraph

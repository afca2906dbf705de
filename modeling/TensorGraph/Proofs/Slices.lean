import TensorGraph.Op.Slice
import TensorGraph.Proofs.Dimensions

/-!
# Lengths of slices

The length of a slice is computed for the listed sizes of an axis, and the shortest and the longest
of these bound the sliced axis.
-/

namespace TensorGraph

namespace Slice

open Build List

def kept (n : Nat) (start stop : Int) : Nat := ((range n).between start stop).length

def PeakUnlisted (d : Dim) (start stop : Int) : Prop :=
  d.lower < min (-start) stop ∧ max (-start) stop < d.upper ∧ ∀ n ∈ d.values, n < min
    (-start) stop ∨ max (-start) stop < n

instance (d : Dim) (start stop : Int) : Decidable (PeakUnlisted d start stop) :=
  inferInstanceAs (Decidable (_ ∧ _))

/-! ## How the length depends on the size -/

section Length

variable {m n start stop : Int}

def clip (size i : Int) : Int := min size (if 0 ≤ i then i else max 0 (size + i))

theorem length_eq (h : 0 ≤ n) : length n start stop = max 0 (clip n stop - clip n start) := by
  have clipped : ∀ i, (if n < (if (if 0 ≤ i then i else n + i) < 0 then 0 else if 0 ≤ i then i else
    n + i) then n
      else if (if 0 ≤ i then i else n + i) < 0 then 0 else if 0 ≤ i then i else n + i) =
        clip n i := by
    intro i
    unfold clip
    grind
  unfold length normalize
  simp only [clipped]
  split <;> omega

theorem length_natCast (n : Nat) (start stop : Int) : length n start stop = kept n start stop := by
  have clipped : ∀ i, clip n i = min (n : Int) ((if i < 0 then i + n else i).toNat : Int) := by
    intro i
    unfold clip
    split_ifs <;> omega
  rw [length_eq (Int.natCast_nonneg n), clipped, clipped]
  unfold kept between clipIdx
  rw [length_drop, length_take, length_range]
  omega

theorem length_nonneg (h : 0 ≤ n) : 0 ≤ length n start stop := by
  rw [length_eq h]
  exact Int.le_max_left 0 _

theorem length_mono (h : 0 ≤ m) (le : m ≤ n) (sign : 0 ≤ start ∨ stop ≤ 0) :
    length m start stop ≤ length n start stop := by
  rw [length_eq h, length_eq (Int.le_trans h le)]
  unfold clip
  grind

theorem length_across (h : 0 ≤ n) (before : start < 0) (behind : 0 < stop) :
    length n start stop = max 0 (min n stop - max 0 (n + start)) := by
  rw [length_eq h]
  unfold clip
  omega

end Length

/-! ## Bounds of a sliced axis -/

section Bounds

variable {d : Dim} {start stop : Int}

theorem exists_length_le (wf : d.WellFormed) (nonneg : 0 ≤ d.lower) {n : Int} (size : d.Admits n) :
    ∃ m ∈ d.values, length m start stop ≤ length n start stop := by
  obtain ⟨low, high⟩ := size
  by_cases sign : 0 ≤ start ∨ stop ≤ 0
  · exact ⟨d.lower, wf.lower_mem, length_mono nonneg low sign⟩
  obtain ⟨before, behind⟩ : start < 0 ∧ 0 < stop := by omega
  have at_lower := length_across nonneg before behind
  have at_size := length_across (Int.le_trans nonneg low) before behind
  have at_upper := length_across (Int.le_trans nonneg (Int.le_trans low high)) before behind
  by_cases rising : n ≤ max (-start) stop
  · exact ⟨d.lower, wf.lower_mem, by omega⟩
  · exact ⟨d.upper, wf.upper_mem, by omega⟩

theorem length_le_iff (wf : d.WellFormed) (nonneg : 0 ≤ d.lower) :
    (∀ n, d.Admits n → ∃ m ∈ d.values, length n start stop ≤ length m start stop) ↔
    ¬ PeakUnlisted d start stop := by
  constructor
  · rintro bounded ⟨low, high, missed⟩
    obtain ⟨before, behind⟩ : start < 0 ∧ 0 < stop := by omega
    obtain ⟨m, listed, le⟩ := bounded (min (-start) stop) ⟨by omega, by omega⟩
    have size := wf.lower_le listed
    grind [length_across]
  · intro hit n ⟨low, high⟩
    by_cases sign : 0 ≤ start ∨ stop ≤ 0
    · exact ⟨d.upper, wf.upper_mem, length_mono (Int.le_trans nonneg low) high sign⟩
    obtain ⟨before, behind⟩ : start < 0 ∧ 0 < stop := by omega
    have at_size := length_across (Int.le_trans nonneg low) before behind
    by_cases falling : min (-start) stop ≤ d.lower
    · have at_lower := length_across nonneg before behind
      exact ⟨d.lower, wf.lower_mem, by omega⟩
    by_cases rising : d.upper ≤ max (-start) stop
    · have at_upper := length_across (n := d.upper) (by omega) before behind
      exact ⟨d.upper, wf.upper_mem, by omega⟩
    obtain ⟨m, listed, at_peak⟩ : ∃ m ∈ d.values, min (-start) stop ≤ m ∧
      m ≤ max (-start) stop := by
      by_contra none
      refine hit ⟨by omega, by omega, fun m listed => ?_⟩
      grind
    grind [length_across]

def Sliced (d : Dim) (start stop : Int) (e : Dim) : Prop :=
  if start = 0 ∧ stop = openEnd then e = d
  else e.WellFormed ∧ ∀ n, n ∈ e.values ↔ n ∈ d.values.map (length · start stop)

theorem Sliced.admits_iff {e : Dim} (sliced : Sliced d start stop e) (wf : d.WellFormed)
    (nonneg : 0 ≤ d.lower) :
    (∀ n : Nat, d.Admits n → e.Admits (kept n start stop)) ↔
      if start = 0 ∧ stop = openEnd then d.lower ≤ openEnd else ¬ PeakUnlisted d start stop := by
  have counts : (∀ n : Nat, d.Admits n → e.Admits (kept n start stop)) ↔ ∀ n, d.Admits n →
    e.Admits (length n start stop) := by
    refine ⟨fun h n size => ?_, fun h n size => length_natCast n start stop ▸ h n size⟩
    obtain ⟨k, rfl⟩ := Int.eq_ofNat_of_zero_le (Int.le_trans nonneg size.1)
    exact length_natCast k start stop ▸ h k size
  rw [counts]
  unfold Sliced at sliced
  split
  · next all =>
    obtain ⟨rfl, rfl⟩ := all
    subst sliced
    have whole : ∀ n, 0 ≤ n → length n 0 openEnd = min n openEnd := by
      grind [length_eq, clip, openEnd]
    have ends := wf.lower_le_upper
    constructor
    · intro within
      have := (within e.lower ⟨Int.le_refl _, ends⟩).1
      rw [whole _ nonneg] at this
      omega
    · intro small n ⟨low, high⟩
      rw [whole _ (Int.le_trans nonneg low)]
      exact ⟨by omega, by omega⟩
  · next part =>
    rw [if_neg part] at sliced
    obtain ⟨wf', members⟩ := sliced
    rw [← length_le_iff wf nonneg]
    refine forall₂_congr fun n size => ?_
    constructor
    · intro within
      obtain ⟨m, listed, top⟩ := mem_map.1 ((members _).1 wf'.upper_mem)
      exact ⟨m, listed, top ▸ within.2⟩
    · rintro ⟨m, listed, le⟩
      obtain ⟨k, listed', ge⟩ : ∃ k ∈ d.values, length k start stop ≤ length n start stop :=
        exists_length_le wf nonneg size
      have low := wf'.lower_le ((members _).2 (mem_map_of_mem listed'))
      have high := wf'.le_upper ((members _).2 (mem_map_of_mem listed))
      exact ⟨Int.le_trans low ge, Int.le_trans le high⟩

end Bounds

/-! ## Slicing a tensor -/

theorem sliceDim_run {g : Arena} {d : DimId} (wf : (g.dim d).WellFormed)
    (nonneg : 0 ≤ (g.dim d).lower) (start stop : Int) :
    ∃ e g', sliceDim d start stop g = .ok e g' ∧ MoreDims g g' ∧ e.idx < g'.dims.size ∧
      Sliced (g.dim d) start stop (g'.dim e) := by
  unfold sliceDim Sliced
  by_cases all : start = 0 ∧ stop = openEnd
  · refine ⟨d, g, ?_, .refl g, Arena.lt_of_wellFormed wf, by rw [if_pos all]⟩
    rw [if_pos (by simpa using all)]
    rfl
  · have some : Dim.sortedValues ((g.dim d).values.map (length · start stop)) ≠ [] := fun none => by
      have := Dim.mem_sortedValues.2 (mem_map_of_mem (f := (length · start stop)) wf.lower_mem)
      rw [none] at this
      cases this
    obtain ⟨e, made⟩ := Dim.ofValues?_returns none some fun n hn => by
      obtain ⟨m, hm, rfl⟩ := mem_map.1 (Dim.mem_sortedValues.1 hn)
      exact length_nonneg (Int.le_trans nonneg (wf.lower_le hm))
    obtain ⟨wf', members⟩ := Dim.ofValues?_ok made
    refine ⟨⟨g.dims.size⟩, { g with dims := g.dims.push e }, ?_, .push g e, by simp, ?_⟩
    · have read : dim d g = .ok (g.dim d) g := rfl
      rw [if_neg (by simpa using all), bind_run read]
      unfold dimOfValues
      rw [made]
      rfl
    · rw [if_neg all, Arena.dim_push, if_pos rfl]
      simp_all

theorem apply_run {g : Arena} (o : OpId) {x : TensorId} (starts stops : List Int)
    (free : (g.tensor x).dst.fixed = false)
    (sizes : ∀ d ∈ (g.tensor x).shape, (g.dim d).WellFormed ∧ 0 ≤ (g.dim d).lower) :
    ∃ y g', apply o x starts stops g = .ok y g' ∧
      Forall₂ (fun p e => Sliced (g.dim p.1) p.2.1 p.2.2 (g'.dim e))
        ((g.tensor x).shape.zip (starts.zip stops)) (g'.tensor y).shape := by
  let g₁ := ((g.modifyOp o fun p => { p with inputs := some [x] }).modifyOp o
    (·.setParam "start_indices" (.ints starts))).modifyOp o (·.setParam "end_indices" (.ints stops))
  have inputs : ∀ t ∈ (g₁.op o).inputList, t = x := by
    intro t ht
    have named := Arena.mem_inputList_modifyOp ht
    rw [Operator.inputList_setParam] at named
    have named := Arena.mem_inputList_modifyOp named
    rw [Operator.inputList_setParam] at named
    exact mem_singleton.1 (Arena.mem_inputList_modifyOp named)
  obtain ⟨g₂, link⟩ := linkInputs_returns fun t ht => inputs t ht ▸ free
  obtain ⟨dims, shapes, -⟩ := Frame.layout.keeps link
  have dim : ∀ d, g₂.dim d = g.dim d := fun d => congrArg (·.getD d.idx default) dims
  have shape : (g₂.tensor x).shape = (g.tensor x).shape := shapes x
  obtain ⟨es, g₃, run, more, all⟩ := mapM_dims (g := g₂)
    (l := (g.tensor x).shape.zip (starts.zip stops))
    (f := fun p => sliceDim p.1 p.2.1 p.2.2) (fun p e => Sliced (g.dim p.1) p.2.1 p.2.2 e)
      (fun p hp h grown => by
      obtain ⟨wf, nonneg⟩ := sizes p.1 (of_mem_zip hp).1
      have same : h.dim p.1 = g.dim p.1 :=
        (grown.old _ (by rw [dims]; exact Arena.lt_of_wellFormed wf)).trans (dim _)
      rw [← same] at wf nonneg ⊢
      exact sliceDim_run wf nonneg _ _)
  obtain ⟨y, g', out, made, -, dims'⟩ := soleOutput_run (g := g₃) o es (g₂.tensor x).dtype
  refine ⟨y, g', ?_, ?_⟩
  · unfold apply setInputs setParam
    rw [bind_run (modifyOp_run o _), bind_run (modifyOp_run o _), bind_run (modifyOp_run o _),
      bind_run link, bind_run (tensor_run x), shape, bind_run run]
    exact out
  · rw [made]
    refine all.imp fun p e ⟨_, sliced⟩ => ?_
    rw [show g'.dim e = g₃.dim e from congrArg (·.getD e.idx default) dims']
    exact sliced

/-- Slicing returns.  A sliced axis has bounds between which its sizes lie, unless the longest
slices are at sizes that are not listed; an end that stands for the end of the axis cuts off what is
behind it, and the axis must not be longer. -/
theorem slice_bounds_iff {g : Arena} (o : OpId) {x : TensorId} {starts stops : List Int}
    (free : (g.tensor x).dst.fixed = false) (one_start : starts.length = (g.tensor x).rank)
    (one_stop : stops.length = (g.tensor x).rank)
    (sizes : ∀ d ∈ (g.tensor x).shape, (g.dim d).WellFormed ∧ 0 ≤ (g.dim d).lower) :
    ∃ y g', apply o x starts stops g = .ok y g' ∧ (g'.tensor y).rank = (g.tensor x).rank ∧
      ∀ (i : Nat) (d e : DimId) (start stop : Int), (g.tensor x).shape[i]? = some d →
        starts[i]? = some start → stops[i]? = some stop → (g'.tensor y).shape[i]? = some e →
        ((∀ n : Nat, (g.dim d).Admits n → (g'.dim e).Admits (kept n start stop)) ↔
          if start = 0 ∧ stop = openEnd then (g.dim d).lower ≤ openEnd else ¬ PeakUnlisted
            (g.dim d) start stop) := by
  obtain ⟨y, g', run, sliced⟩ := apply_run o starts stops free sizes
  refine ⟨y, g', run, ?_, fun i d e start stop hd hstart hstop he => ?_⟩
  · have lengths := sliced.length_eq
    rw [List.length_zip, List.length_zip, one_start, one_stop] at lengths
    unfold Tensor.rank at lengths ⊢
    omega
  · have pair : ((g.tensor x).shape.zip (starts.zip stops))[i]? = some (d, start, stop) := by
      rw [List.getElem?_zip_eq_some, List.getElem?_zip_eq_some]
      exact ⟨hd, hstart, hstop⟩
    have here := List.forall₂_iff_get.1 sliced
    obtain ⟨wf, nonneg⟩ := sizes d (List.mem_of_getElem? hd)
    obtain ⟨hi, pair⟩ := List.getElem?_eq_some_iff.1 pair
    obtain ⟨hi', he⟩ := List.getElem?_eq_some_iff.1 he
    have axis := here.2 i hi hi'
    rw [List.get_eq_getElem, List.get_eq_getElem, pair, he] at axis
    exact axis.admits_iff wf nonneg

/-- A tensor with an axis of 1 to 6 elements, of which only the ends are listed, and one of 4; and a
slice. -/
def slicedArena : Arena where
  dims := #[⟨false, [1, 6], some "n"⟩, .static 4]
  tensors := #[.ofShape [⟨0⟩, ⟨1⟩]]
  ops := #[.ofClass .dynamicSlice "dynamic_slice"]
  namer := ⟨0, 0, [], []⟩
  target := none

/-- From the third element before the end to the third from the start: of 3 elements all are kept,
of 1 and of 6 not more than one. -/
theorem slice_bounds_iff_across :
    (slicedArena.tensor ⟨0⟩).dst.fixed = false ∧
    (∀ d ∈ (slicedArena.tensor ⟨0⟩).shape, (slicedArena.dim d).WellFormed ∧
      0 ≤ (slicedArena.dim d).lower) ∧
    ∃ y g', apply ⟨0⟩ ⟨0⟩ [-3, 0] [3, openEnd] slicedArena = .ok y g' ∧ ∃ d e, (g'.tensor y).shape =
    [d, e] ∧
      ¬ (∀ n : Nat, (slicedArena.dim ⟨0⟩).Admits n → (g'.dim d).Admits (kept n (-3) 3)) ∧
      ∀ n : Nat, (slicedArena.dim ⟨1⟩).Admits n → (g'.dim e).Admits (kept n 0 openEnd) := by
  have free : (slicedArena.tensor ⟨0⟩).dst.fixed = false := by decide
  have sizes : ∀ d ∈ (slicedArena.tensor ⟨0⟩).shape, (slicedArena.dim d).WellFormed ∧
    0 ≤ (slicedArena.dim d).lower := by decide
  have one_start : [-3, 0].length = (slicedArena.tensor ⟨0⟩).rank := by decide
  have one_stop : [3, openEnd].length = (slicedArena.tensor ⟨0⟩).rank := by decide
  obtain ⟨y, g', run, rank, axes⟩ := slice_bounds_iff ⟨0⟩ free one_start one_stop sizes
  obtain ⟨d, e, shape⟩ := length_eq_two.1 (show (g'.tensor y).shape.length = 2 from rank)
  refine ⟨free, sizes, y, g', run, d, e, shape, fun within => ?_, ?_⟩
  · exact absurd ((axes 0 ⟨0⟩ d (-3) 3 rfl rfl rfl (by simp [shape])).1 within) (by decide)
  · exact (axes 1 ⟨1⟩ e 0 openEnd rfl rfl rfl (by simp [shape])).2 (by decide)

end Slice

end TensorGraph

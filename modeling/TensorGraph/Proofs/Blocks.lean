import TensorGraph.Proofs.RowMajor

/-!
# Blocks of entries

What a tensor holds while a program runs is a block: an entry at each position inside its shape.
-/

namespace TensorGraph

open RowMajor List

variable {s i : List Nat}

/-! ## Positions -/

namespace RowMajor

variable {m n : Nat} {l : List Nat}

def OffAxis (k : Nat) (s i : List Nat) : Prop := i.length = s.length ∧ ∀ j < s.length, j ≠ k →
    i.getD j 0 < s.getD j 0

theorem inShape_iff : InShape s i ↔ i.length = s.length ∧ ∀ j < s.length, i.getD j 0 <
    s.getD j 0 := by
  unfold InShape
  constructor
  · intro h
    induction h with
    | nil => simp
    | cons lt _ ih => grind
  · rintro ⟨length, lt⟩
    induction s generalizing i with
    | nil => simp_all
    | cons n s ih =>
      cases i with
      | nil => simp at length
      | cons m i =>
        refine .cons (by simpa using lt 0 (by simp)) (ih (by simpa using length) fun j hj => ?_)
        simpa using lt (j + 1) (by simpa using hj)

theorem inShape_iff_offAxis {k : Nat} (hk : k < s.length) :
    InShape s i ↔ OffAxis k s i ∧ i.getD k 0 < s.getD k 0 := by
  rw [inShape_iff]
  constructor
  · rintro ⟨length, lt⟩
    exact ⟨⟨length, fun j hj _ => lt j hj⟩, lt k hk⟩
  · rintro ⟨⟨length, lt⟩, here⟩
    grind

theorem getD_set_self {k : Nat} (hk : k < l.length) : (l.set k m).getD k 0 = m := by
  simp [getD_eq_getElem?_getD, hk]

theorem set_getD (k : Nat) (l : List Nat) : l.set k (l.getD k 0) = l := by
  by_cases hk : k < l.length
  · simp_all
  · exact set_eq_of_length_le (by omega)

theorem offAxis_set_index {k : Nat} : OffAxis k s (i.set k m) ↔ OffAxis k s i := by
  unfold OffAxis
  grind

theorem offAxis_set_shape {k : Nat} : OffAxis k (s.set k n) i ↔ OffAxis k s i := by
  unfold OffAxis
  grind

theorem offAxis_congr {k : Nat} {s' : List Nat} (h : s.set k 0 = s'.set k 0) : OffAxis k s i ↔
    OffAxis k s' i := by
  rw [← offAxis_set_shape (n := 0), h, offAxis_set_shape]

theorem inShape_set {k : Nat} (hk : k < s.length) :
    InShape (s.set k n) i ↔ OffAxis k s i ∧ i.getD k 0 < n := by
  rw [inShape_iff_offAxis (k := k) (by simpa using hk), offAxis_set_shape, getD_set_self hk]

end RowMajor

/-! ## Joining two blocks -/

/-- The contents of a tensor: an entry at each position inside the shape. -/
structure Block (α : Type) where
  shape : List Nat
  entry : List Nat → Option α
  inside : ∀ i, (entry i).isSome ↔ InShape shape i

namespace Block

variable {α : Type} {k : Nat}

variable {ns : List Nat}

theorem ext {a b : Block α} (shape : a.shape = b.shape)
    (entries : ∀ i, InShape a.shape i → a.entry i = b.entry i) :
    a = b := by
  have entry : a.entry = b.entry := by
    funext i
    by_cases h : InShape a.shape i
    · exact entries i h
    · have left : a.entry i = none := by simpa [← a.inside] using h
      have right : b.entry i = none := by
        rw [shape] at h
        simpa [← b.inside] using h
      rw [left, right]
  cases a
  cases b
  subst shape entry
  rfl

def extent (x : Block α) (k : Nat) : Nat := x.shape.getD k 0

def Fits (k : Nat) (a b : Block α) : Prop := k < a.shape.length ∧ a.shape.set k 0 = b.shape.set k 0

instance (a b : Block α) : Decidable (Fits k a b) := inferInstanceAs (Decidable (_ ∧ _))

theorem Fits.lt_right {a b : Block α} (h : Fits k a b) : k < b.shape.length := by
  have := congrArg length h.2
  simp only [length_set] at this
  exact this ▸ h.1

theorem inside_iff {x : Block α} (hk : k < x.shape.length) (i : List Nat) :
    (x.entry i).isSome ↔ OffAxis k x.shape i ∧ i.getD k 0 < x.extent k := by
  rw [x.inside, inShape_iff_offAxis hk]
  rfl

theorem lt_length (hk : k < s.length) (h : OffAxis k s i) : k < i.length := h.1 ▸ hk

def append (a b : Block α) (h : Fits k a b) : Block α where
  shape := a.shape.set k (a.extent k + b.extent k)
  entry i := if i.getD k 0 < a.extent k then a.entry i else b.entry
    (i.set k (i.getD k 0 - a.extent k))
  inside i := by
    rw [inShape_set h.1]
    by_cases first : i.getD k 0 < a.extent k
    · rw [if_pos first, inside_iff h.1]
      constructor
      · rintro ⟨off, -⟩
        exact ⟨off, by omega⟩
      · rintro ⟨off, -⟩
        exact ⟨off, first⟩
    · rw [if_neg first, inside_iff h.lt_right, offAxis_set_index, offAxis_congr h.2]
      refine and_congr_right fun off => ?_
      rw [getD_set_self (lt_length h.lt_right off)]
      omega

def append? (k : Nat) (a b : Block α) : Option (Block α) := if h :
    Fits k a b then some (a.append b h) else none

theorem extent_append {a b : Block α} (h : Fits k a b) : (a.append b h).extent k = a.extent k +
    b.extent k :=
  getD_set_self h.1

theorem fits_append_left {a b c : Block α} (h : Fits k a b) : Fits k (a.append b h) c ↔
    Fits k b c := by
  unfold Fits append
  simp only [length_set, set_set, h.2, h.1, h.lt_right, true_and]

theorem fits_append_right {a b c : Block α} (h : Fits k b c) : Fits k a (b.append c h) ↔
    Fits k a b := by
  unfold Fits append
  simp only [set_set]

theorem append_assoc {a b c : Block α} (ab : Fits k a b) (bc : Fits k b c) :
    (a.append b ab).append c ((fits_append_left ab).2 bc) =
    a.append (b.append c bc) ((fits_append_right bc).2 ab) := by
  refine ext ?_ fun i hi => ?_
  · show (a.shape.set k _).set k ((a.append b ab).extent k + _) = a.shape.set k
      (_ + (b.append c bc).extent k)
    rw [set_set, extent_append, extent_append, Nat.add_assoc]
  · have hk : k < i.length := by
      have shape : (a.append b ab).shape.length = a.shape.length := length_set
      have := lt_length (shape.symm ▸ ab.1) ((inShape_set (shape.symm ▸ ab.1)).1 hi).1
      exact this
    show (if i.getD k 0 < (a.append b ab).extent k then
        (if i.getD k 0 < a.extent k then a.entry i else b.entry (i.set k (i.getD k 0 - a.extent k)))
        else c.entry (i.set k (i.getD k 0 - (a.append b ab).extent k))) =
      if i.getD k 0 < a.extent k then a.entry i else
        if (i.set k (i.getD k 0 - a.extent k)).getD k 0 < b.extent k then b.entry
          (i.set k (i.getD k 0 - a.extent k))
        else c.entry ((i.set k (i.getD k 0 - a.extent k)).set k
          ((i.set k (i.getD k 0 - a.extent k)).getD k 0 - b.extent k))
    grind [extent_append, getD_set_self, set_set, Nat.sub_sub]

theorem append?_assoc {a b ab : Block α} (h : append? k a b = some ab) (c : Block α) :
    append? k ab c = (append? k b c).bind (append? k a) := by
  unfold append? at h
  split at h
  case isFalse => cases h
  case isTrue fits =>
    cases h
    unfold append?
    by_cases bc : Fits k b c
    · rw [dif_pos bc, dif_pos ((fits_append_left fits).2 bc), append_assoc fits bc,
        Option.bind_some, dif_pos ((fits_append_right bc).2 fits)]
    · rw [dif_neg bc, dif_neg (mt (fits_append_left fits).1 bc), Option.bind_none]

/-! ## Joining many -/

def join? (k : Nat) : List (Block α) → Option (Block α)
  | [] => none
  | [x] => if k < x.shape.length then some x else none
  | x :: y :: ys => (join? k (y :: ys)).bind (append? k x)

theorem join?_cons (x : Block α) {xs : List (Block α)} (h : xs ≠ []) :
    join? k (x :: xs) = (join? k xs).bind (append? k x) := by
  cases xs with
  | nil => exact absurd rfl h
  | cons y ys => rfl

theorem ne_nil_of_join? {xs : List (Block α)} {y : Block α} (h : join? k xs = some y) :
    xs ≠ [] := by
  rintro rfl
  cases h

theorem lt_of_join? {xs : List (Block α)} {y : Block α} (h : join? k xs = some y) :
    k < y.shape.length := by
  cases xs with
  | nil => cases h
  | cons x xs =>
    cases xs with
    | nil =>
      unfold join? at h
      grind
    | cons z zs =>
      obtain ⟨rest, -, last⟩ := Option.bind_eq_some_iff.1 h
      unfold append? at last
      split at last
      · next fits =>
        cases last
        show k < (x.shape.set k _).length
        rw [length_set]
        exact fits.1
      · cases last

theorem join?_singleton {x y : Block α} (h : join? k [x] = some y) : x = y := by
  unfold join? at h
  grind

theorem join?_front {xs : List (Block α)} {y : Block α} (h : join? k xs = some y)
    (zs : List (Block α)) :
    join? k (xs ++ zs) = join? k (y :: zs) := by
  cases zs with
  | nil =>
    rw [append_nil, h]
    show some y = if k < y.shape.length then some y else none
    rw [if_pos (lt_of_join? h)]
  | cons z zs =>
    induction xs generalizing y with
    | nil => cases h
    | cons x xs ih =>
      by_cases last : xs = []
      · subst last
        rw [join?_singleton h]
        rfl
      · rw [join?_cons x last] at h
        obtain ⟨b, rest, joined⟩ := Option.bind_eq_some_iff.1 h
        rw [cons_append, join?_cons x (by simp), ih rest, join?_cons b (by simp), Option.bind_assoc]
        congr 1
        funext c
        exact (append?_assoc joined c).symm

theorem join?_run {xs : List (Block α)} {y : Block α} (h : join? k xs = some y)
    (front back : List (Block α)) :
    join? k (front ++ xs ++ back) = join? k (front ++ [y] ++ back) := by
  induction front with
  | nil => exact join?_front h back
  | cons x front ih =>
    have full : front ++ xs ++ back ≠ [] := by simp [ne_nil_of_join? h]
    simp_all [cons_append, join?_cons]

/-! ## Parts -/

def slice (x : Block α) (hk : k < x.shape.length) (start n : Nat) : Block α where
  shape := x.shape.set k (min n (x.extent k - start))
  entry i := if i.getD k 0 < n then x.entry (i.set k (start + i.getD k 0)) else none
  inside i := by
    rw [inShape_set hk]
    split
    · next lt =>
      rw [inside_iff hk, offAxis_set_index]
      refine and_congr_right fun off => ?_
      rw [getD_set_self (lt_length hk off)]
      omega
    · next ge =>
      simp only [Option.isSome_none, Bool.false_eq_true, false_iff, not_and]
      intro _
      omega

def parts (x : Block α) (hk : k < x.shape.length) : Nat → List Nat → List (Block α)
  | _, [] => []
  | start, n :: ns => x.slice hk start n :: x.parts hk (start + n) ns

/-- A block cut along an axis into parts whose sizes add up to the size of the axis. -/
def split? (k : Nat) (ns : List Nat) (x : Block α) : Option (List (Block α)) :=
  if hk : k < x.shape.length then
    if ns ≠ [] ∧ ns.sum = x.extent k then some (x.parts hk 0 ns) else none
  else none

variable {x : Block α} (hk : k < x.shape.length)

theorem extent_slice (start n : Nat) : (x.slice hk start n).extent k = min n (x.extent k - start) :=
  getD_set_self hk

theorem slice_whole : x.slice hk 0 (x.extent k) = x := by
  refine ext ?_ fun i hi => ?_
  · show x.shape.set k (min (x.extent k) (x.extent k - 0)) = x.shape
    rw [Nat.sub_zero, Nat.min_self]
    exact set_getD k x.shape
  · have lt := ((inShape_set hk).1 hi).2
    show (if i.getD k 0 < x.extent k then x.entry (i.set k (0 + i.getD k 0)) else none) = _
    rw [if_pos (by omega), Nat.zero_add, set_getD]

theorem append?_slice (start n m : Nat) :
    append? k (x.slice hk start n) (x.slice hk (start + n) m) =
    some (x.slice hk start (n + m)) := by
  have fits : Fits k (x.slice hk start n) (x.slice hk (start + n) m) := by
    refine ⟨?_, ?_⟩
    · show k < (x.shape.set k _).length
      rwa [length_set]
    · show (x.shape.set k _).set k 0 = (x.shape.set k _).set k 0
      rw [set_set, set_set]
  unfold append?
  rw [dif_pos fits]
  congr 1
  refine ext ?_ fun i hi => ?_
  · show (x.shape.set k _).set k ((x.slice hk start n).extent k + (x.slice hk (start + n) m).extent
      k) = x.shape.set k _
    grind [set_set, extent_slice]
  · have hk' : k < (x.slice hk start n).shape.length := fits.1
    obtain ⟨off, lt⟩ := (inShape_set hk').1 hi
    have hi : k < i.length := lt_length hk' off
    rw [extent_slice, extent_slice] at lt
    show (if i.getD k 0 < (x.slice hk start n).extent k then
        (if i.getD k 0 < n then x.entry (i.set k (start + i.getD k 0)) else none)
        else if (i.set k (i.getD k 0 - (x.slice hk start n).extent k)).getD k 0 < m then
          x.entry ((i.set k (i.getD k 0 - (x.slice hk start n).extent k)).set k
            (start + n + (i.set k (i.getD k 0 - (x.slice hk start n).extent k)).getD k 0))
        else none) = if i.getD k 0 < n + m then x.entry (i.set k (start + i.getD k 0)) else none
    rw [extent_slice, getD_set_self hi, set_set]
    grind

theorem join?_parts (start : Nat) (h : ns ≠ []) :
    join? k (x.parts hk start ns) = some (x.slice hk start ns.sum) := by
  induction ns generalizing start with
  | nil => exact absurd rfl h
  | cons n ns ih =>
    by_cases last : ns = []
    · subst last
      show (if k < (x.shape.set k _).length then some (x.slice hk start n) else none) = _
      grind
    · have more : x.parts hk (start + n) ns ≠ [] := by
        cases ns with
        | nil => exact absurd rfl last
        | cons m ns => exact cons_ne_nil _ _
      rw [parts, join?_cons _ more, ih (start + n) last, Option.bind_some, append?_slice, sum_cons]

/-- Joining the parts of a block gives it back. -/
theorem join?_split {ys : List (Block α)} (h : split? k ns x = some ys) : join? k ys = some x := by
  unfold split? at h
  split at h
  case isFalse => cases h
  case isTrue lt =>
    split at h
    case isFalse => cases h
    case isTrue sizes =>
      cases h
      rw [join?_parts lt 0 sizes.1, sizes.2, slice_whole]

/-! ## Rows -/

def row (l : List α) : Block α where
  shape := [l.length]
  entry
    | [i] => l[i]?
    | _ => none
  inside i := by
    match i with
    | [] => simp [InShape]
    | [i] => simp [InShape]
    | _ :: _ :: _ => simp [InShape]

theorem append?_row (l m : List α) : append? 0 (row l) (row m) = some (row (l ++ m)) := by
  have fits : Fits 0 (row l) (row m) := ⟨by simp [row], rfl⟩
  unfold append?
  rw [dif_pos fits]
  congr 1
  refine ext (by simp [append, row, extent]) fun i hi => ?_
  have one : i.length = 1 := by simpa [append, row] using (inShape_iff.1 hi).1
  obtain ⟨j, rfl⟩ := length_eq_one_iff.1 one
  show (if j < l.length then l[j]? else m[j - l.length]?) = (l ++ m)[j]?
  rw [getElem?_append]

theorem slice_row (l : List α) (start n : Nat) (hk : 0 < (row l).shape.length) :
    (row l).slice hk start n = row ((l.drop start).take n) := by
  refine ext (by simp [slice, row, extent]) fun i hi => ?_
  have one : i.length = 1 := by simpa [slice, row] using (inShape_iff.1 hi).1
  obtain ⟨j, rfl⟩ := length_eq_one_iff.1 one
  show (if j < n then l[start + j]? else none) = ((l.drop start).take n)[j]?
  rw [getElem?_take, getElem?_drop]

end Block

end TensorGraph

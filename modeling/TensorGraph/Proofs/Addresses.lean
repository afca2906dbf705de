import TensorGraph.Accessor.Address
import TensorGraph.Proofs.Strides

/-!
# Addresses of a part

When a tensor has become a part of a larger one along an axis, its elements are found by `address?`.
 With the sizes `front ++ p :: back` inside of `front ++ q :: back` and `w = back.prod`, the element
`n` lies at `n / (p * w) * (q * w) + n % (p * w) + offset * w`.
-/

namespace TensorGraph

open List

variable {base view xs : List DimId} {a : Accessor} {n : Nat} {i sd : Int} {look : DimTable}

namespace RowMajor

def position : List Nat → List Int → Int
  | _ :: ss, i :: is => i * ss.prod + position ss is
  | _, _ => 0

theorem position_natCast (ss is : List Nat) : position ss (is.map fun (i : Nat) => (i : Int)) =
    flat ss is := by
  induction ss generalizing is with
  | nil => rfl
  | cons s ss ih =>
    cases is with
    | nil => rfl
    | cons i is =>
      rw [map_cons, position, flat, ih]
      push_cast
      rfl

theorem position_modify {ss : List Nat} {is : List Int} {k : Nat} (length : is.length = ss.length)
    (hk : k < ss.length) (c : Int) : position ss (is.modify k (· + c)) = position ss is + c *
    (ss.drop (k + 1)).prod := by
  induction ss generalizing is k with
  | nil => cases hk
  | cons s ss ih =>
    cases is with
    | nil => cases length
    | cons i is =>
      cases k with
      | zero =>
        rw [modify_zero_cons, position, position, drop_succ_cons, drop_zero]
        ring
      | succ k =>
        rw [modify_succ_cons, position, position, ih (by simpa using length) (by simpa using hk),
          drop_succ_cons]
        ring

theorem flat_unflat_row {front back : List Nat} {a b : Nat} (h : n < (front ++ a :: back).prod) :
    flat (front ++ b :: back) (unflat (front ++ a :: back) n) =
    rowAddress (a * back.prod) (b * back.prod) n := by
  have number := flat_unflat h
  have here : address (front ++ a :: back) (front ++ a :: back) (front ++ b :: back) front.length 0
      (unflat (front ++ a :: back) n) = _ := address_eq (number.symm ▸ h)
  rw [address, number, Nat.zero_mul, show (fun i : Nat => i + 0) = id from rfl, modify_id] at here
  exact here

/-- Where the element with a number should lie: its index in a view, shifted at one axis, is looked
up in a larger shape. -/
def place (view stored : List Nat) (axis : Nat) (offset : Int) (n : Nat) : Int :=
  position stored (((unflat view n).map fun (i : Nat) => (i : Int)).modify axis (· + offset))

theorem place_eq {front back : List Nat} {a b : Nat} (h : n < (front ++ a :: back).prod)
    (offset : Int) :
    place (front ++ a :: back) (front ++ b :: back) front.length offset n =
      (rowAddress (a * back.prod) (b * back.prod) n : Int) + offset * back.prod := by
  unfold place
  rw [position_modify (by simp) (by simp), position_natCast, flat_unflat_row h,
    drop_append, drop_of_length_le (by omega), Nat.add_sub_cancel_left, drop_succ_cons, drop_zero,
    nil_append]

/-! ## Rows -/

section Rows

variable {f w w' m n : Nat}

theorem rowAddress_of_lt (h : n < w) : rowAddress w w' n = n := by
  rw [rowAddress, Nat.div_eq_of_lt h, Nat.mod_eq_of_lt h, Nat.zero_mul, Nat.zero_add]

theorem rowAddress_self (w n : Nat) : rowAddress w w n = n := by
  rw [rowAddress, Nat.mul_comm]
  exact Nat.div_add_mod n w

theorem rowAddress_eq_self_iff : (∀ n < f * w, rowAddress w w' n = n) ↔ f * w = 0 ∨ f = 1 ∨
    w = w' := by
  constructor
  · intro all
    by_contra other
    obtain ⟨some, other⟩ := not_or.1 other
    obtain ⟨rows, apart⟩ := not_or.1 other
    have pos : 0 < w := Nat.pos_of_ne_zero fun zero => some (by rw [zero, Nat.mul_zero])
    have rows : 2 ≤ f := by
      have : f ≠ 0 := fun zero => some (by rw [zero, Nat.zero_mul])
      omega
    have second : w < f * w := Nat.lt_of_lt_of_le (by omega) (Nat.mul_le_mul_right w rows)
    have here := all w second
    rw [rowAddress, Nat.div_self pos, Nat.mod_self, Nat.one_mul] at here
    exact apart here.symm
  · grind [rowAddress_of_lt, rowAddress_self]

/-- Taking a tensor for one piece unless it is longer along a later axis is right only if it is one
row, or if the rows are as long, or if they get longer and the axis is not counted from the end. -/
theorem rows_right_iff {p q : Nat} (some : f * (p * w) ≠ 0) (first : sd = 0 → f = 1) :
    (∀ n < f * (p * w), (if 0 < sd ∧ p * w < q * w then rowAddress (p * w) (q * w) n else n) =
      rowAddress (p * w) (q * w) n) ↔ f = 1 ∨ p = q ∨ 0 ≤ sd ∧ p ≤ q := by
  have pos : 0 < w := Nat.pos_of_ne_zero fun zero => some (by rw [zero, Nat.mul_zero, Nat.mul_zero])
  have longer_iff : p * w < q * w ↔ p < q := Nat.mul_lt_mul_right pos
  have equal_iff : p * w = q * w ↔ p = q := Nat.mul_left_inj pos.ne'
  by_cases longer : 0 < sd ∧ p * w < q * w
  · grind
  · simp only [if_neg longer, eq_comm (b := rowAddress _ _ _)]
    rw [rowAddress_eq_self_iff, equal_iff]
    constructor
    · grind
    · grind

theorem rowAddress_inj (wider : w ≤ w') (same : rowAddress w w' m = rowAddress w w' n) : m = n := by
  by_cases zero : w = 0
  · simpa [rowAddress, zero] using same
  have pos : 0 < w := Nat.pos_of_ne_zero zero
  have split : ∀ n, rowAddress w w' n / w' = n / w ∧ rowAddress w w' n % w' = n % w := by
    intro n
    have below : n % w < w' := Nat.lt_of_lt_of_le (Nat.mod_lt n pos) wider
    rw [rowAddress, Nat.mul_comm]
    exact ⟨by rw [Nat.mul_add_div (by omega), Nat.div_eq_of_lt below, Nat.add_zero],
      by rw [Nat.mul_add_mod, Nat.mod_eq_of_lt below]⟩
  grind [Nat.div_add_mod]

theorem rowAddress_add_lt {c : Nat} (room : c + w ≤ w') (h : n < f * w) :
    rowAddress w w' n + c < f * w' := by
  have pos : 0 < w := Nat.pos_of_ne_zero fun zero => by rw [zero] at h; omega
  have row : n / w < f := (Nat.div_lt_iff_lt_mul pos).2 h
  have rest := Nat.mod_lt n pos
  calc rowAddress w w' n + c = n / w * w' + (n % w + c) := by rw [rowAddress, Nat.add_assoc]
    _ < n / w * w' + w' := by omega
    _ = (n / w + 1) * w' := by ring
    _ ≤ f * w' := Nat.mul_le_mul_right w' row

end Rows

end RowMajor

namespace Accessor

open RowMajor

theorem address_of_rebase {b : Accessor} {offset : Int} {p q w : Nat}
    (contiguous : a.isContiguous = true) (run : a.rebase look base sd offset = (b, none))
    (hp : ((a.storedShape.getD a.seenShape).at? sd).map (fun d => (look d).value) = some (p : Int))
    (hq : (base.at? sd).map (fun d => (look d).value) = some (q : Int))
    (hw : width look base sd = w) (n : Nat) :
    b.address? 1 n = some (((if 0 < sd ∧ p * w < q * w then rowAddress (p * w) (q * w) n else n)
      : Nat) + offset * w) := by
  obtain ⟨-, x, y, hx, hy, -, -, -, rfl⟩ := rebase_eq run
  rw [hx, Option.map_some, Option.some.injEq] at hp
  rw [hy, Option.map_some, Option.some.injEq] at hq
  unfold noteParts
  simp only [hp, hq, hw]
  by_cases longer : (p : Int) * w < q * w
  · have longer' : p * w < q * w := by exact_mod_cast longer
    rw [if_pos longer]
    by_cases behind : 0 < sd
    · rw [if_pos ⟨behind, longer'⟩]
      simp only [address?, contiguous, behind, decide_true, Bool.not_true, Bool.and_false,
        Bool.false_eq_true, if_false]
      rw [rowAddress]
      push_cast
      simp [Int.tmod_eq_emod_of_nonneg]
    · simp [address?, contiguous, behind, add_comm]
  · have longer' : ¬ p * w < q * w := by exact_mod_cast longer
    rw [if_neg longer, if_neg fun both => longer' both.2]
    simp [address?, contiguous, add_comm]

/-- An accessor of a tensor that is stored in one piece with the given shape. -/
structure InOnePiece (view : List DimId) (a : Accessor) : Prop where
  stored : a.storedShape.getD a.seenShape = view
  free : a.strideDim = none
  contiguous : a.isContiguous = true

theorem inOnePiece_ofShape (shape : List DimId) : InOnePiece shape (ofShape shape) :=
  ⟨rfl, rfl, rfl⟩

theorem InOnePiece.reshape (h : InOnePiece view a) (look : DimTable) (view' : List DimId) :
    InOnePiece view' (a.reshape look view').1 := by
  unfold Accessor.reshape
  rw [if_neg (by simp [h.free])]
  dsimp only
  split <;> exact ⟨rfl, h.free, h.contiguous⟩

theorem InOnePiece.reshapes (h : InOnePiece view a) (look : DimTable)
    (views : List (List DimId)) : InOnePiece (views.getLastD view) (a.reshapes look views) := by
  induction views generalizing a view with
  | nil => exact h
  | cons v views ih =>
    rw [getLastD_cons]
    exact ih (h.reshape look v)

/-! ## Sizes at signed positions -/

theorem getElem?_clipIdx {x : DimId} (h : xs.at? i = some x) : xs[xs.clipIdx i]? = some x := by
  unfold at? at h
  unfold clipIdx
  grind

theorem clipIdx_cast {α : Type} {xs : List α} (h : (xs.at? i).isSome) :
    (xs.clipIdx i : Int) = if i < 0 then i + xs.length else i := by
  refine Int.toNat_of_nonneg (Int.not_lt.1 fun outside => ?_)
  rw [at?, if_pos outside] at h
  cases h

theorem clipIdx_add_one (h : (xs.at? i).isSome) :
    xs.clipIdx (i + 1) = if i = -1 then 0 else xs.clipIdx i + 1 := by
  have cast := clipIdx_cast h
  generalize xs.clipIdx i = j at cast ⊢
  unfold clipIdx
  split_ifs at cast ⊢ <;> omega

theorem value_eq_size {shape : List DimId} (fixed : Fixed look shape) {i : Nat} {d : DimId}
    (h : shape[i]? = some d) : (look d).value = ((sizes look shape).getD i 0 : Nat) := by
  obtain ⟨n, sized⟩ := fixed d (mem_of_getElem? h)
  simp [sizes, getD_eq_getElem?_getD, h, sized.value]

theorem width_eq (fixed : Fixed look base) (k : Nat) :
    width look base k = ((sizes look base).drop (k + 1)).prod := by
  have after : base.fromIdx ((k : Int) + 1) = base.drop (k + 1) :=
    congrArg base.drop (by unfold clipIdx; omega)
  unfold width
  rw [after, sizes, ← map_drop, Nat.cast_list_prod, map_map]
  refine congrArg prod (map_congr_left fun d hd => ?_)
  obtain ⟨n, sized⟩ := fixed d (mem_of_mem_drop hd)
  simp [sized.value]

/-! ## Addresses and places -/

/-- The elements of a part are found row by row if the rows do not get shorter. -/
theorem address_rows {k : Nat} {offset : Int} {b : Accessor} (fixed : Fixed look view)
    (fixed' : Fixed look base) (piece : InOnePiece view a)
    (rebased : a.rebase look base k offset = (b, none))
    (others : ∀ i, i ≠ k → (sizes look base)[i]? = (sizes look view)[i]?)
    (larger : (sizes look view).getD k 0 ≤ (sizes look base).getD k 0) :
    ∃ (front back : List Nat) (p q : Nat), front.length = k ∧ sizes look view = front ++ p :: back ∧
    sizes look base = front ++ q :: back ∧
      p ≤ q ∧ ∀ n < (front ++ p :: back).prod,
        b.address? 1 n = some (rowAddress (p * back.prod) (q * back.prod) n + offset *
          back.prod) := by
  obtain ⟨length, x, y, hx, hy, -⟩ := rebase_eq rebased
  rw [piece.stored] at length hx
  rw [at?_natCast] at hx hy
  have inside : k < (sizes look view).length := by
    rw [length_sizes]
    exact (List.getElem?_eq_some_iff.1 hx).1
  obtain ⟨front, back, axis, hview, hbase⟩ := split_axis (by simp [length]) inside others
  refine ⟨front, back, _, _, axis, hview, hbase, larger, fun n hn => ?_⟩
  have hw : width look base k = back.prod := by
    rw [width_eq fixed', hbase, ← axis, List.drop_append, drop_of_length_le (by omega),
      Nat.add_sub_cancel_left, drop_succ_cons, drop_zero, nil_append]
  have hp : ((a.storedShape.getD a.seenShape).at? k).map (fun d => (look d).value) =
    some ((sizes look view).getD k 0 : Int) := by
    rw [piece.stored, at?_natCast, hx, Option.map_some, value_eq_size fixed hx]
  have hq : (base.at? k).map (fun d => (look d).value) =
    some ((sizes look base).getD k 0 : Int) := by
    rw [at?_natCast, hy, Option.map_some, value_eq_size fixed' hy]
  rw [address_of_rebase piece.contiguous rebased hp hq hw n]
  rw [prod_append, prod_cons] at hn
  -- one piece is right for a first axis and for equal rows
  have first : (k : Int) = 0 → front.prod = 1 :=
    fun zero => by rw [length_eq_zero_iff.1 (show front.length = 0 by omega), prod_nil]
  rw [(rows_right_iff (by omega) first).2 (.inr (.inr ⟨by omega, larger⟩)) n hn]

/-- **Addresses.** The elements of `shape` are stored with other shapes of as many elements, the
last of which has become a part of `base` along the axis `k`.  The address of each element is the
place of its index, shifted by the offset; different elements have different addresses, and they lie
inside of `base` if the shifted part does. -/
theorem address_eq_place {look : DimTable} {shape base : List DimId} {views : List (List DimId)}
    {offset : Int} {b : Accessor} {k : Nat} {seen view stored : List Nat}
    (fixed : ∀ v ∈ shape :: base :: views, Fixed look v) (hseen : sizes look shape = seen)
    (hview : sizes look (views.getLastD shape) = view) (hstored : sizes look base = stored)
    (same : ∀ v ∈ views, (sizes look v).prod = seen.prod)
    (rebased : ((ofShape shape).reshapes look views).rebase look base k offset = (b, none))
    (others : ∀ i, i ≠ k → stored[i]? = view[i]?) (larger : view.getD k 0 ≤ stored.getD k 0) :
    (∀ n < seen.prod, b.address? 1 n = some (place view stored k offset n)) ∧
      (∀ m < seen.prod, ∀ n < seen.prod, b.address? 1 m = b.address? 1 n → m = n) ∧
      (0 ≤ offset → offset + view.getD k 0 ≤ stored.getD k 0 → ∀ n < seen.prod,
        ∃ p : Nat, b.address? 1 n = some (p : Int) ∧ p < stored.prod) := by
  have fixedView : Fixed look (views.getLastD shape) :=
    getLastD_of_forall (fixed _ mem_cons_self) fun v hv => fixed v (by simp [hv])
  have total : view.prod = seen.prod :=
    hview ▸ getLastD_of_forall (P := fun v => (sizes look v).prod = seen.prod) (hseen ▸ rfl) same
  have piece := (inOnePiece_ofShape shape).reshapes look views
  obtain ⟨front, back, p, q, rfl, rfl, rfl, le, rows⟩ : ∃ (front back : List Nat)
    (p q : Nat), front.length = k ∧
      view = front ++ p :: back ∧ stored = front ++ q :: back ∧ p ≤ q ∧
        ∀ n < (front ++ p :: back).prod,
        b.address? 1 n = some (rowAddress (p * back.prod) (q * back.prod) n + offset *
          back.prod) := by
    subst hview hstored
    exact address_rows fixedView (fixed base (by simp)) piece rebased others larger
  rw [← total]
  refine ⟨fun n hn => ?_, fun m hm n hn equal => ?_, fun start room n hn => ?_⟩
  · rw [rows n hn, place_eq hn]
  · rw [rows m hm, rows n hn, Option.some.injEq, Int.add_left_inj, Int.natCast_inj] at equal
    exact rowAddress_inj (Nat.mul_le_mul_right _ le) equal
  · obtain ⟨c, rfl⟩ := Int.eq_ofNat_of_zero_le start
    have room : c * back.prod + p * back.prod ≤ q * back.prod := by
      rw [← Nat.add_mul]
      have room : (c : Int) + p ≤ q := by simpa using room
      exact Nat.mul_le_mul_right _ (by omega)
    rw [rows n hn]
    rw [prod_append] at hn ⊢
    exact ⟨_, by push_cast; rfl, rowAddress_add_lt room hn⟩

/-- Two times two rows of 3 as a part of two times four rows, after the first of which they
start. -/
theorem address_eq_place_rows :
    ∃ b, ((ofShape [⟨2⟩, ⟨6⟩]).reshapes (fun d => .static d.idx) [[⟨2⟩, ⟨2⟩, ⟨3⟩]]).rebase
        (fun d => .static d.idx) [⟨2⟩, ⟨4⟩, ⟨3⟩] 1 1 = (b, none) ∧ b.address? 1 7 = some 16 ∧
      ∀ n < 12, b.address? 1 (n : Nat) = some (place [2, 2, 3] [2, 4, 3] 1 1 n) := by
  have others : ∀ i, i ≠ 1 → [2, 4, 3][i]? = [2, 2, 3][i]? := by
    intro i hi
    rcases i with _ | _ | i
    · rfl
    · contradiction
    · rfl
  exact ⟨_, rebase_rows, rfl, (address_eq_place (fun v _ => fixed_static v) rfl rfl rfl (by decide)
    rebase_rows others (by decide)).1⟩

end Accessor

end TensorGraph

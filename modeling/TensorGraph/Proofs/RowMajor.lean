import Mathlib.Algebra.BigOperators.Group.List.Basic
import Mathlib.Algebra.Order.BigOperators.Group.List
import Mathlib.Tactic.LinearCombination
import Mathlib.Tactic.Ring

/-!
# Elements in row-major order

The elements of a shape are numbered row by row: the last index varies fastest.
-/

namespace TensorGraph

open List

variable {is ss : List Nat} {d n : Nat}

namespace RowMajor

def flat : List Nat → List Nat → Nat
  | _ :: ss, i :: is => i * ss.prod + flat ss is
  | _, _ => 0

def unflat : List Nat → Nat → List Nat
  | [], _ => []
  | _ :: ss, n => n / ss.prod :: unflat ss (n % ss.prod)

def InShape (ss is : List Nat) : Prop := Forall₂ (· < ·) is ss

theorem prod_pos_of_lt (h : n < ss.prod) : 0 < ss.prod := Nat.lt_of_le_of_lt (Nat.zero_le n) h

theorem flat_lt (h : InShape ss is) : flat ss is < ss.prod := by
  induction h with
  | nil => simp [flat]
  | @cons i s is ss lt _ ih =>
    calc i * ss.prod + flat ss is < i * ss.prod + ss.prod := by omega
      _ = (i + 1) * ss.prod := by ring
      _ ≤ s * ss.prod := Nat.mul_le_mul_right _ lt

@[simp] theorem length_unflat (ss : List Nat) (n : Nat) : (unflat ss n).length = ss.length := by
  induction ss generalizing n with
  | nil => rfl
  | cons s ss ih => simp [unflat, ih]

theorem inShape_unflat (h : n < ss.prod) : InShape ss (unflat ss n) := by
  induction ss generalizing n with
  | nil => exact .nil
  | cons s ss ih =>
    have pos : 0 < ss.prod := Nat.pos_of_ne_zero fun zero => by simp [zero] at h
    exact .cons (Nat.div_lt_of_lt_mul (by rwa [Nat.mul_comm])) (ih (Nat.mod_lt _ pos))

theorem flat_unflat (h : n < ss.prod) : flat ss (unflat ss n) = n := by
  induction ss generalizing n with
  | nil =>
    rw [prod_nil] at h
    have zero : n = 0 := by omega
    rw [zero]
    rfl
  | cons s ss ih =>
    have pos : 0 < ss.prod := Nat.pos_of_ne_zero fun zero => by simp [zero] at h
    grind [unflat, flat, Nat.mod_lt, Nat.mul_comm, Nat.div_add_mod]

theorem flat_append (length : is.length = ss.length) (ts js : List Nat) :
    flat (ss ++ ts) (is ++ js) = flat ss is * ts.prod + flat ts js := by
  induction ss generalizing is with
  | nil =>
    obtain rfl := length_eq_zero_iff.1 length
    simp [flat]
  | cons s ss ih =>
    cases is with
    | nil => simp at length
    | cons i is =>
      rw [cons_append, cons_append, flat, flat, ih (by simpa using length), prod_append]
      ring

theorem unflat_append {ts : List Nat} (h : n < (ss ++ ts).prod) :
    unflat (ss ++ ts) n = unflat ss (n / ts.prod) ++ unflat ts (n % ts.prod) := by
  induction ss generalizing n with
  | nil => rw [nil_append] at h; rw [Nat.mod_eq_of_lt h]; rfl
  | cons s ss ih =>
    have pos : 0 < (ss ++ ts).prod := Nat.pos_of_ne_zero fun zero => by simp [zero] at h
    have rows : (ss ++ ts).prod = ss.prod * ts.prod := prod_append
    rw [cons_append, unflat, unflat, ih (Nat.mod_lt _ pos), cons_append, rows,
      Nat.mod_mul_left_div_self, Nat.mod_mul_left_mod, Nat.div_div_eq_div_mul, Nat.mul_comm ts.prod]

theorem flat_modify (length : is.length = ss.length) (hd : d < ss.length) :
    flat ss (is.modify d (· + 1)) = flat ss is + (ss.drop (d + 1)).prod := by
  induction ss generalizing is d with
  | nil => simp at hd
  | cons s ss ih =>
    cases is with
    | nil => simp at length
    | cons i is =>
      cases d with
      | zero =>
        rw [modify_zero_cons, flat, flat, drop_succ_cons, drop_zero]
        ring
      | succ d =>
        rw [modify_succ_cons, flat, flat, ih (by simpa using length) (by simpa using hd),
          drop_succ_cons]
        ring

theorem getElem?_unflat (h : n < ss.prod) (hd : d < ss.length) :
    (unflat ss n)[d]? = some (n % (ss.drop d).prod / (ss.drop (d + 1)).prod) := by
  induction ss generalizing n d with
  | nil => simp at hd
  | cons s ss ih =>
    cases d with
    | zero =>
      rw [unflat, getElem?_cons_zero, drop_zero, Nat.mod_eq_of_lt h, drop_succ_cons, drop_zero]
    | succ d =>
      have hd : d < ss.length := by simpa using hd
      have pos : 0 < ss.prod := Nat.pos_of_ne_zero fun zero => by
        rw [prod_cons, zero] at h
        omega
      have divides : (ss.drop d).prod ∣ ss.prod := by
        conv_rhs => rw [← take_append_drop d ss, prod_append]
        exact Nat.dvd_mul_left _ _
      rw [unflat, getElem?_cons_succ, ih (Nat.mod_lt _ pos) hd, drop_succ_cons, drop_succ_cons,
        Nat.mod_mod_of_dvd _ divides]

theorem forall_index_iff (hd : d < ss.length) (P : Nat → Prop) :
    (∀ is, InShape ss is → is.getD d 0 + 1 < ss.getD d 0 → P (flat ss is)) ↔
      ∀ n < ss.prod, n % (ss.drop d).prod / (ss.drop (d + 1)).prod + 1 < ss.getD d 0 → P n := by
  constructor
  · intro all n hn room
    rw [← flat_unflat hn]
    refine all _ (inShape_unflat hn) ?_
    rwa [getD_eq_getElem?_getD, getElem?_unflat hn hd]
  · intro all is inside room
    have unique : ∀ {ss is : List Nat}, InShape ss is → unflat ss (flat ss is) = is := by
      intro ss is inside
      induction inside with
      | nil => rfl
      | @cons i s is ss lt rest ih =>
        have below := flat_lt rest
        have pos := prod_pos_of_lt below
        rw [flat, unflat, Nat.mul_comm, Nat.mul_add_div pos, Nat.div_eq_of_lt below,
          Nat.mul_add_mod, Nat.mod_eq_of_lt below, ih, Nat.add_zero]
    grind [flat_lt, getElem?_unflat]

/-! ## Rows -/

/-- Where the element at an index lies: the index becomes one of another shape, is shifted at one
axis, and is looked up in a larger shape. -/
def address (seen view base : List Nat) (axis offset : Nat) (is : List Nat) : Nat :=
  flat base ((unflat view (flat seen is)).modify axis (· + offset))

def rowAddress (w w' n : Nat) : Nat := n / w * w' + n % w

theorem modify_append (l r : List Nat) (f : Nat → Nat) : (l ++ r).modify l.length f = l ++
    r.modify 0 f := by
  induction l with
  | nil => rfl
  | cons a l ih => grind

theorem address_eq {seen front back : List Nat} {a b offset : Nat}
    (h : flat seen is < (front ++ a :: back).prod) :
    address seen (front ++ a :: back) (front ++ b :: back) front.length offset is =
      rowAddress (a * back.prod) (b * back.prod) (flat seen is) + offset * back.prod := by
  unfold address rowAddress
  generalize flat seen is = n at h
  have total : (front ++ a :: back).prod = front.prod * (a * back.prod) := by
    rw [prod_append, prod_cons]
  have pos : 0 < a * back.prod := Nat.pos_of_ne_zero fun zero => by
    rw [total, zero] at h
    omega
  have pos' : 0 < back.prod := Nat.pos_of_ne_zero fun zero => by simp [zero] at pos
  have rest : n % (a * back.prod) % back.prod < back.prod := Nat.mod_lt _ pos'
  have first : n / (a * back.prod) < front.prod :=
    Nat.div_lt_of_lt_mul (by rwa [Nat.mul_comm, ← total])
  have shifted : (unflat (front ++ a :: back) n).modify front.length (· + offset) =
      unflat front (n / (a * back.prod)) ++
        (n % (a * back.prod) / back.prod + offset) :: unflat back
          (n % (a * back.prod) % back.prod) := by
    have length := length_unflat front (n / (a * back.prod))
    rw [unflat_append h, prod_cons]
    conv_lhs => rw [← length]
    rw [modify_append, unflat, modify_zero_cons]
  rw [shifted, flat_append (length_unflat _ _), flat_unflat first, flat, flat_unflat rest]
  grind [Nat.div_add_mod]

/-- A step moves an element by as many elements, and by the rest of a row for each row that it
passes. -/
theorem rowAddress_add (w w' n k : Nat) :
    (rowAddress w w' (n + k) : Int) - rowAddress w w' n = k + ((n + k) / w - n / w : Int) *
    ((w' : Int) - w) := by
  unfold rowAddress
  have here := Nat.div_add_mod n w
  have there := Nat.div_add_mod (n + k) w
  push_cast
  grind

end RowMajor

end TensorGraph

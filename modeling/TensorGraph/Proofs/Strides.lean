import Mathlib
import TensorGraph.Proofs.AxisGroups
import TensorGraph.Proofs.RowMajor

/-!
# Strides

The stride of an axis of the seen shape is read off the groups of axes: it is the number of elements
of the later axes, and if the stride axis starts one of the later groups, its size in the base
tensor is taken instead of its own.
-/

namespace TensorGraph

open List

variable {shape : List DimId} {look : DimTable} {d k n o : Nat} {front : List Nat} {a b : Accessor}
  {sd : Int}

namespace Accessor

open RowMajor

def Fixed (look : DimTable) (shape : List DimId) : Prop := ∀ d ∈ shape, ∃ n : Nat, (look d).Sized n

def sizes (look : DimTable) (shape : List DimId) : List Nat := shape.map fun d =>
    (look d).value.toNat

@[simp] theorem length_sizes (look : DimTable) (shape : List DimId) :
    (sizes look shape).length = shape.length := by
  simp [sizes]

theorem Fixed.sized (fixed : Fixed look shape) (pos : ∀ n ∈ sizes look shape, 0 < n) :
    SizedAll (shape.map look) (sizes look shape) := by
  refine forall₂_map_left_iff.2 (forall₂_map_right_iff.2 (forall₂_same.2 fun d hd => ?_))
  obtain ⟨n, sized⟩ := fixed d hd
  have size : (look d).value.toNat = n := by rw [sized.value, Int.toNat_natCast]
  exact ⟨size ▸ sized, pos _ (mem_map_of_mem hd)⟩

/-! ## Factors -/

def texts (ns : List Nat) : List (Option String) := ns.map fun (n : Nat) =>
    some (toString (n : Int))

theorem factor?_eq (fixed : Fixed look shape) {i : Nat} (hi : i < shape.length) :
    factor? look none shape i = .ok (some (toString ((sizes look shape).getD i 0 : Int))) := by
  obtain ⟨n, sized⟩ := fixed shape[i] (getElem_mem hi)
  have size : (sizes look shape).getD i 0 = n := by
    simp [sizes, getD_eq_getElem?_getD, hi, sized.value]
  unfold factor?
  rw [at?_natCast, getElem?_eq_getElem hi]
  simp only [sized.1, if_true, sized.value, size]
  rfl

theorem drop_eq_cons {l : List Nat} (low : o < l.length) : l.drop o = l.getD o 0 ::
    l.drop (o + 1) := by
  simp [getD_eq_getElem?_getD, low]

theorem drop_cons {l xs : List Nat} {x : Nat} (h : l.drop o = x :: xs) : o < l.length ∧
    l.getD o 0 = x ∧ l.drop (o + 1) = xs := by
  have low : o < l.length := by
    by_contra high
    rw [drop_eq_nil_of_le (by omega)] at h
    cases h
  rw [drop_eq_cons low] at h
  exact ⟨low, cons.inj h⟩

theorem drop_append {l u x : List Nat} (h : l.drop o = u ++ x) : l.drop (o + u.length) = x := by
  rw [← drop_drop, h, drop_left]

theorem exists_cut {l : List Nat} (low : k < l.length) : ∃ front x back, l = front ++ x :: back ∧
    front.length = k :=
  ⟨l.take k, l.getD k 0, l.drop (k + 1), by rw [← drop_eq_cons low,
    take_append_drop], by simp; omega⟩

theorem factors_eq (fixed : Fixed look shape) {us xs : List Nat}
    (h : (sizes look shape).drop o = us ++ xs) :
    ((range' o us.length).mapM fun (i : Nat) => factor? look none shape i) = .ok (texts us) := by
  induction us generalizing o with
  | nil => rfl
  | cons u us ih =>
    obtain ⟨low, rfl, rest⟩ := drop_cons h
    rw [length_cons, range'_succ, mapM_cons, factor?_eq fixed (by simpa using low), ih rest]
    rfl

theorem product_eq (ns : List Nat) (c : Int) :
    (texts ns).foldlM (fun (n : Int) f =>
      match f with
      | none => throw .badType
      | some t =>
        match t.toInt? with
        | some k => pure (n * k)
        | none => throw .badNumber) c = (.ok (c * ns.prod) : Except Fault Int) := by
  induction ns generalizing c with
  | nil => simp [texts]; rfl
  | cons n ns ih =>
    have read : (toString (n : Int)).toInt? = some (n : Int) := Int.toInt?_repr n
    simp_all [texts, map_cons, foldlM_cons, prod_cons, Int.mul_assoc]

theorem any_range' {j : Int} :
    (range' o n).any (fun (i : Nat) => (i : Int) == j) = true ↔ ∃ k : Nat, j = k ∧ o ≤ k ∧
    k < o + n := by
  simp only [any_eq_true, mem_range'_1, beq_iff_eq]
  grind

theorem findIdx_range' (lower : o ≤ k) (upper : k < o + n) :
    (range' o n).findIdx (fun (i : Nat) => (i : Int) == (k : Int)) = k - o := by
  induction n generalizing o with
  | zero => omega
  | succ n ih =>
    rw [range'_succ, findIdx_cons]
    grind

theorem joined_ok {head fs : List (Option String)}
    {others : Except Fault (Option (List (Option String)))} (run : (do
      let head ← Except.ok head
      let tail ← others
      return tail.map (head ++ ·)) = Except.ok (some fs)) : ∃ tail, others = .ok (some tail) ∧
        fs = head ++ tail := by
  cases others with
  | error e => simp [bind, Except.bind] at run
  | ok tail =>
    cases tail with
    | none => simp [bind, Except.bind, pure, Except.pure] at run
    | some tail =>
      cases run
      exact ⟨tail, rfl, rfl⟩

/-! ## Factors along the groups -/

section Groups

variable {look : DimTable} {acc : Accessor} {seen view base : List Nat} {sd dim : Int}
  (seenFixed : Fixed look acc.seenShape) (storedFixed : Fixed look (acc.storedShape.getD []))
  (hseen : sizes look acc.seenShape = seen) (hbase : sizes look (acc.storedShape.getD []) = base)
  (length : base.length = view.length) (others : ∀ k : Nat, sd = k → ∀ i, i ≠ k →
    base[i]? = view[i]?)
include seenFixed storedFixed hseen hbase length others

theorem laterFactors {xs ys : List Nat} {a : Nat} {gs : List AxisGroup}
    (grouped : Grouped xs ys o a gs) (hx : seen.drop o = xs) (hy : view.drop a = ys)
    {fs : List (Option String)} (run : stridesFrom? look none acc sd dim true gs = .ok (some fs)) :
    ∃ ns, fs = texts ns ∧ ((∀ k : Nat, sd = k → k < a ∨ view.length ≤ k) → ns.prod = xs.prod) ∧
      ∀ k : Nat, sd = k → a ≤ k → k < view.length →
        ns.prod * view.getD k 0 = xs.prod * base.getD k 0 ∧ (view.drop k).prod ∣ xs.prod := by
  induction grouped generalizing fs with
  | @nil o a =>
    have run : (Except.ok (some []) : Except Fault _) = .ok (some fs) := by
      simpa [stridesFrom?] using run
    cases run
    have := drop_eq_nil_iff.1 hy
    exact ⟨[], rfl, fun _ => rfl, fun k _ lower upper => by omega⟩
  | @cons us vs xs ys o a gs tight rest ih =>
    rw [stridesFrom?] at run
    split at run
    · next found =>
      obtain ⟨k, rfl, lower, upper⟩ := any_range'.1 found
      split at run
      · cases run
      next first =>
      -- the group starts with the stride axis
      obtain rfl : k = a := by grind [findIdx_range']
      have rows : (view.drop k).prod = (us ++ xs).prod :=
        hy ▸ (Grouped.cons tight rest).prod_eq.symm
      cases vs with
      | nil => simp at upper
      | cons v vs =>
        obtain ⟨inside, viewAt, back⟩ := drop_cons hy
        -- behind its first axis the group has the same sizes in the base tensor
        have stored : base.drop k = base.getD k 0 :: vs ++ ys := by
          rw [drop_eq_cons (by omega), cons_append, ← append_eq, ← back]
          congr 1
          exact ext_getElem? fun i => by grind
        have head := factors_eq storedFixed (hbase ▸ stored)
        rw [length_cons] at head run
        rw [head] at run
        obtain ⟨tail, htail, rfl⟩ := joined_ok run
        obtain ⟨ns, rfl, product, -⟩ := ih (drop_append hx) (drop_append hy) htail
        refine ⟨base.getD k 0 :: vs ++
          ns, by simp [texts, hbase], fun out => ?_, fun j hj _ _ => ?_⟩
        · have := out k rfl
          omega
        · obtain rfl : k = j := by omega
          rw [rows, viewAt, prod_append, prod_append, prod_cons, product fun j hj =>
            Or.inl (by omega), tight.prod_eq, prod_cons]
          exact ⟨by ring, Nat.dvd_refl _⟩
    · next absent =>
      have absent : ∀ k : Nat, sd = k → k < a ∨ a + vs.length ≤ k := by grind
      rw [factors_eq seenFixed (hseen ▸ hx)] at run
      obtain ⟨tail, htail, rfl⟩ := joined_ok run
      obtain ⟨ns, rfl, product, found⟩ := ih (drop_append hx) (drop_append hy) htail
      refine ⟨us ++ ns, by simp [texts], fun out => ?_, fun k hk lower upper => ?_⟩
      · rw [prod_append, prod_append, product fun k hk => ?_]
        grind
      · have := absent k hk
        obtain ⟨ratio, divides⟩ := found k hk (by omega) upper
        rw [prod_append, prod_append, Nat.mul_assoc, ratio, Nat.mul_assoc]
        grind

theorem firstFactors (pos : ∀ n ∈ seen, 0 < n) {xs ys : List Nat} {a : Nat} {gs : List AxisGroup}
    (grouped : Grouped xs ys o a gs) (hx : seen.drop o = xs) (hy : view.drop a = ys) (lower : o ≤ d)
    (upper : d < seen.length) {fs : List (Option String)}
    (run : stridesFrom? look none acc sd d false gs = .ok (some fs)) :
    ∃ ns, fs = texts ns ∧
      (ns.prod = (seen.drop (d + 1)).prod ∧
          (∀ k : Nat, sd = k → k < view.length → (view.drop k).prod ∣ (seen.drop (d + 1)).prod →
            seen.getD d 0 = 1) ∨
        ∃ k : Nat, sd = k ∧ k < view.length ∧ ns.prod * view.getD k 0 = (seen.drop (d + 1)).prod *
          base.getD k 0 ∧ (view.drop k).prod ∣ (seen.drop (d + 1)).prod) := by
  induction grouped generalizing fs with
  | nil =>
    have := drop_eq_nil_iff.1 hx
    omega
  | @cons us vs xs ys o a gs tight rest ih =>
    rw [stridesFrom?] at run
    split at run
    · next here =>
      obtain ⟨k, hk, -, inside⟩ := any_range'.1 here
      obtain rfl : d = k := by omega
      -- the axes of the group before `d` and behind it
      obtain ⟨us₁, x, us₂, rfl, place⟩ := exists_cut (l := us) (k := d - o) (by omega)
      obtain rfl : d = o + us₁.length := by omega
      obtain ⟨-, size, later⟩ :=
        drop_cons (drop_append (u := us₁) (x := x :: (us₂ ++ xs)) (by simpa using hx))
      have unit : ∀ {n}, n * (us₂ ++ xs).prod ∣ (us₂ ++ xs).prod → n = 1 := fun {n} divides => by
        have positive : 0 < (us₂ ++ xs).prod := later ▸ prod_pos fun n hn =>
          pos n (mem_of_mem_drop hn)
        exact Nat.dvd_one.1 (Nat.dvd_of_mul_dvd_mul_right positive (by rwa [Nat.one_mul]))
      rw [findIdx_range' lower inside] at run
      dsimp only at run
      split at run
      · cases run
      next clear =>
      have axes : (range' o (us₁ ++ x :: us₂).length).drop (o + us₁.length - o + 1) =
          range' (o + us₁.length + 1) us₂.length := by grind
      rw [axes, factors_eq seenFixed (hseen ▸ later)] at run
      obtain ⟨tail, htail, rfl⟩ := joined_ok run
      obtain ⟨ns, rfl, out, found⟩ :=
        laterFactors seenFixed storedFixed hseen hbase length others rest (drop_append hx)
          (drop_append hy) htail
      refine ⟨us₂ ++ ns, by simp [texts], ?_⟩
      rw [later, size]
      by_cases behind : ∃ k : Nat, sd = k ∧ a + vs.length ≤ k ∧ k < view.length
      · obtain ⟨k, rfl, first, last⟩ := behind
        obtain ⟨ratio, divides⟩ := found k rfl first last
        rw [prod_append, prod_append]
        grind
      · have product := out fun k hk => by grind
        refine Or.inl ⟨by rw [prod_append, prod_append, product], fun k hk last divides => ?_⟩
        subst hk
        by_cases earlier : k < a
        · -- the rows hold this group and all behind it
          refine unit (Nat.dvd_trans ?_ divides)
          calc x * (us₂ ++ xs).prod ∣ us₁.prod * (x * (us₂ ++ xs).prod) := Nat.dvd_mul_left _ _
            _ = (view.drop a).prod := by
              rw [hy, ← (Grouped.cons tight rest).prod_eq]
              simp
            _ ∣ (view.drop k).prod := (drop_sublist_drop_left view (by omega)).prod_dvd_prod
        · -- the stride axis is in this group, so `d` is its last axis
          have before : k < a + vs.length := by grind
          obtain rfl : us₂ = [] := by
            rw [any_range'.2 ⟨k, rfl, by omega, before⟩] at clear
            simpa using clear
          obtain ⟨vs₁, v, vs₂, rfl, place'⟩ := exists_cut (l := vs) (k := k - a) (by omega)
          obtain rfl : k = a + vs₁.length := by omega
          have one : (v :: vs₂).prod = 1 := by
            rw [drop_append (u := vs₁) (x := v :: vs₂ ++ ys) (by simpa using hy), prod_append,
              ← rest.prod_eq] at divides
            exact unit divides
          generalize hu : us₁ ++ [x] = us at tight
          generalize hv : vs₁ ++ v :: vs₂ = vs at tight
          cases tight with
          | seenOne => simp at hv
          | storedOne => simp at hu
          | pair n =>
            obtain ⟨-, rfl⟩ : us₁ = [] ∧ x = n := by simpa [append_eq_singleton_iff] using hu
            obtain ⟨-, rfl, rfl⟩ : vs₁ = [] ∧ v = x ∧
              vs₂ = [] := by simpa [append_eq_singleton_iff] using hv
            simpa using one
          | mixed _ _ _ last _ =>
            -- the last of its stored axes is larger than 1
            have front : (v :: vs₂).dropLast.prod = 1 :=
              Nat.dvd_one.1 (one ▸ (dropLast_sublist _).prod_dvd_prod)
            rw [← hv, dropLast_append_of_ne_nil (by simp), prod_append, prod_append, one,
              front] at last
            omega
    · next absent =>
      have beyond : o + us.length ≤ d := by grind
      exact ih (drop_append hx) (drop_append hy) beyond run

end Groups

/-! ## Steps and rows -/

section Rows

variable {s c w n : Nat}

theorem same_row (pos : 0 < c) (divides : s * c ∣ w) (room : n % (s * c) / c + 1 < s) :
    (n + c) / w = n / w := by
  have two : 1 < s := Nat.lt_of_le_of_lt (Nat.le_add_left 1 _) room
  have below : n % (s * c) + c < s * c := by
    have : n % (s * c) < (s - 1) * c := (Nat.div_lt_iff_lt_mul pos).1 (Nat.lt_sub_of_add_lt room)
    have split : (s - 1) * c + c = s * c := by
      rw [← Nat.succ_mul]
      congr 1
      omega
    omega
  have block : (n + c) / (s * c) = n / (s * c) := by
    have positive : 0 < s * c := by omega
    have split := Nat.div_add_mod n (s * c)
    have : n + c = s * c * (n / (s * c)) + (n % (s * c) + c) := by omega
    rw [this, Nat.mul_add_div positive, Nat.div_eq_of_lt below, Nat.add_zero]
  obtain ⟨m, rfl⟩ := divides
  rw [← Nat.div_div_eq_div_mul (n + c), ← Nat.div_div_eq_div_mul n, block]

theorem exists_crossing (pos : 0 < c) (two : 1 < s) (apart : ¬ s * c ∣ w) :
    ∃ n < w, n % (s * c) / c + 1 < s ∧ w ≤ n + c := by
  have positive : 0 < s * c := Nat.mul_pos (by omega) pos
  have part : 0 < w % (s * c) := Nat.pos_of_ne_zero fun zero => apart (Nat.dvd_of_mod_eq_zero zero)
  have below := Nat.mod_lt w positive
  have split := Nat.div_add_mod w (s * c)
  have back : ∀ k ≤ w % (s * c), (w - k) % (s * c) = w % (s * c) - k := by
    intro k hk
    have : w - k = s * c * (w / (s * c)) + (w % (s * c) - k) := by omega
    rw [this, Nat.mul_add_mod, Nat.mod_eq_of_lt (by omega)]
  have wide : (s - 1) * c + c = s * c := by
    rw [← Nat.succ_mul]
    congr 1
    omega
  by_cases room : (w % (s * c) - 1) / c + 1 < s
  · exact ⟨w - 1, by omega, by rwa [back 1 (by omega)], by omega⟩
  · -- the row ends in the last part of a block, so the step that ends there starts before it
    have late : (s - 1) * c ≤ w % (s * c) - 1 := (Nat.le_div_iff_mul_le pos).1 (by omega)
    have wider : c ≤ (s - 1) * c := Nat.le_mul_of_pos_left _ (by omega)
    refine ⟨w - c, by omega, ?_, by omega⟩
    rw [back c (by omega)]
    have : (w % (s * c) - c) / c < s - 1 := (Nat.div_lt_iff_lt_mul pos).2 (by omega)
    omega

end Rows

/-! ## Accessors -/

def reshapes (look : DimTable) (a : Accessor) (views : List (List DimId)) : Accessor :=
  views.foldl (fun a v => (a.reshape look v).1) a

/-- An accessor of a shape whose elements are stored with another one. -/
structure Views (look : DimTable) (shape view : List DimId) (a : Accessor) : Prop where
  seen : a.seenShape = shape
  stored : a.storedShape.getD a.seenShape = view
  free : a.strideDim = none
  groups : ∀ gs, a.groups = some gs → Grouped (sizes look shape) (sizes look view) 0 0 gs

theorem views_ofShape (look : DimTable) (shape : List DimId) :
    Views look shape shape (ofShape shape) := by
  refine ⟨rfl, rfl, rfl, fun gs h => ?_⟩
  cases h
  grind [grouped_trivial, sizes, length_sizes]

theorem sameDynamic_fixed {as bs : List DimId} (ha : Fixed look as) (hb : Fixed look bs) :
    sameDynamic look as bs = true := by
  have none : ∀ {ds : List DimId}, Fixed look ds → ((ds.map look).filter fun d => !d.isStatic) =
    [] := by
    intro ds fixed
    refine filter_eq_nil_iff.2 fun d hd => ?_
    obtain ⟨i, hi, rfl⟩ := mem_map.1 hd
    obtain ⟨n, sized⟩ := fixed i hi
    simp [sized.1]
  unfold sameDynamic
  simp only [none ha, none hb]
  rfl

section Fixed

variable {look : DimTable} {shape : List DimId} (fixed : Fixed look shape)
  (pos : ∀ n ∈ sizes look shape, 0 < n)
include fixed pos

theorem Views.reshape {view view' : List DimId} (h : Views look shape view a)
    (fixed' : Fixed look view') (pos' : ∀ n ∈ sizes look view', 0 < n) :
    Views look shape view' (a.reshape look view').1 := by
  unfold Accessor.reshape
  rw [if_neg (by simp [h.free])]
  rw [h.seen, if_pos (sameDynamic_fixed fixed fixed')]
  exact ⟨rfl, rfl, h.free, fun gs run => groupAxes?_grouped run (fixed.sized pos)
    (fixed'.sized pos')⟩

theorem Views.reshapes {views : List (List DimId)} (fixed' : ∀ v ∈ views, Fixed look v)
    (pos' : ∀ v ∈ views, ∀ n ∈ sizes look v, 0 < n) {view : List DimId}
    (h : Views look shape view a) :
    Views look shape (views.getLastD view) (a.reshapes look views) := by
  induction views generalizing a view with
  | nil => exact h
  | cons v views ih =>
    have first := h.reshape fixed pos (fixed' v mem_cons_self) (pos' v mem_cons_self)
    have rest := ih (fun v hv => fixed' v (mem_cons_of_mem _ hv))
      (fun v hv => pos' v (mem_cons_of_mem _ hv)) first
    rw [getLastD_cons]
    exact rest

end Fixed

def width (look : DimTable) (base : List DimId) (dim : Int) : Int :=
  ((base.fromIdx (dim + 1)).map fun d => (look d).value).prod

def SameFixed (look : DimTable) (x y : DimId) : Prop :=
  (look x).isStatic = true ∧ (look y).isStatic = true ∧ (look x).values = (look y).values

theorem spanAfter_ok {xs ys : List DimId} (length : xs.length = ys.length)
    (run : spanAfter look xs ys a = (b, none)) :
    Forall₂ (SameFixed look) xs ys ∧ b = { a with
      seenTotal := a.seenTotal.map (· * (ys.map fun d => (look d).value).prod)
      storedTotal := a.storedTotal.map (· * (ys.map fun d => (look d).value).prod)
      offset := a.offset * (ys.map fun d => (look d).value).prod } := by
  induction xs generalizing ys a with
  | nil =>
    obtain rfl := length_eq_zero_iff.1 length.symm
    obtain ⟨rfl, -⟩ := Prod.mk.inj run
    simp_all
  | cons x xs ih =>
    cases ys with
    | nil => cases length
    | cons y ys =>
      unfold spanAfter at run
      split at run
      · cases run
      next fixed =>
      split at run
      · cases run
      next same =>
      obtain ⟨rest, rfl⟩ := ih (by simpa using length) run
      have fixed : (look x).isStatic = true ∧ (look y).isStatic = true := by simpa using fixed
      refine ⟨.cons ⟨fixed.1, fixed.2, by simpa using same⟩ rest, ?_⟩
      simp only [Option.map_map, Function.comp_def, map_cons, prod_cons, Int.mul_assoc]

theorem rebase_eq {base : List DimId} {offset : Int}
    (run : a.rebase look base sd offset = (b, none)) :
    base.length = (a.storedShape.getD a.seenShape).length ∧
      ∃ x y, (a.storedShape.getD a.seenShape).at? sd = some x ∧ base.at? sd = some y ∧
        (look x).isStatic = true ∧ (look y).isStatic = true ∧
        Forall₂ (SameFixed look) ((a.storedShape.getD a.seenShape).fromIdx (sd + 1))
          (base.fromIdx (sd + 1)) ∧
        b = noteParts { a with
          storedShape := some base
          strideDim := some sd
          seenTotal := some ((look x).value * width look base sd)
          storedTotal := some ((look y).value * width look base sd)
          offset := offset * width look base sd } sd := by
  unfold rebase at run
  split at run
  · cases run
  dsimp only at run
  split at run
  · cases run
  next length =>
  have length : base.length = (a.storedShape.getD a.seenShape).length := by simpa using length
  split at run
  · cases run
  split at run
  · next x y hx hy =>
    split at run
    · cases run
    next fixed =>
    split at run
    · cases run
    next a' after =>
    have fixed : (look x).isStatic = true ∧ (look y).isStatic = true := by simpa using fixed
    obtain ⟨behind, rfl⟩ := spanAfter_ok (by simp [fromIdx, clipIdx, length]) after
    cases run
    exact ⟨length, x, y, hx, hy, fixed.1, fixed.2, behind, rfl⟩
  · cases run

theorem noteParts_keeps (a : Accessor) (sd : Int) :
    (a.noteParts sd).seenShape = a.seenShape ∧ (a.noteParts sd).storedShape = a.storedShape ∧
      (a.noteParts sd).strideDim = a.strideDim ∧ (a.noteParts sd).groups = a.groups ∧
        (a.noteParts sd).offset = a.offset := by
  unfold noteParts
  grind

theorem rebase_ok {base : List DimId} {offset : Int}
    (run : a.rebase look base sd offset = (b, none)) :
    b.seenShape = a.seenShape ∧ b.storedShape = some base ∧ b.strideDim = some sd ∧
    b.groups = a.groups ∧
      base.length = (a.storedShape.getD a.seenShape).length ∧
      ((a.storedShape.getD a.seenShape).at? sd).isSome := by
  obtain ⟨length, x, y, hx, -, -, -, -, rfl⟩ := rebase_eq run
  exact ⟨(noteParts_keeps _ sd).1, (noteParts_keeps _ sd).2.1, (noteParts_keeps _ sd).2.2.1,
    (noteParts_keeps _ sd).2.2.2.1, length, by simp [hx]⟩

theorem strides?_strided {dim : Int} (strided : a.strideDim = some sd) :
    strides? look a dim none = if (a.seenShape.length : Int) ≤ dim then
      .error (.beyondRank dim a.seenShape.length) else match a.groups with
      | none => .ok none
      | some gs => stridesFrom? look none a sd dim false gs := by
  unfold strides?
  simp only [strided]
  by_cases h : (a.seenShape.length : Int) ≤ dim
  · rfl
  · rfl

theorem stride?_ok {dim s : Int} (strided : a.strideDim = some sd)
    (run : a.stride? look dim = .ok s) :
    ∃ gs fs, a.groups = some gs ∧ stridesFrom? look none a sd dim false gs = .ok (some fs) ∧
      fs.foldlM (fun (n : Int) f =>
        match f with
        | none => throw .badType
        | some t =>
          match t.toInt? with
          | some k => pure (n * k)
          | none => throw .badNumber) 1 = (.ok s : Except Fault Int) := by
  unfold stride? at run
  split at run
  · cases run
  · rw [strides?_strided strided] at run
    split at run
    · cases run
    · cases groups : a.groups with
      | none => rw [groups] at run; cases run
      | some gs =>
        rw [groups] at run
        cases steps : stridesFrom? look none a sd dim false gs with
        | error e => simp only [steps] at run; cases run
        | ok found =>
          simp only [steps] at run
          cases found with
          | none => cases run
          | some fs => exact ⟨gs, fs, rfl, steps, run⟩

/-! ## Strides and addresses -/

open RowMajor

theorem split_axis {view base : List Nat} (length : base.length = view.length)
    (hk : k < view.length) (others : ∀ i, i ≠ k → base[i]? = view[i]?) :
    ∃ front back, front.length = k ∧ view = front ++ view.getD k 0 :: back ∧ base = front ++
    base.getD k 0 :: back := by
  have cut : ∀ {l : List Nat}, k < l.length → l = l.take k ++ l.getD k 0 :: l.drop (k + 1) :=
    fun hl => by
    rw [← drop_eq_cons hl, take_append_drop]
  have front : base.take k = view.take k := by
    refine ext_getElem? fun i => ?_
    grind
  have back : base.drop (k + 1) = view.drop (k + 1) := by
    refine ext_getElem? fun i => ?_
    grind
  grind

theorem rowAddress_step_iff {s c w w' N : Nat} (two : 1 < s) (pos : 0 < c) (wpos : 0 < w)
    (wider : w ≤ w') (whole : w ≤ N) :
    (∀ n < N, n % (s * c) / c + 1 < s → (rowAddress w w' (n + c) : Int) - rowAddress w w' n = c) ↔
      w = w' ∨ s * c ∣ w := by
  constructor
  · intro moves
    by_contra apart
    rw [not_or] at apart
    obtain ⟨n, below, room, crossed⟩ := exists_crossing pos two apart.2
    have moved := moves n (by omega) room
    rw [rowAddress_add, ← Nat.cast_add, ← Int.natCast_div, ← Int.natCast_div,
      Nat.div_eq_of_lt below] at moved
    have rows : 1 ≤ (n + c) / w := (Nat.one_le_div_iff wpos).2 crossed
    have gap : (0 : Int) < (((n + c) / w : Nat) : Int) * ((w' : Int) - w) :=
      mul_pos (by omega) (by omega)
    push_cast at moved gap
    linarith
  · rintro (rfl | divides) n - room
    · rw [rowAddress_add]
      ring
    · rw [rowAddress_add, ← Nat.cast_add, ← Int.natCast_div, ← Int.natCast_div,
        same_row pos divides room]
      ring

theorem rowAddress_rows {w : Nat} (wpos : 0 < w) (w' n q : Nat) :
    (rowAddress w w' (n + w * q) : Int) - rowAddress w w' n = (q * w' : Nat) := by
  have rows : (n + w * q) / w = n / w + q := Nat.add_mul_div_left n q wpos
  rw [rowAddress_add, ← Nat.cast_add, ← Int.natCast_div, rows]
  push_cast
  ring

theorem inShape_modify {ss is : List Nat} (h : InShape ss is)
    (room : is.getD d 0 + 1 < ss.getD d 0) :
    InShape ss (is.modify d (· + 1)) := by
  induction h generalizing d with
  | nil => simp at room
  | @cons i s is ss hi rest ih =>
    cases d with
    | zero => exact .cons (by simpa using room) rest
    | succ d => exact .cons hi (ih (by simpa using room))

theorem address_moves_iff {seen back : List Nat} {a b offset : Nat} {s : Int} (hd : d < seen.length)
    (same : (front ++ a :: back).prod = seen.prod) :
    (∀ is, InShape seen is → is.getD d 0 + 1 < seen.getD d 0 →
      (address seen (front ++ a :: back) (front ++ b :: back) front.length offset
        (is.modify d (· + 1)) : Int) - address seen (front ++ a :: back) (front ++ b :: back)
        front.length offset is = s) ↔
      ∀ n < seen.prod, n % (seen.drop d).prod / (seen.drop (d + 1)).prod + 1 < seen.getD d 0 →
        (rowAddress (a * back.prod) (b * back.prod) (n + (seen.drop (d + 1)).prod) : Int) -
          rowAddress (a * back.prod) (b * back.prod) n = s := by
  rw [← forall_index_iff hd fun n =>
    (rowAddress (a * back.prod) (b * back.prod) (n + (seen.drop (d + 1)).prod) : Int) -
    rowAddress (a * back.prod) (b * back.prod) n = s]
  refine forall_congr' fun is => forall_congr' fun inside => forall_congr' fun room => ?_
  have below := flat_lt inside
  have below' := flat_lt (inShape_modify inside room)
  rw [← same] at below below'
  rw [address_eq below, address_eq below', flat_modify inside.length_eq hd]
  push_cast
  rw [add_sub_add_right_eq_sub]

theorem clipIdx_lt {α : Type} {xs : List α} {i : Int} (h : (xs.at? i).isSome) :
    xs.clipIdx i < xs.length := by
  unfold at? at h
  unfold clipIdx
  grind

theorem factors_move_iff {seen view stored : List Nat} {offset p : Nat} {forward : Prop}
    (pos : ∀ n ∈ seen, 0 < n) (two : 1 < seen.getD d 0) (below : d < seen.length)
    (inside : k < view.length) (rank : stored.length = view.length)
    (others : ∀ i, i ≠ k → stored[i]? = view[i]?) (total : view.prod = seen.prod)
    (wider : view.getD k 0 ≤ stored.getD k 0) (factors : p = (seen.drop (d + 1)).prod ∧
    ¬ (forward ∧ (view.drop k).prod ∣ (seen.drop (d + 1)).prod) ∨
      forward ∧ p * view.getD k 0 = (seen.drop (d + 1)).prod * stored.getD k 0 ∧
        (view.drop k).prod ∣ (seen.drop (d + 1)).prod) :
    (∀ is, InShape seen is → is.getD d 0 + 1 < seen.getD d 0 →
      (address seen view stored k offset (is.modify d (· + 1)) : Int) -
        address seen view stored k offset is = p) ↔
      view.getD k 0 = stored.getD k 0 ∨ (seen.drop d).prod ∣ (view.drop k).prod ∨
        forward ∧ (view.drop k).prod ∣ (seen.drop (d + 1)).prod := by
  obtain ⟨front, back, rfl, hv, hb⟩ := split_axis rank inside others
  generalize view.getD front.length 0 = a at *
  generalize stored.getD front.length 0 = a' at *
  subst hv hb
  have Npos : 0 < seen.prod := prod_pos pos
  have row : ((front ++ a :: back).drop front.length).prod = a * back.prod := by
    rw [drop_left, prod_cons]
  have headed : (seen.drop d).prod = seen.getD d 0 * (seen.drop (d + 1)).prod := by
    rw [drop_eq_cons below, prod_cons]
  have cpos : 0 < (seen.drop (d + 1)).prod := prod_pos fun n hn => pos n (mem_of_mem_drop hn)
  rw [prod_append, prod_cons] at total
  have wpos : 0 < a * back.prod := Nat.pos_of_ne_zero fun h => by rw [h] at total; omega
  have apos : 0 < a := Nat.pos_of_mul_pos_right wpos
  have backPos : 0 < back.prod := Nat.pos_of_mul_pos_left wpos
  rw [address_moves_iff below (by rw [prod_append, prod_cons, total]), row, headed]
  rw [row] at factors
  have whole : a * back.prod ≤ seen.prod :=
    Nat.le_of_dvd Npos ⟨front.prod, by rw [← total, Nat.mul_comm]⟩
  generalize seen.getD d 0 = size at *
  generalize (seen.drop (d + 1)).prod = c at *
  obtain ⟨hprod, hrows⟩ | ⟨hforward, hprod, q, rfl⟩ := factors
  · rw [hprod, rowAddress_step_iff two cpos wpos (Nat.mul_le_mul_right _ wider) whole,
      Nat.mul_left_inj backPos.ne']
    simp only [hrows, or_false]
  · -- a step spans `q` rows
    have moved : p = q * (a' * back.prod) := by
      refine Nat.eq_of_mul_eq_mul_right apos ?_
      rw [hprod]
      ring
    grind [Nat.dvd_mul_right, rowAddress_rows]

/-- What holds of a shape and of all its views holds of the last view. -/
theorem getLastD_of_forall {P : List DimId → Prop} {shape : List DimId} {views : List (List DimId)}
    (first : P shape) (all : ∀ v ∈ views, P v) : P (views.getLastD shape) := by
  cases views using reverseRec with
  | nil => exact first
  | append_singleton vs v _ =>
    rw [getLastD_concat]
    exact all v (by simp)

/-- **When a stride is the distance of neighbours.**  The elements of `shape` are stored with other
shapes of as many elements, the last of which has become a part of `base` along the axis `k`, and
`stride?` finds the stride `s` of the axis `d`.  Then `s` is the distance in `base` of any two
neighbours along `d` exactly if there is no gap to cross (`base` is no larger, or no two elements
are neighbours), or the elements along `d` lie within one row of the axis `k`, or the axis is not
counted from the end and a step along `d` spans whole rows. -/
theorem stride_moves_iff {look : DimTable} {shape base : List DimId} {views : List (List DimId)}
    {sd offset : Int} {b : Accessor} {d k : Nat} {s : Int} {seen view stored : List Nat}
    (fixed : ∀ v ∈ shape :: base :: views, Fixed look v) (hseen : sizes look shape = seen)
    (hview : sizes look (views.getLastD shape) = view) (hstored : sizes look base = stored)
    (same : ∀ v ∈ views, (sizes look v).prod = seen.prod)
    (hk : (views.getLastD shape).clipIdx sd = k)
    (rebased : ((ofShape shape).reshapes look views).rebase look base sd offset = (b, none))
    (others : ∀ i, i ≠ k → stored[i]? = view[i]?) (start : 0 ≤ offset)
    (room : offset + view.getD k 0 ≤ stored.getD k 0) (hd : d < shape.length)
    (hs : b.stride? look d = .ok s) :
    (∀ is, InShape seen is → is.getD d 0 + 1 < seen.getD d 0 →
      (address seen view stored k offset.toNat (is.modify d (· + 1)) : Int) -
        address seen view stored k offset.toNat is = s) ↔
      0 ∈ seen ∨ seen.getD d 0 ≤ 1 ∨ view.getD k 0 = stored.getD k 0 ∨ (seen.drop d).prod ∣
        (view.drop k).prod ∨ 0 ≤ sd ∧ (view.drop k).prod ∣ (seen.drop (d + 1)).prod := by
  by_cases zero : 0 ∈ seen
  · refine ⟨fun _ => .inl zero, fun _ is inShape => ?_⟩
    have := flat_lt inShape
    rw [prod_eq_zero zero] at this
    omega
  by_cases one : seen.getD d 0 ≤ 1
  · exact ⟨fun _ => .inr (.inl one), fun _ is _ _ => by omega⟩
  have pos : ∀ n ∈ seen, 0 < n := fun n hn => Nat.pos_of_ne_zero fun h => zero (h ▸ hn)
  have Npos : 0 < seen.prod := prod_pos pos
  have posViews : ∀ v ∈ views, ∀ n ∈ sizes look v, 0 < n := fun v hv n hn =>
    Nat.pos_of_ne_zero fun h => Npos.ne' ((same v hv).symm.trans (prod_eq_zero (h ▸ hn)))
  have fixedShape : Fixed look shape := fixed shape mem_cons_self
  have viewed := (views_ofShape look shape).reshapes fixedShape (hseen ▸ pos)
    (fun v hv => fixed v (mem_cons_of_mem _ (mem_cons_of_mem _ hv))) posViews
  obtain ⟨hseenShape, hstoredShape, hsd, hgroups, length, axis⟩ := rebase_ok rebased
  rw [viewed.seen] at hseenShape
  rw [viewed.stored] at length axis
  have rank : stored.length = view.length := by rw [← hstored, ← hview, length_sizes,
    length_sizes, length]
  have inside : k < view.length := by rw [← hk, ← hview, length_sizes]; exact clipIdx_lt axis
  have below : d < seen.length := by rwa [← hseen, length_sizes]
  have total : view.prod = seen.prod :=
    hview ▸ getLastD_of_forall (P := fun v => (sizes look v).prod = seen.prod) (hseen ▸ rfl) same
  have axisOf : ∀ j : Nat, sd = j → j = k := by
    rintro j rfl
    rw [← hk, clipIdx, if_neg (by omega), Int.toNat_natCast]
  obtain ⟨gs, fs, hgs, steps, product⟩ := stride?_ok hsd hs
  obtain ⟨ns, rfl, found⟩ := firstFactors (hseenShape ▸ fixedShape)
    (hstoredShape ▸ fixed base (mem_cons_of_mem _ mem_cons_self)) (hseenShape ▸ hseen)
      (hstoredShape ▸ hstored) rank
    (fun j hj i hi => others i (axisOf j hj ▸ hi)) pos
      (hseen ▸ hview ▸ viewed.groups gs (hgroups ▸ hgs))
    drop_zero drop_zero (Nat.zero_le d) below steps
  rw [product_eq, one_mul, Except.ok.injEq] at product
  subst product
  have factors : ns.prod = (seen.drop (d + 1)).prod ∧
    ¬ (0 ≤ sd ∧ (view.drop k).prod ∣ (seen.drop (d + 1)).prod) ∨
      0 ≤ sd ∧ ns.prod * view.getD k 0 = (seen.drop (d + 1)).prod * stored.getD k 0 ∧
        (view.drop k).prod ∣ (seen.drop (d + 1)).prod := by
    obtain ⟨hprod, hrows⟩ | ⟨j, hj, -, hprod, hrows⟩ := found
    · refine .inl ⟨hprod, fun ⟨forward, divides⟩ => one (hrows k ?_ inside divides).le⟩
      rw [← axisOf sd.toNat (by omega)]
      omega
    · obtain rfl := axisOf j hj
      exact .inr ⟨by omega, hprod, hrows⟩
  rw [factors_move_iff pos (by omega) below inside rank others total (by omega) factors]
  simp only [zero, one, false_or]

theorem fixed_static (v : List DimId) : Fixed (fun d => .static d.idx) v :=
  fun d _ => ⟨d.idx, rfl, rfl⟩

theorem rebase_rows : ((ofShape [⟨2⟩, ⟨6⟩]).reshapes (fun d => .static d.idx)
    [[⟨2⟩, ⟨2⟩, ⟨3⟩]]).rebase (fun d => .static d.idx) [⟨2⟩, ⟨4⟩, ⟨3⟩] 1 1 =
    (⟨3, [⟨2⟩, ⟨6⟩], false, true, some 1, some [⟨2⟩, ⟨4⟩, ⟨3⟩], some 6, some 12,
      some [([0], [0]), ([1], [1, 2])]⟩, none) := by cbv

/-- A part of the second axis: rows of 6 elements lie 12 apart, and the step from row to row is
found.  A part of the last axis of a matrix that is seen as one row of 6: the elements lie by
threes, 5 apart, but each step is said to be 1. -/
theorem stride_moves_iff_parts :
    (∃ b, ((ofShape [⟨2⟩, ⟨6⟩]).reshapes (fun d => .static d.idx) [[⟨2⟩, ⟨2⟩, ⟨3⟩]]).rebase
        (fun d => .static d.idx) [⟨2⟩, ⟨4⟩, ⟨3⟩] 1 1 = (b, none) ∧
      b.stride? (fun d => .static d.idx) 0 = .ok 12 ∧
      ∀ is, InShape [2, 6] is → is.getD 0 0 + 1 < 2 →
        (address [2, 6] [2, 2, 3] [2, 4, 3] 1 1 (is.modify 0 (· + 1)) : Int) -
          address [2, 6] [2, 2, 3] [2, 4, 3] 1 1 is = 12) ∧
      ∃ b, ((ofShape [⟨6⟩]).reshapes (fun d => .static d.idx) [[⟨2⟩, ⟨3⟩]]).rebase
        (fun d => .static d.idx) [⟨2⟩, ⟨5⟩] 1 0 = (b, none) ∧
      b.stride? (fun d => .static d.idx) 0 = .ok 1 ∧
      ¬ ∀ is, InShape [6] is → is.getD 0 0 + 1 < 6 →
        (address [6] [2, 3] [2, 5] 1 0 (is.modify 0 (· + 1)) : Int) -
          address [6] [2, 3] [2, 5] 1 0 is = 1 := by
  constructor
  · have found : stride? (fun d => .static d.idx)
      ⟨3, [⟨2⟩, ⟨6⟩], false, true, some 1, some [⟨2⟩, ⟨4⟩, ⟨3⟩], some 6, some 12,
          some [([0], [0]), ([1], [1, 2])]⟩ 0 = .ok 12 := by cbv
    refine ⟨_, rebase_rows, found, ?_⟩
    refine (stride_moves_iff (fun v _ => fixed_static v) rfl rfl rfl (by decide) rfl rebase_rows ?_
      (by decide) (by decide) (by decide) found).2 (by decide)
    intro i hi
    rcases i with _ | _ | _ | i
    · rfl
    · contradiction
    · rfl
    · rfl
  · have rebased : ((ofShape [⟨6⟩]).reshapes (fun d => .static d.idx) [[⟨2⟩, ⟨3⟩]]).rebase
        (fun d => .static d.idx) [⟨2⟩, ⟨5⟩] 1 0 =
      (⟨0, [⟨6⟩], false, true, some 1, some [⟨2⟩, ⟨5⟩], some 3, some 5, some [([0], [0, 1])]⟩,
        none) := by cbv
    have found : stride? (fun d => .static d.idx)
      ⟨0, [⟨6⟩], false, true, some 1, some [⟨2⟩, ⟨5⟩], some 3, some 5,
          some [([0], [0, 1])]⟩ 0 = .ok 1 := by cbv
    refine ⟨_, rebased, found, fun moves => ?_⟩
    refine absurd ((stride_moves_iff (fun v _ => fixed_static v) rfl rfl rfl (by decide) rfl rebased
      ?_ (by decide) (by decide) (by decide) found).1 moves) (by decide)
    intro i hi
    rcases i with _ | _ | i
    · rfl
    · contradiction
    · rfl

end Accessor

end TensorGraph

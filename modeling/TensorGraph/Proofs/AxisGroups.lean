import Mathlib.Algebra.BigOperators.Group.List.Basic
import Mathlib.Algebra.Order.BigOperators.Group.List
import TensorGraph.Accessor

/-!
# Groups of axes

`groupAxes?` cuts two shapes of the same elements into groups of consecutive axes.
-/

namespace TensorGraph

open List

def Dim.Sized (d : Dim) (n : Nat) : Prop := d.isStatic = true ∧ d.values = [(n : Int)]

namespace Dim.Sized

variable {d : Dim} {n : Nat}

theorem value (h : d.Sized n) : d.value = n := by
  unfold Dim.value
  rw [h.2]
  rfl

theorem isFixed_one (h : d.Sized n) : d.isFixed 1 = true ↔ n = 1 := by
  unfold Dim.isFixed
  rw [h.1, h.2]
  grind

end Dim.Sized

def Dim.size (d : Dim) : Nat := d.value.toNat

theorem Dim.size_of_isFixed {d : Dim} (h : d.isFixed 1 = true) : d.isStatic = true ∧
    d.size = 1 := by
  simp only [isFixed, Bool.and_eq_true, beq_iff_eq] at h
  exact ⟨h.1, by simp [size, value, h.2]⟩

theorem Dim.size_of_same {x y : Dim} (h : x.same y = true) : x.size = y.size := by
  simp only [same, Bool.and_eq_true, beq_iff_eq] at h
  rw [size, value, h.1.2, size, value]

namespace Accessor

variable {gs : List AxisGroup} {e : Nat}

/-- Sizes of a group of seen axes and of the group of stored axes that span the same elements: one
of them a single axis of size 1 and the other one empty, two single axes, or two groups that cannot
be cut further. -/
inductive Tight : List Nat → List Nat → Prop
  | seenOne : Tight [1] []
  | storedOne : Tight [] [1]
  | pair (n : Nat) : Tight [n] [n]
  | mixed {us vs : List Nat} (seen : us ≠ []) (stored : vs ≠ []) (same : us.prod = vs.prod)
      (last : vs.dropLast.prod < vs.prod) (front : us.dropLast.prod ≠ vs.dropLast.prod) :
        Tight us vs

theorem Tight.prod_eq {us vs : List Nat} (h : Tight us vs) : us.prod = vs.prod := by
  cases h with
  | seenOne => rfl
  | storedOne => rfl
  | pair => rfl
  | mixed _ _ same => exact same

/-- Groups of axes that cut shapes of the given sizes, of which the first axes have the given
numbers. -/
inductive Grouped : List Nat → List Nat → Nat → Nat → List AxisGroup → Prop
  | nil {o a} : Grouped [] [] o a []
  | cons {us vs xs ys o a gs} (tight : Tight us vs)
    (rest : Grouped xs ys (o + us.length) (a + vs.length) gs) :
      Grouped (us ++ xs) (vs ++ ys) o a ((range' o us.length, range' a vs.length) :: gs)

variable {us vs xs ys : List Nat} {a m n o : Nat} {p q : Int}

theorem Grouped.prod_eq (h : Grouped xs ys o a gs) : xs.prod = ys.prod := by
  induction h with
  | nil => rfl
  | cons tight _ ih => rw [prod_append, prod_append, tight.prod_eq, ih]

theorem grouped_single (xs : List Nat) (o : Nat) :
    Grouped xs xs o o ((range' o xs.length).map fun i => ([i], [i])) := by
  induction xs generalizing o with
  | nil => exact .nil
  | cons x xs ih => exact .cons (.pair x) (ih (o + 1))

theorem grouped_trivial (xs : List Nat) : Grouped xs xs 0 0 (trivialGroups xs.length) := by
  unfold trivialGroups
  rw [range_eq_range']
  exact grouped_single xs 0

def Alike (us vs : List Dim) : Prop := (∀ d ∈ us ++ vs, d.isStatic = true) ∨ ∃ x y, us = [x] ∧
    vs = [y] ∧ x.same y = true

/-- Groups of axes that cut shapes of the given dimensions, of which the first axes have the given
numbers. -/
inductive Cut : List Dim → List Dim → Nat → Nat → List AxisGroup → Prop
  | nil {o a : Nat} : Cut [] [] o a []
  | cons {us vs os as : List Dim} {o a : Nat} {gs : List AxisGroup}
    (tight : Tight (us.map Dim.size) (vs.map Dim.size)) (alike : Alike us vs)
      (rest : Cut os as (o + us.length) (a + vs.length) gs) :
      Cut (us ++ os) (vs ++ as) o a ((range' o us.length, range' a vs.length) :: gs)

theorem Cut.grouped {os as : List Dim} (h : Cut os as o a gs) :
    Grouped (os.map Dim.size) (as.map Dim.size) o a gs := by
  induction h with
  | nil => exact .nil
  | cons tight _ _ ih => simpa using Grouped.cons tight (by simpa using ih)

/-! ## The walk along both shapes -/

/-- A walk with open groups of sizes `us` and `vs`: none, or two that span different numbers of
elements, each of which was behind before its last axis. -/
structure Open (o a : Walk) (us vs : List Nat) : Prop where
  seenNext : o.next = o.start + us.length
  storedNext : a.next = a.start + vs.length
  spans : us = [] ∧ vs = [] ∧ o.span = none ∧ a.span = none ∨
    us ≠ [] ∧ vs ≠ [] ∧ o.span = some (us.prod : Int) ∧ a.span = some (vs.prod : Int) ∧
      us.prod ≠ vs.prod ∧
      us.dropLast.prod < vs.prod ∧ vs.dropLast.prod < us.prod

namespace Open

variable {o a : Walk} {us vs : List Nat}

theorem start (o a : Nat) : Open ⟨o, o, none⟩ ⟨a, a, none⟩ [] [] :=
  ⟨rfl, rfl, Or.inl ⟨rfl, rfl, rfl, rfl⟩⟩

theorem none (h : Open o a us vs) (closed : o.span = Option.none ∨ a.span = Option.none) :
    us = [] ∧ vs = [] ∧ o.span = Option.none ∧ a.span = Option.none := by
  rcases h.spans with h | ⟨-, -, ho, ha, -⟩
  · exact h
  · rw [ho, ha] at closed
    simp at closed

theorem some (h : Open o a us vs) (seen : o.span = Option.some p)
    (stored : a.span = Option.some q) :
    p = us.prod ∧ q = vs.prod ∧ us ≠ [] ∧ vs ≠ [] ∧ us.prod ≠ vs.prod ∧ us.dropLast.prod < vs.prod ∧
      vs.dropLast.prod < us.prod := by
  rcases h.spans with ⟨-, -, ho, -⟩ | ⟨hu, hv, ho, ha, rest⟩
  · rw [ho] at seen
    cases seen
  · grind

theorem seenAxes (h : Open o a us vs) (n : Nat) : o.axes n = range' o.start (us.length + n) := by
  unfold Walk.axes
  rw [h.seenNext]
  congr 1
  omega

theorem storedAxes (h : Open o a us vs) (n : Nat) : a.axes n = range' a.start (vs.length + n) := by
  unfold Walk.axes
  rw [h.storedNext]
  congr 1
  omega

end Open

section Walk

theorem Walk.idle {w : Walk} (next : w.next = w.start) (closed : w.span = none) : w.close 0 = w ∧
    w.axes 0 = [] := by
  cases w
  cases next
  cases closed
  exact ⟨rfl, by simp [Walk.axes]⟩

theorem cut_behind {us vs us' vs' os as : List Dim} {o a : Walk} {acc r : List AxisGroup}
    (opened : Open o a (us.map Dim.size) (vs.map Dim.size)) (seen : us'.length = us.length + m)
    (stored : vs'.length = vs.length + n) (tight : Tight (us'.map Dim.size) (vs'.map Dim.size))
    (alike : Alike us' vs') (rest : ∃ gs, r = acc ++ [(o.axes m, a.axes n)] ++ gs ∧
    Cut os as (o.close m).start (a.close n).start gs) :
    ∃ gs, r = acc ++ gs ∧ Cut (us' ++ os) (vs' ++ as) o.start a.start gs := by
  obtain ⟨gs, rfl, cut⟩ := rest
  refine ⟨(o.axes m, a.axes n) :: gs, by simp, ?_⟩
  rw [opened.seenAxes, opened.storedAxes, length_map, length_map, ← seen, ← stored]
  refine .cons tight alike ?_
  have next : (o.close m).start = o.start + us'.length := by
    show o.next + m = _
    rw [opened.seenNext, length_map]
    omega
  have next' : (a.close n).start = a.start + vs'.length := by
    show a.next + n = _
    rw [opened.storedNext, length_map]
    omega
  rwa [← next, ← next']

theorem Open.begin {o a : Walk} (opened : Open o a us vs) (closed : us = [] ∧ vs = []) (ne : m ≠ n)
    (hm : 1 < m) (hn : 1 < n) :
    Open { o with next := o.next + 1, span := Option.some (m : Int) }
    { a with next := a.next + 1, span := Option.some (n : Int) }
      [m] [n] := by
  obtain ⟨rfl, rfl⟩ := closed
  have seen := opened.seenNext
  have stored := opened.storedNext
  exact ⟨by simp [seen], by simp [stored], Or.inr (by simpa using ⟨ne, hn, hm⟩)⟩

theorem Open.growSeen {o a : Walk} (opened : Open o a us vs) (seen : o.span = Option.some p)
    (stored : a.span = Option.some q) (behind : p < q) (pos : 0 < m) (ne : ¬ p * m = q) :
    Open { o with next := o.next + 1, span := Option.some (p * m) } a (us ++ [m]) vs := by
  obtain ⟨rfl, rfl, hu, hv, -, -, lower⟩ := opened.some seen stored
  have grows : us.prod ≤ us.prod * m := Nat.le_mul_of_pos_right _ pos
  refine ⟨?_, opened.storedNext, Or.inr ⟨by simp, hv, by simp, stored, ?_, ?_, ?_⟩⟩
  · show o.next + 1 = _
    rw [opened.seenNext, length_append]
    rfl
  · rw [prod_append, prod_singleton]
    exact_mod_cast ne
  · grind
  · grind

theorem Open.growStored {o a : Walk} (opened : Open o a us vs) (seen : o.span = Option.some p)
    (stored : a.span = Option.some q) (behind : q < p) (pos : 0 < n) (ne : ¬ p = q * n) :
    Open o { a with next := a.next + 1, span := Option.some (q * n) } us (vs ++ [n]) := by
  obtain ⟨rfl, rfl, hu, hv, -, upper, -⟩ := opened.some seen stored
  have grows : vs.prod ≤ vs.prod * n := Nat.le_mul_of_pos_right _ pos
  refine ⟨opened.seenNext, ?_, Or.inr ⟨hu, by simp, seen, by simp, ?_, ?_, ?_⟩⟩
  · show a.next + 1 = _
    rw [opened.storedNext, length_append]
    rfl
  · rw [prod_append, prod_singleton]
    exact_mod_cast ne
  · grind
  · grind

variable {os as u v : List Dim} {o a : Walk} {acc r : List AxisGroup}

def SizedAll : List Dim → List Nat → Prop := Forall₂ fun d n => d.Sized n ∧ 0 < n

def Proper (ds : List Dim) : Prop := ∀ d ∈ ds, d.isStatic = true → d.Sized d.size ∧ 0 < d.size

theorem Proper.tail {d : Dim} {ds : List Dim} (h : Proper (d :: ds)) : Proper ds := fun e he =>
    h e (mem_cons_of_mem _ he)

theorem Open.idle (h : Open o a (u.map Dim.size) (v.map Dim.size))
    (closed : o.span = Option.none ∨ a.span = Option.none) :
    u = [] ∧ v = [] ∧ o.span = Option.none ∧ a.span = Option.none := by
  simpa only [map_eq_nil_iff] using h.none closed

theorem groupAxesFrom?_cut (run : groupAxesFrom? os as o a acc = some r) (seen : Proper os)
    (stored : Proper as) (fixed : ∀ d ∈ u ++ v, d.isStatic = true)
    (opened : Open o a (u.map Dim.size) (v.map Dim.size)) :
    ∃ gs, r = acc ++ gs ∧ Cut (u ++ os) (v ++ as) o.start a.start gs := by
  fun_induction groupAxesFrom? os as o a acc generalizing r u v with
  | case1 o a acc x os y as one ih =>
    -- a seen axis of size 1
    obtain ⟨hx, closed⟩ : x.isFixed 1 = true ∧ o.span = none := by simpa using one
    obtain ⟨hx, size⟩ := Dim.size_of_isFixed hx
    obtain ⟨rfl, rfl, -, closed'⟩ := opened.idle (Or.inl closed)
    obtain ⟨same, empty⟩ := Walk.idle (by simpa using opened.storedNext) closed'
    have rest := ih run seen.tail stored fixed
      ⟨rfl, opened.storedNext, Or.inl ⟨rfl, rfl, rfl, closed'⟩⟩
    rw [← empty, ← congrArg Walk.start same] at rest
    have tight : Tight (map Dim.size [x]) [] := by simpa [size] using Tight.seenOne
    simpa [empty] using cut_behind (m := 1) (n := 0) opened rfl rfl tight
      (Or.inl (by simpa using hx)) rest
  | case2 o a acc x os y as _ one ih =>
    -- a stored axis of size 1
    obtain ⟨hy, closed⟩ : y.isFixed 1 = true ∧ a.span = none := by simpa using one
    obtain ⟨hy, size⟩ := Dim.size_of_isFixed hy
    obtain ⟨rfl, rfl, closed', -⟩ := opened.idle (Or.inr closed)
    obtain ⟨same, empty⟩ := Walk.idle (by simpa using opened.seenNext) closed'
    have rest := ih run seen stored.tail fixed
      ⟨opened.seenNext, rfl, Or.inl ⟨rfl, rfl, closed', rfl⟩⟩
    rw [← empty, ← congrArg Walk.start same] at rest
    have tight : Tight [] (map Dim.size [y]) := by simpa [size] using Tight.storedOne
    simpa [empty] using cut_behind (m := 0) (n := 1) opened rfl rfl tight
      (Or.inl (by simpa using hy)) rest
  | case3 o a acc x os y as _ _ _ match_ ih =>
    -- two dynamic axes
    obtain ⟨⟨same, -⟩, closed⟩ : (x.same y = true ∧ o.span = none) ∧
      a.span = none := by simpa using match_
    obtain ⟨rfl, rfl, -⟩ := opened.idle (Or.inr closed)
    have tight : Tight (map Dim.size [x]) (map Dim.size [y]) := by
      simpa [Dim.size_of_same same] using Tight.pair y.size
    simpa using cut_behind opened rfl rfl tight (Or.inr ⟨x, y, rfl, rfl, same⟩)
      (ih run seen.tail stored.tail (u := []) (v := []) (by simp) (.start _ _))
  | case4 => cases run
  | case5 o a acc x os y as _ _ static closed _ equal ih =>
    obtain ⟨hx, hy⟩ : x.isStatic = true ∧ y.isStatic = true := by simpa using static
    obtain ⟨rfl, rfl, -⟩ := opened.idle (Or.inr closed)
    have tight : Tight (map Dim.size [x]) (map Dim.size [y]) := by
      simpa [Dim.size, beq_iff_eq.1 equal] using Tight.pair y.size
    simpa using cut_behind opened rfl rfl tight (Or.inl (by simp [hx, hy]))
      (ih run seen.tail stored.tail (u := []) (v := []) (by simp) (.start _ _))
  | case6 o a acc x os y as oneX oneY static closedA closedO differ ih =>
    obtain ⟨hx, hy⟩ : x.isStatic = true ∧ y.isStatic = true := by simpa using static
    obtain ⟨rfl, rfl, -⟩ := opened.idle (Or.inr closedA)
    obtain ⟨sizedX, posX⟩ := seen x mem_cons_self hx
    obtain ⟨sizedY, posY⟩ := stored y mem_cons_self hy
    have hm : x.size ≠ 1 := by simpa [closedO, sizedX.isFixed_one] using oneX
    have hn : y.size ≠ 1 := by simpa [closedA, sizedY.isFixed_one] using oneY
    rw [sizedX.value, sizedY.value] at differ run ih
    have ne : x.size ≠ y.size := fun same => differ (by simp [same])
    exact ih run seen.tail stored.tail (u := [x]) (v := [y]) (by simp [hx, hy])
      (opened.begin ⟨rfl, rfl⟩ ne (by omega) (by omega))
  | case7 o a acc x os y as _ _ _ q open' closed | case8 o a acc x os y as _ _ _ q open' closed =>
    rw [(opened.none (Or.inl closed)).2.2.2] at open'
    cases open'
  | case9 o a acc x os y as _ _ _ p closed open' | case10 o a acc x os y as _ _ _ p closed open' =>
    rw [(opened.none (Or.inr closed)).2.2.1] at open'
    cases open'
  | case11 o a acc x os y as _ _ static p q hq hp behind equal ih =>
    -- the next seen axis makes the seen group as large as the stored one
    obtain ⟨rfl, rfl, hu, hv, -, -, lower⟩ := opened.some hp hq
    have hx : x.isStatic = true := by grind
    obtain ⟨sized, -⟩ := seen x mem_cons_self hx
    rw [beq_iff_eq, sized.value] at equal
    have equal : (u.map Dim.size).prod * x.size = (v.map Dim.size).prod := by exact_mod_cast equal
    have behind : (u.map Dim.size).prod < (v.map Dim.size).prod := by exact_mod_cast behind
    have tight : Tight ((u ++ [x]).map Dim.size) (v.map Dim.size) := by
      rw [map_append]
      refine .mixed (by simp) hv (by simpa using equal) (by omega) ?_
      rw [map_singleton, dropLast_concat]
      omega
    simpa using cut_behind opened (by simp) rfl tight (Or.inl (by grind))
      (ih run seen.tail stored (u := []) (v := []) (by simp) (.start _ _))
  | case12 o a acc x os y as _ _ static p q hq hp behind differ ih =>
    have hx : x.isStatic = true := by grind
    obtain ⟨sized, pos⟩ := seen x mem_cons_self hx
    rw [sized.value] at differ run ih
    have grown := opened.growSeen hp hq behind pos (by simpa using differ)
    simpa using ih run seen.tail stored (u := u ++ [x]) (v := v) (by grind) (by simpa using grown)
  | case13 o a acc x os y as _ _ static p q hq hp _ behind equal ih =>
    -- the next stored axis makes the stored group as large as the seen one
    obtain ⟨rfl, rfl, hu, hv, -, upper, -⟩ := opened.some hp hq
    have hy : y.isStatic = true := by grind
    obtain ⟨sized, -⟩ := stored y mem_cons_self hy
    rw [beq_iff_eq, sized.value] at equal
    have equal : (u.map Dim.size).prod = (v.map Dim.size).prod * y.size := by exact_mod_cast equal
    have behind : (v.map Dim.size).prod < (u.map Dim.size).prod := by exact_mod_cast behind
    have tight : Tight (u.map Dim.size) ((v ++ [y]).map Dim.size) := by
      rw [map_append]
      refine .mixed hu (by simp) (by simpa using equal) ?_ ?_
      · simpa [← equal] using behind
      · rw [map_singleton, dropLast_concat]
        omega
    simpa using cut_behind opened rfl (by simp) tight (Or.inl (by grind))
      (ih run seen stored.tail (u := []) (v := []) (by simp) (.start _ _))
  | case14 o a acc x os y as _ _ static p q hq hp _ behind differ ih =>
    have hy : y.isStatic = true := by grind
    obtain ⟨sized, pos⟩ := stored y mem_cons_self hy
    rw [sized.value] at differ run ih
    have grown := opened.growStored hp hq behind pos (by simpa using differ)
    simpa using ih run seen stored.tail (u := u) (v := v ++ [y]) (by grind) (by simpa using grown)
  | case15 | case17 | case18 => cases run
  | case16 o a acc closed =>
    obtain ⟨rfl, rfl, -⟩ := opened.idle (Or.inl (by simpa using (Bool.and_eq_true_iff.1 closed).1))
    cases run
    exact ⟨[], by simp, .nil⟩

end Walk

/-! ## The ends of the shapes -/

variable {os as : List Dim}

theorem Grouped.ones (h : Grouped xs ys o a gs) :
    (xs = [] → ∀ n ∈ ys, n = 1) ∧ (ys = [] → ∀ n ∈ xs, n = 1) := by
  induction h with
  | nil => simp
  | @cons us vs xs ys o a gs tight _ ih =>
    constructor
    · intro none n hn
      obtain ⟨rfl, rfl⟩ := append_eq_nil_iff.1 none
      rcases mem_append.1 hn with hn | hn
      · cases tight with
        | storedOne => simpa using hn
        | mixed seen => exact absurd rfl seen
      · exact ih.1 rfl n hn
    · intro none n hn
      obtain ⟨rfl, rfl⟩ := append_eq_nil_iff.1 none
      rcases mem_append.1 hn with hn | hn
      · cases tight with
        | seenOne => simpa using hn
        | mixed _ stored => exact absurd rfl stored
      · exact ih.2 rfl n hn

theorem Grouped.eq_nil (h : Grouped xs ys o a gs) (seen : xs = []) (stored : ys = []) :
    gs = [] := by
  cases h with
  | nil => rfl
  | cons tight =>
    obtain ⟨rfl, -⟩ := append_eq_nil_iff.1 seen
    obtain ⟨rfl, -⟩ := append_eq_nil_iff.1 stored
    cases tight with
    | mixed seen => exact absurd rfl seen

theorem append_eq_concat {us xs ws : List Dim} {e : Dim} (h : us ++ xs = ws ++ [e]) :
    xs = [] ∧ us = ws ++ [e] ∨ ∃ xs', xs = xs' ++ [e] ∧ ws = us ++ xs' := by
  rcases eq_nil_or_concat xs with rfl | ⟨xs', x, rfl⟩
  · exact Or.inl ⟨rfl, by simpa using h⟩
  · rw [concat_eq_append, ← append_assoc] at h
    obtain ⟨front, last⟩ := append_inj' h rfl
    grind

theorem Tight.alone (he : 1 < e) (h : Tight (xs ++ [e]) (ys ++ [e])) : xs = [] ∧ ys = [] := by
  generalize hu : xs ++ [e] = u at h
  generalize hv : ys ++ [e] = v at h
  cases h with
  | seenOne => simp at hv
  | storedOne => simp at hu
  | pair n =>
    refine ⟨?_, ?_⟩
    · exact length_eq_zero_iff.1 (by simpa using congrArg length hu)
    · exact length_eq_zero_iff.1 (by simpa using congrArg length hv)
  | mixed _ _ same _ front =>
    subst hu
    subst hv
    rw [dropLast_concat, dropLast_concat] at front
    rw [prod_append, prod_append, prod_singleton] at same
    exact absurd (Nat.eq_of_mul_eq_mul_right (by omega) same) front

theorem Cut.dropMarks {e : Dim} (he : 1 < e.size) (h : Cut (os ++ [e]) (as ++ [e]) o a gs) :
    ∃ gs' last, gs = gs' ++ [last] ∧ Cut os as o a gs' := by
  generalize hx : os ++ [e] = os₁ at h
  generalize hy : as ++ [e] = as₁ at h
  induction h generalizing os as with
  | nil => simp at hx
  | @cons us vs os₂ as₂ o a gs tight alike rest ih =>
    rcases append_eq_concat hx.symm with ⟨rfl, rfl⟩ | ⟨xs', rfl, rfl⟩
    · rcases append_eq_concat hy.symm with ⟨rfl, rfl⟩ | ⟨ys', rfl, -⟩
      · -- both marks are in this pair, so nothing else is
        obtain rfl := rest.grouped.eq_nil rfl rfl
        rw [map_append, map_append] at tight
        obtain ⟨hu, hv⟩ := tight.alone he
        obtain rfl := map_eq_nil_iff.1 hu
        obtain rfl := map_eq_nil_iff.1 hv
        exact ⟨[], _, rfl, .nil⟩
      · have := rest.grouped.ones.1 rfl e.size (by simp)
        omega
    · rcases append_eq_concat hy.symm with ⟨rfl, rfl⟩ | ⟨ys', rfl, rfl⟩
      · have := rest.grouped.ones.2 rfl e.size (by simp)
        omega
      · obtain ⟨gs', last, rfl, cut⟩ := ih rfl rfl
        exact ⟨_, last, rfl, .cons tight alike cut⟩

theorem groupAxes?_cut (run : groupAxes? os as = some gs) (seen : Proper os) (stored : Proper as) :
    Cut os as 0 0 gs := by
  obtain ⟨r, walk, rfl⟩ := Option.map_eq_some_iff.1 run
  have marked {ds : List Dim} (proper : Proper ds) : Proper (ds ++ [endMark]) := by
    exact forall_mem_append.2 ⟨proper, forall_mem_singleton.2 fun _ => ⟨⟨rfl, rfl⟩, by decide⟩⟩
  obtain ⟨gs, same, cut⟩ := groupAxesFrom?_cut (u := []) (v := []) walk (marked seen)
    (marked stored) (by simp) (.start 0 0)
  obtain ⟨gs', last, rfl, cut'⟩ := cut.dropMarks (by decide)
  grind

theorem SizedAll.proper (h : SizedAll os xs) : Proper os ∧ os.map Dim.size = xs := by
  induction h with
  | nil => exact ⟨by simp [Proper], rfl⟩
  | @cons d n ds ns sized _ ih =>
    have size : d.size = n := by rw [Dim.size, sized.1.value, Int.toNat_natCast]
    refine ⟨forall_mem_cons.2 ⟨fun _ => ?_, ih.1⟩, by rw [map_cons, size, ih.2]⟩
    rwa [size]

/-- In each group that is found the sizes of both sides have the same product. -/
theorem groupAxes?_grouped {os as : List Dim} (run : groupAxes? os as = some gs)
    (seen : SizedAll os xs) (stored : SizedAll as ys) : Grouped xs ys 0 0 gs := by
  rw [← seen.proper.2, ← stored.proper.2]
  exact (groupAxes?_cut run seen.proper.1 stored.proper.1).grouped

end Accessor

end TensorGraph

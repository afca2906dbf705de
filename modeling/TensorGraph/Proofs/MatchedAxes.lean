import Mathlib
import TensorGraph.Proofs.AxisGroups

/-!
# Shapes that can be cut

Two fixed shapes of the same elements can always be cut: what is left of them completes the open
groups to equally many elements (`Balanced`), so the side that is behind has an axis left.
-/

namespace TensorGraph.Accessor

open List

variable {os as : List Dim} {x y : Dim} {p q : Nat}

/-- What is left behind open groups of `p` and `q` elements: nothing, or two shapes, up to their
marks, that complete the groups to the same number of elements. -/
inductive Balanced : List Dim → List Dim → Nat → Nat → Prop
  | done : Balanced [] [] 1 1
  | marks {os as : List Dim} {p q : Nat} (same : p * (os.map Dim.size).prod = q *
    (as.map Dim.size).prod) :
      Balanced (os ++ [endMark]) (as ++ [endMark]) p q

namespace Balanced

theorem symm (h : Balanced os as p q) : Balanced as os q p := by
  cases h with
  | done => exact .done
  | marks same => exact .marks same.symm

theorem takeSeen (h : Balanced (x :: os) as p q) (more : os ≠ []) :
    Balanced os as (p * x.size) q := by
  generalize hl : x :: os = l at h
  cases h with
  | done => cases hl
  | @marks os' as' _ _ same =>
    cases os' with
    | nil => exact absurd (cons.inj hl).2 more
    | cons x' os' =>
      obtain ⟨rfl, rfl⟩ := cons.inj hl
      rw [map_cons, prod_cons, ← mul_assoc] at same
      exact .marks same

theorem takeStored (h : Balanced os (y :: as) p q) (more : as ≠ []) :
    Balanced os as p (q * y.size) := (h.symm.takeSeen more).symm

theorem last (h : Balanced [x] as p q) : x = endMark ∧ ∃ as', as = as' ++ [endMark] ∧
    p = q * (as'.map Dim.size).prod := by
  generalize hl : [x] = l at h
  cases h with
  | done => cases hl
  | @marks os' as' _ _ same =>
    cases os' with
    | nil => exact ⟨(cons.inj hl).1, as', rfl, by simpa using same⟩
    | cons => simp at hl

theorem cancel (h : Balanced os as p p) (pos : 0 < p) : Balanced os as 1 1 := by
  generalize hq : p = q at h
  cases h with
  | done => exact .done
  | marks same =>
    subst hq
    exact .marks (by rw [Nat.eq_of_mul_eq_mul_left pos same])

theorem ended (h : Balanced [] as p q) : as = [] ∧ p = q := by
  generalize hl : [] = l at h
  cases h with
  | done => exact ⟨rfl, rfl⟩
  | marks => simp at hl

theorem seen_ne (h : Balanced (x :: os) as p q) (behind : p < q) (positive : ∀ d ∈ as, 0 < d.size) :
    os ≠ [] := by
  rintro rfl
  obtain ⟨-, as', rfl, same⟩ := h.last
  have : 0 < (as'.map Dim.size).prod := prod_pos (by grind)
  have := Nat.le_mul_of_pos_right q this
  omega

theorem both (h : Balanced (x :: os) (y :: as) 1 1) (hy : y.size ≠ 1) (empty : os = []) : as = [] ∧
    x = y := by
  subst empty
  obtain ⟨rfl, as', split, same⟩ := h.last
  cases as' with
  | nil => exact ⟨(cons.inj split).2, (cons.inj split).1.symm⟩
  | cons d as' =>
    obtain ⟨rfl, -⟩ := cons.inj split
    rw [map_cons, prod_cons, one_mul] at same
    exact absurd (Nat.eq_one_of_mul_eq_one_right same.symm) hy

end Balanced

theorem groupAxesFrom?_isSome {o a : Walk} {acc : List AxisGroup} {us vs : List Nat}
    (fixed : ∀ d ∈ os ++ as, d.Sized d.size ∧ 0 < d.size) (opened : Open o a us vs)
    (balanced : Balanced os as us.prod vs.prod) : (groupAxesFrom? os as o a acc).isSome = true := by
  fun_induction groupAxesFrom? os as o a acc generalizing us vs with
  | case1 o a acc x os y as one ih =>
    obtain ⟨hx, closed⟩ : x.isFixed 1 = true ∧ o.span = none := by simpa using one
    obtain ⟨rfl, rfl, -, closed'⟩ := opened.none (Or.inl closed)
    have more : os ≠ [] := by
      rintro rfl
      obtain ⟨rfl, -⟩ := balanced.last
      cases hx
    have rest := balanced.takeSeen more
    rw [(Dim.size_of_isFixed hx).2] at rest
    exact ih (by grind) ⟨rfl, opened.storedNext, Or.inl ⟨rfl, rfl, rfl, closed'⟩⟩ rest
  | case2 o a acc x os y as _ one ih =>
    obtain ⟨hy, closed⟩ : y.isFixed 1 = true ∧ a.span = none := by simpa using one
    obtain ⟨rfl, rfl, closed', -⟩ := opened.none (Or.inr closed)
    have more : as ≠ [] := by
      rintro rfl
      obtain ⟨rfl, -⟩ := balanced.symm.last
      cases hy
    have rest := balanced.takeStored more
    rw [(Dim.size_of_isFixed hy).2] at rest
    exact ih (by grind) ⟨opened.seenNext, rfl, Or.inl ⟨rfl, rfl, closed', rfl⟩⟩ rest
  | case3 o a acc x os y as _ _ dynamic | case4 o a acc x os y as _ _ dynamic =>
    have hx := (fixed x (by simp)).1.1
    have hy := (fixed y (by simp)).1.1
    simp [hx, hy] at dynamic
  | case5 o a acc x os y as oneX oneY _ closedA closedO equal ih =>
    obtain ⟨rfl, rfl, -⟩ := opened.none (Or.inl closedO)
    have hx : x.size ≠ 1 := by simpa [closedO, (fixed x (by simp)).1.isFixed_one] using oneX
    have hy : y.size ≠ 1 := by simpa [closedA, (fixed y (by simp)).1.isFixed_one] using oneY
    have same : x.size = y.size := by rw [Dim.size, beq_iff_eq.1 equal, Dim.size]
    refine ih (by grind) (.start _ _) ?_
    by_cases hos : os = []
    · rw [hos, (balanced.both hy hos).1]
      exact .done
    · have has : as ≠ [] := fun has => hos (balanced.symm.both hx has).1
      have rest := (balanced.takeSeen hos).takeStored has
      simp only [prod_nil, one_mul, same] at rest
      exact rest.cancel (fixed y (by simp)).2
  | case6 o a acc x os y as oneX oneY _ closedA closedO differ ih =>
    obtain ⟨rfl, rfl, -⟩ := opened.none (Or.inl closedO)
    obtain ⟨sizedX, posX⟩ := fixed x (by simp)
    obtain ⟨sizedY, posY⟩ := fixed y (by simp)
    have hx : x.size ≠ 1 := by simpa [closedO, sizedX.isFixed_one] using oneX
    have hy : y.size ≠ 1 := by simpa [closedA, sizedY.isFixed_one] using oneY
    have hos : os ≠ [] := fun hos => differ (by simp [(balanced.both hy hos).2])
    have has : as ≠ [] := fun has => differ (by simp [(balanced.symm.both hx has).2])
    rw [sizedX.value, sizedY.value] at differ ih ⊢
    have ne : x.size ≠ y.size := fun same => differ (by simp [same])
    refine ih (by grind) (opened.begin ⟨rfl, rfl⟩ ne (by omega) (by omega)) ?_
    simpa using (balanced.takeSeen hos).takeStored has
  | case7 o a acc x os y as _ _ _ q open' closed | case8 o a acc x os y as _ _ _ q open' closed =>
    rw [(opened.none (Or.inl closed)).2.2.2] at open'
    cases open'
  | case9 o a acc x os y as _ _ _ p closed open' | case10 o a acc x os y as _ _ _ p closed open' =>
    rw [(opened.none (Or.inr closed)).2.2.1] at open'
    cases open'
  | case11 o a acc x os y as _ _ _ p q hq hp behind equal ih =>
    obtain ⟨rfl, rfl, -⟩ := opened.some hp hq
    have behind : us.prod < vs.prod := by exact_mod_cast behind
    rw [beq_iff_eq, (fixed x (by simp)).1.value] at equal
    have equal : us.prod * x.size = vs.prod := by exact_mod_cast equal
    have rest := balanced.takeSeen (balanced.seen_ne behind (by grind))
    rw [equal] at rest
    exact ih (by grind) (.start _ _) (rest.cancel (by omega))
  | case12 o a acc x os y as _ _ _ p q hq hp behind differ ih =>
    obtain ⟨sized, pos⟩ := fixed x (by simp)
    rw [sized.value] at differ ih ⊢
    have grown := opened.growSeen hp hq behind pos (by simpa using differ)
    obtain ⟨rfl, rfl, -⟩ := opened.some hp hq
    refine ih (by grind) grown ?_
    simpa using balanced.takeSeen (balanced.seen_ne (by exact_mod_cast behind) (by grind))
  | case13 o a acc x os y as _ _ _ p q hq hp _ behind equal ih =>
    obtain ⟨rfl, rfl, -⟩ := opened.some hp hq
    have behind : vs.prod < us.prod := by exact_mod_cast behind
    rw [beq_iff_eq, (fixed y (by simp)).1.value] at equal
    have equal : us.prod = vs.prod * y.size := by exact_mod_cast equal
    have rest := balanced.takeStored (balanced.symm.seen_ne behind (by grind))
    rw [← equal] at rest
    exact ih (by grind) (.start _ _) (rest.cancel (by omega))
  | case14 o a acc x os y as _ _ _ p q hq hp _ behind differ ih =>
    obtain ⟨sized, pos⟩ := fixed y (by simp)
    rw [sized.value] at differ ih ⊢
    have grown := opened.growStored hp hq behind pos (by simpa using differ)
    obtain ⟨rfl, rfl, -⟩ := opened.some hp hq
    refine ih (by grind) grown ?_
    simpa using balanced.takeStored (balanced.symm.seen_ne (by exact_mod_cast behind) (by grind))
  | case15 o a acc x os y as _ _ _ p q hq hp behind behind' =>
    obtain ⟨rfl, rfl, -, -, ne, -⟩ := opened.some hp hq
    omega
  | case16 => rfl
  | case17 o a acc open' =>
    rcases opened.spans with ⟨-, -, ho, ha⟩ | ⟨-, -, -, -, ne, -⟩
    · simp [ho, ha] at open'
    · exact absurd balanced.ended.2 ne
  | case18 os as o a acc notCons notNil =>
    exfalso
    cases os with
    | nil => exact notNil rfl balanced.ended.1
    | cons x os =>
      cases as with
      | nil => cases balanced.symm.ended.1
      | cons y as => exact notCons x os y as rfl rfl

def dimsAt (ds : List Dim) (axes : List Nat) : List Dim := axes.map (ds.getD · default)

theorem dimsAt_range' (xs us os : List Dim) :
    dimsAt (xs ++ (us ++ os)) (range' xs.length us.length) = us := by
  refine ext_getElem (by simp [dimsAt]) fun i _ hi => ?_
  simp [dimsAt, getElem?_append_right, getElem?_append_left hi, hi]

theorem Cut.parts {gs : List AxisGroup} {o a : Nat} (h : Cut os as o a gs) :
    (gs.map Prod.fst).flatten = range' o os.length ∧
    (gs.map Prod.snd).flatten = range' a as.length ∧ ∀ xs ys : List Dim, xs.length = o →
    ys.length = a → ∀ g ∈ gs, Alike (dimsAt (xs ++ os) g.1) (dimsAt (ys ++ as) g.2) ∧
    ((dimsAt (xs ++ os) g.1).map Dim.size).prod = ((dimsAt (ys ++ as) g.2).map Dim.size).prod := by
  induction h with
  | nil => simp
  | @cons us vs os as o a gs tight alike rest ih =>
    obtain ⟨seen, stored, pairs⟩ := ih
    refine ⟨by simp [seen, range'_append_1], by simp [stored, range'_append_1], ?_⟩
    rintro xs ys rfl rfl g hg
    rcases mem_cons.1 hg with rfl | hg
    · rw [dimsAt_range', dimsAt_range']
      exact ⟨alike, tight.prod_eq⟩
    · simpa using pairs (xs ++ us) (ys ++ vs) (by simp) (by simp) g hg

/-- Fixed shapes of the same elements are cut.  Groups cut both shapes from the first to the last
axis, those of a pair span equally many elements, and a dynamic axis is in a pair with one that is
the same. -/
theorem groupAxes?_parts (seen : Proper os) (stored : Proper as) :
    ((∀ d ∈ os ++ as, d.isStatic = true) → (os.map Dim.size).prod = (as.map Dim.size).prod →
      (groupAxes? os as).isSome = true) ∧
    ∀ gs, groupAxes? os as = some gs → (gs.map Prod.fst).flatten = range os.length ∧
    (gs.map Prod.snd).flatten = range as.length ∧
      ∀ g ∈ gs, Alike (dimsAt os g.1) (dimsAt as g.2) ∧
        ((dimsAt os g.1).map Dim.size).prod = ((dimsAt as g.2).map Dim.size).prod := by
  constructor
  · intro static same
    rw [groupAxes?, Option.isSome_map]
    refine groupAxesFrom?_isSome (fun d hd => ?_) (.start 0 0) (.marks (by simpa using same))
    by_cases mark : d = endMark
    · rw [mark]
      exact ⟨⟨rfl, rfl⟩, by decide⟩
    · rcases (by grind : d ∈ os ∨ d ∈ as) with hd | hd
      · exact seen d hd (static d (by simp [hd]))
      · exact stored d hd (static d (by simp [hd]))
  · intro gs run
    obtain ⟨first, second, pairs⟩ := (groupAxes?_cut run seen stored).parts
    rw [range_eq_range', range_eq_range']
    exact ⟨first, second, pairs [] [] rfl rfl⟩

/-- A shape of 6 by 4 elements is cut against one of 3 by 8. -/
theorem groupAxes?_parts_pair : ∃ gs, groupAxes? [.static 6, .static 4] [.static 3, .static 8] =
    some gs ∧ (gs.map Prod.fst).flatten = [0, 1] ∧ (gs.map Prod.snd).flatten = [0, 1] := by
  have proper (m n : Nat) (hm : 0 < m) (hn : 0 < n) : Proper [.static m, .static n] :=
    forall_mem_cons.2 ⟨fun _ => ⟨⟨rfl, rfl⟩, hm⟩, forall_mem_singleton.2 fun _ => ⟨⟨rfl, rfl⟩, hn⟩⟩
  obtain ⟨found, parts⟩ := groupAxes?_parts (proper 6 4 (by decide) (by decide))
    (proper 3 8 (by decide) (by decide))
  obtain ⟨gs, run⟩ := Option.isSome_iff_exists.1 (found (by decide) (by decide))
  exact ⟨gs, run, (parts gs run).1, (parts gs run).2.1⟩

end TensorGraph.Accessor

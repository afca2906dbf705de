import TensorGraph.Proofs.Addresses

/-!
# Trials of a stride

A trial asks, on a copy of an accessor, whether the strides are still known after an axis has become
a part of a larger one.
-/

namespace TensorGraph

open List

variable {shape xs ys : List DimId} {o : Nat} {a : Accessor} {look : DimTable} {dim : Int}

namespace Accessor

variable {gs acc r : List AxisGroup} {os as : List Dim} {free : Prop} {fs : List (Option String)}
  {is : List Nat}
  {base : List DimId} {x y : DimId} {at_ : Option Int}

/-! ## Accessors that can be reached -/

/-- A call that changes an accessor. -/
inductive Update where
  | reshape (shape : List DimId)
  | rebase (shape : List DimId) (strideDim offset : Int)

def Update.isReshape : Update → Bool
  | .reshape _ => true
  | .rebase .. => false

def update (look : DimTable) (a : Accessor) : Update → Accessor
  | .reshape shape => (a.reshape look shape).1
  | .rebase shape strideDim offset => (a.rebase look shape strideDim offset).1

def updates (look : DimTable) (a : Accessor) (us : List Update) : Accessor :=
  us.foldl (update look) a

/-- Groups of consecutive axes, of which the first ones have the given numbers. -/
inductive Consecutive : Nat → Nat → List AxisGroup → Prop
  | nil (o a : Nat) : Consecutive o a []
  | cons {o a m n : Nat} {gs : List AxisGroup} (rest : Consecutive (o + m) (a + n) gs) :
      Consecutive o a ((range' o m, range' a n) :: gs)

theorem consecutive_trivial (rank : Nat) : Consecutive 0 0 (trivialGroups rank) := by
  have single : ∀ n o, Consecutive o o ((range' o n).map fun i => ([i], [i])) := by
    intro n
    induction n with
    | zero => exact fun o => .nil o o
    | succ n ih => exact fun o => .cons (m := 1) (n := 1) (ih (o + 1))
  grind [trivialGroups, range_eq_range']

theorem Consecutive.dropLast {a : Nat} (h : Consecutive o a gs) : Consecutive o a gs.dropLast := by
  induction h with
  | nil o a => exact .nil o a
  | @cons o a m n gs rest ih =>
    cases rest with
    | nil => exact .nil o a
    | cons rest => exact .cons ih

theorem consecutive_behind {o a : Walk} {m n : Nat} (ho : o.start ≤ o.next) (ha : a.start ≤ a.next)
    (rest : ∃ gs, r = acc ++ [(o.axes m, a.axes n)] ++ gs ∧
      Consecutive (o.next + m) (a.next + n) gs) :
    ∃ gs, r = acc ++ gs ∧ Consecutive o.start a.start gs := by
  obtain ⟨gs, rfl, behind⟩ := rest
  refine ⟨(o.axes m, a.axes n) :: gs, by simp, .cons ?_⟩
  grind

theorem groupAxesFrom?_consecutive {o a : Walk}
    (run : groupAxesFrom? os as o a acc = some r) (ho : o.start ≤ o.next) (ha : a.start ≤ a.next) :
    ∃ gs, r = acc ++ gs ∧ Consecutive o.start a.start gs := by
  fun_induction groupAxesFrom? os as o a acc with
  | case1 o a acc x os y as one ih =>
    -- a seen axis without partner; the stored group stays open
    obtain ⟨gs, rfl, rest⟩ := ih run (le_refl _) ha
    refine ⟨(o.axes 1, []) :: gs, by simp, ?_⟩
    have seen : o.start + (o.next + 1 - o.start) = o.next + 1 := by omega
    exact .cons (n := 0) (by rw [seen]; exact rest)
  | case2 o a acc x os y as _ one ih =>
    obtain ⟨gs, rfl, rest⟩ := ih run ho (le_refl _)
    refine ⟨([], a.axes 1) :: gs, by simp, ?_⟩
    have stored : a.start + (a.next + 1 - a.start) = a.next + 1 := by omega
    exact .cons (m := 0) (by rw [stored]; exact rest)
  | case3 o a acc x os y as _ _ _ _ ih => exact consecutive_behind ho ha (ih run (le_refl _)
    (le_refl _))
  | case4 => cases run
  | case5 o a acc x os y as _ _ _ _ _ _ ih => exact consecutive_behind ho ha (ih run (le_refl _)
    (le_refl _))
  | case6 o a acc x os y as _ _ _ _ _ _ ih => grind
  | case7 o a acc x os y as _ _ _ _ _ _ _ ih => exact consecutive_behind ho ha (ih run (le_refl _)
    (le_refl _))
  | case8 o a acc x os y as _ _ _ _ _ _ _ ih => exact ih run (Nat.le_succ_of_le ho) ha
  | case9 o a acc x os y as _ _ _ _ _ _ _ ih => exact consecutive_behind ho ha (ih run (le_refl _)
    (le_refl _))
  | case10 o a acc x os y as _ _ _ _ _ _ _ ih => exact ih run ho (Nat.le_succ_of_le ha)
  | case11 o a acc x os y as _ _ _ _ _ _ _ _ _ ih => exact consecutive_behind ho ha (ih run
    (le_refl _) (le_refl _))
  | case12 o a acc x os y as _ _ _ _ _ _ _ _ _ ih => exact ih run (Nat.le_succ_of_le ho) ha
  | case13 o a acc x os y as _ _ _ _ _ _ _ _ _ _ ih => exact consecutive_behind ho ha (ih run
    (le_refl _) (le_refl _))
  | case14 o a acc x os y as _ _ _ _ _ _ _ _ _ _ ih => exact ih run ho (Nat.le_succ_of_le ha)
  | case15 => cases run
  | case16 o a acc closed =>
    cases run
    exact ⟨[], by simp, .nil _ _⟩
  | case17 => cases run
  | case18 => cases run

theorem groupAxes?_consecutive (run : groupAxes? os as = some gs) :
    Consecutive 0 0 gs := by
  obtain ⟨r, walked, rfl⟩ := Option.map_eq_some_iff.1 run
  obtain ⟨gs, rfl, consecutive⟩ := groupAxesFrom?_consecutive walked (le_refl _) (le_refl _)
  exact consecutive.dropLast

theorem spanAfter_keeps (look : DimTable) (xs ys : List DimId) (a : Accessor) :
    (spanAfter look xs ys a).1.seenShape = a.seenShape ∧ (spanAfter look xs ys a).1.strideDim =
    a.strideDim ∧
      (spanAfter look xs ys a).1.groups = a.groups := by
  fun_induction spanAfter look xs ys a with
  | case1 => exact ⟨rfl, rfl, rfl⟩
  | case2 => exact ⟨rfl, rfl, rfl⟩
  | case3 x xs y ys a _ _ n ih => exact ih
  | case4 => exact ⟨rfl, rfl, rfl⟩

theorem rebase_fixes (look : DimTable) (a : Accessor) (shape : List DimId) (sd offset : Int) :
    (a.rebase look shape sd offset).1.seenShape = a.seenShape ∧
      (a.rebase look shape sd offset).1.strideDim.isSome = true ∧
        (a.rebase look shape sd offset).1.groups = a.groups := by
  unfold rebase
  split
  · next fixed => exact ⟨rfl, fixed, rfl⟩
  dsimp only
  split
  · exact ⟨rfl, rfl, rfl⟩
  split
  · exact ⟨rfl, rfl, rfl⟩
  split
  · split
    · exact ⟨rfl, rfl, rfl⟩
    · split
      · next b f after =>
        obtain ⟨seen, axis, groups⟩ := after ▸ spanAfter_keeps look _ _ _
        exact ⟨seen, by rw [axis]; rfl, groups⟩
      · next b after =>
        obtain ⟨seen, axis, groups⟩ := after ▸ spanAfter_keeps look _ _ _
        grind [noteParts_keeps]
  · exact ⟨rfl, rfl, rfl⟩

/-- What is known of an accessor of a shape after calls; `free` says whether its stride axis can
still be chosen. -/
structure Reached (shape : List DimId) (free : Prop) (a : Accessor) : Prop where
  seen : a.seenShape = shape
  free_iff : a.strideDim = none ↔ free
  groups : ∀ gs, a.groups = some gs → Consecutive 0 0 gs

theorem reached_ofShape (shape : List DimId) : Reached shape True (ofShape shape) where
  seen := rfl
  free_iff := ⟨fun _ => trivial, fun _ => rfl⟩
  groups := by
    rintro gs ⟨⟩
    exact consecutive_trivial shape.length

theorem Reached.update (h : Reached shape free a)
    (u : Update) : Reached shape (free ∧ u.isReshape = true) (a.update look u) := by
  cases u with
  | reshape view =>
    show Reached shape (free ∧ true = true) (a.reshape look view).1
    rw [eq_self, and_true]
    unfold reshape
    split
    · exact h
    · dsimp only
      split
      · exact ⟨h.seen, h.free_iff, fun gs run => groupAxes?_consecutive run⟩
      · exact ⟨h.seen, h.free_iff, h.groups⟩
  | rebase base sd offset =>
    obtain ⟨seen, fixed, groups⟩ := rebase_fixes look a base sd offset
    refine ⟨seen.trans h.seen, ?_, fun gs hgs => h.groups gs (groups.symm.trans hgs)⟩
    constructor
    · intro free
      have free : (a.rebase look base sd offset).1.strideDim = none := free
      rw [free] at fixed
      cases fixed
    · rintro ⟨-, reshape⟩
      cases reshape

theorem Reached.updates {us : List Update} (h : Reached shape free a) :
    Reached shape (free ∧ ∀ u ∈ us, u.isReshape = true) (a.updates look us) := by
  induction us generalizing a free with
  | nil => simpa [Accessor.updates] using h
  | cons u us ih =>
    have later : Reached shape ((free ∧ u.isReshape = true) ∧ ∀ u ∈ us, u.isReshape = true)
      ((a.update look u).updates look us) :=
      ih (h.update u)
    simpa [Accessor.updates, and_assoc] using later

/-! ## Known strides -/

theorem joined_known {head : Except Fault (List (Option String))}
    {tail : Except Fault (Option (List (Option String)))} (run : (do
      let head ← head
      let tail ← tail
      return tail.map (head ++ ·)) = Except.ok (some fs)) :
    ∃ hs ts, head = .ok hs ∧ tail = .ok (some ts) ∧ fs = hs ++ ts := by
  cases head with
  | error e => cases run
  | ok hs => simp_all [joined_ok]

theorem mapM_cons_ok {α β : Type} {f : α → Except Fault β} {x : α} {xs : List α} {ys : List β}
    (run : (x :: xs).mapM f = .ok ys) : ∃ z zs, f x = .ok z ∧ xs.mapM f = .ok zs ∧ ys = z ::
    zs := by
  rw [mapM_cons] at run
  cases first : f x with
  | error e => rw [first] at run; cases run
  | ok z =>
    cases rest : xs.mapM f with
    | error e => rw [first, rest] at run; cases run
    | ok zs =>
      rw [first, rest] at run
      cases run
      exact ⟨z, zs, rfl, rfl, rfl⟩

section Known

variable {look look' : DimTable} {shape shape' : List DimId}

theorem factor?_known (length : shape.length = shape'.length) {i : Nat} {f : Option String}
    (run : factor? look none shape i = .ok f) : ∃ f', factor? look' none shape' i = .ok f' := by
  unfold factor? at run ⊢
  rw [at?_natCast] at run ⊢
  by_cases hi : i < shape.length
  · rw [getElem?_eq_getElem (by omega)]
    dsimp only
    split
    · exact ⟨_, rfl⟩
    · exact ⟨_, rfl⟩
  · grind

theorem factors_known (length : shape.length = shape'.length)
    (run : is.mapM (fun (i : Nat) => factor? look none shape i) = .ok fs) :
    ∃ fs', is.mapM (fun (i : Nat) => factor? look' none shape' i) = .ok fs' := by
  induction is generalizing fs with
  | nil => exact ⟨[], rfl⟩
  | cons i is ih =>
    obtain ⟨f, fs, first, rest, -⟩ := mapM_cons_ok run
    obtain ⟨f', first'⟩ : ∃ f', factor? look' none shape' i = .ok f' := factor?_known length first
    obtain ⟨fs', rest'⟩ := ih rest
    exact ⟨f' :: fs', by rw [mapM_cons, first', rest']; rfl⟩

theorem stridesFrom?_known {a' : Accessor} {sd : Int}
    (seen : a.seenShape.length = a'.seenShape.length)
    (stored : (a.storedShape.getD []).length = (a'.storedShape.getD []).length) {late : Bool}
    (run : stridesFrom? look none a sd dim late gs = .ok (some fs)) :
    ∃ fs', stridesFrom? look' none a' sd dim late gs = .ok (some fs') := by
  have joined : ∀ {head head' : Except Fault (List (Option String))}
    {tail tail' : Except Fault (Option (List (Option String)))}
      {fs : List (Option String)}, (∀ hs, head = .ok hs → ∃ hs', head' = .ok hs') →
      (∀ ts, tail = .ok (some ts) → ∃ ts', tail' = .ok (some ts')) →
      (do let head ← head; let tail ← tail; return tail.map (head ++ ·)) = Except.ok (some fs) →
      ∃ fs', (do let head ← head'; let tail ← tail'; return tail.map (head ++ ·)) = Except.ok
        (some fs') := by
    intro head head' tail tail' fs heads tails run
    obtain ⟨hs, ts, hhs, hts, -⟩ := joined_known run
    obtain ⟨hs', rfl⟩ := heads hs hhs
    obtain ⟨ts', rfl⟩ := tails ts hts
    exact ⟨hs' ++ ts', rfl⟩
  induction gs generalizing late fs with
  | nil => grind [stridesFrom?]
  | cons g gs ih =>
    obtain ⟨os, as⟩ := g
    cases late with
    | false =>
      rw [stridesFrom?] at run ⊢
      split at run
      · next here =>
        rw [if_pos here]
        dsimp only at run ⊢
        split at run
        · cases run
        · next clear =>
          rw [if_neg clear]
          exact joined (fun _ => factors_known seen) (fun _ => ih) run
      · grind
    | true =>
      rw [stridesFrom?] at run ⊢
      split at run
      · next here =>
        rw [if_pos here]
        split at run
        · cases run
        · next first =>
          rw [if_neg first]
          exact joined (fun _ => factors_known stored) (fun _ => ih) run
      · next absent =>
        rw [if_neg absent]
        exact joined (fun _ => factors_known seen) (fun _ => ih) run

end Known

/-! ## Strides that are numbers -/

def AreNumbers (fs : List (Option String)) : Prop := ∀ f ∈ fs, ∃ n : Int, f = some (toString n)

theorem product_of_numbers (numbers : AreNumbers fs) (c : Int) :
    ∃ p, fs.foldlM (fun (n : Int) f =>
      match f with
      | none => throw .badType
      | some t =>
        match t.toInt? with
        | some k => pure (n * k)
        | none => throw .badNumber) c = (.ok p : Except Fault Int) := by
  induction fs generalizing c with
  | nil => exact ⟨c, rfl⟩
  | cons f fs ih =>
    obtain ⟨n, rfl⟩ := numbers f mem_cons_self
    have read : (toString n).toInt? = some n := Int.toInt?_repr n
    obtain ⟨p, product⟩ := ih (fun f hf => numbers f (mem_cons_of_mem _ hf)) (c * n)
    grind

section Numbers

variable {look : DimTable} {a : Accessor} {sd dim : Int}

variable {s : Nat}

theorem factors_numbers (static : ∀ i ∈ is, ∀ d, shape[i]? = some d → (look d).isStatic = true)
    (run : is.mapM (fun (i : Nat) => factor? look none shape i) = .ok fs) : AreNumbers fs := by
  induction is generalizing fs with
  | nil =>
    cases run
    intro f hf
    cases hf
  | cons i is ih =>
    obtain ⟨f, fs, first, rest, rfl⟩ := mapM_cons_ok run
    have later := ih (fun j hj => static j (mem_cons_of_mem _ hj)) rest
    intro f' hf'
    rcases mem_cons.1 hf' with rfl | hf'
    · unfold factor? at first
      rw [at?_natCast] at first
      cases here : shape[i]? with
      | none => rw [here] at first; cases first
      | some d =>
        rw [here] at first
        dsimp only at first
        rw [if_pos (static i mem_cons_self d here)] at first
        cases first
        exact ⟨_, rfl⟩
    · exact later f' hf'

variable (seen : ∀ i : Nat, dim < i → ∀ d, a.seenShape[i]? = some d → (look d).isStatic = true)
  (stored : ∀ k : Nat, sd = k → ∀ i, k ≤ i → ∀ d, (a.storedShape.getD [])[i]? = some d →
    (look d).isStatic = true)
include seen stored

theorem later_numbers (consecutive : Consecutive o s gs) (behind : dim < o)
    (run : stridesFrom? look none a sd dim true gs = .ok (some fs)) : AreNumbers fs := by
  have append : ∀ {hs ts : List (Option String)}, AreNumbers hs → AreNumbers ts →
    AreNumbers (hs ++ ts) :=
    fun heads tails f hf => (mem_append.1 hf).elim (heads f) (tails f)
  induction consecutive generalizing fs with
  | nil =>
    cases run
    intro f hf
    cases hf
  | @cons o s m n gs rest ih =>
    rw [stridesFrom?] at run
    split at run
    · next here =>
      obtain ⟨k, hk, lower, upper⟩ := any_range'.1 here
      split at run
      · cases run
      · next first =>
        -- the stride axis is the first of the group
        have start : k = s := by
          rw [hk, findIdx_range' lower upper] at first
          simp at first
          omega
        obtain ⟨hs, ts, heads, tails, rfl⟩ := joined_known run
        refine append (factors_numbers (fun i hi => stored k hk i ?_) heads) (ih (by omega) tails)
        have := (mem_range'_1.1 hi).1
        omega
    · obtain ⟨hs, ts, heads, tails, rfl⟩ := joined_known run
      refine append (factors_numbers (fun i hi => seen i ?_) heads) (ih (by omega) tails)
      have := (mem_range'_1.1 hi).1
      omega

theorem all_numbers (consecutive : Consecutive o s gs)
    (run : stridesFrom? look none a sd dim false gs = .ok (some fs)) : AreNumbers fs := by
  induction consecutive generalizing fs with
  | nil =>
    cases run
    intro f hf
    cases hf
  | @cons o s m n gs rest ih =>
    rw [stridesFrom?] at run
    split at run
    · next here =>
      obtain ⟨k, hk, lower, upper⟩ := any_range'.1 here
      dsimp only at run
      split at run
      · cases run
      · obtain ⟨hs, ts, heads, tails, rfl⟩ := joined_known run
        have later : AreNumbers ts := later_numbers seen stored rest (by omega) tails
        have inner : AreNumbers hs := by
          refine factors_numbers (fun i hi => seen i ?_) heads
          rw [hk, findIdx_range' lower upper, drop_range', mem_range'_1] at hi
          omega
        intro f hf
        exact (mem_append.1 hf).elim (inner f) (later f)
    · exact ih run

end Numbers

/-! ## Trials -/

theorem spanAfter_succeeds (fixed : Forall₂ (SameFixed look) xs ys) (a : Accessor) :
    ∃ b, spanAfter look xs ys a = (b, none) := by
  induction fixed generalizing a with
  | nil => exact ⟨a, rfl⟩
  | cons same _ ih =>
    obtain ⟨static, static', values⟩ := same
    unfold spanAfter
    simp_all

/-- An update succeeds if no stride axis has been chosen, the axis is fixed in both tensors, and all
axes behind it are fixed and the same. -/
theorem rebase_succeeds {sd : Int} (offset : Int)
    (free : a.strideDim = none) (length : base.length = (a.storedShape.getD a.seenShape).length)
    (hx : (a.storedShape.getD a.seenShape).at? sd = some x) (hy : base.at? sd = some y)
    (staticX : (look x).isStatic = true) (staticY : (look y).isStatic = true)
    (fixed : Forall₂ (SameFixed look) ((a.storedShape.getD a.seenShape).fromIdx (sd + 1))
      (base.fromIdx (sd + 1))) :
    ∃ b, a.rebase look base sd offset = (b, none) := by
  have inside : ¬ (base.length : Int) ≤ sd := by
    have bound : base.clipIdx sd < base.length := clipIdx_lt (by rw [hy]; rfl)
    unfold clipIdx at bound
    split at bound <;> omega
  unfold rebase
  rw [if_neg (by simp [free])]
  rw [if_neg (by simpa using length), if_neg inside, hx, hy]
  dsimp only
  rw [if_neg (by simp [staticX, staticY])]
  obtain ⟨b, after⟩ := spanAfter_succeeds fixed { a with
    storedShape := some base
    strideDim := some sd
    seenTotal := some (look x).value
    storedTotal := some (look y).value
    offset := offset }
  rw [after]
  exact ⟨_, rfl⟩

/-- Two shapes have as many axes, which are the same but for one. -/
structure AgreeOff (look : DimTable) (k : Nat) (xs ys : List DimId) : Prop where
  length : xs.length = ys.length
  same : ∀ i x y, i ≠ k → xs[i]? = some x → ys[i]? = some y → (look x).same (look y) = true

theorem SameFixed.of_same (static : (look x).isStatic = true)
    (same : (look x).same (look y) = true) : SameFixed look x y := by
  unfold Dim.same at same
  simp only [Bool.and_eq_true, beq_iff_eq] at same
  exact ⟨static, same.1.1 ▸ static, same.1.2⟩

theorem forall₂_iff_getElem? {R : DimId → DimId → Prop} :
    Forall₂ R xs ys ↔ xs.length = ys.length ∧ ∀ (i : Nat) x y, xs[i]? = some x → ys[i]? = some y →
    R x y := by
  rw [forall₂_iff_get]
  refine and_congr_right fun length => ⟨fun h i x y hx hy => ?_, fun h i hi hi' => ?_⟩
  · grind
  · exact h i _ _ (getElem?_eq_getElem hi) (getElem?_eq_getElem hi')

theorem at?_isSome_congr (length : xs.length = ys.length) (i : Int) :
    (xs.at? i).isSome = (ys.at? i).isSome := by
  unfold at?
  rw [length]
  generalize (if i < 0 then i + (ys.length : Int) else i) = j
  by_cases negative : j < 0
  · simp [negative]
  · grind

/-- If a trial succeeds, the axis and all behind it are fixed; and it is not the last axis counted
from the end, since then all axes would have to stay as they are. -/
theorem allowsStride?_static (allowed : a.allowsStride? look dim at_ = .ok true) {old : List DimId}
    (hold : a.storedShape.getD a.seenShape = old) :
    dim ≠ -1 ∧ ∃ d, old.at? dim = some d ∧ ∀ i x, old.clipIdx dim ≤ i → old[i]? = some x →
    (look x).isStatic = true := by
  obtain ⟨d, wider, shape, b, fs, here, static, unused, set, rebased, -⟩ := allowsStride?_ok allowed
  rw [hold] at here unused set
  have at_axis := getElem?_clipIdx here
  have hset : shape = old.set (old.clipIdx dim) wider := by
    unfold setAt? at set
    unfold clipIdx
    grind
  obtain ⟨-, -, -, -, -, -, -, fixed, -⟩ := rebase_eq rebased
  have fixed : Forall₂ (SameFixed fun i =>
    if i == wider then .static ((look d).value + 1) else look i)
      (old.fromIdx (dim + 1)) (shape.fromIdx (dim + 1)) := hold ▸ fixed
  have length : shape.length = old.length := by rw [hset, length_set]
  have clip : shape.clipIdx (dim + 1) = old.clipIdx (dim + 1) := by unfold clipIdx; rw [length]
  -- the copy compares the axes behind the axis with themselves
  have behind : ∀ i x y, old.clipIdx (dim + 1) ≤ i → old[i]? = some x → shape[i]? = some y →
      SameFixed (fun i => if i == wider then .static ((look d).value + 1) else look i) x y := by
    intro i x y le hx hy
    refine (forall₂_iff_getElem?.1 fixed).2 (i - old.clipIdx (dim + 1)) x y ?_ ?_
    · rw [fromIdx, getElem?_drop, Nat.add_sub_cancel' le, hx]
    · rw [fromIdx, clip, getElem?_drop, Nat.add_sub_cancel' le, hy]
  have apart : ∀ (i : Nat) x, old[i]? = some x → (x == wider) = false := by grind
  have next : old.clipIdx (dim + 1) = if dim = -1 then 0 else old.clipIdx dim + 1 :=
    clipIdx_add_one (by rw [here]; rfl)
  have inner : dim ≠ -1 := by
    intro last
    rw [if_pos last] at next
    have changed : shape[old.clipIdx dim]? = some wider := by grind
    obtain ⟨-, -, values⟩ := behind _ d wider (by omega) at_axis changed
    simp only [apart _ d at_axis, beq_self_eq_true, if_true, Dim.static] at values
    have : (look d).value = (look d).value + 1 := congrArg (·.headD 0) values
    omega
  rw [if_neg inner] at next
  refine ⟨inner, d, here, fun i x le hx => ?_⟩
  rcases Nat.eq_or_lt_of_le le with rfl | lt
  · grind
  · obtain ⟨y, hy⟩ : ∃ y, shape[i]? = some y := ⟨_, getElem?_eq_getElem (by
      grind)⟩
    have same := (behind i x y (by omega) hx hy).1
    dsimp only at same
    rwa [apart i x hx] at same

theorem allowsStride?_strides {b : Accessor} {offset : Int}
    (allowed : a.allowsStride? look dim at_ = .ok true)
    (rebased : a.rebase look base dim offset = (b, none)) :
    ∃ gs fs, b.groups = some gs ∧
      stridesFrom? look none b dim (at_.getD ((a.seenShape.length : Int) - 2)) false gs =
        .ok (some fs) ∧
      b.strides? look (at_.getD ((a.seenShape.length : Int) - 2)) none = .ok (some fs) := by
  obtain ⟨d, wider, shape, c, fs, -, -, -, set, trial, known⟩ := allowsStride?_ok allowed
  obtain ⟨seen, stored, axis, groups, length, -⟩ := rebase_ok rebased
  obtain ⟨seen', stored', axis', groups', length', -⟩ := rebase_ok trial
  rw [strides?_strided axis'] at known
  split at known
  · cases known
  next inside =>
  cases hgs : a.groups with
  | none =>
    rw [groups', copy, hgs] at known
    cases known
  | some gs =>
    rw [groups', copy, hgs] at known
    have ranks : c.seenShape.length = b.seenShape.length := by rw [seen, seen']; rfl
    have storedRanks : (c.storedShape.getD []).length = (b.storedShape.getD []).length := by
      rw [stored, stored', Option.getD_some, Option.getD_some, length, length']
      rfl
    obtain ⟨fs', known'⟩ : ∃ fs', stridesFrom? look none b dim _ false gs = .ok (some fs') :=
      stridesFrom?_known ranks storedRanks known
    refine ⟨gs, fs', groups.trans hgs, known', ?_⟩
    rw [strides?_strided axis, if_neg (by rwa [← ranks]), groups, hgs]
    exact known'

/-- **What a trial says of the update.** For an accessor reached by any calls, failed ones included,
let a trial along the axis `dim` succeed, and let `base` differ from the stored shape in that axis
only. Then the update to `base` succeeds exactly if no earlier call has tried to fix a stride axis
and the axis of `base` is fixed. -/
theorem allowsStride_rebase_iff {look : DimTable} {shape base : List DimId} {us : List Update}
    {a : Accessor} {dim : Int} (reached : (ofShape shape).updates look us = a)
    (allowed : a.allowsStride? look dim none = .ok true)
    (others : AgreeOff look ((a.storedShape.getD a.seenShape).clipIdx dim)
    (a.storedShape.getD a.seenShape) base) (offset : Int) :
    ((∃ b, a.rebase look base dim offset = (b, none)) ↔
      (∀ u ∈ us, u.isReshape = true) ∧ ∀ e, base.at? dim = some e → (look e).isStatic = true) ∧
    ∀ b, a.rebase look base dim offset = (b, none) →
      (∃ fs, b.strides? look ((shape.length : Int) - 2) none = .ok (some fs)) ∧
      ((∃ n, b.stride? look ((shape.length : Int) - 2) = .ok n) ↔
        Shape.allStatic look shape ((shape.length : Int) - 1) = true) := by
  have state :
      Reached shape (True ∧ ∀ u ∈ us, u.isReshape = true) ((ofShape shape).updates look us) :=
    (reached_ofShape shape).updates
  rw [reached, true_and] at state
  generalize hold : a.storedShape.getD a.seenShape = old at others
  obtain ⟨inner, d, here, static⟩ := allowsStride?_static allowed hold
  have inside : old.clipIdx dim < old.length := clipIdx_lt (by rw [here]; rfl)
  have clip : ∀ i, base.clipIdx i = old.clipIdx i := fun i => by unfold clipIdx; rw [others.length]
  have next : old.clipIdx (dim + 1) = if dim = -1 then 0 else old.clipIdx dim + 1 :=
    clipIdx_add_one (by rw [here]; rfl)
  rw [if_neg inner] at next
  have succeeds : (∃ b, a.rebase look base dim offset = (b, none)) ↔
      (∀ u ∈ us, u.isReshape = true) ∧ ∀ e, base.at? dim = some e → (look e).isStatic = true := by
    constructor
    · rintro ⟨b, rebased⟩
      obtain ⟨-, -, y, -, hy, -, staticY, -⟩ := rebase_eq rebased
      refine ⟨state.free_iff.1 ?_, fun e he => ?_⟩
      · by_contra chosen
        unfold rebase at rebased
        rw [if_pos (Option.isSome_iff_ne_none.2 chosen)] at rebased
        cases rebased
      · rw [he] at hy
        exact Option.some.inj hy ▸ staticY
    · rintro ⟨reshapes, staticE⟩
      obtain ⟨e, he⟩ : ∃ e, base.at? dim = some e := by
        rw [← Option.isSome_iff_exists, ← at?_isSome_congr others.length, here]
        rfl
      have fixed : Forall₂ (SameFixed look) (old.fromIdx (dim + 1)) (base.fromIdx (dim + 1)) := by
        refine forall₂_iff_getElem?.2 ⟨by simp [fromIdx, clip, others.length],
          fun i x y hx hy => ?_⟩
        rw [fromIdx, getElem?_drop] at hx hy
        rw [clip] at hy
        exact .of_same (static _ x (by omega) hx) (others.same _ x y (by omega) hx hy)
      have axis : (look d).isStatic = true := static _ d (le_refl _) (getElem?_clipIdx here)
      subst hold
      exact rebase_succeeds offset (state.free_iff.2 reshapes) others.length.symm here he axis
        (staticE e he) fixed
  refine ⟨succeeds, fun b rebased => ?_⟩
  obtain ⟨gs, fs, hgs, factors, known⟩ := allowsStride?_strides allowed rebased
  obtain ⟨seen, stored, -, groups, -, -⟩ := rebase_ok rebased
  rw [Option.getD_none, state.seen] at factors known
  rw [state.seen] at seen
  have asked : (shape.length : Int) - 2 + 1 = shape.length - 1 := by omega
  refine ⟨⟨fs, known⟩, ?_⟩
  constructor
  · rintro ⟨n, run⟩
    unfold stride? at run
    split at run
    · cases run
    · next fixed =>
      rw [asked, seen] at fixed
      simpa using fixed
  · intro fixed
    have seenStatic : ∀ i : Nat, (shape.length : Int) - 2 < i → ∀ d, b.seenShape[i]? = some d →
      (look d).isStatic = true := by
      intro i lt d hd
      rw [seen] at hd
      have le := (List.getElem?_eq_some_iff.1 hd).1
      have last : shape.clipIdx ((shape.length : Int) - 1) = i := by
        unfold clipIdx
        rw [if_neg (by omega)]
        omega
      refine all_eq_true.1 fixed d (mem_of_getElem? (i := 0) ?_)
      rw [fromIdx, last, getElem?_drop, Nat.add_zero, hd]
    have storedStatic : ∀ k : Nat, dim = k → ∀ i, k ≤ i → ∀ d, (b.storedShape.getD [])[i]? =
      some d →
        (look d).isStatic = true := by
      rintro k rfl i le e he
      rw [stored, Option.getD_some] at he
      have axis : old.clipIdx (k : Int) = k := by unfold clipIdx; rw [if_neg (by omega),
        Int.toNat_natCast]
      rcases Nat.eq_or_lt_of_le le with rfl | lt
      · exact (succeeds.1 ⟨b, rebased⟩).2 e (by rw [at?_natCast, he])
      · have bound : i < old.length := others.length ▸ (List.getElem?_eq_some_iff.1 he).1
        have hx := getElem?_eq_getElem bound
        exact (SameFixed.of_same (static i _ (by omega) hx)
          (others.same i _ e (by omega) hx he)).2.1
    have numbers := all_numbers seenStatic storedStatic (state.groups gs (groups ▸ hgs)) factors
    obtain ⟨p, product⟩ := product_of_numbers numbers 1
    refine ⟨p, ?_⟩
    unfold stride?
    rw [if_neg (by rw [asked, seen, fixed]; simp), known]
    exact product

/-- Twelve elements in rows of six, stored as rows of two by three: the trial on the middle axis
succeeds, and so does an update to rows of four by three, with a stride from row to row.  A second
trial succeeds as well, but a second update fails. -/
theorem allowsStride_rebase_iff_again :
    (∃ a b, (ofShape [⟨2⟩, ⟨6⟩]).updates (fun d => .static d.idx) [.reshape [⟨2⟩, ⟨2⟩, ⟨3⟩]] = a ∧
      a.allowsStride? (fun d => .static d.idx) 1 none = .ok true ∧
      a.rebase (fun d => .static d.idx) [⟨2⟩, ⟨4⟩, ⟨3⟩] 1 1 = (b, none) ∧
      ∃ n, b.stride? (fun d => .static d.idx) 0 = .ok n) ∧
    ∃ a, (ofShape [⟨2⟩, ⟨6⟩]).updates (fun d => .static d.idx)
    [.reshape [⟨2⟩, ⟨2⟩, ⟨3⟩], .rebase [⟨2⟩, ⟨4⟩, ⟨3⟩] 1 1] = a ∧
      a.allowsStride? (fun d => .static d.idx) 1 none = .ok true ∧
      ¬ ∃ b, a.rebase (fun d => .static d.idx) [⟨2⟩, ⟨5⟩, ⟨3⟩] 1 0 = (b, none) := by
  have others : ∀ m n : DimId, AgreeOff (fun d => .static d.idx) 1 [⟨2⟩, m, ⟨3⟩] [⟨2⟩, n, ⟨3⟩] := by
    refine fun m n => ⟨rfl, fun i x y ne hx hy => ?_⟩
    rcases i with _ | _ | _ | i
    · cases hx; cases hy; rfl
    · contradiction
    · cases hx; cases hy; rfl
    · cases hx
  constructor
  · have allowed : allowsStride? (fun d => .static d.idx)
      ((ofShape [⟨2⟩, ⟨6⟩]).updates (fun d => .static d.idx)
        [.reshape [⟨2⟩, ⟨2⟩, ⟨3⟩]]) 1 none = .ok true := by cbv
    obtain ⟨succeeds, strides⟩ := allowsStride_rebase_iff rfl allowed (others ⟨2⟩ ⟨4⟩) 1
    obtain ⟨b, rebased⟩ := succeeds.2 ⟨by simp [Update.isReshape], fun _ _ => rfl⟩
    exact ⟨_, b, rfl, allowed, rebased, (strides b rebased).2.2 (by decide)⟩
  · have allowed : allowsStride? (fun d => .static d.idx)
      ((ofShape [⟨2⟩, ⟨6⟩]).updates (fun d => .static d.idx)
        [.reshape [⟨2⟩, ⟨2⟩, ⟨3⟩], .rebase [⟨2⟩, ⟨4⟩, ⟨3⟩] 1 1]) 1 none = .ok true := by cbv
    refine ⟨_, rfl, allowed, fun rebased => ?_⟩
    have := ((allowsStride_rebase_iff rfl allowed (others ⟨4⟩ ⟨5⟩) 0).1.1 rebased).1
    simp [Update.isReshape] at this

end Accessor

end TensorGraph

import Mathlib
import TensorGraph.Op.Concat

/-!
# Parts and their places

Parts of given sizes that lie one behind the other start at the sums of the sizes before them
(`place`).
-/

namespace TensorGraph

namespace Concat

open List

variable {j : Nat} {ms : List Bool} {name : Option String} {ts : List TensorId} {as : List Accessor}
  {s : Removal}
  {ks : List Nat} {p : Nat}

/-! ## Places -/

def place (sizes : List Int) (j : Nat) : Int := (sizes.take j).sum

theorem place_succ {sizes : List Int} {n : Int} (hj : sizes[j]? = some n) :
    place sizes (j + 1) = place sizes j + n := by
  unfold place
  rw [take_add_one, hj]
  simp

theorem place_of_length_le {sizes : List Int} (h : sizes.length ≤ j) :
    place sizes j = sizes.sum := by
  unfold place
  rw [take_of_length_le h]

def Reaches (sizes : List Int) (starts : Nat → Int) (j : Nat) (p : Int) : Prop :=
  ∃ n, sizes[j]? = some n ∧ starts j ≤ p ∧ p < starts j + n

/-- No two parts overlap, and together they fill the row. -/
structure Tiles (sizes : List Int) (starts : Nat → Int) : Prop where
  apart : ∀ i j p, Reaches sizes starts i p → Reaches sizes starts j p → i = j
  covers : ∀ p, 0 ≤ p → p < sizes.sum → ∃ j, Reaches sizes starts j p

section Tiling

variable {sizes : List Int}

theorem exists_reaches (j : Nat) {p : Int} (low : 0 ≤ p) (high : p < place sizes j) :
    ∃ i < j, Reaches sizes (place sizes) i p := by
  induction j with
  | zero =>
    simp only [place, take_zero, sum_nil] at high
    omega
  | succ j ih =>
    by_cases before : p < place sizes j
    · grind
    · cases hj : sizes[j]? with
      | none => grind [List.getElem?_eq_none_iff, place_of_length_le]
      | some n =>
        rw [place_succ hj] at high
        exact ⟨j, by omega, n, hj, by omega, high⟩

variable (pos : ∀ n ∈ sizes, 0 < n)
include pos

theorem place_mono {i : Nat} (h : i ≤ j) : place sizes i ≤ place sizes j := by
  induction j with
  | zero => exact Nat.le_zero.1 h ▸ Int.le_refl _
  | succ j ih =>
    by_cases e : i = j + 1
    · exact e ▸ Int.le_refl _
    · have before := ih (by omega)
      cases hj : sizes[j]? with
      | none => grind [List.getElem?_eq_none_iff, place_of_length_le]
      | some n =>
        have := pos n (mem_of_getElem? hj)
        rw [place_succ hj]
        omega

theorem tiles_place : Tiles sizes (place sizes) := by
  refine ⟨fun i j p hi hj => ?_, fun p low high => ?_⟩
  · obtain ⟨n, hn, lower, upper⟩ := hi
    obtain ⟨m, hm, lower', upper'⟩ := hj
    rw [← place_succ hn] at upper
    rw [← place_succ hm] at upper'
    rcases Nat.lt_trichotomy i j with lt | eq | gt
    · have := place_mono pos (show i + 1 ≤ j from lt)
      omega
    · exact eq
    · have := place_mono pos (show j + 1 ≤ i from gt)
      omega
  · rw [← place_of_length_le (Nat.le_refl sizes.length)] at high
    grind [exists_reaches]

theorem tiles_iff {starts : Nat → Int} (early : ∀ j < sizes.length, 0 ≤ starts j ∧
    starts j ≤ place sizes j) :
    Tiles sizes starts ↔ ∀ j < sizes.length, starts j = place sizes j := by
  have same : ∀ {j p}, starts j = place sizes j →
    (Reaches sizes starts j p ↔ Reaches sizes (place sizes) j p) := by
    intro j p h
    unfold Reaches
    rw [h]
  constructor
  · intro tiles j
    -- the first part that is not at its place starts where the parts before it lie
    induction j using Nat.strongRecOn with
    | ind j ih =>
      intro hj
      obtain ⟨low, high⟩ := early j hj
      refine Int.le_antisymm high (Int.not_lt.1 fun ahead => ?_)
      obtain ⟨i, lt, reaches⟩ := exists_reaches j low ahead
      have here : Reaches sizes starts j (starts j) :=
        ⟨sizes[j], getElem?_eq_getElem hj, Int.le_refl
          _, by have := pos sizes[j] (getElem_mem hj); omega⟩
      have met := tiles.apart i j _ ((same (ih i lt (by omega))).2 reaches) here
      omega
  · intro placed
    have all : ∀ {j p}, Reaches sizes starts j p ↔ Reaches sizes (place sizes) j p := by
      grind [List.getElem?_eq_none_iff, Reaches]
    have tiles := tiles_place pos
    exact ⟨fun i j p hi hj => tiles.apart i j p (all.1 hi) (all.1 hj),
      fun p low high => (tiles.covers p low high).imp fun _ => all.2⟩

end Tiling

/-! ## Masks -/

def kept {α : Type} : List Bool → List α → List α
  | true :: ms, x :: xs => x :: kept ms xs
  | false :: ms, _ :: xs => kept ms xs
  | _, _ => []

def rank (ms : List Bool) (j : Nat) : Nat := (ms.take j).count true

@[simp] theorem rank_zero (ms : List Bool) : rank ms 0 = 0 := rfl

@[simp] theorem rank_false (ms : List Bool) (j : Nat) :
    rank (false :: ms) (j + 1) = rank ms j := by simp [rank]

@[simp] theorem rank_true (ms : List Bool) (j : Nat) : rank (true :: ms) (j + 1) = rank ms j +
    1 := by simp [rank]

section Masks

variable {α β : Type}

theorem map_kept (f : α → β) (ms : List Bool) (xs : List α) :
    (kept ms xs).map f = kept ms (xs.map f) := by
  fun_induction kept ms xs with
  | case1 ms x xs ih => simp [kept, ih]
  | case2 ms x xs ih => simpa [kept] using ih
  | case3 ms xs no no' =>
    cases ms with
    | nil => simp [kept]
    | cons m ms =>
      cases xs with
      | nil => simp [kept]
      | cons x xs => cases m <;> simp at no no'

theorem getElem?_kept {xs : List α} (mask : ms[j]? = some true) :
    (kept ms xs)[rank ms j]? = xs[j]? := by
  induction ms generalizing xs j with
  | nil => cases mask
  | cons m ms ih =>
    cases xs with
    | nil => cases m <;> simp [kept]
    | cons x xs =>
      cases j with
      | zero => grind [kept, rank]
      | succ j =>
        have later : (kept ms xs)[rank ms j]? = xs[j]? := ih (by simpa using mask)
        cases m <;> simpa [kept, rank] using later

theorem length_kept {xs : List α} (length : ms.length = xs.length) :
    (kept ms xs).length = ms.count true := by
  fun_induction kept ms xs with
  | case1 ms x xs ih => simpa using ih (by simpa using length)
  | case2 ms x xs ih => simpa using ih (by simpa using length)
  | case3 ms xs no no' =>
    cases ms with
    | nil => rfl
    | cons m ms =>
      obtain ⟨x, xs, rfl⟩ := exists_cons_of_length_eq_add_one length.symm
      cases m <;> simp at no no'

theorem exists_kept [Inhabited α] {xs : List α} (length : xs.length = ms.count true) :
    ∃ all : List α, ms.length = all.length ∧ kept ms all = xs := by
  induction ms generalizing xs with
  | nil => exact ⟨[], rfl, (length_eq_zero_iff.1 length).symm⟩
  | cons m ms ih =>
    cases m with
    | false =>
      obtain ⟨all, same, rfl⟩ := ih (show xs.length = ms.count true by simpa using length)
      exact ⟨default :: all, by simp [same], rfl⟩
    | true =>
      obtain ⟨x, xs, rfl⟩ := exists_cons_of_length_eq_add_one (length.trans count_cons_self)
      obtain ⟨all, same, rfl⟩ := ih (show xs.length = ms.count true by simpa using length)
      exact ⟨x :: all, by simp [same], rfl⟩

end Masks

/-- What is left before an input is at most what was given before it, and all of that exactly if
nothing has been taken away. -/
theorem place_kept {sizes : List Int} (pos : ∀ n ∈ sizes, 0 < n) (length : ms.length = sizes.length)
    (j : Nat) :
    0 ≤ place (kept ms sizes) (rank ms j) ∧ place (kept ms sizes) (rank ms j) ≤ place sizes j ∧
      (place (kept ms sizes) (rank ms j) = place sizes j ↔ ∀ i < j, i < ms.length →
        ms[i]? = some true) := by
  induction ms generalizing sizes j with
  | nil => cases length_eq_zero_iff.1 length.symm; simp [kept, place]
  | cons m ms ih =>
    cases sizes with
    | nil => cases length
    | cons n sizes =>
      cases j with
      | zero => simp [place, rank]
      | succ j =>
        have here := pos n mem_cons_self
        obtain ⟨low, high, all⟩ := ih (fun n hn => pos n (mem_cons_of_mem _ hn))
          (by simpa using length) j
        have step : place (n :: sizes) (j + 1) = n + place sizes j := by simp [place]
        have split : (∀ i < j + 1, i < (m :: ms).length → (m :: ms)[i]? = some true) ↔
            m = true ∧ ∀ i < j, i < ms.length → ms[i]? = some true := by
          constructor
          · intro h
            refine ⟨by simpa using h 0 (by omega) (by simp), fun i lt bound => ?_⟩
            grind
          · grind
        rw [split]
        cases m with
        | true =>
          have first : place (kept (true :: ms) (n :: sizes)) (rank (true :: ms) (j + 1)) = n +
            place (kept ms sizes) (rank ms j) := by
            simp [kept, rank, place]
          grind
        | false =>
          have first : place (kept (false :: ms) (n :: sizes)) (rank (false :: ms) (j + 1)) = place
            (kept ms sizes) (rank ms j) := by
            simp [kept, rank]
          grind

/-! ## Taking inputs away -/

def without (ks : List Nat) : Nat → List Bool → List Bool
  | _, [] => []
  | p, false :: ms => false :: without ks p ms
  | p, true :: ms => (!ks.contains p) :: without ks (p + 1) ms

theorem length_without (ks : List Nat) (p : Nat) (ms : List Bool) :
    (without ks p ms).length = ms.length := by
  fun_induction without ks p ms <;> simp [*]

theorem getElem?_without (ks : List Nat) (p : Nat) (ms : List Bool) (j : Nat) :
    (without ks p ms)[j]? = ms[j]?.map fun m => m && !ks.contains (p + rank ms j) := by
  fun_induction without ks p ms generalizing j with
  | case1 => simp
  | case2 p ms ih =>
    cases j with
    | zero => simp
    | succ j => simpa using ih j
  | case3 p ms ih =>
    cases j with
    | zero => simp
    | succ j => simpa [Nat.add_assoc, Nat.add_comm 1] using ih j

theorem without_nil (p : Nat) (ms : List Bool) : without [] p ms = ms := by
  fun_induction without [] p ms <;> simp [*]

theorem without_cons {k : Nat} (passed : k < p) : without (k :: ks) p ms = without ks p ms := by
  fun_induction without ks p ms with
  | case1 => rfl
  | case2 p ms ih => rw [without, ih passed]
  | case3 p ms ih => grind [without]

/-- A walk has taken the inputs at the positions `ks` away and left the others, or it has stopped
before the end. -/
def Removal.Walked (name : Option String) (ts : List TensorId) (as : List Accessor) (s : Removal)
    (ms : List Bool)
    (given : List TensorId) (accs : List Accessor) (ks : List Nat) (rest : List Int) : Prop :=
  (∃ q, ms.foldlM (Removal.step name ts as) s = .ok ⟨s.masks ++ without ks s.position ms,
    s.inputs ++ kept (without ks s.position ms) given, s.accessors ++
      kept (without ks s.position ms) accs, q, rest⟩) ∨
  rest ≠ [] ∧ ∃ f r i, ms.foldlM (Removal.step name ts as) s = .error (f, r) ∧
    r.masks.length = s.masks.length + i ∧
    r.masks ++ ms.drop i = s.masks ++ without ks s.position ms

theorem Removal.Walked.cons {given : List TensorId} {accs : List Accessor} {s₁ : Removal}
    {m m' : Bool} {y : TensorId} {b : Accessor} {ks' : List Nat} {rest : List Int}
    (w : Walked name ts as s₁ ms given accs ks rest) (step : Removal.step name ts as s m = .ok s₁)
    (masks : s₁.masks = s.masks ++ [m']) (inputs : s₁.inputs = s.inputs ++ kept [m'] [y])
    (accessors : s₁.accessors = s.accessors ++ kept [m'] [b])
    (next : without ks' s.position (m :: ms) = m' :: without ks s₁.position ms) :
    Walked name ts as s (m :: ms) (y :: given) (b :: accs) ks' rest := by
  have on :
      (m :: ms).foldlM (Removal.step name ts as) s = ms.foldlM (Removal.step name ts as) s₁ := by
    rw [foldlM_cons, step]
    rfl
  have cut : ∀ {α : Type} (x : α) w xs, kept (m' :: w) (x :: xs) = kept [m'] [x] ++ kept w xs := by
    cases m' <;> simp [kept]
  unfold Walked
  rw [on, next, cut y, cut b]
  rcases w with ⟨q, run⟩ | ⟨more, f, r, i, run, size, closed⟩
  · grind
  · exact Or.inr ⟨more, f, r, i + 1,
      run, by simp [masks] at size; omega, by simpa [masks] using closed⟩

/-- A walk over the masks takes away the inputs at a front of the pending positions: at all of them,
unless it stops at a strided input or does not meet a position. -/
theorem Removal.walk {given : List TensorId} {accs : List Accessor}
    (left : ts.drop s.position = kept ms given) (reach : as.drop s.position = kept ms accs)
    (length : ms.length = given.length) (length' : ms.length = accs.length) :
    ∃ ks rest, s.pending = ks.map Int.ofNat ++ rest ∧ (∀ k ∈ ks, s.position ≤ k) ∧
      (without ks s.position ms).count true + ks.length = ms.count true ∧
        Walked name ts as s ms given accs ks rest := by
  induction ms generalizing given accs s with
  | nil => exact ⟨[], s.pending,
    rfl, by simp, rfl, Or.inl ⟨s.position, by simp [without, kept]; rfl⟩⟩
  | cons m ms ih =>
    obtain ⟨y, given, rfl⟩ := exists_cons_of_length_eq_add_one length.symm
    obtain ⟨b, accs, rfl⟩ := exists_cons_of_length_eq_add_one length'.symm
    replace ih := fun {s} left reach => @ih s given accs left reach (by simpa using length)
      (by simpa using length')
    cases m with
    | false =>
      obtain ⟨ks, rest, pending, ahead, count, done⟩ :=
        ih (s := { s with masks := s.masks ++ [false] }) left reach
      exact ⟨ks, rest, pending, ahead, by simpa [without] using count, done.cons rfl rfl (by
        simp [kept]) (by simp [kept]) rfl⟩
    | true =>
      have hy : ts[s.position]? = some y := by rw [← head?_drop, left]; rfl
      have hb : as[s.position]? = some b := by rw [← head?_drop, reach]; rfl
      have left : ts.drop (s.position + 1) = kept ms given := by rw [← tail_drop, left]; rfl
      have reach : as.drop (s.position + 1) = kept ms accs := by rw [← tail_drop, reach]; rfl
      by_cases next : s.pending.head? = some (s.position : Int)
      · obtain ⟨is, hp⟩ : ∃ is, s.pending = (s.position : Int) :: is :=
          ⟨_, eq_cons_of_mem_head? next⟩
        by_cases strided : b.strideDim.isSome
        · have stops : Removal.step name ts as s true =
            .error (.concatStrided s.position name, s) := by
            simp [Removal.step, hy, hb, hp, strided]
          refine ⟨[], s.pending, rfl, by simp, by simp [without_nil],
            Or.inr ⟨by simp [hp], .concatStrided s.position name, s, 0, ?_,
              rfl, by simp [without_nil]⟩⟩
          rw [foldlM_cons, stops]
          rfl
        · obtain ⟨ks, rest, pending, ahead, count, done⟩ := ih (s := { s with
            masks := s.masks ++ [false], position := s.position + 1, pending := is }) left reach
          have shut : without (s.position :: ks) s.position (true :: ms) = false :: without ks
            (s.position + 1) ms := by
            rw [without, without_cons (by omega)]
            simp
          refine ⟨s.position :: ks, rest, by simpa [hp] using pending,
            forall_mem_cons.2 ⟨Nat.le_refl _, fun k hk => Nat.le_of_succ_le (ahead k hk)⟩, ?_,
            done.cons (by simp [Removal.step, hy, hb, hp, strided]) rfl (by simp [kept])
              (by simp [kept]) shut⟩
          grind
      · obtain ⟨ks, rest, pending, ahead, count, done⟩ := ih (s := { s with
          masks := s.masks ++ [true], inputs := s.inputs ++ [y], accessors := s.accessors ++ [b],
            position := s.position + 1 }) left reach
        have passed : s.position ∉ ks := fun h => absurd (ahead _ h) (by simp)
        have stays :
            without ks s.position (true :: ms) = true :: without ks (s.position + 1) ms := by
          rw [without]
          simp [passed]
        refine ⟨ks, rest, pending, fun k hk => Nat.le_of_succ_le (ahead k hk), ?_,
          done.cons (by simp [Removal.step, hy, hb, next]) rfl rfl rfl stays⟩
        grind

end Concat

end TensorGraph

import Mathlib.Data.List.Nodup
import TensorGraph.SignedIndex

/-!
# Lists without repetition

Members in the order in which they first occur, and tables in which no key has two entries.
-/

namespace List

theorem forall_mem_snoc {α : Type _} {p : α → Prop} {l : List α} {a : α} : (∀ x ∈ l ++ [a], p x) ↔
    (∀ x ∈ l, p x) ∧ p a := by
  rw [forall_mem_append, forall_mem_singleton]

section Distinct

variable {α : Type _} [DecidableEq α]

theorem mem_distinct {xs : List α} {a : α} : a ∈ xs.distinct ↔ a ∈ xs := by
  suffices walk : ∀ acc : List α,
      a ∈ xs.foldl (fun acc x => if acc.contains x then acc else acc ++ [x]) acc ↔ a ∈ acc ∨
        a ∈ xs by
    simpa [distinct] using walk []
  induction xs with
  | nil => simp
  | cons x xs ih =>
    intro acc
    rw [foldl_cons, ih]
    split
    · next h =>
      have h : x ∈ acc := by simpa using h
      rw [mem_cons]
      grind
    · grind

theorem nodup_distinct (xs : List α) : xs.distinct.Nodup := by
  suffices walk : ∀ acc : List α, acc.Nodup →
      (xs.foldl (fun acc x => if acc.contains x then acc else acc ++ [x]) acc).Nodup by
    exact walk [] nodup_nil
  induction xs with
  | nil => exact fun acc h => h
  | cons x xs ih =>
    intro acc h
    rw [foldl_cons]
    grind

theorem distinct_eq_self {xs : List α} (nodup : xs.Nodup) : xs.distinct = xs := by
  suffices walk : ∀ acc : List α, (acc ++ xs).Nodup →
      xs.foldl (fun acc x => if acc.contains x then acc else acc ++ [x]) acc = acc ++ xs by
    simpa [distinct] using walk [] nodup
  clear nodup
  induction xs with
  | nil => exact fun acc _ => (append_nil acc).symm
  | cons x xs ih => grind

theorem pairwise_distinct {R : α → α → Prop} {xs : List α}
    (before : ∀ l a r, xs = l ++ a :: r → ∀ b, R b a → b ∈ l) :
    xs.distinct.Pairwise fun a b => ¬ R b a := by
  suffices walk : ∀ done acc : List α, (∀ a, a ∈ acc ↔ a ∈ done) →
    (acc.Pairwise fun a b => ¬ R b a) →
      (∀ l a r, done ++ xs = l ++ a :: r → ∀ b, R b a → b ∈ l) →
      (xs.foldl (fun acc x => if acc.contains x then acc else acc ++ [x]) acc).Pairwise fun a b =>
        ¬ R b a by
    exact walk [] [] (by simp) Pairwise.nil before
  clear before
  induction xs with
  | nil => exact fun _ _ _ sorted _ => sorted
  | cons x xs ih =>
    intro done acc same sorted before
    rw [foldl_cons]
    have rest : ∀ l a r, (done ++ [x]) ++ xs = l ++ a :: r → ∀ b, R b a → b ∈ l := by
      simpa using before
    split
    · next known =>
      have known : x ∈ done := (same x).1 (by simpa using known)
      exact ih (done ++ [x]) acc (by grind) sorted rest
    · next fresh =>
      have fresh : x ∉ done := fun h => fresh (by simpa using (same x).2 h)
      refine ih (done ++ [x]) (acc ++ [x]) (by grind) (pairwise_append.2 ⟨sorted, by simp, ?_⟩) rest
      intro a ha b hb first
      obtain rfl := mem_singleton.1 hb
      obtain ⟨l, r, split⟩ := append_of_mem ((same a).1 ha)
      grind

end Distinct

theorem Pairwise.or_of_ne {α : Type _} {R : α → α → Prop} {xs : List α} (h : xs.Pairwise R)
    {a b : α} (ha : a ∈ xs) (hb : b ∈ xs) (ne : a ≠ b) : R a b ∨ R b a := by
  induction h with
  | nil => cases ha
  | @cons x xs first _ ih =>
    rcases mem_cons.1 ha with rfl | ha'
    · grind
    · grind

theorem filter_eq_singleton {α : Type _} [DecidableEq α] {xs : List α} {p : α → Bool} {a : α}
    (nodup : xs.Nodup) (ha : a ∈ xs) (only : ∀ x ∈ xs, p x = true ↔ x = a) : xs.filter p = [a] := by
  have same : xs.filter p = xs.filter (· == a) := filter_congr fun x hx => by
    rw [Bool.eq_iff_iff, only x hx, beq_iff_eq]
  rw [same, filter_beq, count_eq_one_of_mem nodup ha]
  rfl

section Keys

variable {α β : Type _} {xs : List (α × β)}

theorem value_unique (keys : (xs.map (·.1)).Nodup) {k : α} {v w : β} (hv : (k, v) ∈ xs)
    (hw : (k, w) ∈ xs) : v = w := by
  induction xs with
  | nil => cases hv
  | cons e xs ih =>
    rw [map_cons, nodup_cons] at keys
    rcases mem_cons.1 hv with rfl | hv'
    · grind
    · grind

theorem lookup_eq_some_iff_mem [BEq α] [LawfulBEq α] (keys : (xs.map (·.1)).Nodup) {k : α} {v : β} :
    xs.lookup k = some v ↔ (k, v) ∈ xs := by
  constructor
  · grind [lookup_eq_some_iff]
  · intro h
    cases hl : xs.lookup k with
    | none => grind
    | some w => grind [lookup_eq_some_iff]

variable [BEq α] [LawfulBEq α]

theorem map_fst_replace (xs : List (α × β)) (k : α) (v : β) :
    (xs.map fun e => if e.1 == k then (k, v) else e).map (·.1) = xs.map (·.1) := by
  rw [map_map]
  refine map_congr_left fun e _ => ?_
  by_cases h : e.1 = k <;> simp [h]

theorem mem_setKey {k : α} {v : β} {e : α × β} :
    e ∈ (if xs.any (·.1 == k) then xs.map fun e => if e.1 == k then (k, v) else e else xs ++
      [(k, v)]) ↔ e = (k, v) ∨ e ∈ xs ∧ e.1 ≠ k := by
  split
  · next known =>
    obtain ⟨f, hf, hk⟩ := any_eq_true.1 known
    have hk : f.1 = k := by simpa using hk
    rw [mem_map]
    grind
  · next unknown =>
    have fresh : ∀ f ∈ xs, f.1 ≠ k := by grind
    grind

theorem lookup_replace (xs : List (α × β)) (k : α) (v : β) (j : α) :
    (xs.map fun e => if e.1 == k then (k, v) else e).lookup j =
      if j == k then (if xs.any (·.1 == k) then some v else none) else xs.lookup j := by
  induction xs with
  | nil => simp
  | cons e xs ih =>
    rw [map_cons, any_cons, lookup_cons, lookup_cons, ih]
    by_cases here : e.1 = k
    · grind
    · by_cases same : j = k
      · grind
      · simp [here, same]

/-- Setting a key changes its own entry only. -/
theorem lookup_setKey (xs : List (α × β)) (k : α) (v : β) (j : α) :
    (if xs.any (·.1 == k) then xs.map fun e => if e.1 == k then (k, v) else e else xs ++
      [(k, v)]).lookup j = if j == k then some v else xs.lookup j := by
  split
  · next known => rw [lookup_replace, if_pos known]
  · next fresh =>
    rw [lookup_append, lookup_cons]
    by_cases same : j = k
    · grind
    · grind

end Keys

end List

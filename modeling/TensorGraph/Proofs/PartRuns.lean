import TensorGraph.Fusion.Concat

/-!
# Runs of parts

The parts of a tensor can be replaced by the tensor in a list if they occur there only in runs of
all of them, in order (`InRuns`).
-/

namespace TensorGraph

namespace ConcatFusion

open List

/-- Parts occur in a list only in runs of all of them. -/
inductive InRuns (parts : List TensorId) : List TensorId → Prop
  | nil : InRuns parts []
  | run {us : List TensorId} (rest : InRuns parts us) : InRuns parts (parts ++ us)
  | other {x : TensorId} {us : List TensorId} (no : x ∉ parts) (rest : InRuns parts us) :
    InRuns parts (x :: us)

/-- A list with the whole in the place of every run of parts. -/
inductive Contracts (parts whole : List TensorId) : List TensorId → List TensorId → Prop
  | nil : Contracts parts whole [] []
  | run {us vs : List TensorId} (rest : Contracts parts whole us vs) :
    Contracts parts whole (parts ++ us) (whole ++ vs)
  | other {x : TensorId} {us vs : List TensorId} (no : ¬ parts <+: x :: us)
    (rest : Contracts parts whole us vs) :
      Contracts parts whole (x :: us) (x :: vs)

theorem contracts_contract {parts : List TensorId} (whole : List TensorId) (ne : parts ≠ [])
    {n : Nat} {us : List TensorId} (enough : us.length < n) :
    Contracts parts whole us (contract parts whole n us) := by
  fun_induction contract parts whole n us with
  | case1 => omega
  | case2 => exact .nil
  | case3 n t ts found ih =>
    simp only [Bool.and_eq_true] at found
    obtain ⟨rest, split⟩ := isPrefixOf_iff_prefix.1 found.2
    have pos : 0 < parts.length := length_pos_iff.2 ne
    have step := ih (by
      grind)
    rw [← split, drop_left] at step ⊢
    exact .run step
  | case4 n t ts found ih =>
    refine .other (fun start => found ?_) (ih (by simpa using enough))
    simp [ne, isPrefixOf_iff_prefix.2 start]

section

variable {parts : List TensorId} {x : TensorId} {us : List TensorId}

theorem InRuns.tail (no : x ∉ parts) (ne : parts ≠ []) (h : InRuns parts (x :: us)) :
    InRuns parts us := by
  generalize list : x :: us = l at h
  cases h with
  | nil => cases list
  | run rest =>
    obtain ⟨p, ps, rfl⟩ := exists_cons_of_ne_nil ne
    grind
  | other _ rest => grind

theorem InRuns.run_of_mem (yes : x ∈ parts) (h : InRuns parts (x :: us)) :
    ∃ vs, x :: us = parts ++ vs ∧ InRuns parts vs := by
  generalize list : x :: us = l at h
  cases h with
  | nil => cases list
  | run rest => exact ⟨_, rfl, rest⟩
  | other no rest => grind

theorem InRuns.behind (ne : parts ≠ []) (h : InRuns parts (parts ++ us)) : InRuns parts us := by
  obtain ⟨p, ps, rfl⟩ := exists_cons_of_ne_nil ne
  rw [cons_append] at h
  obtain ⟨vs, same, rest⟩ := h.run_of_mem mem_cons_self
  simp_all

theorem inRuns_append {ws : List TensorId} (no : ∀ w ∈ ws, w ∉ parts) (ne : parts ≠ []) :
    InRuns parts (ws ++ us) ↔ InRuns parts us := by
  induction ws with
  | nil => rfl
  | cons w ws ih =>
    have rest := ih fun v hv => no v (mem_cons_of_mem _ hv)
    exact ⟨fun h => rest.1 (h.tail (no w mem_cons_self) ne), fun h =>
      .other (no w mem_cons_self) (rest.2 h)⟩

end

namespace Contracts

variable {parts whole us vs : List TensorId}

theorem inRuns_iff_gone (ne : parts ≠ []) (apart : ∀ w ∈ whole, w ∉ parts)
    (h : Contracts parts whole us vs) :
    InRuns parts us ↔ ∀ v ∈ vs, v ∉ parts := by
  induction h with
  | nil => exact ⟨fun _ _ hv => absurd hv not_mem_nil, fun _ => .nil⟩
  | run _ ih =>
    constructor
    · intro runs v hv
      rcases mem_append.1 hv with hv | hv
      · exact apart v hv
      · exact ih.1 (runs.behind ne) v hv
    · exact fun gone => .run (ih.2 fun v hv => gone v (mem_append_right _ hv))
  | @other x _ _ no _ ih =>
    constructor
    · intro runs v hv
      have other : x ∉ parts := by
        intro mem
        obtain ⟨ws, same, -⟩ := runs.run_of_mem mem
        exact no ⟨ws, same.symm⟩
      rcases mem_cons.1 hv with rfl | hv
      · exact other
      · exact ih.1 (runs.tail other ne) v hv
    · exact fun gone => .other (gone _ mem_cons_self)
        (ih.2 fun v hv => gone v (mem_cons_of_mem _ hv))

theorem mem (h : Contracts parts whole us vs) : ∀ v ∈ vs, v ∈ whole ∨ v ∈ us := by
  induction h with
  | nil => simp
  | run _ ih => grind
  | other _ _ ih => grind

theorem mem_of_not_mem (h : Contracts parts whole us vs) : ∀ u ∈ us, u ∉ parts → u ∈ vs := by
  induction h with
  | nil => simp
  | run _ ih => grind
  | other _ _ ih => grind

theorem replaced (h : Contracts parts whole us vs) (gone : ∀ v ∈ vs, v ∉ parts) {p : TensorId}
    (hp : p ∈ parts) (hu : p ∈ us) :
    (∀ w ∈ whole, w ∈ vs) ∧ ∀ q ∈ parts, q ∈ us := by
  induction h with
  | nil => cases hu
  | run => grind
  | other _ _ ih =>
    rcases mem_cons.1 hu with rfl | hu
    · exact absurd hp (gone p mem_cons_self)
    · grind

theorem cons (ne : parts ≠ []) {x : TensorId} (no : x ∉ parts)
    (h : Contracts parts whole (x :: us) vs) :
    ∃ ws, vs = x :: ws ∧ Contracts parts whole us ws := by
  generalize list : x :: us = l at h
  cases h with
  | nil => cases list
  | run =>
    obtain ⟨p, ps, rfl⟩ := exists_cons_of_ne_nil ne
    grind
  | other _ rest => grind

theorem of_cons (ne : whole ≠ []) {x : TensorId} (no : x ∉ whole)
    (h : Contracts parts whole us (x :: vs)) :
    ∃ ws, us = x :: ws ∧ Contracts parts whole ws vs := by
  generalize list : x :: vs = l at h
  cases h with
  | nil => cases list
  | run =>
    obtain ⟨p, ps, rfl⟩ := exists_cons_of_ne_nil ne
    grind
  | other _ rest => grind

theorem append {as : List TensorId} (ne : parts ≠ []) (no : ∀ a ∈ as, a ∉ parts)
    (h : Contracts parts whole (as ++ us) vs) :
    ∃ ws, vs = as ++ ws ∧ Contracts parts whole us ws := by
  induction as generalizing vs with
  | nil => exact ⟨vs, rfl, h⟩
  | cons a as ih =>
    obtain ⟨ws, rfl, first⟩ := h.cons ne (no a mem_cons_self)
    simp_all

theorem of_append {as : List TensorId} (ne : whole ≠ []) (no : ∀ a ∈ as, a ∉ whole)
    (h : Contracts parts whole us (as ++ vs)) :
    ∃ ws, us = as ++ ws ∧ Contracts parts whole ws vs := by
  induction as generalizing us with
  | nil => exact ⟨us, rfl, h⟩
  | cons a as ih =>
    obtain ⟨ws, rfl, first⟩ := h.of_cons ne (no a mem_cons_self)
    simp_all

/-- Replacing the runs of some parts neither makes nor breaks runs of others. -/
theorem inRuns_iff {others : List TensorId} (ne : parts ≠ []) (ne' : whole ≠ [])
    (some : others ≠ []) (apart : ∀ a ∈ others, a ∉ parts ∧ a ∉ whole)
    (h : Contracts parts whole us vs) : InRuns others us ↔ InRuns others vs := by
  have noParts : ∀ p ∈ parts, p ∉ others := fun p hp ho => (apart p ho).1 hp
  have noWhole : ∀ w ∈ whole, w ∉ others := fun w hw ho => (apart w ho).2 hw
  -- a run of the others is longer than one turn, so the induction is on the length of the list
  induction n : us.length using Nat.strongRecOn generalizing us vs with
  | ind n ih =>
    subst n
    have pos : 0 < others.length := length_pos_iff.2 some
    cases h with
    | nil => rfl
    | @run us vs rest => grind [length_pos_iff, length_append, inRuns_append]
    | @other x us vs no rest =>
      by_cases mem : x ∈ others
      · have whole : Contracts parts whole (x :: us) (x :: vs) := .other no rest
        constructor
        · intro runs
          obtain ⟨ws, same, runs⟩ := runs.run_of_mem mem
          rw [same] at whole
          obtain ⟨zs, same', rest⟩ := whole.append ne fun a ha => (apart a ha).1
          have shorter : ws.length < (x :: us).length := by
            rw [same, length_append]
            omega
          rw [same']
          exact .run ((ih _ shorter rest rfl).1 runs)
        · intro runs
          obtain ⟨zs, same, runs⟩ := runs.run_of_mem mem
          rw [same] at whole
          obtain ⟨ws, same', rest⟩ := whole.of_append ne' fun a ha => (apart a ha).2
          have shorter : ws.length < (x :: us).length := by
            rw [same', length_append]
            omega
          rw [same']
          exact .run ((ih _ shorter rest rfl).2 runs)
      · have step := ih us.length (by simp) rest rfl
        exact ⟨fun runs => .other mem (step.1 (runs.tail mem some)), fun runs =>
          .other mem (step.2 (runs.tail mem some))⟩

end Contracts

end ConcatFusion

end TensorGraph

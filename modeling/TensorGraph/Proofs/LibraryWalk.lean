import TensorGraph.Proofs.OutputNumbers

/-!
# Walking over a graph to write its library

`Assembled` says what the library holds after the tensors in front: where pointers point, which
slots are known, which records and copies there are.
-/

namespace TensorGraph.Library

open TensorGraph.Graph List

def Stored (g : Arena) (t : TensorId) : Prop := (g.tensor t).src.ops ≠ [] ∧
    (g.tensor t).external = none

instance (g : Arena) (t : TensorId) : Decidable (Stored g t) := inferInstanceAs (Decidable (_ ∧ _))

def OutputAlias (g : Arena) (t : TensorId) : Prop := (g.tensor t).isOutput ∨
    (g.tensor t).hasOutputAliases

instance (g : Arena) (t : TensorId) : Decidable (OutputAlias g t) :=
  inferInstanceAs (Decidable (_ ∨ _))

def BaseNumber (g : Arena) (m : List (String × Nat)) (t : TensorId) (i : Nat) : Prop :=
  ∃ r, Shows g t r ∧ (g.tensor r).viewOf = none ∧ m.lookup (label g r) = some i

theorem BaseNumber.unique {g : Arena} {m : List (String × Nat)} {t : TensorId} {i j : Nat}
    (h : BaseNumber g m t i) (h' : BaseNumber g m t j) : i = j := by
  obtain ⟨r, shows_, last, hi⟩ := h
  obtain ⟨r', shows', last', hj⟩ := h'
  grind [shown_unique, Option.some.inj]

def Goes (g : Arena) (outputs : List TensorId) (m : List (String × Nat)) (t : TensorId) (i : Nat) :
    Prop :=
  if Stored g t then BaseNumber g m t i else i = outputs.idxOf t

def copyOf (g : Arena) (outputs : List TensorId) (inputs : Nat) (t : TensorId) : Copy :=
  ⟨outputs.idxOf t + inputs, label g ((g.tensor t).external.getD t),
    ((g.tensor t).shape.map g.dim).map sizeText, (Dtype.size? (g.tensor t).dtype).toOption.getD 0⟩

/-- What a marked and planned graph has to be for its library to be written. -/
structure Ready (g : Arena) (platform : Platform) (e : Emitter) (ts : List TensorId) : Prop where
  before : ∀ t ∈ ts, ∀ v, (g.tensor t).viewOf = some v → Before ts v t
  produced : ∀ t ∈ ts, (g.tensor t).viewOf.isSome → (g.tensor t).src.ops ≠ []
  distinct : (ts.map (label g)).Nodup
  present : ∀ t ∈ ts, (g.tensor t).nop = false
  param : ∀ t ∈ ts, (g.tensor t).isParam = ((g.tensor t).src.ops.isEmpty && !(g.tensor t).isInput)
  inputs : ∀ t ∈ ts, (g.tensor t).isInput → (g.tensor t).src.ops = []
  typed : ∀ t ∈ ts, (∃ x, pointerText? platform (g.tensor t).dtype = .ok x) ∧
    (∃ x, Record.dtypeText? (g.tensor t).dtype = .ok x) ∧ ∃ n, Dtype.size?
      (g.tensor t).dtype = .ok n
  placed : ∀ t ∈ ts, (g.tensor t).viewOf = none → (g.tensor t).src.ops ≠ [] →
    ∃ a, (g.tensor t).offset = some a ∧ 0 ≤ a
  constants : ∀ t ∈ ts, (g.tensor t).data.isSome → ∃ a, (g.tensor t).offset = some a ∧ 0 ≤ a
  emits : ∀ t ∈ ts, ∀ o ∈ (g.tensor t).src.ops, (∃ d, e.decl o = .ok d) ∧ ∃ c, e.call o = .ok c
  inside : ∀ t ∈ ts, (g.tensor t).external = none ↔ Inside g t
  outside : ∀ t ∈ ts, ∀ x, (g.tensor t).external = some x → Shows g t x
  decided : ∀ v ∈ ts, (g.tensor v).hasOutputAliases ↔ ∃ u, firstView? g ts v = some u ∧
    OutputAlias g u

namespace Model

/-- The library after the tensors of `front`. -/
structure Assembled (g : Arena) (platform : Platform) (ts outputs front : List TensorId)
    (m : Model) : Prop where
  platform : m.platform = platform
  numbers : m.outputs = outputSlots g ts outputs
  inputCount : m.inputCount = (ts.filter fun t => (g.tensor t).isInput).length
  outputCount : m.outputCount = (ts.filter fun t => (g.tensor t).isOutput).length
  next : m.nextInput = (front.filter fun t => (g.tensor t).isInput).length
  names : ∀ k ∈ m.names, k ∈ front.map (label g)
  held : ∀ t ∈ front, (m.storage (label g t)).isSome
  views : ∀ t ∈ front, ∀ v, (g.tensor t).viewOf = some v → v ∈ front ∧
    m.storage (label g t) = m.storage (label g v)
  bound : ∀ t ∈ front, Stored g t → OutputAlias g t → ∃ i, BaseNumber g m.outputs t i ∧
    m.slots.lookup (label g t) = some (i + m.inputCount : Int) ∧
      m.storage (label g t) = some (.buffer (i + m.inputCount))
  unbound : ∀ t ∈ front, Stored g t → ¬ OutputAlias g t → m.slots.lookup (label g t) = none
  records : ∃ rs : List (TensorId × Nat), rs.map (·.1) = front.filter
    (fun t => (g.tensor t).isOutput) ∧
    (∀ p ∈ rs, Goes g outputs m.outputs p.1 p.2) ∧ m.outputRecords = rs.map fun p =>
      recordOf g p.1 (p.2 + m.inputCount)
  copies : m.copies = (front.filter fun t => (g.tensor t).isOutput && !decide (Stored g t)).map
    (copyOf g outputs m.inputCount)

section Walk

variable {g : Arena} {platform : Platform} {ts outputs front : List TensorId} {m m' : Model}

theorem Assembled.of_core (h : Assembled g platform ts outputs front m) (same : m'.core = m.core) :
    Assembled g platform ts outputs front m' := by
  have core : Assembled g platform ts outputs front m'.core := same ▸ { h with }
  exact { core with }

section Add

variable {t : TensorId} {s : Option Storage} {slot : Option Int} {records : List Record}
  {copies : List Copy} {inputs : Nat}
  (h : Assembled g platform ts outputs front m) (fresh : label g t ∉ front.map (label g))
  (added : Added (front.map (label g)) (label g t) s slot records copies inputs m m')
    (held : s.isSome)
  (view : ∀ v, (g.tensor t).viewOf = some v → v ∈ front ∧ s = m.storage (label g v))
  (counted : inputs = if (g.tensor t).isInput then 1 else 0)
include h fresh added held view counted

theorem Assembled.add
    (bound : Stored g t → OutputAlias g t →
      ∃ i, BaseNumber g m.outputs t i ∧ slot = some (i + m.inputCount : Int) ∧
        s = some (.buffer (i + m.inputCount)))
    (unbound : Stored g t → ¬ OutputAlias g t → slot = none)
    (recorded : if (g.tensor t).isOutput then ∃ i : Nat, Goes g outputs m.outputs t i ∧
      records = [recordOf g t (i + m.inputCount)] else records = [])
    (copied : copies = if (g.tensor t).isOutput && !decide (Stored g t) then
      [copyOf g outputs m.inputCount t] else []) :
    Assembled g platform ts outputs (front ++ [t]) m' := by
  have apart : ∀ u ∈ front, label g u ≠ label g t := fun u hu same =>
    fresh (same ▸ mem_map_of_mem hu)
  have storage : ∀ u ∈ front, m'.storage (label g u) = m.storage (label g u) := fun u hu => by
    rw [added.storage, Function.update_of_ne (apart u hu)]
  have storageNew : m'.storage (label g t) = s := by rw [added.storage, Function.update_self]
  have lookup : ∀ u ∈ front, m'.slots.lookup (label g u) = m.slots.lookup (label g u) := by
    intro u hu
    rw [added.slots]
    grind
  have old : ∀ (P : TensorId → Prop), (∀ u ∈ front, P u) → P t → ∀ u ∈ front ++ [t], P u :=
    fun P all new =>
    forall_mem_append.2 ⟨all, forall_mem_singleton.2 new⟩
  refine ⟨added.platform.trans h.platform, added.outputs.trans h.numbers,
    added.inputCount.trans h.inputCount, added.outputCount.trans h.outputCount, ?_, fun k hk =>
    ?_, old _ (fun u hu => ?_) ?_, old _ (fun u hu v hv => ?_) ?_,
    old _ (fun u hu stored shown => ?_) ?_, old _ (fun u hu stored plain => ?_) ?_, ?_, ?_⟩
  · rw [added.next, h.next, counted, filter_append, length_append, filter_singleton]
    cases (g.tensor t).isInput <;> rfl
  · rw [map_append, mem_append]
    rcases added.names h.names k hk with rfl | hk
    · exact Or.inr (by simp)
    · exact Or.inl hk
  · rw [storage u hu]
    exact h.held u hu
  · rw [storageNew]
    exact held
  · obtain ⟨hvf, same⟩ := h.views u hu v hv
    grind
  · grind
  · rw [storage u hu, lookup u hu, added.outputs, added.inputCount]
    exact h.bound u hu stored shown
  · intro stored shown
    obtain ⟨i, number, rfl, hs⟩ := bound stored shown
    rw [storageNew, added.outputs, added.inputCount, added.slots]
    exact ⟨i, number, by simp, hs⟩
  · rw [lookup u hu]
    exact h.unbound u hu stored plain
  · intro stored plain
    rw [added.slots, unbound stored plain]
    refine lookup_eq_none_iff.2 fun p hp => bne_iff_ne.2 fun same => fresh (h.names _ ?_)
    rw [same]
    exact mem_append_right _ (mem_map_of_mem hp)
  · obtain ⟨rs, tensors, goes, same⟩ := h.records
    rw [added.records, added.outputs, added.inputCount, filter_append, filter_singleton, same]
    cases output : (g.tensor t).isOutput with
    | false => grind
    | true =>
      rw [output] at recorded
      obtain ⟨i, goesT, rfl⟩ := recorded
      exact ⟨rs ++ [(t, i)], by simp [tensors], forall_mem_append.2 ⟨goes,
        forall_mem_singleton.2 goesT⟩, by simp⟩
  · rw [added.copies, h.copies, added.inputCount, copied, filter_append, map_append,
      filter_singleton]
    grind

theorem Assembled.addUnstored (notStored : ¬ Stored g t)
    (recorded : records = if (g.tensor t).isOutput then
      [recordOf g t (outputs.idxOf t + m.inputCount)] else [])
    (copied : copies = if (g.tensor t).isOutput then [copyOf g outputs m.inputCount t] else []) :
    Assembled g platform ts outputs (front ++ [t]) m' := by
  refine h.add fresh added held view counted (fun stored => absurd stored notStored)
    (fun stored => absurd stored notStored) ?_
    (by simp [copied, notStored])
  grind [Goes]

end Add

section Turn

variable {e : Emitter} {back : List TensorId} {t : TensorId} (ready : Ready g platform e ts)
  (perm : outputs.Perm (ts.filter fun t => (g.tensor t).isOutput)) (split : ts = front ++ t :: back)
  (h : Assembled g platform ts outputs front m)
include split

theorem mem_turn : t ∈ ts := by simp [split]

theorem next_lt (h : Assembled g platform ts outputs front m) (input : (g.tensor t).isInput) :
    m.nextInput < m.inputCount := by
  rw [h.next, h.inputCount, split, filter_append, length_append,
    filter_cons_of_pos (p := fun t => (g.tensor t).isInput) input, length_cons]
  omega

include ready

theorem view_front {v : TensorId} (hv : (g.tensor t).viewOf = some v) : v ∈ front := by
  have := ready.before t (mem_turn split) v hv
  rw [split] at this
  exact this.mem_front

theorem fresh_turn : label g t ∉ front.map (label g) := by
  intro mem
  have distinct := ready.distinct
  grind

theorem leaf_turn (leaf : (g.tensor t).src.ops = []) : (g.tensor t).viewOf = none ∧
    (g.tensor t).external = none := by
  have ht := mem_turn split
  have base : (g.tensor t).viewOf = none := by
    by_contra view
    exact ready.produced t ht (Option.isSome_iff_ne_none.2 view) leaf
  exact ⟨base, (ready.inside t ht).2 (inside_of_base base)⟩

theorem made_turn (made : (g.tensor t).src.ops ≠ []) : (g.tensor t).isInput = false ∧
    (g.tensor t).isParam = false := by
  have ht := mem_turn split
  refine ⟨?_, by simp [ready.param t ht, made]⟩
  by_contra input
  exact made (ready.inputs t ht (by simpa using input))

include h

theorem unnamed_turn : label g t ∉ m.names := fun mem => fresh_turn ready split (h.names _ mem)

theorem constant?_added : ∃ m' s, m.constant? g (g.tensor t) = .ok m' ∧
    Added (front.map (label g)) (label g t) (some s) none [] [] 0 m m' := by
  have ht := mem_turn split
  have unnamed := unnamed_turn ready split h
  unfold constant?
  cases data : (g.tensor t).data with
  | some d =>
    obtain ⟨a, offset, nonneg⟩ := ready.constants t ht (by simp [data])
    have placed : place? (.constantPlace (label g t)) (g.tensor t).offset = .ok a := by
      rw [offset]
      exact if_pos nonneg
    dsimp only
    rw [placed]
    have added := Added.constant (front.map (label g)) unnamed (c := .own ⟨label g t, a⟩) rfl
    exact ⟨_, _, rfl, { added with }⟩
  | none =>
    obtain ⟨-, ⟨type, typed⟩, -⟩ := ready.typed t ht
    dsimp only
    rw [record?_eq typed]
    have added := ((Added.constant (front.map (label g)) unnamed (c := .given (label g t))
      rfl).check
      g (g.tensor t) none false).other (r :=
        recordOf g t (m.unbound.length + m.inputCount + m.outputCount)) (by
        show ¬ (_ ∧ (m.unbound.length + m.inputCount + m.outputCount : Int) < _)
        omega)
    exact ⟨_, _, rfl, { added with }⟩

theorem leaf_returns (inner : (g.tensor t).isOutput = false) (leaf : (g.tensor t).src.ops = []) :
    ∃ m', wire? g (g.tensor t) m = .ok m' ∧ Assembled g platform ts outputs (front ++ [t]) m' := by
  have ht := mem_turn split
  have fresh := fresh_turn ready split
  obtain ⟨base, -⟩ := leaf_turn ready split leaf
  have notStored : ¬ Stored g t := fun stored => stored.1 leaf
  by_cases input : (g.tensor t).isInput
  · have param : (g.tensor t).isParam = false := by simp [ready.param t ht, input]
    obtain ⟨-, ⟨type, typed⟩, -⟩ := ready.typed t ht
    have next := next_lt split h input
    have added :=
      ((((Added.buffer (front.map (label g)) (label g t) m.nextInput m).check g (g.tensor t) none
      false).bind
      m.nextInput).other (r := recordOf g t m.nextInput)
        (by show ¬ ((m.inputCount : Int) ≤ m.nextInput ∧ _); omega)).input
    refine ⟨_, ?_, h.addUnstored fresh added rfl (by simp [base]) (by simp [input]) notStored
      (by simp [inner]) (by simp [inner])⟩
    simp only [wire?, inner, param, input, input?, base, bind, Except.bind, record?_eq typed]
    rfl
  · have param : (g.tensor t).isParam := by simp [ready.param t ht, leaf, input]
    obtain ⟨m', s, run, added⟩ := constant?_added ready split h
    refine ⟨m', ?_, h.addUnstored fresh added rfl (by simp [base]) (by simp [input]) notStored
      (by simp [inner]) (by simp [inner])⟩
    simp only [wire?, inner, param, run]
    rfl

/-- A tensor that is neither an output nor marked as shown by one, or that lives outside: it lies in
the block, and a view is where its tensor is. -/
theorem plain_returns (inner : (g.tensor t).isOutput = false) (made : (g.tensor t).src.ops ≠ [])
    (plain : Stored g t → ¬ OutputAlias g t) :
    ∃ m', wire? g (g.tensor t) m = .ok m' ∧ Assembled g platform ts outputs (front ++ [t]) m' := by
  have ht := mem_turn split
  have fresh := fresh_turn ready split
  obtain ⟨input, param⟩ := made_turn ready split made
  cases view : (g.tensor t).viewOf with
  | none =>
    have own := (ready.inside t ht).2 (inside_of_base view)
    have unmarked : (g.tensor t).hasOutputAliases = false := by
      by_contra marked
      exact plain ⟨made, own⟩ (Or.inr (by simpa using marked))
    obtain ⟨a, offset, nonneg⟩ := ready.placed t ht view made
    have placed : place? (.tensorPlace (label g t)) (g.tensor t).offset = .ok a := by
      rw [offset]
      exact if_pos nonneg
    refine ⟨_, ?_, h.add fresh (Added.slice (front.map (label g)) (unnamed_turn ready split h) a)
      rfl (by simp [view])
      (by simp [input]) (fun stored shown => absurd shown (plain stored)) (fun _ _ => rfl)
        (by simp [inner]) (by simp [inner])⟩
    simp_all [wire?]
  | some v =>
    have hv := view_front ready split view
    have known : label g v ∈ front.map (label g) := mem_map_of_mem hv
    refine ⟨_, ?_, h.add fresh (Added.shared known (label g t) m) (h.held v hv) ?_
      (by simp [input]) (fun stored shown => absurd shown (plain stored)) (fun _ _ => rfl)
        (by simp [inner]) (by simp [inner])⟩
    · cases marked : (g.tensor t).hasOutputAliases with
      | false =>
        simp only [wire?, inner, param, input, marked, view]
        rfl
      | true =>
        cases outside : (g.tensor t).external with
        | none => exact absurd (Or.inr marked) (plain ⟨made, outside⟩)
        | some x =>
          simp only [wire?, inner, param, input, marked, shown?, outside, view]
          rfl
    · grind

include perm

theorem outputSlot?_eq (output : (g.tensor t).isOutput) :
    m.outputSlot? (label g t) = .ok (outputs.idxOf t + m.inputCount) ∧
    outputs.idxOf t < m.outputCount := by
  have mem : t ∈ outputs := perm.mem_iff.2 (mem_filter.2 ⟨mem_turn split, output⟩)
  have number := (numbered ready.distinct ready.before ready.produced perm).own _ _
    (getElem?_idxOf mem)
  unfold outputSlot?
  rw [h.numbers, number, h.outputCount, ← perm.length_eq]
  exact ⟨rfl, idxOf_lt_length_iff.2 mem⟩

theorem output?_returns (output : (g.tensor t).isOutput) (notStored : ¬ Stored g t) :
    ∃ m', m.output? g (g.tensor t) = .ok m' ∧
    Assembled g platform ts outputs (front ++ [t]) m' := by
  have ht := mem_turn split
  have fresh := fresh_turn ready split
  obtain ⟨slot, inRange⟩ := outputSlot?_eq ready perm split h output
  obtain ⟨-, ⟨type, typed⟩, bytes, sized⟩ := ready.typed t ht
  have range : (m.inputCount : Int) ≤ (outputs.idxOf t + m.inputCount : Int) ∧
      (outputs.idxOf t + m.inputCount : Int) < m.inputCount + m.outputCount := by omega
  by_cases leaf : (g.tensor t).src.ops = []
  · obtain ⟨base, own⟩ := leaf_turn ready split leaf
    have copied :
      [] ++ [(⟨outputs.idxOf t + m.inputCount, label g t,
        ((g.tensor t).shape.map g.dim).map sizeText, bytes⟩ : Copy)] =
        if (g.tensor t).isOutput then [copyOf g outputs m.inputCount t] else [] := by
      simp [output, copyOf, own, sized, Except.toOption]
    by_cases input : (g.tensor t).isInput
    · have param : (g.tensor t).isParam = false := by simp [ready.param t ht, input]
      have next := next_lt split h input
      have added := ((((Added.buffer (front.map (label g)) (label g t) m.nextInput m).other
        (r := recordOf g t m.nextInput)
          (by show ¬ ((m.inputCount : Int) ≤ m.nextInput ∧ _); omega)).record
        (r := recordOf g t (outputs.idxOf t + m.inputCount)) range).copy
          ⟨outputs.idxOf t + m.inputCount, label g t, ((g.tensor t).shape.map g.dim).map sizeText,
            bytes⟩).input
      refine ⟨_, ?_, h.addUnstored fresh added rfl (by simp [base]) (by simp [input]) notStored
        (by simp [output]) copied⟩
      simp only [output?, slot, param, own, input, bind, Except.bind, record?_eq typed,
        copy?_eq sized]
      rfl
    · have param : (g.tensor t).isParam := by simp [ready.param t ht, leaf, input]
      obtain ⟨m₁, s, run, added⟩ := constant?_added ready split h
      have added := (added.record (r := recordOf g t (outputs.idxOf t + m.inputCount)) range).copy
        ⟨outputs.idxOf t + m.inputCount, label g t, ((g.tensor t).shape.map g.dim).map sizeText,
          bytes⟩
      refine ⟨_, ?_, h.addUnstored fresh added rfl (by simp [base]) (by simp [input]) notStored
        (by simp [output]) copied⟩
      simp only [output?, slot, param, run, if_true, bind, Except.bind, record?_eq typed,
        copy?_eq sized]
  · obtain ⟨input, param⟩ := made_turn ready split leaf
    cases outside : (g.tensor t).external with
    | none => exact absurd ⟨leaf, outside⟩ notStored
    | some x =>
      cases view : (g.tensor t).viewOf with
      | none =>
        rw [(ready.inside t ht).2 (inside_of_base view)] at outside
        cases outside
      | some v =>
        have hv := view_front ready split view
        have known : label g v ∈ front.map (label g) := mem_map_of_mem hv
        have added := ((Added.shared known (label g t)
          (m.setUp (nullCheck g (g.tensor t) (some (outputs.idxOf t + m.inputCount : Int))
            true))).after_check.copy
            ⟨outputs.idxOf t + m.inputCount, label g x, ((g.tensor t).shape.map g.dim).map sizeText,
              bytes⟩).record
              (r := recordOf g t (outputs.idxOf t + m.inputCount)) range
        rw [storage_setUp, (nullCheck_quiet g _ _ _ _).1] at added
        refine ⟨_, ?_, h.addUnstored fresh added (h.held v hv) ?_ (by simp [input]) notStored
          (by simp [output]) ?_⟩
        · simp only [output?, slot, param, outside, view, bind, Except.bind, record?_eq typed,
            copy?_eq sized]
          rfl
        · grind
        · simp [output, copyOf, outside, sized, Except.toOption]

def Linked (g : Arena) (t : TensorId) : Prop :=
  Stored g t → OutputAlias g t → ∀ v, (g.tensor t).viewOf = some v → (g.tensor v).hasOutputAliases

theorem shown?_spec (stored : Stored g t) (shown : OutputAlias g t) :
    (Linked g t ∧ ∃ m', m.shown? g (g.tensor t) = .ok m' ∧
      Assembled g platform ts outputs (front ++ [t]) m') ∨
      (¬ Linked g t ∧ ∃ f, m.shown? g (g.tensor t) = .error f) := by
  have ht := mem_turn split
  have fresh := fresh_turn ready split
  obtain ⟨-, ⟨type, typed⟩, -⟩ := ready.typed t ht
  have numbers := numbered ready.distinct ready.before ready.produced perm
  obtain ⟨input, -⟩ := made_turn ready split stored.1
  -- the pointer and the number are known; what is left are the record and the check of an output
  have finish : ∀ (m₁ : Model) (i : Nat), BaseNumber g m.outputs t i → (i : Int) < m.outputCount →
      Added (front.map (label g)) (label g t) (some (.buffer (i + m.inputCount))) none []
        [] 0 m m₁ →
      (∀ v, (g.tensor t).viewOf = some v → v ∈ front ∧ some (.buffer (i + m.inputCount)) = m.storage
        (label g v)) →
      ∃ m', (if (g.tensor t).isOutput then do
          return (← (m₁.bindSlot (label g t) (i + m.inputCount)).record? g (g.tensor t)
            (i + m.inputCount)).setUp
            (nullCheck g (g.tensor t) none true)
        else return m₁.bindSlot (label g t) (i + m.inputCount) : Except Fault Model) = .ok m' ∧
        Assembled g platform ts outputs (front ++ [t]) m' := by
    intro m₁ i number inRange added view
    have bound : Stored g t → OutputAlias g t → ∃ j, BaseNumber g m.outputs t j ∧
        some (i + m.inputCount : Int) = some (j + m.inputCount : Int) ∧
        some (Storage.buffer (i + m.inputCount)) = some (.buffer (j + m.inputCount)) := fun _ _ =>
          ⟨i, number, rfl, rfl⟩
    by_cases output : (g.tensor t).isOutput
    · have added := ((added.bind (i + m.inputCount)).record (r := recordOf g t (i + m.inputCount))
        (by
        show (m.inputCount : Int) ≤ i + m.inputCount ∧ (i + m.inputCount : Int) < _
        omega)).check g (g.tensor t) none true
      refine ⟨_, ?_, h.add fresh added rfl view (by simp [input]) bound
        (fun _ plain => absurd shown plain) ?_
        (by simp [stored])⟩
      · rw [if_pos output, record?_eq typed]
        rfl
      · rw [if_pos output]
        exact ⟨i, by simpa [Goes, stored] using number, rfl⟩
    · refine ⟨_, ?_, h.add fresh (added.bind (i + m.inputCount)) rfl view (by simp [input]) bound
        (fun _ plain => absurd shown plain) ?_ (by simp [output])⟩
      · rw [if_neg output]
        rfl
      · rw [if_neg output]
  have numberLt : ∀ {r : TensorId} {i : Nat}, r ∈ ts → m.outputs.lookup (label g r) = some i →
    (i : Int) < m.outputCount := by
    intro r i hr hi
    rw [h.numbers] at hi
    obtain ⟨x, hx, -⟩ := numbers.origin r hr i hi
    rw [h.outputCount, ← perm.length_eq]
    exact_mod_cast (List.getElem?_eq_some_iff.1 hx).1
  unfold shown?
  simp only [stored.2, Option.isSome_none, Bool.false_eq_true, if_false]
  cases view : (g.tensor t).viewOf with
  | none =>
    have linked : Linked g t := by
      intro _ _ v hv
      rw [view] at hv
      cases hv
    obtain ⟨i, hi⟩ : ∃ i, m.outputs.lookup (label g t) = some i := by
      rw [h.numbers]
      rcases shown with output | marked
      · have mem : t ∈ outputs := perm.mem_iff.2 (mem_filter.2 ⟨ht, output⟩)
        exact ⟨_, numbers.own _ _ (getElem?_idxOf mem)⟩
      · obtain ⟨w, x, first, hx, output, chain, -⟩ := output_of_alias ready.before ready.produced
          (fun v hv => (ready.decided v hv).1) ht marked
        have mem : x ∈ outputs := perm.mem_iff.2 (mem_filter.2 ⟨hx, output⟩)
        exact numbers.of_shows ready.before hx (chain.tail (firstView?_some first).2)
          (numbers.own _ _ (getElem?_idxOf mem))
    have slot : m.outputSlot? (label g t) = .ok (i + m.inputCount) := by
      unfold outputSlot?
      rw [hi]
    obtain ⟨m', run, assembled⟩ := finish _ i ⟨t, .refl, view, hi⟩ (numberLt ht hi)
      (.buffer _ _ _ m) (by simp [view])
    refine Or.inl ⟨linked, m', ?_, assembled⟩
    rw [← run]
    simp only [Option.map_none, slot]
    rfl
  | some v =>
    have hv := view_front ready split view
    have known : label g v ∈ front.map (label g) := mem_map_of_mem hv
    have hvts : v ∈ ts := (ready.before t ht v view).mem
    obtain ⟨made, inner, inside⟩ := (inside_view view).1 ((ready.inside t ht).1 stored.2)
    have storedV : Stored g v := ⟨made, (ready.inside v hvts).2 inside⟩
    cases marked : (g.tensor v).hasOutputAliases with
    | true =>
      obtain ⟨i, ⟨r, chain, last, hi⟩, slot, storage⟩ := h.bound v hv storedV (Or.inr marked)
      have added := Added.shared known (label g t) m
      rw [storage] at added
      obtain ⟨m', run, assembled⟩ := finish _ i ⟨r, chain.head view, last, hi⟩
        (numberLt (shows_mem ready.before hvts chain) hi) added (by
          grind)
      refine Or.inl ⟨fun _ _ w hw => by cases view.symm.trans hw; exact marked, m', ?_, assembled⟩
      grind
    | false =>
      have none := h.unbound v hv storedV (by simp [OutputAlias, inner, marked])
      refine Or.inr ⟨fun linked => ?_, .badKey, ?_⟩
      · have := linked stored shown v view
        rw [marked] at this
        cases this
      · simp only [Option.map_some, none]
        rfl

/-- One turn: it fails exactly if a stored alias of an output shows a tensor that is not marked. -/
theorem wire?_spec :
    (Linked g t ∧ ∃ m', wire? g (g.tensor t) m = .ok m' ∧
      Assembled g platform ts outputs (front ++ [t]) m') ∨
      (¬ Linked g t ∧ ∃ f, wire? g (g.tensor t) m = .error f) := by
  have ht := mem_turn split
  by_cases stored : Stored g t
  · by_cases shown : OutputAlias g t
    · obtain ⟨input, param⟩ := made_turn ready split stored.1
      have same : wire? g (g.tensor t) m = m.shown? g (g.tensor t) := by
        cases output : (g.tensor t).isOutput with
        | true =>
          obtain ⟨slot, -⟩ := outputSlot?_eq ready perm split h output
          simp only [wire?, output, output?, slot, param, stored.2, input]
          rfl
        | false =>
          have marked : (g.tensor t).hasOutputAliases := shown.resolve_left (by simp [output])
          grind [wire?]
      grind [shown?_spec]
    · refine Or.inl ⟨fun _ shown' => absurd shown' shown, plain_returns ready split h ?_ stored.1
        fun _ => shown⟩
      simpa using fun output => shown (Or.inl output)
  · refine Or.inl ⟨fun stored' => absurd stored' stored, ?_⟩
    by_cases output : (g.tensor t).isOutput
    · grind [output?_returns, wire?]
    · have inner : (g.tensor t).isOutput = false := by simpa using output
      by_cases leaf : (g.tensor t).src.ops = []
      · exact leaf_returns ready split h inner leaf
      · grind [plain_returns]

theorem append?_spec :
    (Linked g t ∧ ∃ m', append? g e m t = .ok m' ∧
      Assembled g platform ts outputs (front ++ [t]) m') ∨
      (¬ Linked g t ∧ ∃ f, append? g e m t = .error f) := by
  have ht := mem_turn split
  obtain ⟨⟨type, typed⟩, -⟩ := ready.typed t ht
  rw [append?_eq (ready.present t ht) (by rw [h.platform]; exact typed)]
  have h₁ : Assembled g platform ts outputs front
    { m with pointers := m.pointers ++ [(label g t, type)] } := h.of_core rfl
  rcases wire?_spec ready perm split h₁ with ⟨linked, m₁, run, assembled⟩ | ⟨broken, f, run⟩
  · obtain ⟨m₂, written, same⟩ := operators_return g (ready.emits t ht)
      (declareDims g (g.tensor t).shape m₁)
    rw [core_declareDims] at same
    refine Or.inl ⟨linked, m₂, ?_, assembled.of_core same⟩
    rw [run]
    exact written
  · refine Or.inr ⟨broken, f, ?_⟩
    rw [run]
    rfl

end Turn

theorem foldlM_append?_spec {e : Emitter} (ready : Ready g platform e ts)
    (perm : outputs.Perm (ts.filter fun t => (g.tensor t).isOutput)) (back : List TensorId)
    (split : ts = front ++ back) (h : Assembled g platform ts outputs front m) :
    ((∀ t ∈ back, Linked g t) ∧ ∃ m', back.foldlM (append? g e) m = .ok m' ∧
      Assembled g platform ts outputs ts m') ∨
      ((∃ t ∈ back, ¬ Linked g t) ∧ ∃ f, back.foldlM (append? g e) m = .error f) := by
  induction back generalizing front m with
  | nil =>
    rw [append_nil] at split
    exact Or.inl ⟨by simp, m, rfl, split ▸ h⟩
  | cons t back ih =>
    rw [foldlM_cons]
    rcases append?_spec ready perm split h with ⟨linked, m₁, run, assembled⟩ | ⟨broken, f, run⟩
    · rw [run]
      rcases ih (by simp [split]) assembled with ⟨rest, m', run', assembled'⟩ | ⟨⟨u, hu, broken⟩,
        f, run'⟩
      · exact Or.inl ⟨forall_mem_cons.2 ⟨linked, rest⟩, m', run', assembled'⟩
      · exact Or.inr ⟨⟨u, mem_cons_of_mem _ hu, broken⟩, f, run'⟩
    · rw [run]
      exact Or.inr ⟨⟨t, mem_cons_self, broken⟩, f, rfl⟩

theorem ofGraph?_spec {e : Emitter} (ready : Ready g platform e ts)
    (perm : outputs.Perm (ts.filter fun t => (g.tensor t).isOutput)) :
    ((∀ t ∈ ts, Linked g t) ∧ ∃ m', ofGraph? g platform e ts outputs = .ok m' ∧
      Assembled g platform ts outputs ts m') ∨
      ((∃ t ∈ ts, ¬ Linked g t) ∧ ∃ f, ofGraph? g platform e ts outputs = .error f) := by
  have empty : Assembled g platform ts outputs [] (start platform (outputSlots g ts outputs)
      (ts.filter fun t => (g.tensor t).isInput).length
        (ts.filter fun t => (g.tensor t).isOutput).length) :=
    ⟨rfl, rfl, rfl, rfl, rfl, (by intro k hk; cases hk), by simp, by simp, by simp, by simp, ⟨[],
      rfl, by simp, rfl⟩, rfl⟩
  exact foldlM_append?_spec ready perm ts rfl empty

end Walk

end Model

end TensorGraph.Library

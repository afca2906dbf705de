import Mathlib.Logic.Function.Basic
import Mathlib.Tactic.Tauto
import TensorGraph.Library.Model

/-!
# The pointers of a library

`Model.storage` runs the set-up steps of a library and says where each pointer points.
-/

namespace TensorGraph.Library

open List

variable {g : Arena} {t : TensorId} {type : String}

abbrev label (g : Arena) (t : TensorId) : String := Fault.nameText (g.tensor t).name

/-! ## Where pointers point -/

/-- A piece of memory during a run. -/
inductive Storage
  /-- the buffer that the user handed over for a slot -/
  | buffer (slot : Int)
  /-- inside the block of intermediate results -/
  | block (offset : Int)
  /-- inside the block of constants -/
  | constants (offset : Int)
  /-- a constant that the user handed over -/
  | given (name : String)
deriving DecidableEq

def SetUp.apply (env : String → Option Storage) : SetUp → String → Option Storage
  | .point n (.slot i) => Function.update env n (some (.buffer i))
  | .point n (.sameAs k) => Function.update env n (env k)
  | .check _ | .skip => env

def SetUp.names : SetUp → List String
  | .point n (.slot _) => [n]
  | .point n (.sameAs k) => [n, k]
  | .check _ | .skip => []

theorem SetUp.apply_update {s : SetUp} {n : String} (fresh : n ∉ s.names)
    (env : String → Option Storage) (x : Option Storage) :
    s.apply (Function.update env n x) = Function.update (s.apply env) n x := by
  match s with
  | .point k (.slot i) =>
    have ne : n ≠ k := by simpa [names] using fresh
    exact Function.update_comm ne _ _ env
  | .point k (.sameAs j) =>
    obtain ⟨ne, ne'⟩ : n ≠ k ∧ n ≠ j := by simpa [names] using fresh
    show Function.update (Function.update env n x) k (Function.update env n x j) = _
    rw [Function.update_of_ne ne'.symm, Function.update_comm ne]
    rfl
  | .check _ | .skip => rfl

theorem foldl_apply_update {l : List SetUp} {n : String} (fresh : ∀ s ∈ l, n ∉ s.names)
    (env : String → Option Storage) (x : Option Storage) :
    l.foldl SetUp.apply (Function.update env n x) =
    Function.update (l.foldl SetUp.apply env) n x := by
  induction l generalizing env with
  | nil => rfl
  | cons s l ih =>
    rw [foldl_cons, foldl_cons, SetUp.apply_update (fresh s mem_cons_self)]
    grind

def ConstantSetUp.storage : ConstantSetUp → Storage
  | own s => .constants s.offset
  | given n => .given n

def ConstantSetUp.name : ConstantSetUp → String
  | own s => s.name
  | given n => n

namespace Model

variable {e : Emitter}

def fixed (m : Model) (n : String) : Option Storage :=
  ((m.slices.find? (·.name == n)).map fun s => .block s.offset).or
    ((m.constants.find? (·.name == n)).map (·.storage))

def storage (m : Model) : String → Option Storage := m.setUps.foldl SetUp.apply m.fixed

/-- A slot is recorded once, as the tensor, and the tensor ends in its buffer: its pointer is there
and nothing is copied over it, or it is copied there from where its pointer is. -/
structure Delivers (m : Model) (g : Arena) (t : TensorId) (slot : Int) : Prop where
  recorded : m.records.filter (·.slot == slot) =
    [⟨slot, Fault.nameText (g.tensor t).name, (g.tensor t).shape.map g.dim, (g.tensor t).dtype⟩]
  arrives : (m.storage (Fault.nameText (g.tensor t).name) = some (.buffer slot) ∧
    ∀ c ∈ m.copies, c.slot ≠ slot) ∨
    ∃ c, m.copies.filter (·.slot == slot) = [c] ∧ (m.storage c.source).isSome ∧
      m.storage c.source = m.storage (Fault.nameText (g.tensor t).name) ∧
      c.sizes = ((g.tensor t).shape.map g.dim).map sizeText ∧ Dtype.size? (g.tensor t).dtype =
        .ok c.elementBytes

def names (m : Model) : List String :=
  m.setUps.flatMap SetUp.names ++ m.slices.map (·.name) ++ m.constants.map (·.name) ++
    m.slots.map (·.1)

/-- What a library does with pointers and slots, without its declarations and calls. -/
def core (m : Model) : Model :=
  { m with
    pointers := [], owned := [], constantBytes := 0, dims := [], declared := [], decls := []
    called := [], calls := [], states := [] }

theorem core_declareDims (g : Arena) (shape : List DimId) (m : Model) :
    (declareDims g shape m).core = m.core := by
  refine foldlRecOn shape _ (motive := fun m' : Model => m'.core = m.core) rfl fun m' same d _ => ?_
  dsimp only
  split
  · exact same
  · exact same

theorem core_foldl_declareDims {α : Type} (g : Arena) (shape : α → List DimId) (l : List α)
    (m : Model) :
    (l.foldl (fun m a => declareDims g (shape a) m) m).core = m.core := by
  refine foldlRecOn l _ (motive := fun m' : Model => m'.core = m.core) rfl fun m' same a _ => ?_
  rw [core_declareDims, same]

theorem operator?_returns (g : Arena) {o : OpId} {decl call : String} (hd : e.decl o = .ok decl)
    (hc : e.call o = .ok call) (m : Model) : ∃ m', operator? g e m o = .ok m' ∧
    m'.core = m.core := by
  unfold operator?
  simp only [hd, hc, bind, Except.bind, pure, Except.pure]
  split <;> split
  all_goals
    refine ⟨_, rfl, ?_⟩
    rw [core_foldl_declareDims]
    split <;> rfl

theorem operators_return (g : Arena) {os : List OpId}
    (emits : ∀ o ∈ os, (∃ d, e.decl o = .ok d) ∧ ∃ c, e.call o = .ok c) (m : Model) :
    ∃ m', os.foldlM (operator? g e) m = .ok m' ∧ m'.core = m.core := by
  induction os generalizing m with
  | nil => exact ⟨m, rfl, rfl⟩
  | cons o os ih =>
    obtain ⟨⟨d, hd⟩, c, hc⟩ := emits o mem_cons_self
    obtain ⟨m₁, first, same⟩ := operator?_returns g hd hc m
    obtain ⟨m₂, rest, same'⟩ := ih (fun o ho => emits o (mem_cons_of_mem _ ho)) m₁
    refine ⟨m₂, ?_, same'.trans same⟩
    rw [foldlM_cons, first]
    exact rest

def wire? (g : Arena) (t : Tensor) (m : Model) : Except Fault Model :=
  if t.isOutput then m.output? g t
  else if t.isParam then m.constant? g t
  else if t.isInput then m.input? g t
  else if t.hasOutputAliases then m.shown? g t
  else
    match t.viewOf with
    | none => do
      let offset ← place? (.tensorPlace (Fault.nameText t.name)) t.offset
      pure { m with slices := m.slices ++ [⟨Fault.nameText t.name, offset⟩] }
    | some v => pure (m.setUp (.point (Fault.nameText t.name)
      (.sameAs (Fault.nameText (g.tensor v).name))))

theorem append?_eq {m : Model} (present : (g.tensor t).nop = false)
    (typed : pointerText? m.platform (g.tensor t).dtype = .ok type) :
    append? g e m t =
      (wire? g (g.tensor t) { m with pointers := m.pointers ++
        [(Fault.nameText (g.tensor t).name, type)] }).bind fun m =>
        (g.tensor t).src.ops.foldlM (operator? g e) (declareDims g (g.tensor t).shape m) := by
  unfold append? wire?
  simp only [present, typed, Bool.false_eq_true, if_false]
  by_cases output : (g.tensor t).isOutput
  · simp only [output]
    rfl
  by_cases param : (g.tensor t).isParam
  · simp only [output, param]
    rfl
  by_cases input : (g.tensor t).isInput
  · simp only [output, param, input]
    rfl
  by_cases shown : (g.tensor t).hasOutputAliases
  · simp only [output, param, input, shown]
    rfl
  simp only [output, param, input, shown]
  cases (g.tensor t).viewOf with
  | some v => rfl
  | none => cases (place? (.tensorPlace (Fault.nameText (g.tensor t).name))
    (g.tensor t).offset) <;> rfl

end Model

/-! ## What one tensor adds -/

def recordOf (g : Arena) (t : TensorId) (slot : Int) : Record :=
  ⟨slot, label g t, (g.tensor t).shape.map g.dim, (g.tensor t).dtype⟩

namespace Model

variable {k : String}

def outputRecords (m : Model) : List Record :=
  m.records.filter fun r => m.inputCount ≤ r.slot && r.slot < m.inputCount + m.outputCount

/-- What a tensor named `n` adds: its pointer, a slot for it, records of outputs, copies, and
whether it is an input. -/
structure Added (known : List String) (n : String) (s : Option Storage) (slot : Option Int)
    (records : List Record)
    (copies : List Copy) (inputs : Nat) (m m' : Model) : Prop where
  platform : m'.platform = m.platform
  outputs : m'.outputs = m.outputs
  inputCount : m'.inputCount = m.inputCount
  outputCount : m'.outputCount = m.outputCount
  storage : m'.storage = Function.update m.storage n s
  names : (∀ k ∈ m.names, k ∈ known) → ∀ k ∈ m'.names, k = n ∨ k ∈ known
  slots : m'.slots = slot.toList.map (n, ·) ++ m.slots
  records : m'.outputRecords = m.outputRecords ++ records
  copies : m'.copies = m.copies ++ copies
  next : m'.nextInput = m.nextInput + inputs

def addCopy (m : Model) (c : Copy) : Model := { m with copies := m.copies ++ [c] }

def addRecord (m : Model) (r : Record) : Model := { m with records := m.records ++ [r] }

def addInput (m : Model) : Model := { m with nextInput := m.nextInput + 1 }

theorem copy?_eq {t : Tensor} {bytes : Int} (sized : Dtype.size? t.dtype = .ok bytes)
    (source : String) (i : Int) (m : Model) : m.copy? g t source i =
    .ok (m.addCopy ⟨i, source, (t.shape.map g.dim).map sizeText, bytes⟩) := by
  unfold copy?
  rw [sized]
  rfl

theorem record?_eq (typed : Record.dtypeText? (g.tensor t).dtype = .ok type)
    (i : Int) (m : Model) : m.record? g (g.tensor t) i = .ok (m.addRecord (recordOf g t i)) := by
  unfold record?
  rw [typed]
  rfl

/-- Storage is changed by one step of the set-up as `apply` says. -/
theorem storage_setUp (m : Model) (s : SetUp) : (m.setUp s).storage = s.apply m.storage := by
  unfold storage setUp
  rw [foldl_append]
  rfl

theorem mem_names_setUp {m : Model} {s : SetUp} : k ∈ (m.setUp s).names ↔ k ∈ s.names ∨
    k ∈ m.names := by
  unfold names setUp
  grind

theorem nullCheck_quiet (g : Arena) (t : Tensor) (slot : Option Int) (isOutput : Bool)
    (env : String → Option Storage) :
    (nullCheck g t slot isOutput).apply env = env ∧ (nullCheck g t slot isOutput).names = [] := by
  unfold nullCheck
  dsimp only
  split <;> exact ⟨rfl, rfl⟩

namespace Added

variable {known : List String} {n : String} {s : Option Storage} {slot : Option Int}
  {records : List Record}
  {copies : List Copy} {inputs : Nat} {m m' : Model}

variable {r : Record}

theorem buffer (known : List String) (n : String) (i : Int) (m : Model) :
    Added known n (some (.buffer i)) none [] [] 0 m (m.setUp (.point n (.slot i))) where
  platform := rfl
  outputs := rfl
  inputCount := rfl
  outputCount := rfl
  storage := storage_setUp m _
  names old k hk := by grind [mem_names_setUp, SetUp.names]
  slots := rfl
  records := (append_nil _).symm
  copies := (append_nil _).symm
  next := rfl

theorem shared (hk : k ∈ known) (n : String) (m : Model) :
    Added known n (m.storage k) none [] [] 0 m (m.setUp (.point n (.sameAs k))) where
  platform := rfl
  outputs := rfl
  inputCount := rfl
  outputCount := rfl
  storage := storage_setUp m _
  names old j hj := by grind [mem_names_setUp, SetUp.names]
  slots := rfl
  records := (append_nil _).symm
  copies := (append_nil _).symm
  next := rfl

theorem of_fixed (fresh : n ∉ m.names) {slices : List Slice} {constants : List ConstantSetUp}
    (fixed : Model.fixed { m with slices, constants } = Function.update m.fixed n s)
    (named : ∀ k, k ∈ slices.map (·.name) ++ constants.map (·.name) →
      k = n ∨ k ∈ m.slices.map (·.name) ++ m.constants.map (·.name)) :
    Added known n s none [] [] 0 m { m with slices, constants } where
  platform := rfl
  outputs := rfl
  inputCount := rfl
  outputCount := rfl
  storage := by
    show m.setUps.foldl SetUp.apply (Model.fixed { m with slices, constants }) = _
    rw [fixed, foldl_apply_update]
    · rfl
    · grind [Model.names]
  names old k hk := by
    unfold Model.names at hk old
    simp only [mem_append] at hk old named
    rcases hk with ((hk | hk) | hk) | hk
    · grind
    · grind
    · grind
    · exact Or.inr (old k (Or.inr hk))
  slots := rfl
  records := (append_nil _).symm
  copies := (append_nil _).symm
  next := rfl

theorem slice (known : List String) (fresh : n ∉ m.names) (a : Int) :
    Added known n (some (.block a)) none [] [] 0 m { m with slices := m.slices ++ [⟨n, a⟩] } := by
  refine of_fixed fresh (funext fun k => ?_) fun k hk => ?_
  · grind [Model.names, Model.fixed]
  · grind

theorem constant (known : List String) (fresh : n ∉ m.names) {c : ConstantSetUp} (hc : c.name = n) :
    Added known n (some c.storage) none [] [] 0 m { m with constants := m.constants ++ [c] } := by
  refine of_fixed fresh (funext fun k => ?_) fun k hk => ?_
  · grind [Model.names, Model.fixed]
  · grind

theorem after_check {t : Tensor} {at? : Option Int} {out : Bool}
    (h : Added known n s slot records copies inputs (m.setUp (nullCheck g t at? out)) m') :
    Added known n s slot records copies inputs m m' :=
  { h with
    storage := by rw [h.storage, storage_setUp, (nullCheck_quiet g t at? out _).1]
    names := fun old => h.names fun k hk => by
      rw [mem_names_setUp, (nullCheck_quiet g t at? out m.storage).2] at hk
      exact old k (hk.resolve_left (not_mem_nil)) }

theorem bind (h : Added known n s none records copies inputs m m') (i : Int) :
    Added known n s (some i) records copies inputs m (m'.bindSlot n i) :=
  { h with
    slots := by
      show (n, i) :: m'.slots = _
      rw [h.slots]
      rfl
    names := fun old k hk => by
      unfold Model.names at hk
      simp only [bindSlot, map_cons, mem_append, mem_cons] at hk
      rcases hk with hk | rfl | hk
      · exact h.names old k (mem_append_left _ (by simpa [or_assoc] using hk))
      · exact Or.inl rfl
      · exact h.names old k (mem_append_right _ hk) }

variable (h : Added known n s slot records copies inputs m m')
include h

theorem check (g : Arena) (t : Tensor) (at? : Option Int) (out : Bool) :
    Added known n s slot records copies inputs m (m'.setUp (nullCheck g t at? out)) :=
  { h with
    storage := by rw [storage_setUp, (nullCheck_quiet g t at? out _).1, h.storage]
    names := fun old k hk => by
      rw [mem_names_setUp, (nullCheck_quiet g t at? out m.storage).2] at hk
      exact h.names old k (hk.resolve_left (not_mem_nil)) }

theorem input :
    Added known n s slot records copies (inputs + 1) m m'.addInput :=
  { h with next := by show m'.nextInput + 1 = _; rw [h.next, Nat.add_assoc] }

theorem copy (c : Copy) :
    Added known n s slot records (copies ++ [c]) inputs m (m'.addCopy c) :=
  { h with copies := by show m'.copies ++ _ = _; rw [h.copies, append_assoc] }

theorem record (range : (m.inputCount : Int) ≤ r.slot ∧ r.slot < m.inputCount + m.outputCount) :
    Added known n s slot (records ++ [r]) copies inputs m (m'.addRecord r) :=
  { h with
    records := by
      have old := h.records
      unfold outputRecords addRecord at *
      rw [h.inputCount, h.outputCount] at old ⊢
      rw [filter_append, old]
      simp [range] }

theorem other (range : ¬ ((m.inputCount : Int) ≤ r.slot ∧ r.slot < m.inputCount + m.outputCount)) :
    Added known n s slot records copies inputs m (m'.addRecord r) :=
  { h with
    records := by
      have old := h.records
      unfold outputRecords addRecord at *
      rw [h.inputCount, h.outputCount] at old ⊢
      rw [filter_append, old]
      simp [range] }

end Added

end Model

end TensorGraph.Library

import TensorGraph.Library.Statement

/-!
# The library of a graph

`Model.append?` adds one tensor after the other, in the order of the graph.  How the pointer of a
tensor is set depends on what the tensor is:

* an output is written to the slot of the user, directly if its storage is the library's to choose,
  and by a copy if it is
  a constant, an input or a view of something that lives elsewhere;
* a constant lies in the block of constants, or is handed over later;
* an input is the slot of the user;
* a tensor that an output shows is where that output is;
* all else lies in the block of intermediate results, and a view is where its tensor is.

`outputSlots` numbers the outputs; a tensor that an output is a view of shares its number.
-/

namespace TensorGraph.Library

/-- The declaration and the call of the function of each operator. -/
structure Emitter where
  decl : OpId → Except Fault String
  call : OpId → Except Fault String

structure Model where
  platform : Platform
  /-- the number of each output, and of what shares its storage -/
  outputs : List (String × Nat)
  inputCount : Nat
  outputCount : Nat
  pointers : List (String × String)
  setUps : List SetUp
  slices : List Slice
  constants : List ConstantSetUp
  records : List Record
  copies : List Copy
  owned : List OwnedConstant
  unbound : List String
  /-- the slots that pointers have been pointed to -/
  slots : List (String × Int)
  nextInput : Nat
  constantBytes : Int
  /-- the dimensions, with their sizes if they are fixed -/
  dims : List (Option String × Int)
  declared : List (Option String)
  decls : List String
  called : List (Option String)
  calls : List String
  states : List (Option String)
deriving Inhabited

/-- The number of each output; going backwards, what an output is a view of shares its number,
unless it has one. -/
def outputSlots (g : Arena) (ts outputs : List TensorId) : List (String × Nat) :=
  let name (t : TensorId) : String := Fault.nameText (g.tensor t).name
  let set (m : List (String × Nat)) (k : String) (v : Nat) : List (String × Nat) :=
    if m.any (·.1 == k) then m.map fun e => if e.1 == k then (k, v) else e else m ++ [(k, v)]
  ts.reverse.foldl (fun m t =>
    match (g.tensor t).viewOf with
    | none => m
    | some v =>
      match m.lookup (name t), m.lookup (name v) with
      | some i, none => set m (name v) i
      | _, _ => m) (outputs.zipIdx.foldl (fun m (t, i) => set m (name t) i) [])

namespace Model

def start (platform : Platform) (outputs : List (String × Nat)) (inputCount outputCount : Nat) :
    Model :=
  { (default : Model) with platform, outputs, inputCount, outputCount }

def outputSlot? (m : Model) (name : String) : Except Fault Int :=
  match m.outputs.lookup name with
  | some i => .ok (i + m.inputCount)
  | none => .error (.noOutputIndex name)

def record? (g : Arena) (t : Tensor) (slot : Int) (m : Model) : Except Fault Model := do
  let _ ← Record.dtypeText? t.dtype
  return { m with records := m.records ++
    [⟨slot, Fault.nameText t.name, t.shape.map g.dim, t.dtype⟩] }

def setUp (m : Model) (s : SetUp) : Model := { m with setUps := m.setUps ++ [s] }

/-- The check that a buffer is there; an output whose smallest size is zero is not checked. -/
def nullCheck (g : Arena) (t : Tensor) (slot : Option Int) (isOutput : Bool) : SetUp :=
  let ds := t.shape.map g.dim
  let empty := ds.any fun d => d.lower == 0
  if isOutput && empty then .skip else .check ⟨Fault.nameText t.name, slot, ds.map sizeText, empty⟩

def copy? (g : Arena) (t : Tensor) (source : String) (slot : Int) (m : Model) :
    Except Fault Model := do
  let bytes ← Dtype.size? t.dtype
  return { m with copies := m.copies ++ [⟨slot, source, (t.shape.map g.dim).map sizeText, bytes⟩] }

def place? (f : Fault) : Option Int → Except Fault Int
  | none => .error .badType
  | some n => if 0 ≤ n then .ok n else .error f

/-- A constant: part of the library if its contents are known, else handed over by the user. -/
def constant? (g : Arena) (t : Tensor) (m : Model) : Except Fault Model := do
  let name := Fault.nameText t.name
  match t.data with
  | some data =>
    let offset ← place? (.constantPlace name) t.offset
    return { m with
      constants := m.constants ++ [.own ⟨name, offset⟩]
      owned := m.owned ++ [⟨name, m.constantBytes, offset, data.bytes⟩]
      constantBytes := m.constantBytes + data.bytes }
  | none =>
    let slot : Int := m.unbound.length + m.inputCount + m.outputCount
    let m ← m.record? g t slot
    return { m.setUp (nullCheck g t none false) with
      unbound := m.unbound ++ [name]
      constants := m.constants ++ [.given name] }

def bindSlot (m : Model) (name : String) (slot : Int) : Model :=
  { m with slots := (name, slot) :: m.slots }

def input? (g : Arena) (t : Tensor) (m : Model) : Except Fault Model := do
  let name := Fault.nameText t.name
  if t.viewOf.isSome then throw .inputIsView
  let m := (m.setUp (.point name (.slot m.nextInput))).setUp (nullCheck g t none false)
  let m ← (m.bindSlot name m.nextInput).record? g t m.nextInput
  return { m with nextInput := m.nextInput + 1 }

def shown? (g : Arena) (t : Tensor) (m : Model) : Except Fault Model := do
  let name := Fault.nameText t.name
  let viewed := t.viewOf.map fun v => Fault.nameText (g.tensor v).name
  if t.external.isSome then
    let some v := viewed | throw .noField
    return m.setUp (.point name (.sameAs v))
  let (slot, m) ← match viewed with
    | some v =>
      match m.slots.lookup v with
      | some slot => pure (slot, m.setUp (.point name (.sameAs v)))
      | none => throw .badKey
    | none => do
      let slot ← m.outputSlot? name
      pure (slot, m.setUp (.point name (.slot slot)))
  let m := m.bindSlot name slot
  if t.isOutput then return (← m.record? g t slot).setUp (nullCheck g t none true) else return m

def output? (g : Arena) (t : Tensor) (m : Model) : Except Fault Model := do
  let name := Fault.nameText t.name
  let slot ← m.outputSlot? name
  if t.isParam then
    (← (← m.constant? g t).record? g t slot).copy? g t name slot
  else if let some e := t.external then
    let some v := t.viewOf | throw .externalNotView
    let m := (m.setUp (nullCheck g t (some slot) true)).setUp
      (.point name (.sameAs (Fault.nameText (g.tensor v).name)))
    (← m.copy? g t (Fault.nameText (g.tensor e).name) slot).record? g t slot
  else if t.isInput then
    let m := m.setUp (.point name (.slot m.nextInput))
    let m ← (← (← m.record? g t m.nextInput).record? g t slot).copy? g t name slot
    return { m with nextInput := m.nextInput + 1 }
  else m.shown? g t

def declareDims (g : Arena) (shape : List DimId) (m : Model) : Model :=
  shape.foldl (fun m d =>
    let d := g.dim d
    if m.dims.any (·.1 == d.name) then m
    else { m with dims := m.dims ++ [(d.name, if d.values.length == 1 then d.value else 0)] }) m

def operator? (g : Arena) (e : Emitter) (m : Model) (o : OpId) : Except Fault Model := do
  let p := g.op o
  let m ←
    if m.declared.contains p.name then pure m
    else pure { m with decls := m.decls ++ [← e.decl o], declared := p.name :: m.declared }
  let m ←
    if m.called.contains p.firstName then pure m
    else pure { m with calls := m.calls ++ [← e.call o], called := p.firstName :: m.called }
  let m := if (p.param? "int_state_flag").isSome && !m.states.contains p.name then
      { m with states := m.states ++ [p.name] } else m
  return (p.inputAccessors.getD [] ++ p.outputAccessors.getD []).foldl
    (fun m a => declareDims g a.seenShape m) m

def append? (g : Arena) (e : Emitter) (m : Model) (id : TensorId) : Except Fault Model := do
  let t := g.tensor id
  if t.nop then return m
  let name := Fault.nameText t.name
  let type ← pointerText? m.platform t.dtype
  let m := { m with pointers := m.pointers ++ [(name, type)] }
  let m ←
    if t.isOutput then m.output? g t
    else if t.isParam then m.constant? g t
    else if t.isInput then m.input? g t
    else if t.hasOutputAliases then m.shown? g t
    else
      match t.viewOf with
      | none => do
        let offset ← place? (.tensorPlace name) t.offset
        pure { m with slices := m.slices ++ [⟨name, offset⟩] }
      | some v => pure (m.setUp (.point name (.sameAs (Fault.nameText (g.tensor v).name))))
  t.src.ops.foldlM (operator? g e) (declareDims g t.shape m)

def ofGraph? (g : Arena) (platform : Platform) (e : Emitter) (ts outputs : List TensorId) :
    Except Fault Model :=
  let count (p : Tensor → Bool) : Nat := (ts.filter fun t => p (g.tensor t)).length
  ts.foldlM (append? g e) (start platform (outputSlots g ts outputs) (count (·.isInput))
    (count (·.isOutput)))

end Model

end TensorGraph.Library

import TensorGraph.Accessor
import TensorGraph.Dtype
import TensorGraph.OpClass

/-!
# The arena of a graph

Dimensions, tensors and operators live in an arena and refer to one another by number, so that a
dimension or a tensor can be shared: whoever refers to it sees what later steps do to it.
-/

namespace TensorGraph

/-- A set of operators, each listed once. -/
structure Links where
  ops : List OpId
  fixed : Bool
deriving DecidableEq, Inhabited, Repr

namespace Links

def empty : Links := ⟨[], false⟩

def ofList (os : List OpId) : Links := ⟨os.distinct, false⟩

def insert (l : Links) (o : OpId) : Links := if l.ops.contains o then l else
    { l with ops := l.ops ++ [o] }

def erase (l : Links) (o : OpId) : Links := { l with ops := l.ops.filter (· != o) }

def sole? (l : Links) : Option OpId :=
  match l.ops with
  | [o] => some o
  | _ => none

instance : Membership OpId Links := ⟨fun l o => o ∈ l.ops⟩

instance (o : OpId) (l : Links) : Decidable (o ∈ l) := inferInstanceAs (Decidable (o ∈ l.ops))

end Links

structure BoundData where
  bytes : Int
  dtype : String
deriving DecidableEq, Inhabited, Repr

structure Tensor where
  name : Option String
  depth : Nat
  nop : Bool
  shape : List DimId
  src : Links
  dst : Links
  dtype : String
  isInput : Bool
  isOutput : Bool
  isParam : Bool
  hasOutputAliases : Bool
  /-- the input, constant or output whose storage a view reuses -/
  external : Option TensorId
  viewOf : Option TensorId
  /-- the number that a constant without axes stands for -/
  value : Value
  offset : Option Int
  data : Option BoundData
  /-- the dimension whose size the tensor holds -/
  sizeVar : Option DimId
deriving Inhabited

namespace Tensor

def ofShape (shape : List DimId) (dtype : String := "float16") : Tensor where
  name := none
  depth := 0
  nop := false
  shape := shape
  src := .empty
  dst := .empty
  dtype := dtype
  isInput := false
  isOutput := false
  isParam := false
  hasOutputAliases := false
  external := none
  viewOf := none
  value := .none
  offset := none
  data := none
  sizeVar := none

def rank (t : Tensor) : Nat := t.shape.length

def hasValue (t : Tensor) : Bool :=
  match t.value with
  | .none => false
  | _ => true

def isNumber (t : Tensor) : Bool := t.shape.isEmpty && t.hasValue

end Tensor

/-- What is known about one workload of an operator: a bare algorithm, or the sizes to measure with,
the condition under which it is taken and the algorithm chosen. -/
inductive ExecEntry
  | algo (name : String)
  | item (profilingKey execCond algo : String)
deriving DecidableEq, Inhabited, Repr

abbrev ExecPath := List (String × ExecEntry)

/-- An operator. -/
structure Operator where
  cls : OpClass
  kind : String
  name : Option String
  /-- the name it got first; `name` may come to be shared with another operator -/
  firstName : Option String
  depth : Nat
  inputs : Option (List TensorId)
  outputs : Option (List TensorId)
  /-- the operands of an elementwise operator, numbers included -/
  args : Option (List TensorId)
  /-- the elementwise operators that a fused one stands for, in order -/
  members : Option (List OpId)
  /-- the slices that a scattering operator stands for -/
  slices : Option (List OpId)
  /-- the inputs and outputs that it was given before any pass changed them -/
  givenInputs : Option (List TensorId)
  givenOutputs : Option (List TensorId)
  inputMasks : Option (List Bool)
  inputAccessors : Option (List Accessor)
  outputAccessors : Option (List Accessor)
  execPath : Option ExecPath
  params : List (String × Value)
deriving Inhabited

namespace Operator

def ofClass (cls : OpClass) (kind : String) : Operator where
  cls := cls
  kind := kind
  name := none
  firstName := none
  depth := 0
  inputs := none
  outputs := none
  args := none
  members := none
  slices := none
  givenInputs := none
  givenOutputs := none
  inputMasks := none
  inputAccessors := none
  outputAccessors := none
  execPath := none
  params := [("has_profiler", .bool false)]

def param? (o : Operator) (key : String) : Option Value := o.params.lookup key

def setParam (o : Operator) (key : String) (v : Value) : Operator :=
  if o.params.any (·.1 == key) then
    { o with params := o.params.map fun e => if e.1 == key then (key, v) else e }
  else { o with params := o.params ++ [(key, v)] }

def inputList (o : Operator) : List TensorId := o.inputs.getD []

def outputList (o : Operator) : List TensorId := o.outputs.getD []

def memberList (o : Operator) : List OpId := o.members.getD []

end Operator

/-- The counters behind new names, and the names in use. -/
structure Namer where
  ops : Nat
  tensors : Nat
  outputs : List (String × Nat)
  used : List String
deriving DecidableEq, Inhabited, Repr

inductive Platform
  | cuda | rocm
deriving DecidableEq, Inhabited, Repr

structure Target where
  platform : Platform
  options : List (String × Value)
deriving Inhabited

namespace Target

def mentions (t : Target) (option : String) : Bool := t.options.any (·.1 == option)

def asksFor (t : Target) (option : String) : Bool := (t.options.lookup option).any (·.truthy)

end Target

structure Arena where
  dims : Array Dim
  tensors : Array Tensor
  ops : Array Operator
  namer : Namer
  target : Option Target
deriving Inhabited

namespace Arena

def empty (target : Option Target) : Arena := ⟨#[], #[], #[], ⟨0, 0, [], []⟩, target⟩

def dim (g : Arena) (d : DimId) : Dim := g.dims.getD d.idx default

def tensor (g : Arena) (t : TensorId) : Tensor := g.tensors.getD t.idx default

def op (g : Arena) (o : OpId) : Operator := g.ops.getD o.idx default

def modifyDim (g : Arena) (d : DimId) (f : Dim → Dim) : Arena :=
  { g with dims := g.dims.modify d.idx f }

def modifyTensor (g : Arena) (t : TensorId) (f : Tensor → Tensor) : Arena :=
  { g with tensors := g.tensors.modify t.idx f }

def modifyOp (g : Arena) (o : OpId) (f : Operator → Operator) : Arena :=
  { g with ops := g.ops.modify o.idx f }

end Arena

abbrev Build := EStateM Fault Arena

namespace Build

def expect {α : Type} (f : Fault) : Option α → Build α
  | some a => pure a
  | none => throw f

def require (f : Fault) (b : Bool) : Build Unit := if b then pure () else throw f

def target : Build Target := do expect .noTarget (← get).target

def look : Build DimTable := return (← get).dim

def dim (d : DimId) : Build Dim := return (← get).dim d

def tensor (t : TensorId) : Build Tensor := return (← get).tensor t

def op (o : OpId) : Build Operator := return (← get).op o

def shape (t : TensorId) : Build (List DimId) := return (← tensor t).shape

def dims (t : TensorId) : Build (List Dim) := return (← shape t).map (← get).dim

def modifyDim (d : DimId) (f : Dim → Dim) : Build Unit := modify (·.modifyDim d f)

def modifyTensor (t : TensorId) (f : Tensor → Tensor) : Build Unit := modify (·.modifyTensor t f)

def modifyOp (o : OpId) (f : Operator → Operator) : Build Unit := modify (·.modifyOp o f)

def addDim (d : Dim) : Build DimId := do
  let id : DimId := ⟨(← get).dims.size⟩
  modify fun g => { g with dims := g.dims.push d }
  return id

def addTensor (t : Tensor) : Build TensorId := do
  let id : TensorId := ⟨(← get).tensors.size⟩
  modify fun g => { g with tensors := g.tensors.push t }
  return id

def addOp (o : Operator) : Build OpId := do
  let id : OpId := ⟨(← get).ops.size⟩
  modify fun g => { g with ops := g.ops.push o }
  return id

def newOp (cls : OpClass) (kind : String) (settings : List (String × Value)) : Build OpId :=
  addOp (settings.foldl (fun o e => o.setParam e.1 e.2) (.ofClass cls kind))

def staticDim (n : Int) : Build DimId := addDim (.static n)

def dimOfValues (values : List Int) (name : Option String) : Build DimId := do
  addDim (← ofExcept (Dim.ofValues? values name))

def axis (shape : List DimId) (i : Int) : Build DimId := expect .badIndex (shape.at? i)

def fixedSize (d : DimId) : Build Int := do
  let d ← dim d
  require .noField d.isStatic
  return d.value

/-! ## Links -/

def addDst (t : TensorId) (o : OpId) : Build Unit := do
  require .noField !(← tensor t).dst.fixed
  modifyTensor t fun x => { x with dst := x.dst.insert o }

def addSrc (t : TensorId) (o : OpId) : Build Unit := do
  require .noField !(← tensor t).src.fixed
  modifyTensor t fun x => { x with src := x.src.insert o }

def discardDst (t : TensorId) (o : OpId) : Build Unit := do
  require .noField !(← tensor t).dst.fixed
  modifyTensor t fun x => { x with dst := x.dst.erase o }

def removeDst (t : TensorId) (o : OpId) : Build Unit := do
  let x ← tensor t
  require (if x.dst.fixed then .badNumber else .badKey) (x.dst.ops.contains o)
  modifyTensor t fun x => { x with dst := x.dst.erase o }

def removeSrc (t : TensorId) (o : OpId) : Build Unit := do
  let x ← tensor t
  require (if x.src.fixed then .badNumber else .badKey) (x.src.ops.contains o)
  modifyTensor t fun x => { x with src := x.src.erase o }

def setSrc (t : TensorId) (l : Links) : Build Unit := modifyTensor t fun x => { x with src := l }

def setDst (t : TensorId) (l : Links) : Build Unit := modifyTensor t fun x => { x with dst := l }

/-! ## Operators -/

def inputs (o : OpId) : Build (List TensorId) := do expect .badType (← op o).inputs

def outputs (o : OpId) : Build (List TensorId) := do expect .badKey (← op o).outputs

def inputAt (o : OpId) (i : Int) : Build TensorId := do expect .badIndex ((← inputs o).at? i)

def outputAt (o : OpId) (i : Int) : Build TensorId := do expect .badIndex ((← outputs o).at? i)

def param (o : OpId) (key : String) : Build Value := do expect .badKey ((← op o).param? key)

def setParam (o : OpId) (key : String) (v : Value) : Build Unit := modifyOp o (·.setParam key v)

def intParam (o : OpId) (key : String) : Build Int := do expect .badType (← param o key).int?

def linkInputs (o : OpId) : Build Unit := do
  for t in (← op o).inputList do
    addDst t o
  let g ← get
  let depth := ((g.op o).inputList.map fun t => (g.tensor t).depth).foldl max 0
  modifyOp o fun x => { x with depth := depth }

def setInputs (o : OpId) (ts : List TensorId) : Build Unit := modifyOp o fun x =>
    { x with inputs := some ts }

def setOutputs (o : OpId) (ts : List TensorId) : Build Unit := modifyOp o fun x =>
    { x with outputs := some ts }

def output (o : OpId) (shape : List DimId) (dtype : String := "float16") : Build TensorId := do
  let depth := (← op o).depth + 1
  addTensor { Tensor.ofShape shape dtype with depth := depth, src := .ofList [o] }

def soleOutput (o : OpId) (shape : List DimId) (dtype : String := "float16") : Build TensorId := do
  let y ← output o shape dtype
  setOutputs o [y]
  return y

def number (v : Value) : Build TensorId := addTensor { Tensor.ofShape [] with value := v }

end Build

end TensorGraph

import TensorGraph.Arena

/-!
# Operands

How plain values are read as operands: tensors, lists of tensors, shapes and positions.
-/

namespace TensorGraph

namespace Operand

open Build

def tensor (v : Value) : Build TensorId :=
  match v with
  | .tensor t => pure t
  | .dim _ | .op _ => throw .badKey
  | _ => throw .noField

def tensor? (v : Value) : Build (Option TensorId) :=
  match v with
  | .none => pure none
  | v => some <$> tensor v

def op (v : Value) : Build OpId :=
  match v with
  | .op o => pure o
  | .dim _ | .tensor _ => throw .badKey
  | _ => throw .noField

def members (v : Value) : Build (List Value) :=
  match v with
  | .list vs | .tuple vs => pure vs
  | .text s => pure (s.toList.map fun c => .text (String.singleton c))
  | .map es => pure (es.map (·.1))
  | _ => throw .badType

def tensors (v : Value) : Build (List TensorId) := do (← members v).mapM tensor

def tensors? (v : Value) : Build (List (Option TensorId)) := do (← members v).mapM tensor?

def int (v : Value) : Build Int := expect .badType v.int?

def position (v : Value) : Build Int := expect .unmet v.int?

def scalarOrTensor (v : Value) : Build TensorId :=
  match v with
  | .tensor t => pure t
  | v => if v.isNumber then number v else throw .badOperand

/-- The axis that a value stands for: a size, a dimension, or what a tensor holds the size of. -/
def dim? (v : Value) : Build (Option DimId) := do
  match v with
  | .dim d => return some d
  | .tensor t => return (← Build.tensor t).sizeVar
  | v =>
    match v.int? with
    | some n => some <$> staticDim n
    | none => return none

def shape (vs : List Value) : Build (List DimId) := do return (← vs.mapM dim?).filterMap id

def sizeTensors (vs : List Value) : Build (List TensorId) := do
  let g ← get
  return vs.filterMap fun v =>
    match v with
    | .tensor t => if (g.tensor t).sizeVar.isSome then some t else none
    | _ => none

/-! ## New dimensions -/

def newDim (values : Value) (name : Option String) : Build DimId := do
  match values with
  | .none => throw (.fewValues .none name)
  | .list vs | .tuple vs =>
    require (.fewValues values name) (2 ≤ vs.length)
    addDim (← ofExcept (Dim.dynamic? (← vs.mapM int) name))
  | _ => throw .badType

def newFixedDim (size : Value) (name : Option String) : Build DimId := do
  addDim (.static (← expect (.notAnInteger name size) size.int?) name)

def newShape (v : Value) : Build (List DimId) := do
  (← members v).mapM fun v =>
    match v with
    | .dim d => pure d
    | v => do staticDim (← expect (.badDim v) v.int?)

def zeroShape (v : Value) : Build (List DimId) := do
  (← members v).mapM fun v =>
    match v with
    | .dim d => pure d
    | v => newFixedDim v none

def soleSize (v : Value) : Build Int := do
  match v.int? with
  | some n => return n
  | none =>
    let d ← match v with
      | .dim d => pure d
      | .tensor t => expect .noField (← Build.tensor t).sizeVar
      | _ => throw .noField
    expect .dynamicSize (← Build.dim d).only?

/-- Where a slice starts or ends on each axis, `missing` where nothing is said. -/
def bounds (missing : Int) (vs : List Value) : Build (List Int) :=
  vs.mapM fun v =>
    match v with
    | .none => pure missing
    | v => soleSize v

end Operand

end TensorGraph

import TensorGraph.Arena
import TensorGraph.Number

/-!
# Splits

A split cuts a tensor along one axis into consecutive parts whose sizes add up to the size of the
axis.
-/

namespace TensorGraph

namespace Split

open Build

def partCount (size part : Int) : Int := Number.truncDiv (size + part - 1) part

def equalSizes? (size part : Int) : Except Fault (List Int) :=
  if size == 0 then .ok [0]
  else if part == 0 then .error .splitSize
  else
    let count := partCount size part
    if count ≤ 0 then .error .badIndex
    else .ok (List.replicate (count.toNat - 1) part ++ [part - (part * count - size)])

/-- The sizes of a number of parts that differ as little as possible, the smallest last. -/
def chunkSizes? (size chunks : Int) : Except Fault (List Int) :=
  let part := -(Int.fdiv (-size) chunks)
  if part == 0 then .error .zeroDivision
  else
    let rest := Int.fmod size part
    .ok (List.replicate (Int.fdiv size part).toNat part ++ (if 0 < rest then [rest] else []))

def addSize? : Value → Value → Except Fault Value
  | .int a, .int b => .ok (.int (a + b))
  | .int a, .bool b => .ok (.int (a + if b then 1 else 0))
  | .int a, .float b => .ok (.float (Float.ofInt a + b))
  | .float a, .float b => .ok (.float (a + b))
  | .float a, v =>
    match v.int? with
    | some b => .ok (.float (a + Float.ofInt b))
    | none => .error .badType
  | _, _ => .error .badType

def sumSizes? (sizes : List Value) : Except Fault Value := sizes.foldlM addSize? (.int 0)

def sumIs (sum : Value) (n : Int) : Bool :=
  match sum with
  | .int a => a == n
  | .float x => x == Float.ofInt n
  | _ => false

def partShape (s : List DimId) (dim : Int) (size : Int) : Build (List DimId) :=
  s.zipIdx.mapM fun (d, i) => do
    let x ← Build.dim d
    let here : Bool := (i : Int) == dim || (i : Int) == dim + s.length
    let values := if here then [size] else Dim.sortedValues x.values
    dimOfValues values (if (i : Int) == dim then none else x.name)

def partShapeOf (s : List DimId) (dim : Int) (v : Value) : Build (List DimId) :=
  match v.int? with
  | some n => partShape s dim n
  | none => throw (.notAnInteger none v)

def partShapes (x : TensorId) (sizes : List Value) (dim : Int) : Build (List (List DimId)) := do
  let s ← shape x
  require .scalarTensor !s.isEmpty
  require (.splitDim dim s.length) (decide (dim < s.length))
  require (.splitCount sizes.length) !sizes.isEmpty
  let size := (← Build.dim (← axis s dim)).value
  let sum ← ofExcept (sumSizes? sizes)
  require (.splitSum (.list sizes) size) (sumIs sum size)
  sizes.mapM (partShapeOf s dim)

def create : Build OpId := newOp .split "split" []

def createChunk : Build OpId := newOp .chunk "split" []

inductive Request
  | sizes (vs : List Value)
  | each (v : Value)

def apply (o : OpId) (x : TensorId) (r : Request) (dim : Int) : Build (List TensorId) := do
  let t ← tensor x
  setInputs o [x]
  let dim ← ofExcept (wrapDim? dim t.rank)
  setParam o "split_dim" (.int dim)
  linkInputs o
  let sizes ← match r with
    | .sizes vs => pure vs
    | .each v => do
      let n ← expect .splitSizeType v.int?
      let d ← Build.dim (← axis t.shape dim)
      require .splitDynamic d.isStatic
      pure ((← ofExcept (equalSizes? d.value n)).map .int)
  setParam o "split_sizes" (.list sizes)
  let shapes ← partShapes x sizes dim
  let ys ← shapes.mapM fun s => output o s t.dtype
  setOutputs o ys
  return ys

def applyChunk (o : OpId) (x : TensorId) (chunks dim : Int) : Build (List TensorId) := do
  require (.chunkCount chunks) (1 ≤ chunks)
  let s ← shape x
  require .scalarTensor !s.isEmpty
  require (.chunkDim dim s.length) (decide (dim < s.length))
  let d ← Build.dim (← axis s dim)
  require (.chunkDynamic dim) (d.values.length ≤ 1)
  let sizes ← ofExcept (chunkSizes? d.value chunks)
  apply o x (.sizes (sizes.map .int)) dim

end Split

end TensorGraph

import TensorGraph.Arena

/-!
# Elementwise operators

An elementwise operator applies a scalar function to each element of its operands, whose shapes are
joined by broadcasting.
-/

namespace TensorGraph

namespace Elementwise

open Build

def create (f : Value) : Build OpId := newOp .elementwise "elementwise" [("func", f)]

def joinShapes (f : Value) (ts : List TensorId) : Build (List DimId) := do
  match ts with
  | [] => throw (.noOperands f)
  | t :: rest =>
    let g ← get
    expect .notBroadcastable
      (rest.foldlM (fun s u => Shape.broadcast? g.dim s (g.tensor u).shape) (g.tensor t).shape)

def apply (o : OpId) (ts : List TensorId) : Build TensorId := do
  let g ← get
  let inputs := ts.filter fun t => !(g.tensor t).isNumber
  modifyOp o fun x => { x with args := some ts, inputs := some inputs }
  linkInputs o
  let shape ← joinShapes (← param o "func") ts
  soleOutput o shape

def applyFn (f : ScalarFn) (ts : List TensorId) : Build TensorId := do
  apply (← create (.func f)) ts

/-! ## Fusion -/

structure Boundary where
  reads : List TensorId
  writes : List TensorId
  inputs : List TensorId
  outputs : List TensorId
deriving Inhabited

namespace Boundary

def put (ts : List TensorId) (t : TensorId) : List TensorId :=
  if ts.contains t then ts else ts ++ [t]

def isInput (ops : List OpId) (x : Tensor) : Bool :=
  (x.src.ops.isEmpty || x.src.ops.any (!ops.contains ·)) && !x.isNumber

def isOutput (ops : List OpId) (x : Tensor) : Bool := x.isOutput || x.dst.ops.any (!ops.contains ·)

def read (ops : List OpId) (o : OpId) (b : Boundary) (t : TensorId) : Build Boundary := do
  let x ← tensor t
  require .unmet (x.dst.ops.contains o)
  return { b with
    reads := put b.reads t
    inputs := if isInput ops x then put b.inputs t else b.inputs }

def write (ops : List OpId) (o : OpId) (b : Boundary) (t : TensorId) : Build Boundary := do
  let x ← tensor t
  require .badType (x.isOutput || !x.dst.fixed)
  require .unmet (x.src.ops == [o])
  return { b with
    writes := put b.writes t
    outputs := if isOutput ops x then put b.outputs t else b.outputs }

def extend (ops : List OpId) (b : Boundary) (o : OpId) : Build Boundary := do
  let b ← (← Build.inputs o).foldlM (read ops o) b
  (← Build.outputs o).foldlM (write ops o) b

def consistent (b : Boundary) : Bool :=
  b.inputs.all (fun t => b.reads.contains t && !b.writes.contains t) &&
  b.reads.all (fun t => b.writes.contains t || b.inputs.contains t) &&
  b.writes.all (fun t => b.reads.contains t || b.outputs.contains t) &&
  b.outputs.all b.writes.contains

end Boundary

def checkOutputShapes (ts : List TensorId) : Build Unit := do
  let g ← get
  match ts with
  | [] => throw .badIndex
  | t :: rest =>
    require .fusedShapes (rest.all fun u => Shape.same g.dim (g.tensor t).shape (g.tensor u).shape)

def unlink (members : List OpId) (t : TensorId) : Build Unit := do
  let x ← tensor t
  setSrc t (.ofList (x.src.ops.filter (!members.contains ·)))
  require .badType !x.dst.fixed
  setDst t (.ofList (x.dst.ops.filter (!members.contains ·)))

def relink (o : OpId) (members : List OpId) (b : Boundary) : Build Unit := do
  for t in b.reads ++ b.writes.filter (!b.reads.contains ·) do
    unlink members t
  for t in b.inputs do
    addDst t o
  for t in b.outputs do
    addSrc t o

def fuse (ops : List OpId) : Build OpId := do
  let o ← newOp .fusedElementwise "fused_elementwise" []
  require .fusedEmpty !ops.isEmpty
  modifyOp o fun x => { x with members := some ops }
  let members := ops.distinct
  let b ← members.foldlM (Boundary.extend members) default
  require .fusedBoundary b.consistent
  let g ← get
  let accessor (t : TensorId) := Accessor.ofShape (g.tensor t).shape
  modifyOp o fun x => { x with
    inputs := some b.inputs
    inputAccessors := some (b.inputs.map accessor)
    outputs := some b.outputs
    outputAccessors := some (b.outputs.map accessor) }
  checkOutputShapes b.outputs
  modifyOp o fun x => { x with givenInputs := some b.inputs, givenOutputs := some b.outputs }
  relink o members b
  linkInputs o
  require .fusedNoInputs !b.inputs.isEmpty
  let g ← get
  require .fusedConstant (b.inputs.any fun t => !(g.tensor t).isNumber)
  return o

/-! ## Derived operators -/

def clamp (x : TensorId) (low high : Option TensorId) : Build TensorId := do
  match low, high with
  | none, some h => applyFn .min [x, h]
  | some l, none => applyFn .max [x, l]
  | some l, some h =>
    let y ← applyFn .max [x, l]
    applyFn .min [y, h]
  | none, none => throw .unmet

end Elementwise

end TensorGraph

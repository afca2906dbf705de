import TensorGraph.Graph.Rewire
import TensorGraph.Op.Concat

/-!
# Slices written side by side

Slices that are joined again need no tensors of their own: each can be copied straight to its place
in the result, also when the joined tensor is only reshaped and joined once more.
-/

namespace TensorGraph

namespace Scatter

open Build

def soleSlice? (g : Arena) (t : TensorId) : Option OpId :=
  match (g.tensor t).src.ops with
  | [o] => if (g.op o).kind == "dynamic_slice" then some o else none
  | _ => none

def joinsSlices (g : Arena) (cat : OpId) : Bool :=
  (g.op cat).kind == "concatenate" &&
  (g.op cat).inputList.all fun t => (soleSlice? g t).isSome && (g.tensor t).dst.ops.length == 1

def unlink (t : TensorId) : Build Unit := modifyTensor t fun x =>
    { x with src := .empty, dst := .empty }

def slicesOf (cat : OpId) : Build (List OpId) := do
  (← inputs cat).mapM fun t => do
    match (← tensor t).src.ops with
    | [o] => pure o
    | _ => throw .unmet

def readSource (o s : OpId) : Build TensorId := do
  match ← inputs s with
  | [x] =>
    if (← tensor x).dst.ops.contains s then
      removeDst x s
      addDst x o
    pure x
  | _ => throw .sliceInputs

def join (cat : OpId) : Build OpId := do
  let o ← newOp .sliceScatter "slice_scatter" []
  require .unmet (joinsSlices (← get) cat)
  setParam o "scatter_dim" (← param cat "concat_dim")
  let slices ← slicesOf cat
  modifyOp o fun x => { x with slices := some slices }
  let xs ← slices.mapM (readSource o)
  let ys ← outputs cat
  modifyOp o fun p => { p with inputs := some xs, outputs := some ys }
  for y in ys do
    setSrc y (.ofList [o])
  for s in slices do
    unlink (← outputAt s 0)
  for x in ← inputs cat do
    unlink x
  linkInputs o
  return o

def agreeBefore (g : Arena) (axis : Int) (xs ys : List DimId) : Bool :=
  ((xs.toIdx axis).zip (ys.toIdx axis)).all fun (a, b) => (g.dim a).lower == (g.dim b).lower

/-- Can slices that are joined, reshaped and joined again be written straight into the last
result? -/
def joinsReshaped (cat reshape cat2 : OpId) : Build Bool := do
  let g ← get
  require .unmet ((g.op cat).kind == "concatenate")
  require .unmet ((g.op reshape).kind == "reshape")
  require .unmet ("concatenate".isPrefixOf (g.op cat2).kind)
  let dim ← intParam cat "concat_dim"
  if dim != (← intParam cat2 "concat_dim") then return false
  let joined ← shape (← outputAt cat 0)
  let final ← shape (← outputAt cat2 0)
  if joined.length ≤ 1 || dim != (joined.length : Int) - 1 || final.length ≤ joined.length then
    return false
  if !agreeBefore g dim joined final then return false
  if !agreeBefore g dim joined (← shape (← outputAt reshape 0)) then return false
  return (← inputs cat).all fun t => (soleSlice? g t).isSome

def joinReshaped (cat reshape cat2 : OpId) : Build OpId := do
  let o ← newOp .sliceReshapeScatter "slice_reshape_scatter"
    [("element_func", if (← op cat2).kind == "concatenate_tanh" then .text "fast_tanh" else .none)]
  require .unmet (← joinsReshaped cat reshape cat2)
  setParam o "scatter_dim" (← param cat "concat_dim")
  let slices ← slicesOf cat
  modifyOp o fun x => { x with slices := some slices }
  let y ← outputAt reshape 0
  let idx ← expect .unmet ((← inputs cat2).findIdx? (· == y))
  Concat.removeInputs cat2 [idx]
  bypass reshape
  let xs ← slices.mapM fun s => inputAt s 0
  let ys ← outputs cat2
  modifyOp o fun p => { p with inputs := some xs, outputs := some ys }
  for x in xs do
    setDst x (.ofList [o])
  for y in ys do
    addSrc y o
  for s in slices do
    unlink (← outputAt s 0)
  for x in ← inputs cat do
    unlink x
  for y in ← outputs cat do
    unlink y
  linkInputs o
  return o

end Scatter

end TensorGraph

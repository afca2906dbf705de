import TensorGraph.Graph.Prune
import TensorGraph.Graph.Rewire
import TensorGraph.Op.Concat
import TensorGraph.Strided.Support

/-!
# Writing into a concatenation

An operator that can write into a larger tensor writes its result straight to its place in a
concatenation, which then copies one input less.
-/

namespace TensorGraph

namespace Strided

open Build

def setOutput (o : OpId) (i : Nat) (y : TensorId) : Build Unit :=
  modifyOp o fun x => { x with outputs := x.outputs.map (·.set i y) }

/-- The operator that can write an input of a concatenation straight into the result, and which of
its outputs the input is. -/
def writer? (cat : OpId) (ts : List TensorId) (t : TensorId) : Build (Option (OpId × Nat)) := do
  let x ← tensor t
  let (some o, some _) := (x.src.sole?, x.dst.sole?) | return none
  if !writes (← op o) then return none
  let i ← expect .catUnlinked ((← outputs o).findIdx? (· == t))
  if !(← writesInto o cat i) then return none
  return if 1 < ts.count t then none else some (o, i)

def writePart? (cat : OpId) (dim : Int) (whole : TensorId) (ts : List TensorId) (t : TensorId)
    (k : Nat) :
    Build (Option Int) := do
  let some (o, i) ← writer? cat ts t | return none
  let sizes ← (ts.take k).mapM fun u => do fixedSize (← axis (← shape u) dim)
  let target ← shape whole
  updateOutputAccessor o i fun look a => a.rebase look target dim sizes.sumInt
  addSrc whole o
  setOutput o i whole
  detach t
  return some (k : Int)

def writeInto (cat : OpId) : Build Unit := do
  let dim ← intParam cat "concat_dim"
  if ← isFixedFrom cat dim then
    let ts ← inputs cat
    let whole ← outputAt cat 0
    let moved ← ts.zipIdx.filterMapM fun (t, k) => writePart? cat dim whole ts t k
    Concat.removeInputs cat moved

def writeConcats (ts : Graph) : Build Graph := do
  for o in Graph.sources (← get) ts do
    if (← op o).kind == "concatenate" then writeInto o
  Graph.tidy ts

/-! ## Through a view -/

def elementsFrom (s : List DimId) (dim : Int) : Build Int := do
  let g ← get
  match s.fromIdx dim with
  | [] => throw .badType
  | ds => return (ds.map fun d => (g.dim d).lower).prodInt

/-- How many elements of each row lie before an input of a concatenation. -/
def offsetBefore (cat : OpId) (idx : Nat) (dim : Int) : Build Int := do
  let given ← expect .badKey (← op cat).givenInputs
  let sizes ← (List.range idx).mapM fun i => do
    let s ← shape (← expect .badIndex given[i]?)
    require (.catDimRange dim s.length) (decide (dim < s.length))
    require .catDimDynamic (Shape.allStatic (← look) s dim)
    elementsFrom s dim
  return sizes.sumInt

/-- The view behind a tensor and the concatenation behind that, if nothing else uses either and the
view has a fixed shape. -/
def viewThenConcat? (t : TensorId) : Build (Option (OpId × TensorId × OpId)) := do
  let some view := (← tensor t).dst.sole? | return none
  let kind := (← op view).kind
  if kind != "reshape" && kind != "unsqueeze" then return none
  let y ← outputAt view 0
  let users := (← tensor y).dst.ops
  if 1 < users.length then return none
  if !Shape.allStatic (← look) (← shape y) 0 then return none
  let some cat := users.head? | return none
  if (← op cat).kind != "concatenate" then return none
  return some (view, y, cat)

/-- Lets one result of a group of products be written through a view straight into a
concatenation. -/
def writeThroughView (o : OpId) (i : Nat) (t : TensorId) : Build Unit := do
  let some (view, y, cat) ← viewThenConcat? t | return ()
  if !(← writesInto o cat i) then return ()
  let dim ← intParam cat "concat_dim"
  if !(← isFixedFrom cat dim) then return ()
  if ((← shape y).length : Int) ≤ dim then return ()
  let idx ← Concat.tensorIndex cat y
  let place ← Concat.givenIndex cat idx
  let offset ← offsetBefore cat place dim
  Concat.removeInputs cat [idx]
  let whole ← outputAt cat 0
  let s ← shape whole
  let width ← staticDim (← elementsFrom s dim)
  let target := s.toIdx dim ++ [width]
  updateOutputAccessor o i fun look a => a.rebase look target dim offset
  addSrc whole o
  bypassView view
  let t ← outputAt o i
  setOutput o i whole
  detach t

def writeViewedGroups (ts : Graph) : Build Graph := do
  for o in Graph.sources (← get) ts do
    if isFreeGroup (← op o) then
      for (t, i) in (← outputs o).zipIdx do
        writeThroughView o i t
  Graph.tidy ts

end Strided

end TensorGraph

import TensorGraph.Op.Scatter
import TensorGraph.Strided.Concat

/-!
# Reading out of a slice

An operator that can read an operand straight out of a larger tensor needs no slice before it, as
long as only one axis is cut.
-/

namespace TensorGraph

namespace Strided

open Build

/-- What a slice means on one axis. -/
structure Cut where
  dim : Dim
  start : Int
  stop : Int
deriving Inhabited

namespace Cut

def isWhole (c : Cut) : Bool := Slice.coversAll c.dim c.start c.stop

def normal (c : Cut) : Cut :=
  if c.dim.isStatic then
    let (a, b) := Slice.normalize c.dim.value c.start c.stop
    { c with start := a, stop := b }
  else c

end Cut

/-- The fixed axes at the end of a shape that a slice leaves whole, and the one before them that it
cuts, given from the last axis to the first. -/
def cutFrom : List Cut → List Cut
  | [] => []
  | c :: cs =>
    if !c.dim.isStatic then []
    else if c.normal.isWhole then c.normal :: cutFrom cs
    else [c.normal]

/-- The only axis that a slice cuts, and its start and end on all axes; there is none if a dynamic
axis comes last, or if an earlier axis is cut too. -/
def soleCut? (cuts : List Cut) : Option (Nat × List Cut) :=
  let behind := cutFrom cuts.reverse
  let before := cuts.take (cuts.length - behind.length)
  if behind.isEmpty || !before.all (·.isWhole) then none
  else
    let whole := before.map fun c => Cut.normal { c with start := 0, stop := Slice.openEnd }
    some (before.length, whole ++ behind.reverse)

def isAlignedSlice (o : OpId) (cuts : List Cut) : Build Bool := do
  let kind := (← op o).kind
  if kind == "fused_elementwise" || kind == "concatenate" || isLayerNorm kind then return true
  if !"gemm_rcr".isPrefixOf kind then return false
  let rank := (← tensor (← outputAt o 0)).rank
  if 2 < rank && !cuts.dropLast.all (·.isWhole) then return false
  match cuts.getLast? with
  | none => throw .badIndex
  | some c => return c.dim.isStatic && Int.gcd c.dim.value c.start % 2 == 0

def indices (o : OpId) (key : String) : Build (List Int) := do
  match ← param o key with
  | .list vs | .tuple vs => vs.mapM fun v => expect .badType v.int?
  | _ => throw .badType

def cutsOf (slice : OpId) (x : TensorId) : Build (List Cut) := do
  let ds ← dims x
  let starts ← indices slice "start_indices"
  let stops ← indices slice "end_indices"
  ds.zipIdx.mapM fun (d, i) => do return ⟨d, ← expect .badIndex starts[i]?,
    ← expect .badIndex stops[i]?⟩

/-- The uses of a tensor by an operator, if the strides of each are still known. -/
def sliceUses? (o : OpId) (y : TensorId) (dim : Nat) : Build (Option (List Nat)) := do
  let kind := (← op o).kind
  let product := "gemm".isPrefixOf kind || "group_gemm".isPrefixOf kind || "bmm".isPrefixOf kind
  (← inputs o).zipIdx.foldlM (fun (uses : Option (List Nat)) (t, i) => do
    match uses with
    | none => return none
    | some is =>
      if t != y then return some is
      let a ← expect .badIndex (← inputAccessor? o i)
      if product then
        if !(← allows (some a) dim none) then return none
      return some (is ++ [i])) (some [])

def readSlice (slice : OpId) (y : TensorId) (o : OpId) : Build Bool := do
  if !(← reads o slice) then return false
  let x ← inputAt slice 0
  let some (dim, cuts) := soleCut? (← cutsOf slice x) | return false
  if !(← isAlignedSlice o cuts) then return false
  let some uses ← sliceUses? o y dim | return false
  let offset := (cuts.getD dim default).start
  let s ← shape x
  for i in uses do
    updateInputAccessor o i fun look a => a.rebase look s dim offset
  replaceTensorFor o y x
  return true

def skipSlice (o : OpId) : Build Unit := do
  if (← op o).kind == "dynamic_slice" then
    if let [y] ← outputs o then
      for u in (← tensor y).dst.ops do
        let _ ← readSlice o y u
      let t ← tensor y
      if t.dst.ops.isEmpty && !t.isOutput then detach y

def readSlices (ts : Graph) : Build Graph := do
  for o in Graph.sources (← get) ts do
    skipSlice o
  Graph.tidy ts

/-! ## Joined slices -/

def concatOf? (t : TensorId) : Build (Option OpId) := do
  let some o := (← tensor t).src.sole? | return none
  return if (← op o).kind == "concatenate" then some o else none

def scatterInto (t : TensorId) : Build Unit := do
  if let some cat ← concatOf? t then
    if Scatter.joinsSlices (← get) cat then
      let _ ← Scatter.join cat

def scatterSlices (ts : Graph) : Build Graph := do
  for t in ts do
    scatterInto t
  Graph.tidy ts

def soleUser? (o : OpId) : Build (Option OpId) := do return (← tensor (← outputAt o 0)).dst.sole?

def scatterReshaped (t : TensorId) : Build Unit := do
  if let some cat ← concatOf? t then
    if let some reshape ← soleUser? cat then
      if (← op reshape).kind == "reshape" then
        if let some cat2 ← soleUser? reshape then
          if "concatenate".isPrefixOf (← op cat2).kind then
            if ← Scatter.joinsReshaped cat reshape cat2 then
              let _ ← Scatter.joinReshaped cat reshape cat2

def scatterReshapedSlices (ts : Graph) : Build Graph := do
  for t in ts do
    scatterReshaped t
  Graph.tidy ts

end Strided

end TensorGraph

import TensorGraph.Graph.Reach
import TensorGraph.Op.Pad
import TensorGraph.Strided.Support

/-!
# The cost of even rows

The kernels for matrix products want rows of even length. An operand with odd rows can be padded, or
transposed if its columns are even.
-/

namespace TensorGraph

namespace Alignment

open Build

def elements (s : List DimId) : Build Int := do
  let g ← get
  return (s.map fun d => if (g.dim d).isStatic then (g.dim d).value else (g.dim d).upper).prodInt

def isWrittenStrided (t : TensorId) : Build Bool := do
  match (← tensor t).src.sole? with
  | none => return false
  | some o =>
    let x ← op o
    return x.kind == "elementwise" || Strided.writes x

def paddingCost (t : TensorId) (at_ : Int) : Build Number := do
  let s ← shape t
  let n ← fixedSize (← axis s at_)
  if n % 2 == 0 then return 0
  if ← Graph.areConstant [t] then return 0
  if ← isWrittenStrided t then
    ofExcept (Number.div? (.int ((← elements s) * Pad.oddPadding n)) (.int n))
  else return .int (← elements s)

def readsSlice (o user : OpId) : Build Bool := do
  if (← op user).kind == "elementwise" then return true
  Strided.reads user o

def slicingCost (o : OpId) (size other : Int) : Build Number := do
  let users := (← tensor (← outputAt o 0)).dst.ops
  let free ← users.foldlM (fun free u => do return (← readsSlice o u) && free) !users.isEmpty
  return .int (other * if free then Pad.oddPadding size else size)

/-- Where the summed axis of each operand of a batched product stands, counted from the end. -/
def innerAxes : OpClass → Option (Int × Int)
  | .bmmCcr => some (-2, -1)
  | .bmmCrr => some (-2, -2)
  | .bmmRcr => some (-1, -1)
  | .bmmRrr => some (-1, -2)
  | _ => none

def outerSize (s : List DimId) (inner : Int) : Build Int := do
  let d ← dim (← axis s (if inner == -2 then -1 else -2))
  return if d.isStatic then d.value else d.upper

def gainsByTransposing (s : List DimId) : Build Bool := do
  let row ← dim (← axis s (-1))
  if !row.isStatic || row.value % 2 != 1 then return false
  let column ← dim (← axis s (-2))
  return column.isStatic && column.value % 2 == 0

/-- One operand of a product: transposed or not, and where its summed axis stands. -/
structure Side where
  tensor : TensorId
  shape : List DimId
  transposed : Bool
  inner : Int
deriving Inhabited

def Side.gains (s : Side) : Build Bool := if s.transposed then gainsByTransposing s.shape else
    return true

/-- The cost of the operands and the result of a product, some of its operands being transposed;
none if transposing gains nothing. -/
def cost (o : OpId) (x w : Side) : Build (Option Number) := do
  if !(← x.gains) then return none
  if !(← w.gains) then return none
  let sides := [x, w]
  let rows ← sides.mapM fun s => do
    if s.transposed then
      if ← Graph.areConstant [s.tensor] then return (0 : Number) else
        return Number.int (← elements s.shape)
    else paddingCost s.tensor (-1)
  let padsInner := sides.any fun s => !s.transposed && s.inner == -1
  let columns ← sides.mapM fun s => do
    if padsInner && !s.transposed && s.inner != -1 then paddingCost s.tensor (-2) else
      return (0 : Number)
  let slices ← [(x, w), (w, x)].mapM fun (s, other) => do
    if s.transposed || s.inner == -1 then return (0 : Number)
    if (← fixedSize (← axis s.shape (-1))) % 2 != 1 then return (0 : Number)
    slicingCost o (← outerSize s.shape s.inner) (← outerSize other.shape other.inner)
  return some ((rows ++ columns ++ slices).foldl (· + ·) 0)

end Alignment

end TensorGraph

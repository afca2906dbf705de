import TensorGraph.Accessor.Address
import TensorGraph.Kernel.Broadcast
import TensorGraph.Kernel.ThreadCode

/-!
# Kernels of fused elementwise operators

A thread handles as many neighbouring elements of the result as one access moves.
-/

namespace TensorGraph.Kernel

open Build Code

/-- How many axes at the end of an operand are not repeated: the rank of the operand less the place
behind the last axis on which the extended shape differs from that of the result. -/
def keptAxes (rank : Nat) (extended result : List Dim) : Int :=
  match ((extended.zip result).zipIdx.filter fun ((x, y), _) => !x.same y).getLast? with
  | some (_, i) => (rank : Int) - (i + 1)
  | none => rank

/-- The extended shape of an operand, if it differs from the result's, and the number of elements at
its end that are not repeated. -/
def operandSpan (operand result : List Dim) : Option (List Dim) × Int :=
  let equal := operand.length == result.length && (operand.zip result).all fun (x, y) => x.same y
  if equal then (none, Shape.trailingProduct operand operand.length)
  else
    let extended := List.replicate (result.length - operand.length) (.static 1) ++ operand
    (some extended, Shape.trailingProduct extended (keptAxes operand.length extended result))

def smaller (known : Option Int) (n : Int) : Option Int :=
  match known with
  | none | some 0 => some n
  | some m => some (min m n)

/-- The width of an access, from the elements at the ends of the operands and from all accessors. -/
def commonWidth? (elements : Option Int) (operands results : List Accessor) : Option Int := do
  let n ← elements
  Accessor.widthFor? (← Accessor.widthFor? n results) operands

def widthAndShapes? (g : Arena) (inputs : List TensorId) (operands results : List Accessor) :
    Except Fault (Int × List (Option (List Dim))) := do
  let some out := results.head? | throw .badIndex
  let (elements, shapes) ← (inputs.zip operands).foldlM
    (fun (acc : Option Int × List (Option (List Dim))) (t, a) => do
      if (g.tensor t).dtype != "float16" then throw (.kernelDtype (g.tensor t).dtype)
      if (Shape.broadcast? g.dim out.seenShape a.seenShape).isNone then throw .kernelShapes
      let (shape, n) := operandSpan (a.seenShape.map g.dim) (out.seenShape.map g.dim)
      return (smaller acc.1 n, acc.2 ++ [shape]))
    (none, [])
  match commonWidth? elements operands results with
  | some w => return (w, shapes)
  | none => throw .badType

end TensorGraph.Kernel

import TensorGraph.Clusters
import TensorGraph.Graph.Naming
import TensorGraph.Graph.Refine
import TensorGraph.Op.Matmul.Workload
import TensorGraph.Op.Pad
import TensorGraph.Op.Slice
import TensorGraph.Operand
import TensorGraph.Signature

/-!
# Small functions

Questions about dimensions, shapes, slices, keys and names that can be asked apart from any graph.
-/

namespace TensorGraph

namespace Toolkit

open Build Param

/-- An answer: a value, or several under their names. -/
inductive Answer
  | value (v : Value)
  | record (fields : List (String × Value))
deriving Inhabited

inductive Tool
  | wrapDim | dimOfValues | dimSpanning | broadcast | trailingElements | allStatic | isStaticAt | toShape | toSize | isOne
  | sameShape | dtypeSize | alignedSize | sliceBounds | commonAlignment | keyNumbers | groupKeyNumbers | oddPadding
  | coversAll | keepsDynamic | identifier | freshNames | clusters | same | describeDim
deriving DecidableEq, Inhabited, Repr

def Tool.params : Tool → List Param
  | .wrapDim => [needed "idx", needed "rank"]
  | .dimOfValues | .dimSpanning => [needed "values", optional "name" .none]
  | .broadcast => [needed "shape1", needed "shape2"]
  | .trailingElements => [needed "shape", optional "num_rightmost_dims" .none]
  | .allStatic => [needed "shape", optional "from_dim" (.int 0)]
  | .isStaticAt => [needed "shape", needed "dim"]
  | .toShape => [needed "shape"]
  | .toSize => [needed "var"]
  | .isOne | .describeDim => [needed "dim"]
  | .sameShape => [needed "shapes1", needed "shapes2"]
  | .dtypeSize => [needed "dtype"]
  | .alignedSize => [needed "shape", needed "dtype", optional "alignment" (.int 64)]
  | .sliceBounds => [needed "dim_val", needed "start", needed "end"]
  | .commonAlignment | .same => [needed "a", needed "b"]
  | .keyNumbers | .groupKeyNumbers => [needed "key"]
  | .oddPadding => [needed "original_length"]
  | .coversAll => [needed "dim", needed "start_idx", needed "end_idx"]
  | .keepsDynamic => [needed "x_shape_values", needed "y_shape_values"]
  | .identifier => [needed "name"]
  | .freshNames => [needed "names"]
  | .clusters => [needed "entries"]

private def nameOf (v : Value) : Option String :=
  match v with
  | .text s => some s
  | _ => none

private def text (v : Value) : Build String := expect .badType (nameOf v)

private def ints (v : Value) : Build (List Int) := do (← Operand.members v).mapM Operand.int

private def axes (v : Value) : Build (List DimId) := do
  (← Operand.members v).mapM fun v => do
    match v with
    | .dim d => pure d
    | v => addDim ⟨false, [v.int?.getD 0, v.int?.getD 0], none⟩

/-- The axes of a shape; a bare size counts as a fixed axis. -/
private def sizes (v : Value) : Build (List DimId) := do
  (← Operand.members v).mapM fun v => do
    match v with
    | .dim d => pure d
    | v => addDim (.static (← Operand.int v))

private def dimsOnly (v : Value) : Build (List DimId) := do
  (← Operand.members v).mapM fun v => do
    match v with
    | .dim d => pure d
    | _ => throw .noField

private def shapeOf (ds : List DimId) : Value := .list (ds.map .dim)

private def soleValue (v : Value) : Build Answer := return .value v

private def entry (v : Value) : Build (Value × List Value) := do
  match ← Operand.members v with
  | [node, deps] =>
    match node with
    | .list _ | .map _ => throw .badType
    | node =>
      match deps with
      | .none => return (node, [])
      | deps => return (node, (← Operand.members deps).filter fun v => !(v matches .none))
  | _ => throw .badNumber

def clusters (v : Value) : Build Value := do
  let (_, shown) ← (← Operand.members v).foldlM (fun ((c : Clusters Value), shown) v => do
    let (node, deps) ← entry v
    let c := c.add node deps
    return (c, shown ++ [.list (c.toLists.map .list)])) (.empty, [])
  return .list shown

def run (t : Tool) (vs : List Value) : Build Answer := do
  match t, vs with
  | .wrapDim, [idx, rank] =>
    let i ← Operand.position idx
    let r ← Operand.int rank
    let i := if i < 0 then i + r else i
    require .unmet (decide (i < r))
    soleValue (.int i)
  | .dimOfValues, [values, n] => soleValue (.dim (← dimOfValues (← ints values) (nameOf n)))
  | .dimSpanning, [values, n] =>
    soleValue (.dim (← addDim (← ofExcept (Dim.spanning? (← ints values) (nameOf n)))))
  | .broadcast, [a, b] =>
    let a ← sizes a
    let b ← sizes b
    match Shape.broadcast? (← look) a b with
    | some s => soleValue (.tuple [.bool true, shapeOf s])
    | none => soleValue (.tuple [.bool false, .none])
  | .trailingElements, [s, count] =>
    let ds ← axes s
    if ds.isEmpty then soleValue (.int 1)
    else soleValue (.int (Shape.trailingElements (← look) ds (← Operand.int count)))
  | .allStatic, [s, start] =>
    let ds ← axes s
    match start with
    | .none => soleValue (.bool (Shape.allStatic (← look) ds 0))
    | start => soleValue (.bool (Shape.allStatic (← look) ds (← Operand.int start)))
  | .isStaticAt, [s, i] =>
    soleValue (.bool (← ofExcept (Shape.isStaticAt? (← look) (← axes s) (← Operand.int i))))
  | .toShape, [s] => soleValue (shapeOf (← Operand.shape (← Operand.members s)))
  | .toSize, [v] => soleValue (.int (← Operand.soleSize v))
  | .isOne, [v] =>
    match v.int? with
    | some n => soleValue (.bool (n == 1))
    | none =>
      let d ← match v with
        | .dim d => pure d
        | .tensor t => expect .noField (← tensor t).sizeVar
        | _ => throw .noField
      soleValue (.bool ((← dim d).only? == some 1))
  | .sameShape, [a, b] =>
    let a ← sizes a
    let b ← sizes b
    soleValue (.bool (Shape.same (← look) a b))
  | .dtypeSize, [d] => soleValue (.int (← ofExcept (Dtype.size? (d.text?.getD ""))))
  | .alignedSize, [s, d, alignment] =>
    let ds ← dimsOnly s
    soleValue
      (.int (← ofExcept (Dtype.alignedSize? (← look) ds (d.text?.getD "")
      (← Operand.int alignment))))
  | .sliceBounds, [n, start, stop] =>
    let (a, b) := Slice.normalize (← Operand.int n) (← Operand.int start) (← Operand.int stop)
    soleValue (.ints [a, b])
  | .commonAlignment, [a, b] => soleValue (.int
    (Matmul.commonAlignment (← Operand.int a) (← Operand.int b)))
  | .keyNumbers, [key] =>
    soleValue (.list ((Workload.numbersIn (← text key)).map fun (n : Nat) => .int n))
  | .groupKeyNumbers, [key] =>
    let key ← text key
    let all (c : Char) : Value := .list ((Workload.groupSizes c key).map .text)
    require .unmet ((Workload.groupSizes 'M' key).length == (Workload.groupSizes 'N' key).length)
    soleValue (.tuple [all 'M', all 'N', all 'K'])
  | .oddPadding, [n] => soleValue (.int (Pad.oddPadding (← Operand.int n)))
  | .coversAll, [d, start, stop] =>
    let d ← match d with
      | .dim d => dim d
      | _ => pure ⟨false, [], none⟩
    soleValue (.bool (Slice.coversAll d (← Operand.int start) (← Operand.int stop)))
  | .keepsDynamic, [xs, ys] =>
    let xs ← (← Operand.members xs).mapM ints
    let ys ← (← Operand.members ys).mapM ints
    soleValue (.bool (View.keepsDynamic xs ys))
  | .identifier, [s] => soleValue (.text (Text.identifier (← text s)))
  | .freshNames, [ss] =>
    let names ← (← Operand.members ss).mapM fun v => do Graph.freshName (← text v)
    soleValue (.list (names.map .text))
  | .clusters, [v] => soleValue (← clusters v)
  | .same, [a, b] =>
    let look ← look
    return .record [("ab", .bool (Value.same look a b)), ("ba", .bool (Value.same look b a))]
  | .describeDim, [v] =>
    match v with
    | .dim d =>
      let x ← dim d
      return .record [("dim", v), ("lower", .int x.lower), ("upper", .int x.upper),
        ("pseudo_code", .text x.pseudoCode)]
    | _ => throw .noField
  | _, _ => throw .badType

def call (t : Tool) (a : Args) : Build Answer := do
    run t (← ofExcept ((Signature.fixed t.params).bind? a))

end Toolkit

end TensorGraph

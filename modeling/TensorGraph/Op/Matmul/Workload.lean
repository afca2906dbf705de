import TensorGraph.Digest.Sha1
import TensorGraph.Op.Matmul.Basic
import TensorGraph.Workload

/-!
# Workloads of matrix products

Each size of a product (`M`, `N`, `K`, and `B` for batches) can be read off several axes of its
operands and of its result.
-/

namespace TensorGraph

namespace Matmul

open Build

/-- An axis, or several joined axes, of an input or an output. -/
structure SizeSource where
  ofInput : Bool
  tensor : Nat
  axes : List Nat
  /-- the axis only stands in for the size -/
  standIn : Bool
deriving DecidableEq, Inhabited, Repr

namespace SizeSource

def input (tensor axis : Nat) : SizeSource := ⟨true, tensor, [axis], false⟩

def output (axis : Nat) : SizeSource := ⟨false, 0, [axis], false⟩

def toValue (s : SizeSource) : Value :=
  .list [.text (if s.ofInput then "INPUT" else "OUTPUT"), .int s.tensor,
    .list (s.axes.map fun (i : Nat) => .int i), .bool s.standIn]

end SizeSource

abbrev SizeTable := List (String × List SizeSource)

def inputShape (o : OpId) (i : Nat) : Build (List DimId) := do
  let x ← op o
  match x.inputAccessors with
  | some as => return (← expect .badIndex as[i]?).seenShape
  | none => shape (← inputAt o i)

def outputShape (o : OpId) (i : Nat) : Build (List DimId) := do
  let x ← op o
  match x.outputAccessors with
  | some as => return (← expect .badIndex as[i]?).seenShape
  | none => shape (← outputAt o i)

private def gemmSizes (rank right inner : Nat) : SizeTable :=
  let rows := List.range (rank - 1)
  [("M", [⟨true, 0, rows, false⟩, ⟨false, 0, rows, false⟩]),
   ("N", [.input 1 right, .output (rank - 1)]),
   ("K", [.input 0 (rank - 1), .input 1 inner])]

def bmmSizes (o : OpId) (m k : Nat → Nat) (n k' : Nat → Nat) : Build SizeTable := do
  let sa ← inputShape o 0
  let sb ← inputShape o 1
  let sc ← outputShape o 0
  let g ← get
  let batch ← axis sc 0
  let standIn (s : List DimId) : Build Bool := do
    return !(g.dim (← axis s 0)).same (g.dim batch)
  let mut bs : List SizeSource := []
  if 2 < sa.length then bs := bs ++ [⟨true, 0, [0], ← standIn sa⟩]
  if 2 < sb.length then bs := bs ++ [⟨true, 1, [0], ← standIn sb⟩]
  return [("B", bs ++ [.output 0]), ("M", [.input 0 (m sa.length), .output 1]),
    ("N", [.input 1 (n sb.length), .output 2]),
      ("K", [.input 0 (k sa.length), .input 1 (k' sb.length)])]

def sizeTable (o : OpId) (measuring : Bool) : Build SizeTable := do
  let x ← op o
  let f ← expect .noField (family? x.cls)
  let last (r : Nat) := r - 1
  let previous (r : Nat) := r - 2
  match f with
  | .gemmRcr | .gemmRrr => do
    let rank ← if measuring then pure 2 else do
      let as ← expect .badKey x.inputAccessors
      pure (← expect .badIndex as.head?).seenShape.length
    return if f == .gemmRcr then gemmSizes rank 0 1 else gemmSizes rank 1 0
  | .bmmCcr => bmmSizes o last previous previous last
  | .bmmCrr => bmmSizes o last previous last previous
  | .bmmRcr | .narrow => bmmSizes o previous last previous last
  | .bmmRrr | .singleInner => bmmSizes o previous last last previous
  | .attention =>
    return [("B", [.input 0 0, .input 1 0, .output 0]), ("M", [.input 0 1, .output 1]),
      ("N", [.input 1 1]), ("K", [.input 0 2, .input 1 2]), ("O", [.output 2])]
  | .perm021Ccr =>
    return [("B", [.output 0]), ("M", [.input 0 2, .output 1]), ("N", [.input 1 1, .output 2]),
      ("K", [.input 0 1, .input 1 2])]
  | .perm021Crc =>
    return [("B", [.output 0]), ("M", [.input 1 2, .output 1]), ("N", [.input 0 2, .output 2]),
      ("K", [.input 0 1, .input 1 1])]
  | .perm102Rcr =>
    return [("B", [.output 1]), ("M", [.input 0 0, .output 0]), ("N", [.input 1 1, .output 2]),
      ("K", [.input 0 2, .input 1 2])]
  | .perm102Rrr =>
    return [("B", [.output 1]), ("M", [.input 0 0, .output 0]), ("N", [.input 1 2, .output 2]),
      ("K", [.input 0 2, .input 1 1])]
  | .smallRight =>
    let rank := (← shape (← inputAt o 0)).length
    let rows := List.range (rank - 1)
    return [("M", [⟨true, 0, rows, false⟩, ⟨false, 0, rows, false⟩]),
      ("N", [.input 1 1, .output 1]), ("K", [.input 0 (rank - 1), .input 1 0])]
  | .group => throw (.notDefined "extract_dims() is not implemented!")

/-- The source that a size is read off: the last input among those that are no stand-ins, else the
first of them. -/
def chosen? (sources : List SizeSource) : Option SizeSource :=
  let open_ := sources.filter (!·.standIn)
  match open_ with
  | [] => none
  | s :: rest => some ((rest.filter (·.ofInput)).getLastD s)

def sizeRange (o : OpId) (name : String) (sources : List SizeSource) : Build (List Int) := do
  let s ← expect (.noDimInfo name) (chosen? sources)
  let shape ← if s.ofInput then inputShape o s.tensor else outputShape o s.tensor
  require .badType !s.axes.isEmpty
  let ds ← s.axes.mapM fun (i : Nat) => do dim (← axis shape i)
  return Dim.sortedValues [(ds.map (·.lower)).prodInt, (ds.map (·.upper)).prodInt]

def execKey (sizes : List (String × List String)) : Build String :=
  expect .noWorkload (Workload.conditions? sizes)

def findWorkloads (o : OpId) (strategy : Value) : Build Unit := do
  let table ← sizeTable o false
  let ranges ← table.mapM fun (n, ss) => do return (n, ← sizeRange o n ss)
  modifyOp o fun x => { x with execPath := some [] }
  let pick ← match strategy with
    | .strategy .max => pure fun (vs : List Int) => vs.getLastD 0
    | .strategy .min => pure fun (vs : List Int) => vs.headD 0
    | s => throw (.badStrategy s)
  let key ← execKey (ranges.map fun (n, vs) => (n, [toString (pick vs)]))
  let cond ← execKey (ranges.map fun (n, vs) => (n, vs.map toString))
  modifyOp o fun x => { x with execPath := some [(key, .item key cond "")] }

/-- How far the inner size of a product may be split, to be tried out: every second number in a
range that depends on how much longer the inner size is than the others. -/
def splitFactors? (rocm : Bool) (m n k : Int) : Except Fault (List Int) := do
  if rocm then return [1]
  let most := max m n
  if most == 0 then throw .zeroDivision
  let factor := Int.fdiv k most
  let low := max 1 (Int.fdiv factor 4)
  let high := min factor 32
  let low := if low == 1 then low + 1 else low
  return (1 :: (List.range ((high - low + 1).toNat / 2)).map fun (i : Nat) => low + 2 * i).distinct

def keyAlignment (o : OpId) (key : String) : Build Int := do
  let x ← op o
  let f ← expect .noField (family? x.cls)
  if f == .group then
    let ms := Workload.groupSizes 'M' key
    let ns := Workload.groupSizes 'N' key
    let ks := Workload.groupSizes 'K' key
    require .unmet (ms.length == ns.length)
    let as := (ms.zip (ns.zip ks)).map fun (_, _, k) => commonAlignment (k.toInt?.getD 0)
      (k.toInt?.getD 0)
    expect .badIndex (as.mergeSort fun a b => a ≤ b).head?
  else
    match (Workload.numbersIn key).fromIdx (-3) with
    | [m, n, k] =>
      let a ← expect .badType (alignment? f m n k)
      require (.oddAlignment m n k) (a != 1)
      return a
    | _ => throw .badNumber

def signature (o : OpId) : Build String := do
  let x ← op o
  let k ← param o "split_k"
  return Sha1.hex (x.kind ++ "split_" ++ (k.text?).getD "")

end Matmul

end TensorGraph

import TensorGraph.Fusion.Chain

/-!
# Padding odd operands

A product whose operands have rows of odd length gets zeros appended to them, and the result is cut
back.
-/

namespace TensorGraph

namespace Alignment

open Build

/-- The size of a product that an axis of an input or of the output stands for. -/
def sizeName? (table : Matmul.SizeTable) (ofInput : Bool) (i : Nat) (at_ : Int) : Option String :=
  (table.find? fun (_, sources) => sources.any fun s =>
    s.ofInput == ofInput && s.tensor == i && s.axes.map (fun (k : Nat) => (k : Int)) ==
      [at_] && !s.standIn).map (·.1)

abbrev Growth := List (String × Int)

def neededGrowth (o : OpId) (table : Matmul.SizeTable) : Build Growth := do
  (← inputs o).zipIdx.foldlM (fun (acc : Growth) (t, i) => do
    let s ← shape t
    match sizeName? table true i ((s.length : Int) - 1) with
    | none => return acc
    | some name =>
      let d ← dim (← axis s (-1))
      require .dynamicAlignment d.isStatic
      let n := Pad.oddPadding d.value
      return if 0 < n then (acc.filter (·.1 != name)) ++ [(name, n)] else acc) []

/-- Appends zeros to one input of a product, along each axis that stands for a size that has to
grow; gives the new tensors. -/
def padInput (o : OpId) (i : Nat) (axisName? : Nat → Option String) (growth : Growth) :
    Build (List TensorId) := do
  let whole ← shape (← inputAt o i)
  whole.zipIdx.foldlM (fun new (d, k) => do
    let t ← inputAt o i
    match (axisName? k).bind fun name => growth.lookup name with
    | none => return new
    | some n =>
      let extra ← staticDim n
      let s := (← shape t).set k extra
      let _ ← fixedSize d
      removeDst t o
      let zeros ← zeroTensor s (← tensor t).dtype
      let padded ← Concat.concat [t, zeros] k
      modifyOp o fun x => { x with inputs := x.inputs.map (·.set i padded) }
      addDst padded o
      return new ++ [zeros, padded]) []

def handOver (y z : TensorId) : Build Unit := do
  let t ← tensor y
  modifyTensor z fun x => { x with isOutput := t.isOutput, name := t.name }
  modifyTensor y fun x => { x with isOutput := false, name := none }

/-- Cuts a padded result back to the shape that it had before; gives the result and what is new. -/
def cutBack (y old : TensorId) : Build (TensorId × List TensorId) := do
  let g ← get
  let s ← shape y
  let s' ← shape old
  if Shape.same g.dim s s' then return (y, [])
  let ends ← s.zipIdx.mapM fun (d, k) => do
    match s'[k]? with
    | none => return Slice.openEnd
    | some e =>
      let (d, e) := (g.dim d, g.dim e)
      if d.same e then return Slice.openEnd
      require .paddedShape (d.isStatic && e.isStatic)
      require .paddedShape (decide (e.value < d.value))
      return e.value
  let z ← Slice.slice y (s.map fun _ => 0) ends
  handOver y z
  return (z, [z])

def padded? (o : OpId) : Build (Option OpClass) := do
  let x ← op o
  if (Matmul.family? x.cls).isNone then return none
  if x.cls == .gemmRrrSmallNk || x.cls == .bmmRcrN1 || x.cls == .bmmRrrK1Tanh then return none
  let name ← expect .noField x.name
  if "group_gemm".isPrefixOf name || "bmm_rcr_n1".isPrefixOf name || (name.splitOn "softmax").length
    != 1 then return none
  return some x.cls

/-- A product of the given kind with other operands, split and scaled like the old one. -/
def productLike (c : OpClass) (o : OpId) (operands : List TensorId) : Build TensorId := do
  let x ← op o
  let vs ← ofExcept ((Signature.fixed (Catalog.settings c)).bind? ⟨[], []⟩)
  let p ← Catalog.create c vs
  setParam p "split_k" (← param o "split_k")
  if let some v := x.param? "alpha" then setParam p "alpha" v
  let ws ← ofExcept ((Catalog.operands c).bind? ⟨operands.map .tensor, []⟩)
  match ← Catalog.apply c p vs ws with
  | .tensor y => return y
  | _ => throw .noField

/-- Pads the operands of a product of the given kind, if it needs that, and replaces it; gives the
new tensors. -/
def padProduct (c : OpClass) (o : OpId) : Build (List TensorId) := do
  let table ← Matmul.sizeTable o false
  let growth ← neededGrowth o table
  if growth.isEmpty then return []
  let operands ← inputs o
  let matrices ← (List.range (min 2 operands.length)).mapM fun i =>
    padInput o i (fun k => sizeName? table true i k) growth
  let rank := (← tensor (← outputAt o 0)).rank
  -- a bias stands at the last axes of the result
  let others ← ((← inputs o).drop 2).zipIdx.mapM fun (t, i) => do
    let r := (← tensor t).rank
    padInput o (i + 2) (fun k => sizeName? table false 0 ((k : Int) + rank - r)) growth
  let operands ← inputs o
  forgetUse operands o
  let y ← productLike c o operands
  let old ← outputAt o 0
  copyMarks y old
  let (z, new) ← cutBack y old
  replaceTensor old z
  detach old
  return matrices.flatten ++ others.flatten ++ [y] ++ new

def pad (ts : Graph) : Build Graph := do
  let new ← ts.foldlM (fun (new : Graph) t => do
    let added ← (← tensor t).src.ops.mapM fun o => do
      match ← padded? o with
      | some c => padProduct c o
      | none => return []
    return new ++ [t] ++ added.flatten) []
  Graph.tidy new

end Alignment

end TensorGraph

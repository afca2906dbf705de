import TensorGraph.Op.View

/-!
# Rearranging elements

Permuting axes, expanding an axis of size 1, gathering elements by index, and reading off sizes.
-/

namespace TensorGraph

namespace Rearrange

open Build

/-! ## Permutations -/

def createPermute (cls : OpClass) : Build OpId := newOp cls cls.label []

def permutation : OpClass → List Nat
  | .permute021 => [0, 2, 1]
  | .permute102 => [1, 0, 2]
  | _ => [2, 1, 0]

def applyPermute (o : OpId) (x : TensorId) : Build TensorId := do
  setInputs o [x]
  linkInputs o
  let s ← shape x
  let shape ← (permutation (← op o).cls).mapM fun (i : Nat) => axis s i
  soleOutput o shape

def permute (x : TensorId) (dims : List Int) : Build TensorId := do
  let dims ← dims.mapM fun i => ofExcept (wrapDim? i 3)
  match [OpClass.permute021, .permute102, .permute210].find?
      (fun c => (permutation c).map (fun (i : Nat) => (i : Int)) == dims) with
  | some c => applyPermute (← createPermute c) x
  | none => throw (.permutePattern (.ints dims))

/-! ## Expansion -/

def createExpand : Build OpId := newOp .expand "expand" [("expand_dim", .none)]

/-- A dynamic dimension with only one possible size is a fixed one. -/
def settle (d : Dim) : Dim :=
  if d.isStatic then d
  else
    match d.only? with
    | some n => .static n
    | none => d

def expandDim (o : OpId) (i : Nat) (x target : Dim) : Build DimId := do
  let x := settle x
  let target := settle target
  if target.isStatic && target.value == -1 || x.same target then dimOfValues x.values x.name
  else if x.isStatic && x.value == 1 then
    match ← param o "expand_dim" with
    | .int k => throw (.expandTwice i k)
    | _ =>
      setParam o "expand_dim" (.int i)
      dimOfValues target.values target.name
  else throw .expandSize

def applyExpand (o : OpId) (x : TensorId) (target : List DimId) (sizeTensors : List TensorId) :
    Build TensorId := do
  setInputs o (x :: sizeTensors)
  linkInputs o
  let t ← tensor x
  require (.expandRank target.length t.rank) (target.length == t.rank)
  let g ← get
  let shape ← ((t.shape.zip target).zipIdx).mapM fun ((d, e), i) =>
    expandDim o i (g.dim d) (g.dim e)
  soleOutput o shape t.dtype

/-! ## Gathering -/

def createGather : Build OpId := newOp .gather "gather" []

def applyGather (o : OpId) (x : TensorId) (dim : Int) (index : TensorId) : Build TensorId := do
  let i ← tensor index
  require (.gatherIndex i.dtype) (i.dtype == "int64")
  let rank := (← shape x).length
  require (.gatherDim dim rank) (decide (dim < rank))
  setInputs o [x, index]
  setParam o "gather_dim" (.int dim)
  linkInputs o
  soleOutput o i.shape

/-! ## Sizes -/

def createSize : Build OpId := newOp .size "size" []

def sizeTensor (o : OpId) (d : DimId) : Build TensorId := do
  let y ← output o []
  modifyTensor y fun t => { t with sizeVar := some d }
  return y

def applySizeAt (o : OpId) (x : TensorId) (dim : Int) : Build TensorId := do
  setInputs o [x]
  linkInputs o
  let s ← shape x
  let i ← ofExcept (wrapDim? dim s.length)
  let y ← sizeTensor o (← axis s i)
  setOutputs o [y]
  return y

def applySize (o : OpId) (x : TensorId) : Build (List TensorId) := do
  setInputs o [x]
  linkInputs o
  let ys ← (← shape x).mapM (sizeTensor o)
  setOutputs o ys
  return ys

end Rearrange

end TensorGraph

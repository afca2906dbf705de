import TensorGraph.Arena

/-!
# Concatenation

Tensors that agree on all axes but one are joined along that axis.
-/

namespace TensorGraph

namespace Concat

open Build

def create (cls : OpClass := .concatenate) : Build OpId := newOp cls cls.label []

def joinAxis (here : Bool) (ds : List DimId) : Build DimId := do
  let g ← get
  match ds with
  | [] => throw .notTensors
  | d :: _ =>
    if here then
      let low := (ds.map fun d => (g.dim d).lower).sumInt
      let high := (ds.map fun d => (g.dim d).upper).sumInt
      dimOfValues [low, high] none
    else
      require .concatShapes (ds.all fun e => (g.dim d).same (g.dim e))
      return d

def joinShapes (shapes : List (List DimId)) (dim : Int) : Build (List DimId) := do
  let rank := (shapes.headD []).length
  require .notTensors !shapes.isEmpty
  require .scalarTensor (rank != 0)
  require (.concatDim dim rank) (decide (dim < rank))
  for s in shapes do
    require (.concatRanks s.length rank) (s.length == rank)
  (List.range rank).mapM fun (i : Nat) => joinAxis ((i : Int) == dim)
    (shapes.map fun s => s.getD i default)

def apply (o : OpId) (ts : List TensorId) (dim : Int) : Build TensorId := do
  let g ← get
  modifyOp o fun x => { x with
    inputs := some ts
    inputAccessors := some (ts.map fun t => .ofShape (g.tensor t).shape)
    givenInputs := some ts
    inputMasks := some (ts.map fun _ => true) }
  let first ← expect .badIndex ts.head?
  let dim ← ofExcept (wrapDim? dim (← tensor first).rank)
  setParam o "concat_dim" (.int dim)
  linkInputs o
  let shape ← joinShapes (ts.map fun t => (g.tensor t).shape) dim
  soleOutput o shape (← tensor first).dtype

def concat (ts : List TensorId) (dim : Int) : Build TensorId := do apply (← create) ts dim

/-! ## Inputs that are no longer copied -/

/-- The position among the given inputs of the input at a position. -/
def givenIndex? (masks : List Bool) (idx : Int) : Option Nat :=
  let open_ := masks.zipIdx.filter (·.1)
  if idx < 0 then none else (open_[idx.toNat]?).map (·.2)

def givenIndex (o : OpId) (idx : Int) : Build Nat := do
  let x ← op o
  let count := (x.givenInputs.getD []).length
  expect (.concatIndex idx) (givenIndex? ((x.inputMasks.getD []).take count) idx)

def tensorIndex (o : OpId) (t : TensorId) : Build Nat := do
  let ts ← inputs o
  expect (.concatUnknown ts.length) (ts.findIdx? (· == t))

/-- A walk over the masks: what stays, and the positions still to be removed. -/
structure Removal where
  masks : List Bool
  inputs : List TensorId
  accessors : List Accessor
  position : Nat
  pending : List Int
deriving Inhabited

/-- Looks at the next given input; only inputs that are still copied have a position. -/
def Removal.step (name : Option String) (ts : List TensorId) (as : List Accessor) (r : Removal)
    (mask : Bool) :
    Except (Fault × Removal) Removal :=
  if !mask then .ok { r with masks := r.masks ++ [mask] }
  else
    match ts[r.position]?, as[r.position]? with
    | some t, some a =>
      if r.pending.head? == some (r.position : Int) then
        if a.strideDim.isSome then .error (.concatStrided r.position name, r)
        else .ok { r with masks := r.masks ++ [false], position := r.position + 1, pending :=
          r.pending.tail }
      else .ok { r with
        masks := r.masks ++ [true]
        inputs := r.inputs ++ [t]
        accessors := r.accessors ++ [a]
        position := r.position + 1 }
    | _, _ => .error (.badIndex, r)

def Removal.run (name : Option String) (ts : List TensorId) (as : List Accessor)
    (pending : List Int)
    (masks : List Bool) : Except (Fault × Removal) Removal :=
  masks.foldlM (Removal.step name ts as) ⟨[], [], [], 0, pending⟩

def removeInputs (o : OpId) (indices : List Int) : Build Unit := do
  let x ← op o
  let ts ← inputs o
  let as ← expect .badKey x.inputAccessors
  let given ← expect .badKey x.givenInputs
  let masks ← expect .badKey x.inputMasks
  require (.concatAccessors as.length ts.length x.name) (as.length == ts.length)
  require (.concatTooMany indices.length ts.length) (indices.length ≤ ts.length)
  require (.concatMasks given.length masks.length) (given.length == masks.length)
  match Removal.run x.name ts as indices masks with
  | .error (f, r) =>
    modifyOp o fun x => { x with inputMasks := some (r.masks ++ masks.drop r.masks.length) }
    throw f
  | .ok r =>
    modifyOp o fun x => { x with inputMasks := some r.masks }
    let left := r.inputs.length + indices.length
    require (.concatRemoved left ts.length) (left == ts.length)
    modifyOp o fun x => { x with inputs := some r.inputs, inputAccessors := some r.accessors }

end Concat

end TensorGraph

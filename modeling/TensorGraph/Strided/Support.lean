import TensorGraph.Op.Slice

/-!
# Operators with strided operands

Many operators can write their result straight into a larger tensor, or read an operand straight out
of one.
-/

namespace TensorGraph

namespace Strided

open Build

/-! ## Writing -/

def isFreeGroup (o : Operator) : Bool := "group_gemm".isPrefixOf o.kind &&
    (o.param? "output_stride_dim").isNone

def isLayerNorm (kind : String) : Bool :=
  "layernorm".isPrefixOf kind || "group_layernorm".isPrefixOf kind

def isReduction (kind : String) : Bool :=
  ["reduce_sum", "reduce_mean", "var", "vector_norm"].contains kind

def writes (o : Operator) : Bool :=
  o.kind == "fused_elementwise" || "gemm".isPrefixOf o.kind || isFreeGroup o || isLayerNorm
    o.kind ||
  "bmm_rcr".isPrefixOf o.kind || "perm102_bmm_r".isPrefixOf o.kind || isReduction o.kind

/-- Are strides still known after an axis has become a part of a larger one? -/
def allows (a : Option Accessor) (dim : Int) (at_ : Option Int) : Build Bool := do
  let a ← expect .badIndex a
  ofExcept (a.allowsStride? (← look) dim at_)

def outputAccessor? (o : OpId) (i : Nat) : Build (Option Accessor) := do
  return (← expect .badKey (← op o).outputAccessors)[i]?

def inputAccessor? (o : OpId) (i : Nat) : Build (Option Accessor) := do
  return (← expect .badKey (← op o).inputAccessors)[i]?

def reducesLast (o : OpId) : Build Bool := do
  if (← op o).kind != "reduce_sum" then return true
  let rank := (← tensor (← inputAt o 0)).rank
  let axes ← match ← param o "reduction_axes" with
    | .list vs | .tuple vs => vs.mapM fun v => expect .badType v.int?
    | _ => throw .badType
  for a in axes do
    require (.axisRange a rank) (decide (0 ≤ a) && decide (a < rank))
  match axes.getLast? with
  | some a => return a == (rank : Int) - 1
  | none => throw .unsetLabel

def writesInto (o cat : OpId) (i : Nat) : Build Bool := do
  let x ← op o
  let dim ← intParam cat "concat_dim"
  if "gemm".isPrefixOf x.kind then allows (← outputAccessor? o 0) dim none
  else if isFreeGroup x then allows (← outputAccessor? o i) dim none
  else if isLayerNorm x.kind then return dim == 0 || dim == 1
  else if "bmm_rcr".isPrefixOf x.kind then allows (← outputAccessor? o 0) dim none
  else if "perm102_bmm_r".isPrefixOf x.kind then
    let a ← shape (← inputAt o 0)
    let y ← shape (← outputAt o 0)
    if y.length != 2 then return false
    let rows ← Build.dim (← axis a 0)
    if !rows.same (← Build.dim (← axis y 0)) then return false
    if dim != 1 then return false
    allows (← outputAccessor? o 0) dim (some 0)
  else if isReduction x.kind then reducesLast o
  else return true

/-! ## Reading -/

def readsMatrix (o : OpId) (y : TensorId) : Build Bool := do
  if !"gemm_rcr".isPrefixOf (← op o).kind then return false
  let a ← inputAt o 0
  if a != y then
    if (← inputAt o 1) != y then return false
  return 2 ≤ (← tensor y).rank

def checkCopied (cat slice : OpId) : Build Unit := do
  let x ← op cat
  let y ← outputAt slice 0
  let given ← expect .badKey x.givenInputs
  let masks ← expect .badKey x.inputMasks
  for ((t, mask), i) in (given.zip masks).zipIdx do
    if t == y then
      require (.sliceMasked i (← tensor t).name (← op slice).name) mask

def reads (o slice : OpId) : Build Bool := do
  let kind := (← op o).kind
  if "gemm".isPrefixOf kind then readsMatrix o (← outputAt slice 0)
  else if kind == "concatenate" then
    checkCopied o slice
    return true
  else return kind == "fused_elementwise" || isLayerNorm kind

/-! ## Shapes -/

def isFixedFrom (o : OpId) (dim : Int) : Build Bool := do
  let x ← op o
  let s ← if x.kind == "split" then shape (← inputAt o 0)
    else if x.kind == "concatenate" then shape (← outputAt o 0)
    else throw .unsupportedStride
  let g ← get
  let axes ← (List.range ((s.length : Int) - dim).toNat).mapM fun (k : Nat) => axis s (dim + k)
  return axes.all fun d => (g.dim d).isStatic

end Strided

end TensorGraph

import TensorGraph.Strided.Concat

/-!
# Views next to strided operators

An operator with accessors can read or write a tensor in another shape, so that a view before or
behind it is not needed.
-/

namespace TensorGraph

namespace Strided

open Build

def takesViews (o : OpId) : Build Bool := do
  let kind := (← op o).kind
  match (← target).platform with
  | .rocm => return kind == "bmm_softmax_bmm_permute"
  | .cuda => return !("group_gemm".isPrefixOf kind || "concatenate".isPrefixOf kind)

/-- Is an operator a view between a tensor and its input, with the same dynamic dimensions before
and after? -/
def isPlainView (view : OpId) (t : TensorId) : Build Bool := do
  if !isView (← op view).cls then return false
  let x ← inputAt view 0
  let y ← outputAt view 0
  if !Accessor.sameDynamic (← look) (← shape x) (← shape y) then return false
  return t == x || t == y

def writeViewed (o : OpId) (x y : TensorId) : Build Unit := do
  let as ← expect .badKey (← op o).outputAccessors
  let ys ← outputs o
  let rec seek : Nat → List Accessor → Build Nat
    | _, [] => throw .viewUnlinked
    | i, _ :: rest => do
      if (← expect .badIndex ys[i]?) == x then return i
      seek (i + 1) rest
  let i ← seek 0 as
  let s ← shape y
  updateOutputAccessor o i fun look a => a.reshape look s
  modifyTensor y fun t => { t with viewOf := none }
  setOutput o i y
  setSrc y (.ofList [o])
  detach x

def readViewed (o : OpId) (x y : TensorId) : Build Unit := do
  let as ← expect .badKey (← op o).inputAccessors
  let s ← shape x
  let found ← as.zipIdx.foldlM (fun found (_, i) => do
    if (← expect .badIndex (← inputs o)[i]?) != y then return found
    updateInputAccessor o i fun look a => a.reshape look s
    modifyOp o fun p => { p with inputs := p.inputs.map (·.set i x) }
    addDst x o
    return true) false
  require .viewUnlinked found

/-- The source of a tensor, if it can write the tensor in another shape: the tensor has one source
and one user and nobody asks for it. -/
def viewWriter? (x : TensorId) : Build (Option OpId) := do
  let t ← tensor x
  let (some o, some _) := (t.src.sole?, t.dst.sole?) | return none
  if (← op o).outputAccessors.isNone then return none
  if !(← takesViews o) then return none
  return if t.isOutput then none else some o

def takeView (y : TensorId) : Build Unit := do
  let some view := (← tensor y).src.sole? | return ()
  if !(← isPlainView view y) then return ()
  let x ← inputAt view 0
  match ← viewWriter? x with
  | some o => writeViewed o x y
  | none =>
    if (← tensor y).isOutput then return ()
    let moved ← (← tensor y).dst.ops.filterM fun o => do
      if (← op o).inputAccessors.isNone then return false
      if !(← takesViews o) then return false
      readViewed o x y
      return true
    let users := (← tensor y).dst
    require .badType !users.fixed
    let left := users.ops.filter (!moved.contains ·)
    setDst y (.ofList left)
    if left.isEmpty then
      removeDst x view
      detach y

/-- Takes up views until the number of operators no longer changes. -/
def takeViewsFrom : Nat → Nat → Graph → Build Graph
  | 0, _, _ => throw .tooDeep
  | n + 1, count, ts => do
    for t in ts do
      takeView t
    let ts ← Graph.tidy ts
    let now := (Graph.sources (← get) ts).length
    if count == now then return ts else takeViewsFrom n now ts

def takeViews (ts : Graph) : Build Graph := do
  let count := (Graph.sources (← get) ts).length
  takeViewsFrom (count + 2) count ts

end Strided

end TensorGraph

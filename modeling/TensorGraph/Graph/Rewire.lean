import TensorGraph.Graph.Detach

/-!
# Rewiring

Putting one tensor in the place of another, and taking operators out of a graph.
-/

namespace TensorGraph

namespace Build

def isView : OpClass → Bool
  | .reshape | .flatten | .squeeze | .unsqueeze => true
  | _ => false

def replaceInput (o : OpId) (old new : TensorId) : Build Unit := do
  let swap (ts : List TensorId) := ts.map fun t => if t == old then new else t
  let ts ← inputs o
  modifyOp o fun x => { x with inputs := some (swap ts) }
  let x ← op o
  if x.cls == .elementwise then
    let args ← expect .badKey x.args
    modifyOp o fun x => { x with args := some (swap args) }
  if isView x.cls then
    for y in ← outputs o do
      modifyTensor y fun t => if t.viewOf == some old then { t with viewOf := some new } else t

def moveUse (old new : TensorId) (o : OpId) : Build Unit := do
  replaceInput o old new
  addDst new o
  removeDst old o

def replaceTensor (old new : TensorId) : Build Unit := do
  let x ← tensor old
  if x.isOutput then
    modifyTensor new fun y => { y with isOutput := true, name := x.name }
  for o in (← tensor old).dst.ops do
    moveUse old new o
  detach old

def replaceTensorFor (o : OpId) (old new : TensorId) : Build Unit := do
  if (← tensor old).dst.ops.contains o then moveUse old new o

def forgetUse (ts : List TensorId) (o : OpId) : Build Unit := ts.forM fun t => removeDst t o

/-- The input of a removed operator takes over the name and the shape of an output of the graph. -/
def takeOver (x y : TensorId) : Build Unit := do
  let old ← tensor y
  if old.isOutput then
    modifyTensor x fun t => { t with isOutput := true, name := old.name, shape := old.shape }

def bypass (o : OpId) : Build Unit := do
  let p ← op o
  let ts ← inputs o
  let g ← get
  if p.kind == "reshape" then
    for t in ts.drop 1 do
      require (.shapeOperand (g.tensor t).name p.name) !(g.tensor t).dst.ops.contains o
  else require .unmet (ts.length == 1)
  let ys ← outputs o
  require .unmet (ys.length == 1)
  let x ← expect .badIndex ts.head?
  let y ← expect .badIndex ys.head?
  discardDst x o
  let users := (← tensor y).dst.ops
  for u in users do
    addDst x u
  for u in users do
    replaceInput u y x
  if (← tensor y).isOutput then
    let t ← tensor x
    require (.inputAndOutput t.name) !t.isInput
  takeOver x y
  detach y

/-- Takes a view out of the graph; its input then has the users of its output only. -/
def bypassView (o : OpId) : Build Unit := do
  let p ← op o
  if p.kind != "reshape" then bypass o
  else
    let ts ← inputs o
    let x ← expect .badIndex ts.head?
    let y ← outputAt o 0
    let users := (← tensor y).dst
    setDst x users
    for u in users.ops do
      replaceInput u y x
    takeOver x y
    for t in (ts.drop 1).distinct do
      removeDst t o
    detach y

def copyMarks (dst src : TensorId) : Build Unit := do
  let x ← tensor src
  modifyTensor dst fun y =>
    { y with depth := x.depth, name := x.name, nop := x.nop, isOutput := x.isOutput }

/-- Copies the scale of a product from the only source of one tensor to that of another; says if
both have just one. -/
def copyScale (dst src : TensorId) : Build Bool := do
  match (← tensor dst).src.ops, (← tensor src).src.ops with
  | [o], [p] =>
    if let some v := (← op p).param? "alpha" then setParam o "alpha" v
    return true
  | _, _ => return false

end Build

end TensorGraph

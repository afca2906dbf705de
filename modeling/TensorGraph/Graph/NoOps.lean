import TensorGraph.Graph.Prune
import TensorGraph.Graph.Rewire

/-!
# Expansions that do nothing

An expansion that changes no axis is dropped, and so is one whose users join the shapes of their
operands themselves.
-/

namespace TensorGraph

namespace Graph

open Build

def expandOutput (o : OpId) : Build TensorId := do
  match ← outputs o with
  | [y] => return y
  | _ => throw .expandOutputs

def dropExpand (x y : TensorId) : Build Unit := do
  for u in (← tensor y).dst.ops do
    replaceTensorFor u y x
  detach y

def dropIdleExpands (ts : Graph) : Build Graph := do
  for o in sources (← get) ts do
    let p ← op o
    if p.kind == "expand" then
      if (← param o "expand_dim") matches .none then
        let y ← expandOutput o
        let t ← tensor y
        if !t.isOutput then
          let x ← expect .expandInputs (← inputs o).head?
          modifyTensor x fun s => { s with shape := t.shape }
          dropExpand x y
  tidy ts

def joinsTo (expanded other : Dim) : Bool :=
  expanded.same other || expanded.only? == some 1

/-- Does a user of an expanded tensor join the shapes of its operands, and is the result the same
without the expansion?
-/
def joinsAnyway (y : TensorId) (o : OpId) : Build Bool := do
  let p ← op o
  if p.kind != "elementwise" then return false
  let ts ← inputs o
  let g ← get
  return ts.all fun t => t == y ||
    ((g.tensor y).shape.zip (g.tensor t).shape).all fun (d, e) => joinsTo (g.dim d) (g.dim e)

def dropJoinedExpands (ts : Graph) : Build Unit := do
  for o in sources (← get) ts do
    if (← op o).kind == "expand" then
      let y ← expandOutput o
      let t ← tensor y
      if !t.isOutput then
        if ← t.dst.ops.allM (joinsAnyway y) then
          dropExpand (← expect .expandInputs (← inputs o).head?) y

def dropExpands (ts : Graph) : Build Unit := do dropJoinedExpands (← dropIdleExpands ts)

end Graph

end TensorGraph

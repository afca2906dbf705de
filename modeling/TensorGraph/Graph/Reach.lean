import TensorGraph.Graph.Order

/-!
# Reachability
-/

namespace TensorGraph

namespace Graph

open Build

def isParent (a b : OpId) : Build Bool := do
  let ts ← inputs b
  let g ← get
  return ts.any fun t => (g.tensor t).src.ops.contains a

/-- Looks for `a` among the sources of the inputs of a layer of operators; what else is found forms
the next layer. -/
def seekLayer (a : OpId) (visited : List OpId) (layer : List OpId) :
    Build (Bool × List OpId × List OpId) :=
  layer.foldlM (fun (found, visited, next) o => do
    if found || visited.contains o then return (found, visited, next)
    let ts ← inputs o
    let g ← get
    let sources := ts.flatMap fun t => (g.tensor t).src.ops
    return (sources.contains a, o :: visited, next ++ sources)) (false, visited, [])

def seek (a : OpId) : Nat → List OpId → List OpId → Build Bool
  | 0, _, _ => throw .tooDeep
  | n + 1, visited, layer => do
    if layer.isEmpty then return false
    let (found, visited, next) ← seekLayer a visited layer
    if found then return true
    seek a n visited next

def isAncestor (a b : OpId) : Build Bool := do seek a ((← get).ops.size + 2) [] [b]

/-! ## Constants -/

abbrev Verdicts := List (TensorId × Bool)

def decideConstant (g : Arena) : Nat → Verdicts → TensorId → Except Fault Verdicts
  | 0, _, _ => .error .tooDeep
  | n + 1, seen, t => do
    if (seen.lookup t).isSome then return seen
    let x := g.tensor t
    if x.data.isSome then return (t, true) :: seen
    if x.src.ops.isEmpty then return (t, false) :: seen
    let (constant, seen) ← x.src.ops.foldlM (fun (constant, seen) o => do
      if !constant then return (constant, seen)
      let ts ← match (g.op o).inputs with
        | some ts => .ok ts
        | none => .error .badType
      ts.foldlM (fun (constant, seen) i => do
        if !constant then return (constant, seen)
        let seen ← decideConstant g n seen i
        return ((seen.lookup i).getD false, seen)) (true, seen)) (true, seen)
    return (t, constant) :: seen

def areConstant (ts : List TensorId) : Build Bool := do
  let g ← get
  let (constant, _) ← ts.foldlM (fun (constant, seen) t => do
    if !constant then return (constant, seen)
    let seen ← ofExcept (decideConstant g (g.tensors.size + 2) seen t)
    return ((seen.lookup t).getD false, seen)) (true, ([] : Verdicts))
  return constant

end Graph

end TensorGraph

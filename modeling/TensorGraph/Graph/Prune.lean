import TensorGraph.Graph.Mark
import TensorGraph.Graph.Naming
import TensorGraph.Graph.Validity

/-!
# Pruning

Uses by operators that produce nothing in the graph are forgotten; tensors without links drop out.
-/

namespace TensorGraph

namespace Graph

open Build

/-- Visits the operators of one layer: one that produces nothing in the graph uses nothing any
more. -/
def pruneLayer (sources : List OpId) (visited : List OpId) (layer : List OpId) :
    Build (List OpId × List OpId) :=
  layer.foldlM (fun (visited, next) o => do
    if visited.contains o then return (visited, next)
    if !sources.contains o then
      for t in ← inputs o do
        discardDst t o
    let ts ← outputs o
    let g ← get
    return (o :: visited, next ++ ts.flatMap fun t => (g.tensor t).dst.ops)) (visited, [])

def pruneLayers (sources : List OpId) : Nat → List OpId → List OpId → Build Unit
  | 0, _, _ => throw .tooDeep
  | n + 1, visited, layer => do
    if layer.isEmpty then return ()
    let (visited, next) ← pruneLayer sources visited layer
    pruneLayers sources n visited next

def forgetUnused (ts : Graph) : Build Unit := do
  let g ← get
  let users := ts.flatMap fun t => (g.tensor t).dst.ops
  pruneLayers (sources g ts) (g.ops.size + 2) [] users

def isLinked (x : Tensor) : Bool := !x.src.ops.isEmpty || !x.dst.ops.isEmpty || x.isInput ||
    x.isOutput

def tidy (ts : Graph) : Build Graph := do
  if ts.length == 1 then return ts
  let g ← get
  let ts := ts.filter fun t => isLinked (g.tensor t)
  giveNames ts
  markParams ts
  forgetUnused ts
  let _ ← check true ts
  return ts

end Graph

end TensorGraph

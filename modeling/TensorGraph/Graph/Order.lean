import TensorGraph.Arena

/-!
# The order of a graph

A graph is a list of tensors in which everything an operator reads stands before what it writes.
-/

namespace TensorGraph

abbrev Graph := List TensorId

namespace Graph

open Build

/-- Puts a tensor in front of the first one that is not deeper. -/
def insertByDepth (g : Arena) (t : TensorId) : List TensorId → List TensorId
  | [] => [t]
  | u :: us => if (g.tensor u).depth ≤ (g.tensor
    t).depth then t :: u :: us else u :: insertByDepth g t us

def deepestFirst (g : Arena) (ts : List TensorId) : List TensorId := ts.foldr (insertByDepth g) []

/-- Lists a tensor after all it depends on, unless it is listed already, and then the other outputs
of its sources. -/
def visit (g : Arena) : Nat → Graph → TensorId → Except Fault Graph
  | 0, _, _ => .error .tooDeep
  | n + 1, done, t => do
    if done.contains t then return done
    let sources := (g.tensor t).src.ops
    let done ← sources.foldlM (fun acc o => do
      let ts ← match (g.op o).inputs with
        | some ts => .ok ts
        | none => .error .badType
      (deepestFirst g ts).foldlM (visit g n) acc) done
    let done := done ++ [t]
    sources.foldlM (fun acc o => do
      let ts ← match (g.op o).outputs with
        | some ts => .ok ts
        | none => .error .badKey
      ts.foldlM (visit g n) acc) done

/-- No walk without cycles goes deeper than this: along the walk only finished tensors lead to
siblings, and between two of them a path follows inputs. -/
def depthBound (g : Arena) : Nat := (g.tensors.size + 1) * (g.tensors.size + 1) + 1

def sort (roots : List TensorId) : Build Graph := do
  let g ← get
  ofExcept (roots.foldlM (visit g (depthBound g)) [])

def sources (g : Arena) (ts : Graph) : List OpId :=
  (ts.flatMap fun t => (g.tensor t).src.ops).distinct

def sourceSteps (g : Arena) (ts : Graph) : List OpId := ts.flatMap fun t => (g.tensor t).src.ops

end Graph

end TensorGraph

import TensorGraph.Clusters
import TensorGraph.Fusion.Chain
import TensorGraph.Graph.Reach

/-!
# Elementwise groups

Elementwise operators that feed each other are run as one.
-/

namespace TensorGraph

namespace Pointwise

open Build

/-- Whether a source reaches another one on a detour, or reaches an operator that was set aside. -/
def reachesAside (sources aside : List OpId) (o : OpId) : Build Bool := do
  let detour ← sources.anyM fun p => do
    if o == p then return false
    if !(← Graph.isAncestor o p) then return false
    return !(← Graph.isParent o p)
  if detour then return true
  aside.anyM fun p => Graph.isAncestor o p

/-- Sets sources aside until none of the rest reaches one of those. -/
def settle : Nat → List OpId → List OpId → Build (List OpId)
  | 0, _, _ => throw .tooDeep
  | n + 1, sources, aside => do
    let more ← sources.filterM (reachesAside sources aside)
    if more.isEmpty then return sources
    settle n (sources.filter (!more.contains ·)) (aside ++ more)

def joinable (o : OpId) : Build (List OpId) := do
  let ts ← inputs o
  let g ← get
  let sources := (ts.flatMap fun t => (g.tensor t).src.ops).distinct
  let (pointwise, aside) := sources.partition fun p => (g.op p).kind == "elementwise"
  settle (sources.length + 1) pointwise aside

def clusters (ts : Graph) : Build (Clusters OpId) :=
  ts.foldlM (fun (c : Clusters OpId) t => do
    match (← tensor t).src.sole? with
    | some o => if (← op o).kind == "elementwise" then return c.add o (← joinable o) else return c
    | none => return c) .empty

def fuseAll (groups : List (List OpId)) : Build Unit :=
  groups.forM fun ops => do
    let _ ← Elementwise.fuse ops

def group (ts : Graph) : Build Graph := do
  fuseAll (← clusters ts).toLists
  Graph.tidy (← Graph.sort ts)

/-- A layer normalisation, the sigmoid of it and the product with its input, if they follow one
another. -/
def normSigmoidMul? (t : TensorId) : Build (Option (OpId × OpId × OpId)) := do
  let x ← tensor t
  let some norm := x.src.sole? | return none
  if (← op norm).kind != "layernorm" then return none
  let some sigmoid := x.dst.ops.head? | return none
  if !Chain.applies (← op sigmoid) .sigmoid then return none
  let some mul := (← tensor (← outputAt sigmoid 0)).dst.ops.head? | return none
  if !Chain.applies (← op mul) .mul then return none
  if ← Norm.isSigmoidMul norm sigmoid mul then return some (norm, sigmoid, mul) else return none

def joinNorms (ts : Graph) : Build Graph := do
  for (norm, sigmoid, mul) in ← ts.filterMapM normSigmoidMul? do
    let _ ← Norm.joinSigmoidMul norm sigmoid mul
  Graph.tidy ts

def fuse (ts : Graph) : Build Graph := do group (← joinNorms ts)

end Pointwise

end TensorGraph

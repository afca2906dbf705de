import TensorGraph.Graph.Prune
import TensorGraph.Graph.Rewire
import TensorGraph.Op.Matmul.Basic

/-!
# Splits and concatenations that cancel

Parts of a split that are joined again in order, or parts of a concatenation that are only joined
with others along the same axis, need not be built.
-/

namespace TensorGraph

namespace ConcatFusion

open Build

/-- The concatenation that all outputs of an operator go to, if there is one and nothing else uses
them. -/
def soleUser? : List TensorId → Option OpId → Build (Option OpId)
  | [], cat => return cat
  | t :: ts, cat => do
    match (← tensor t).dst.ops with
    | [] => return cat
    | [o] =>
      if (← op o).kind != "concatenate" then return none
      if cat.any (· != o) then return none
      soleUser? ts (some o)
    | _ => return none

def workAxis (o : OpId) : Build Value := do
  param o (if (← op o).kind == "concatenate" then "concat_dim" else "split_dim")

/-- The concatenation that a split or a concatenation can be merged into, if there is one. -/
def target? (o : OpId) : Build (Option OpId) := do
  let kind := (← op o).kind
  if kind != "split" && kind != "concatenate" then return none
  let some cat ← soleUser? (← outputs o) none | return none
  if (← param cat "concat_dim") != (← workAxis o) then return none
  return some cat

def findPairs (ts : Graph) : Build (List (OpId × OpId)) :=
  ts.foldlM (fun pairs t => do
    let some o := (← tensor t).src.sole? | return pairs
    if pairs.any fun (a, b) => a == o || b == o then return pairs
    let some cat ← target? o | return pairs
    return pairs ++ [(o, cat)]) []

def contract (parts whole : List TensorId) : Nat → List TensorId → List TensorId
  | 0, ts => ts
  | _, [] => []
  | n + 1, t :: ts =>
    if !parts.isEmpty && parts.isPrefixOf (t :: ts) then
      whole ++ contract parts whole n ((t :: ts).drop parts.length)
    else t :: contract parts whole n ts

/-- Merges a split or a concatenation into the concatenation that joins its outputs, unless some of
them are joined in another order. -/
def merge (o cat : OpId) : Build Unit := do
  let parts ← outputs o
  let whole ← inputs o
  let ts ← inputs cat
  let new := contract parts whole (ts.length + 1) ts
  if new.any parts.contains then return ()
  setInputs cat new
  let x ← op cat
  require .unmet ((← expect .badKey x.inputMasks).all id)
  require .unmet ((← expect .badKey x.inputAccessors).all (·.strideDim.isNone))
  let as ← Matmul.accessors new
  modifyOp cat fun x => { x with
    inputAccessors := some as
    givenInputs := some new
    inputMasks := some (new.map fun _ => true) }
  for t in whole do
    removeDst t o
    addDst t cat
  for t in parts do
    detach t

def mergePairs (ts : Graph) : Build Graph := do
  for (o, cat) in ← findPairs ts do
    merge o cat
  Graph.tidy ts

/-- Is an operator a concatenation of one tensor that is copied? -/
def isSingle (o : OpId) : Build Bool := do
  let x ← op o
  if x.kind != "concatenate" then return false
  let [y] ← outputs o | return false
  match ← inputs o with
  | [] =>
    removeSrc y o
    setOutputs o []
    return false
  | [_] => return (← expect .badKey x.inputMasks).all id
  | _ => return false

def dropSingle (ts : Graph) : Build Graph := do
  let ops := Graph.sources (← get) ts
  if ops.length ≤ 1 then return ts
  for o in ← ops.filterM isSingle do
    bypass o
  Graph.tidy ts

def round (ts : Graph) : Build Graph := do dropSingle (← mergePairs ts)

/-- Repeats the rounds until the number of operators no longer changes. -/
def repeatUntilStable : Nat → Option Nat → Graph → Build Graph
  | 0, _, ts => return ts
  | n + 1, count, ts => do
    let ts ← round ts
    let now := (Graph.sources (← get) ts).length
    if count == some now then return ts else repeatUntilStable n (some now) ts

def fuse (ts : Graph) : Build Graph := do repeatUntilStable ((← get).ops.size + 2) none ts

end ConcatFusion

end TensorGraph

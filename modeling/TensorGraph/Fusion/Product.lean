import TensorGraph.Fusion.Chain

/-!
# Products and what follows them

A constant factor behind a batched product becomes its scale; bias, activation and further operands
behind a product become part of it; `x · sigmoid x` behind a biased product too.
-/

namespace TensorGraph

namespace Product

open Build

/-- The scale that stands for an elementwise operator behind a product: the constant that it
multiplies with, or one over the constant that it divides by. -/
def scale? (o : OpId) (t : TensorId) : Build (Option Float) := do
  let x ← op o
  let divides := Chain.applies x .div
  if !divides && !Chain.applies x .mul then return none
  if (← inputs o).length != 1 then return none
  let [_, b] ← expect .badKey x.args | return none
  if divides && b == t then return none
  let c ← tensor b
  if !c.isNumber then return none
  match Number.ofValue? c.value with
  | none => return none
  | some n =>
    if divides then return some (← ofExcept (Number.div? (.float 1.0) (.float n.toFloat))).toFloat
    else return some n.toFloat

def takeScales (ts : Graph) : Build Graph := do
  for t in ts do
    let x ← tensor t
    if let (some p, some o) := (x.src.sole?, x.dst.sole?) then
      if "bmm".isPrefixOf (← op p).kind then
        if let some v ← scale? o t then
          setParam p "alpha" (.float v)
          bypass o
  Graph.tidy ts

/-- Is one of two operators the sigmoid of a tensor, and the other the product of it with the
tensor? -/
def sigmoidProduct? (t : TensorId) (sigmoid mul : OpId) : Build (Option TensorId) := do
  if !Chain.applies (← op sigmoid) .sigmoid || !Chain.applies (← op mul) .mul then return none
  let s ← outputAt sigmoid 0
  let first ← inputAt mul 0
  let forward := first == s && (← inputAt mul 1) == t
  let second ← inputAt mul 1
  if forward || second == s && first == t then return some (← outputAt mul 0) else return none

def swish? (t : TensorId) : Build (Option TensorId) := do
  let [a, b] := (← tensor t).dst.ops | return none
  match ← sigmoidProduct? t a b with
  | some y => return some y
  | none => sigmoidProduct? t b a

def joinSwish (ts : Graph) : Build Graph := do
  let (new, _) ← ts.foldlM (fun (new, gone) t => do
    if gone.contains t then return (new, gone)
    let x ← tensor t
    let some p := x.src.sole? | return (new ++ [t], gone)
    if x.isOutput || (← op p).kind != "gemm_rcr_bias" then return (new ++ [t], gone)
    let some z ← swish? t | return (new ++ [t], gone)
    let operands ← inputs p
    forgetUse operands p
    let dropped ← x.dst.ops.mapM fun o => outputAt o 0
    let y ← Chain.build .gemmRcrBiasSwish [] operands
    copyMarks y z
    replaceTensor z y
    return (new ++ [y], gone ++ dropped)) (([] : Graph), ([] : List TensorId))
  Graph.tidy new

def fuse (ts : Graph) : Build Graph := do
  let ts ← takeScales ts
  let ts ← Chain.fuse Chain.productBias ts
  let ts ← Chain.fuse Chain.productActivation ts
  joinSwish ts

end Product

end TensorGraph

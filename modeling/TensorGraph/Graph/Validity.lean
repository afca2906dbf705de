import TensorGraph.Graph.Order

/-!
# Valid graphs

In a valid graph all inputs of an operator stand before its outputs, and tensors and operators agree
on who uses and who produces what.
-/

namespace TensorGraph

namespace Graph

open Build

/-- Goes on after a check; a failed one is raised or only remembered. -/
def note (raise : Bool) (f : Fault) (holds valid : Bool) : Build Bool :=
  if holds then pure valid else if raise then throw f else pure false

/-- A source of a tensor: its inputs came before and know it, and it has the tensor among its
outputs. -/
def checkSource (raise : Bool) (seen : List TensorId) (t : TensorId) (valid : Bool) (o : OpId) :
    Build Bool := do
  let x ← tensor t
  let p ← op o
  let valid ← (← inputs o).foldlM (fun valid i => do
    let y ← tensor i
    let valid ← note raise (.inputNotEstablished y.name p.name) (seen.contains i) valid
    note raise (.notDstOp p.name y.name) (y.dst.ops.contains o) valid) valid
  note raise (.notInOutputs x.name p.name) ((← outputs o).contains t) valid

/-- A user of a tensor: its outputs come later and know it, and it has the tensor among its
inputs. -/
def checkUser (raise : Bool) (seen : List TensorId) (t : TensorId) (valid : Bool) (o : OpId) :
    Build Bool := do
  let x ← tensor t
  let p ← op o
  let valid ← (← outputs o).foldlM (fun valid i => do
    let y ← tensor i
    let valid ← note raise (.outputNotEstablished y.name p.name) (seen.contains i) valid
    note raise (.notSrcOp p.name y.name) (y.src.ops.contains o) valid) valid
  note raise (.notInInputs x.name p.name) ((← inputs o).contains t) valid

def check (raise : Bool) (ts : Graph) : Build Bool := do
  let (valid, _) ← ts.foldlM (fun (valid, seen) t => do
    let valid ← (← tensor t).src.ops.foldlM (checkSource raise seen t) valid
    return (valid, t :: seen)) (true, ([] : List TensorId))
  let (valid, _) ← ts.reverse.foldlM (fun (valid, seen) t => do
    let valid ← (← tensor t).dst.ops.foldlM (checkUser raise seen t) valid
    return (valid, t :: seen)) (valid, ([] : List TensorId))
  return valid

end Graph

end TensorGraph

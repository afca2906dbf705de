import TensorGraph.Graph.Order

/-!
# Marks

Which tensors are parameters, which are shown by an output, and which views reuse the storage of an
input, a constant or an output.
-/

namespace TensorGraph

namespace Graph

open Build

/-- A tensor that nothing produces and that is no input is a parameter. -/
def markParams (ts : Graph) : Build Unit :=
  ts.reverse.forM fun t => do
    let x ← tensor t
    if x.src.ops.isEmpty && !x.isInput then modifyTensor t fun x => { x with isParam := true }
    if let some v := x.viewOf then
      modifyTensor v fun y => { y with hasOutputAliases := x.isOutput || x.hasOutputAliases }

/-- A view of a tensor that lives outside, or of an input, a constant or an output, lives there as
well. -/
def markViews (ts : Graph) : Build Unit :=
  ts.forM fun t => do
    if let some v := (← tensor t).viewOf then
      let y ← tensor v
      match y.external with
      | some e => modifyTensor t fun x => { x with external := some e }
      | none =>
        if y.src.ops.isEmpty || y.isOutput then modifyTensor t fun x =>
          { x with external := some v }

end Graph

end TensorGraph

import TensorGraph.Graph.Order

/-!
# Constant parts of a graph

What is computed from constants only can be computed beforehand: it forms a graph of its own, whose
computed tensors are all outputs.
-/

namespace TensorGraph

namespace Graph

open Build

def asOutput (t : TensorId) : Build TensorId := do
  let g ← get
  let x := g.tensor t
  let dtype := match x.viewOf with
    | some v => (g.tensor v).dtype
    | none => x.dtype
  let depth := match x.src.ops with
    | [] => 0
    | os => (os.map fun o => (g.op o).depth).foldl max 0 + 1
  addTensor { Tensor.ofShape x.shape dtype with
    name := x.name, src := x.src, dst := x.dst, isOutput := true, viewOf := x.viewOf, external :=
      x.viewOf,
    depth := depth }

def constantPart (ts : Graph) : Build Graph := do
  let (_, part) ← ts.foldlM (fun (names, part) t => do
    let x ← tensor t
    if x.isInput then return (names, part)
    if x.data.isSome then return (x.name :: names, part ++ [t])
    if x.isParam then return (names, part)
    let mut constant := true
    for o in x.src.ops do
      if constant then
        let is ← inputs o
        let g ← get
        constant := is.all fun i => names.contains (g.tensor i).name
    if constant then return (x.name :: names, part ++ [← asOutput t])
    return (names, part)) (([] : List (Option String)), ([] : Graph))
  return part

end Graph

end TensorGraph

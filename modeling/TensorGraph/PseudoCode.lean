import TensorGraph.Graph.Order

/-!
# Pseudo code

A readable form of operators: outputs, kind and settings, inputs.
-/

namespace TensorGraph

namespace PseudoCode

variable (g : Arena)

def tensor (withShape : Bool) (t : TensorId) : String :=
  let x := g.tensor t
  match x.sizeVar with
  | some d => "IntVarTensor(" ++ (g.dim d).pseudoCode ++ ")"
  | none =>
    let name := ["name=" ++ Fault.nameText x.name]
    let shape := if withShape then
      ["shape=" ++ ", ".intercalate (x.shape.map fun d => (g.dim d).pseudoCode)] else []
    let data := match x.data with
      | some d => [s!"data=({d.bytes} bytes)"]
      | none => []
    "Tensor(" ++ ", ".intercalate (name ++ shape ++ data) ++ ")"

def value (v : Value) : String :=
  match v with
  | .dim d => (g.dim d).pseudoCode
  | v => v.text?.getD ""

def values (v : Value) : String :=
  match v with
  | .list vs | .tuple vs => ", ".intercalate (vs.map (value g))
  | v => value g v

def operands (withShape : Bool) (ts : List TensorId) (more : List String) : String :=
  let texts := ts.map (tensor g withShape) ++ more
  (if 3 < texts.length && !ts.isEmpty then ",\n" else ", ").intercalate texts

def settings? (o : Operator) : Except Fault String := do
  let text (key : String) : Except Fault String :=
    match o.param? key with
    | some v => .ok (value g v)
    | none => .error .badKey
  match o.cls with
  | .elementwise => text "func"
  | .fusedElementwise =>
    return ", ".intercalate (o.memberList.map fun m =>
      value g (((g.op m).param? "func").getD .none))
  | .flatten => return "start=" ++ (← text "start") ++ ", end=" ++ (← text "end")
  | .squeeze | .unsqueeze => return "dim=" ++ (← text "dim")
  | _ => return ""

def inputs? (withShape : Bool) (o : Operator) : Except Fault String := do
  let param (key : String) : Except Fault Value :=
    match o.param? key with
    | some v => .ok v
    | none => .error .badKey
  let some ts := o.inputs | return "None"
  match o.cls with
  | .reshape =>
    let some x := ts.head? | throw .badIndex
    return operands g withShape [x] ["shape=[" ++ values g (← param "shape") ++ "]"]
  | .concatenate | .concatenateTanh =>
    return operands g withShape ts ["dim=" ++ value g (← param "concat_dim")]
  | .dynamicSlice =>
    return operands g withShape ts ["start_indices=[" ++ values g (← param "start_indices") ++ "]",
      "end_indices=[" ++ values g (← param "end_indices") ++ "]"]
  | .split | .chunk =>
    return operands g withShape ts ["split_sizes=" ++ value g (← param "split_sizes") ++ "]",
      "dim=" ++ value g (← param "split_dim") ++ "]"]
  | .groupNorm | .groupNormSwish =>
    return operands g withShape ts ["num_groups=" ++ value g (← param "num_groups")]
  | _ => return operands g withShape ts []

def operator? (withShape : Bool) (o : OpId) : Except Fault String := do
  let x := g.op o
  let args ← settings? g x
  let ins ← inputs? g withShape x
  let some outs := x.outputs | throw .badKey
  return "(" ++ operands g withShape outs [] ++ ") \n= " ++ x.kind ++ "(" ++ args ++ ")(\n" ++
    ins ++ ")\n"

def graph? (withShape : Bool) (ts : Graph) : Except Fault String := do
  let texts ← (Graph.sources g ts).mapM (operator? g withShape)
  return "\n".intercalate texts

end PseudoCode

end TensorGraph

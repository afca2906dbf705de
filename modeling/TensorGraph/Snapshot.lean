import TensorGraph.Graph.Order
import TensorGraph.Report

/-!
# Snapshots

What is shown of dimensions, tensors, operators and graphs. A node is referred to by its name, or by
a label if it has no name yet.
-/

namespace TensorGraph

structure Labels where
  tensor : TensorId → Option String
  op : OpId → Option String

namespace Snapshot

variable (g : Arena) (l : Labels)

def tensorRef (t : TensorId) : String :=
  match (g.tensor t).name, l.tensor t with
  | some n, _ => n
  | none, some s => "$" ++ s
  | none, none => "?"

def opRef (o : OpId) : String :=
  match (g.op o).name, l.op o with
  | some n, _ => n
  | none, some s => "$" ++ s
  | none, none => "<" ++ (g.op o).kind ++ ">"

def dim (d : DimId) : Report :=
  let x := g.dim d
  if x.isStatic then
    match x.values with
    | [n] => .int n
    | ns => .record [("imm", .ints ns)]
  else .record [("values", .ints x.values), ("name", .ofText? x.name)]

def shape (ds : List DimId) : Report := .list (ds.map (dim g))

def sortedBy {α : Type} (key : α → String) (xs : List α) : List α := xs.mergeSort fun a b =>
    key a ≤ key b

def links (ls : Links) : Report := .texts (sortedBy id (ls.ops.map (opRef g l)))

def tensorRefs (ts : List TensorId) : Report := .texts (ts.map (tensorRef g l))

mutual

def value : Value → Report
  | .none => .null
  | .bool b => .bool b
  | .int n => .int n
  | .float x => .float x
  | .text s => .text s
  | .list xs | .tuple xs => .list (values xs)
  | .map es => .list (entries es)
  | .dim d => dim g d
  | .tensor t => .text (tensorRef g l t)
  | .op o => .text (opRef g l o)
  | .func f => .text f.text
  | .strategy s => .text s.text

def values : List Value → List Report
  | [] => []
  | x :: xs => value x :: values xs

def entries : List (Value × Value) → List Report
  | [] => []
  | (k, v) :: es => .list [value k, value v] :: entries es

end

private def flag (name : String) (b : Bool) : List (String × Report) :=
  if b then [(name, .bool true)] else []

private def field? {α : Type} (name : String) (f : α → Report) : Option α → List (String × Report)
  | some a => [(name, f a)]
  | none => []

def tensor (t : TensorId) : Report :=
  let x := g.tensor t
  let ref (t : TensorId) : Report := .text (tensorRef g l t)
  .record ([("name", ref t), ("shape", shape g x.shape), ("dtype", .text x.dtype),
    ("depth", .int x.depth), ("src", links g l x.src), ("dst", links g l x.dst)] ++
    flag "is_input" x.isInput ++ flag "is_output" x.isOutput ++ flag "is_param" x.isParam ++
    flag "has_output_aliases" x.hasOutputAliases ++ flag "nop" x.nop ++
    field? "view_of" ref x.viewOf ++ field? "external_tensor" ref x.external ++
    (if x.hasValue then [("value", value g l x.value)] else []) ++
    field? "offset" .int x.offset ++
    field? "data" (fun d => .record [("bytes", .int d.bytes), ("dtype", .text d.dtype)]) x.data ++
    field? "int_var" (dim g) x.sizeVar)

private def groups (gs : Option (List AxisGroup)) : Report :=
  match gs with
  | some gs => .list (gs.map fun (a, b) => .list [.nats a, .nats b])
  | none => .null

private def accessorFields (a : Accessor) : List (String × Report) :=
  [("offset", .int a.offset),
   ("actual_shapes", match a.storedShape with
    | some s => shape g s
    | none => .null),
   ("is_contiguous", .bool a.isContiguous),
   ("is_from_strided_tensor", .bool a.fromStrided),
   ("stride_dim", .ofInt? a.strideDim),
   ("original_total", .ofInt? a.seenTotal),
   ("actual_total", .ofInt? a.storedTotal),
   ("dim_mapping", groups a.groups)]

def fullAccessor (a : Accessor) : Report :=
  .record (("original_shapes", shape g a.seenShape) :: accessorFields g a)

/-- An accessor, without the fields that are as in a new one. -/
def accessor (a : Accessor) : Report :=
  let new := Accessor.ofShape a.seenShape
  let changed (k : String) : Bool :=
    match k with
    | "offset" => a.offset != new.offset
    | "actual_shapes" => a.storedShape.isSome
    | "is_contiguous" => !a.isContiguous
    | "is_from_strided_tensor" => a.fromStrided
    | "stride_dim" => a.strideDim.isSome
    | "original_total" => a.seenTotal.isSome
    | "actual_total" => a.storedTotal.isSome
    | _ => a.groups != new.groups
  .record (("original_shapes", shape g a.seenShape) :: (accessorFields g a).filter fun e =>
    changed e.1)

private def execEntry : ExecEntry → Report
  | .algo a => .text a
  | .item key cond algo => .record [("profiling_key", .text key), ("exec_cond", .text cond),
    ("algo", .text algo)]

def execPath (p : ExecPath) : Report := .list (p.map fun (k, e) => .list [.text k, execEntry e])

def member (o : OpId) : Report :=
  let x := g.op o
  let arg (t : TensorId) : Report :=
    if (g.tensor t).isNumber then value g l (g.tensor t).value else .text (tensorRef g l t)
  .record [("func", value g l ((x.param? "func").getD .none)),
    ("args", .list ((x.args.getD []).map arg)), ("outputs", tensorRefs g l x.outputList)]

def sortedOperands (ts : List TensorId) (as : List Accessor) : List (String × Report) :=
  (ts.zip as |>.map fun (t, a) => (tensorRef g l t, accessor g a)).mergeSort fun x y =>
    x.1 < y.1 || x.1 == y.1 && x.2.line ≤ y.2.line

private def sortedRefs (ts : List TensorId) : Report :=
  .texts (sortedBy id (ts.map (tensorRef g l)))

def settings (x : Operator) : List (String × Report) :=
  let refs := tensorRefs g l
  let fused := x.kind == "fused_elementwise"
  let accessors (ts : List TensorId) (as : List Accessor) : Report :=
    if fused then .list ((sortedOperands g l ts as).map (·.2)) else .list (as.map (accessor g))
  let given := if fused then sortedRefs g l else refs
  x.params.map (fun (k, v) => (k, value g l v)) ++
    field? "original_name" .text x.firstName ++
    field? "args" refs x.args ++
    field? "elementwise_ops" (fun ms => .list (ms.map (member g l))) x.members ++
    field? "slice_ops" (fun os => .texts (os.map (opRef g l))) x.slices ++
    field? "original_inputs" given x.givenInputs ++
    field? "original_outputs" given x.givenOutputs ++
    field? "input_masks" (fun bs => .list (bs.map .bool)) x.inputMasks ++
    field? "input_accessors" (accessors x.inputList) x.inputAccessors ++
    field? "output_accessors" (accessors x.outputList) x.outputAccessors ++
    field? "exec_path" execPath x.execPath

def operator (o : OpId) : Report :=
  let x := g.op o
  let operands (ts : List TensorId) : Report :=
    if x.kind == "fused_elementwise" then sortedRefs g l ts else tensorRefs g l ts
  .record [("name", .text (opRef g l o)), ("op", .text x.kind), ("depth", .int x.depth),
    ("inputs", operands x.inputList), ("outputs", operands x.outputList),
      ("attrs", .record (settings g l x))]

def graphOps (ts : Graph) : List OpId :=
  (ts.flatMap fun t => sortedBy (opRef g l) (g.tensor t).src.ops).distinct

def graph (ts : Graph) : Report :=
  .record [("tensors", .list (ts.map (tensor g l))),
    ("ops", .list ((graphOps g l ts).map (operator g l)))]

end Snapshot

end TensorGraph

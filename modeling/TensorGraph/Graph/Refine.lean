import TensorGraph.Graph.Order
import TensorGraph.Number

/-!
# Sharing names between equal operators

Operators that do the same on tensors of the same types share a name, and with it the code made for
them.
-/

namespace TensorGraph

namespace Value

mutual

def same (look : DimTable) : Value → Value → Bool
  | .none, .none => true
  | .text a, .text b => a == b
  | .list as, .list bs => sameAll look as bs
  | .tuple as, .tuple bs => sameAll look as bs
  | .map as, .map bs => sameEntries look as bs
  | .dim a, .dim b => (look a).same (look b)
  | .dim a, v | v, .dim a => v.int?.any fun n => (look a).isStatic && (look a).value == n
  | .tensor a, .tensor b => a == b
  | .op a, .op b => a == b
  | .func a, .func b => a == b
  | .strategy a, .strategy b => a == b
  | a, b =>
    match Number.ofValue? a, Number.ofValue? b with
    | some x, some y => x.same y
    | _, _ => false

def sameAll (look : DimTable) : List Value → List Value → Bool
  | [], [] => true
  | a :: as, b :: bs => same look a b && sameAll look as bs
  | _, _ => false

def sameEntries (look : DimTable) : List (Value × Value) → List (Value × Value) → Bool
  | [], [] => true
  | (k, v) :: as, (l, w) :: bs => same look k l && same look v w && sameEntries look as bs
  | _, _ => false

end

end Value

namespace Graph

open Build

def sameType (g : Arena) (a b : TensorId) : Bool :=
  let x := g.tensor a
  let y := g.tensor b
  x.dtype == y.dtype && Value.same g.dim x.value y.value && Shape.same g.dim x.shape y.shape

def sameTypes (g : Arena) (as bs : List TensorId) : Bool :=
  as.length == bs.length && (as.zip bs).all fun (a, b) => sameType g a b

def sameTypes? (g : Arena) : Option (List TensorId) → Option (List TensorId) → Bool
  | none, none => true
  | some as, some bs => sameTypes g as bs
  | _, _ => false

def sameAccessors (g : Arena) : Option (List Accessor) → Option (List Accessor) → Bool
  | none, none => true
  | some as, some bs => as.length == bs.length && (as.zip bs).all fun (a, b) => a.same g.dim b
  | _, _ => false

def sameSettings (g : Arena) (x y : Operator) : Bool :=
  let named (k : String) := k != "gemm_operand_groups" && k != "f_ab_alignment"
  x.params.length == y.params.length && x.params.all fun (k, v) =>
    match y.param? k with
    | some w => !named k || Value.same g.dim v w
    | none => false

def sameFields (g : Arena) (x y : Operator) : Bool :=
  x.kind == y.kind && x.firstName.isSome == y.firstName.isSome && x.outputs.isSome ==
    y.outputs.isSome &&
  x.members.isSome == y.members.isSome && (x.param? "unique_workspace").isNone && sameSettings
    g x y &&
  x.slices == y.slices && x.inputMasks == y.inputMasks && x.execPath == y.execPath &&
  sameAccessors g x.inputAccessors y.inputAccessors && sameAccessors g x.outputAccessors
    y.outputAccessors &&
  sameTypes? g x.inputs y.inputs && sameTypes? g x.givenInputs y.givenInputs &&
  sameTypes? g x.givenOutputs y.givenOutputs && sameTypes? g x.args y.args

def sameOperator (g : Arena) (a b : OpId) : Bool :=
  let x := g.op a
  let y := g.op b
  sameFields g x y &&
    (x.kind != "fused_elementwise" || x.inputList.length == 1 &&
      match x.memberList, y.memberList with
      | [m], [n] => sameFields g (g.op m) (g.op n)
      | _, _ => false)

/-- Gives an operator the name of the newest of the known ones that does the same; if none does, it
becomes a known one. -/
def shareName (known : List OpId) (o : OpId) : Build (List OpId) := do
  let g ← get
  match known.find? fun p => sameOperator g p o with
  | some p =>
    modifyOp o fun x => { x with name := (g.op p).name }
    return known
  | none => return o :: known

def shareNames (ts : Graph) : Build Unit := do
  let _ ← (sources (← get) ts).foldlM shareName []

end Graph

end TensorGraph

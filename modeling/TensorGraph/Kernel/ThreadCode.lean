import TensorGraph.Kernel.ElementType

/-!
# The code of one thread

A fused elementwise operator computes its members one after the other.
-/

namespace TensorGraph.Kernel

inductive ElementExpr
  | name (s : String)
  /-- a number, written twice in a pair -/
  | number (type : ComputeType) (text : String)
  | convert (fn : String) (e : ElementExpr)
  | apply (fn : String) (args : List ElementExpr)
deriving Inhabited

namespace ElementExpr

def text : ElementExpr → String
  | name s => s
  | number t s => if t.isPair then s!"{t.text}({s},{s})" else s!"{t.text}({s})"
  | convert f e => s!"{f}({text e})"
  | apply f es => s!"{f}(" ++ ",".intercalate (es.attach.map fun ⟨e, _⟩ => text e) ++ ")"

def applications : ElementExpr → Nat
  | name _ | number .. => 0
  | convert _ e => applications e
  | apply _ es => 1 + (es.attach.map fun ⟨e, _⟩ => applications e).foldr (· + ·) 0

end ElementExpr

inductive Statement
  | declare (type : ComputeType) (name : String) (value : ElementExpr)
  | assign (name : String) (value : ElementExpr)
deriving Inhabited

namespace Statement

def value : Statement → ElementExpr
  | declare _ _ e | assign _ e => e

def text : Statement → String
  | declare t n e => s!"{t.text} {n} = {e.text};\n"
  | assign n e => s!"{n} = {e.text};\n"

end Statement

/-- A member of a fused operator: the name of its function, the type it computes with, its operands
and results. -/
structure Member where
  fn : String
  type : ComputeType
  args : List TensorId
  results : List TensorId
deriving DecidableEq, Inhabited, Repr

structure Draft where
  known : List (TensorId × ElementExpr)
  code : List Statement
  names : Nat
deriving Inhabited

namespace Draft

def expr? (d : Draft) (t : TensorId) : Option ElementExpr := d.known.lookup t

def learn (d : Draft) (t : TensorId) (e : ElementExpr) : Draft :=
  { d with known := (t, e) :: d.known }

def operand? (d : Draft) (tensor : TensorId → Tensor) (type : ComputeType)
    (wrap : ElementExpr → ElementExpr)
    (t : TensorId) : Except Fault ElementExpr :=
  match d.expr? t with
  | some e => .ok (wrap e)
  | none =>
    if (tensor t).isNumber then .ok (.number type ((tensor t).value.text?.getD "")) else .error
      .noExpression

def wraps? (outer inner : ComputeType) :
    Except Fault ((ElementExpr → ElementExpr) × (ElementExpr → ElementExpr)) :=
  if inner = outer then .ok (id, id)
  else do
    let there ← outer.converter? inner
    let back ← inner.converter? outer
    return (.convert there, .convert back)

def step? (tensor : TensorId → Tensor) (type : ComputeType) (d : Draft) (m : Member) :
    Except Fault Draft := do
  let (wrap, unwrap) ← wraps? type m.type
  let args ← m.args.mapM (d.operand? tensor m.type wrap)
  let [result] := m.results | throw .manyResults
  let value := unwrap (.apply m.fn args)
  if 1 < (tensor result).dst.ops.length then
    let name := s!"tmp_{d.names}"
    return { d.learn result (.name name) with code := d.code ++ [.declare type name value], names :=
      d.names + 1 }
  else return d.learn result value

def finish? (d : Draft) (t : TensorId) (name : String) : Except Fault Statement :=
  match d.expr? t with
  | some e => .ok (.assign name e)
  | none => .error .noExpression

end Draft

def threadCode? (tensor : TensorId → Tensor) (type : ComputeType)
    (inputs : List (TensorId × String))
    (members : List Member) (outputs : List (TensorId × String)) :
      Except Fault (List Statement) := do
  let start : Draft := inputs.foldl (fun d (t, n) => d.learn t (.name n)) ⟨[], [], 0⟩
  let d ← members.foldlM (Draft.step? tensor type) start
  let written ← outputs.mapM fun (t, n) => d.finish? t n
  return d.code ++ written

def codeText (code : List Statement) : String := "".intercalate (code.map Statement.text)

end TensorGraph.Kernel

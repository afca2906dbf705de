import TensorGraph.Code.IntExpr
import TensorGraph.Shape

/-!
# Indexing a broadcast operand

An operand whose shape has axes of size 1 where the result has larger ones is read again and again.
-/

namespace TensorGraph.Kernel

open Code (IntExpr Division)

/-- One term of an index: the elements of the result from the start of the run on, what one step of
the run spans in the result, and what it spans in the operand. -/
structure IndexTerm where
  extent : List Dim
  resultStep : List Dim
  operandStep : List Dim
deriving DecidableEq, Inhabited, Repr

def dimExpr (d : Dim) : IntExpr := if d.isStatic then .lit d.value else .var (d.name.getD "")

def productExpr? (ds : List Dim) : Option IntExpr := IntExpr.product? (ds.map dimExpr)

def firstElement : IntExpr := .mul (.var "idx") (.var "N_ELEMENTS_PER_THREAD")

namespace IndexTerm

def bracketed (ds : List Dim) : IntExpr := .paren ((productExpr? ds).getD (.lit 1))

def expr (t : IndexTerm) : IntExpr :=
  .mul (.div (.mod firstElement (bracketed t.extent)) (bracketed t.resultStep))
    (bracketed t.operandStep)

end IndexTerm

/-- The terms from an axis on; `run` holds the axes of the result from the start of the open run
on. -/
def indexTermsFrom? : List Dim → List Dim → List Dim → Except Fault (List IndexTerm)
  | run, x :: xs, y :: ys =>
    if x.same y then indexTermsFrom? run xs ys
    else if x.isFixed 1 then return ⟨run, y :: ys, x :: xs⟩ :: (← indexTermsFrom? ys xs ys)
    else .error .broadcastShapes
  | run, _, _ => .ok (if run.isEmpty then [] else [⟨run, [.static 1], [.static 1]⟩])

/-- The terms of the index into an operand, given its shape, extended to the rank of the result, and
the shape of the result. -/
def indexTerms? (operand result : List Dim) : Except Fault (List IndexTerm) :=
  indexTermsFrom? result operand result

def indexExpr? (operand result : List Dim) : Except Fault (Option IntExpr) :=
  (indexTerms? operand result).map fun ts => IntExpr.sum? (ts.map (·.expr))

end TensorGraph.Kernel

import TensorGraph.Alignment.Cost
import TensorGraph.Fusion.Chain

/-!
# Transposing odd operands

Operands of batched products are transposed where that is the cheapest way to rows of even length.
Otherwise they are left alone, and padded later.
-/

namespace TensorGraph

namespace Alignment

open Build

/-- What a batched product becomes when its first, its second or both of its operands are
transposed. -/
def transposedProduct : OpClass → Bool → Bool → OpClass
  | c, false, false => c
  | .bmmCcr, true, false => .bmmRcr
  | .bmmCcr, false, true => .bmmCrr
  | .bmmCcr, true, true => .bmmRrr
  | .bmmCrr, true, false => .bmmRrr
  | .bmmCrr, false, true => .bmmCcr
  | .bmmCrr, true, true => .bmmRcr
  | .bmmRcr, true, false => .bmmCcr
  | .bmmRcr, false, true => .bmmRrr
  | .bmmRcr, true, true => .bmmCrr
  | .bmmRrr, true, false => .bmmCrr
  | .bmmRrr, false, true => .bmmRcr
  | .bmmRrr, true, true => .bmmCcr
  | c, _, _ => c

/-- The cheaper one of two choices, the first one if both cost the same; a choice without cost is
never taken. -/
def cheaper : (Bool × Bool) × Option Number → (Bool × Bool) × Option Number →
    (Bool × Bool) × Option Number
  | best, (choice, some c) => if best.2.all c.less then (choice, some c) else best
  | best, (_, none) => best

def cheapest (o : OpId) (inner : Int × Int) : Build (Bool × Bool) := do
  let x ← inputAt o 0
  let w ← inputAt o 1
  let sx ← shape x
  let sw ← shape w
  let best ← [(false, false), (false, true), (true, false), (true, true)].foldlM
    (fun best choice => do
    return cheaper best (choice, ← cost o ⟨x, sx, choice.1, inner.1⟩ ⟨w, sw, choice.2, inner.2⟩))
      ((false, false), none)
  return best.1

def transpose (x : TensorId) : Build (List TensorId × TensorId) := do
  if (← tensor x).rank == 2 then
    let e ← View.applyUnsqueeze (← View.createUnsqueeze (.int 0)) x
    let y ← Rearrange.applyPermute (← Rearrange.createPermute .permute021) e
    return ([e, y], y)
  else
    let y ← Rearrange.applyPermute (← Rearrange.createPermute .permute021) x
    return ([y], y)

abbrev Transposed := List (TensorId × TensorId)

def operand (done : Transposed) (flip : Bool) (x : TensorId) :
    Build (Transposed × List TensorId × TensorId) := do
  if !flip then return (done, [], x)
  match done.lookup x with
  | some y => return (done, [], y)
  | none =>
    let (new, y) ← transpose x
    return ((x, y) :: done, new, y)

/-- Replaces a product by one of transposed operands, where that is the cheapest way to even rows;
gives what is new in the graph. -/
def transposeProduct? (done : Transposed) (t : TensorId) :
    Build (Option (Transposed × List TensorId)) := do
  let some o := (← tensor t).src.sole? | return none
  let x ← op o
  let some c := OpClass.ofLabel? x.kind | return none
  let some inner := innerAxes c | return none
  let (p, q) ← cheapest o inner
  if !p && !q then return none
  let operands ← inputs o
  let a ← inputAt o 0
  let b ← inputAt o 1
  let (done, newA, a) ← operand done p a
  let (done, newB, b) ← operand done q b
  let y ← Chain.build (transposedProduct c p q) [] (a :: b :: operands.drop 2)
  copyMarks y t
  let _ ← copyScale y t
  replaceTensor t y
  forgetUse operands o
  detach t
  return some (done, newA ++ newB ++ [y])

def transposeOdd (ts : Graph) : Build Graph := do
  let (new, _) ← ts.foldlM (fun (new, done) t => do
    match ← transposeProduct? done t with
    | none => return (new ++ [t], done)
    | some (done, here) => return (new ++ here, done)) (([] : Graph), ([] : Transposed))
  Graph.tidy (← Graph.sort new)

end Alignment

end TensorGraph

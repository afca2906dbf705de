import TensorGraph.Number
import TensorGraph.Workload

/-!
# Reductions

A reduction combines the elements along one axis.
-/

namespace TensorGraph

namespace Reduce

open Build

def axes? : Value → Except Fault (List Value)
  | .list xs | .tuple xs => if xs.all (·.int?.isSome) then .ok xs else .error .reduceDim
  | v => if v.int?.isSome then .ok [v] else .error .reduceDim

def create (cls : OpClass) (dim keepdim dtype : Value) (more : List (String × Value)) :
    Build OpId := do
  let axes ← ofExcept (axes? dim)
  newOp cls cls.label ([("reduction_axes", .list axes), ("keepdim", keepdim),
    ("output_type", dtype)] ++ more)

/-! ## Scratch memory -/

/-- How often `count` can be halved while it stays at least twice `ext`, as a power of two. -/
def halvings (ext : Int) : Nat → Int → Int
  | 0, _ => 1
  | n + 1, count => if count < ext * 2 then 1 else 2 * halvings ext n (count / 2)

def vectorLength (last : Int) : Int := ([32, 16, 8, 4, 1].find? fun (k : Int) => last % k == 0).getD
    1

/-- The bytes of scratch memory for sizes given as two outer axes, the reduced one and the last
one. -/
def stridedWorkspace (outer inner last vector : Int) (dtype : String) : Except Fault Number := do
  let threads : Int := 256
  let blocks : Int := 128
  let vectors : Number := (Int.fdiv (last - 1 + vector) vector : Int)
  let ways := if threads * vector < last then 1 else halvings last 64 (threads * vector)
  let threadsX ← Number.div? threads ways
  let deep : Int := min ways 64
  let countX ← Number.floorDiv? (vectors + threadsX - 1) threadsX
  let countY := Number.max 1 (← Number.floorDiv? blocks countX)
  let countY : Number := if (Number.int outer).less countY then .int outer else countY
  let countZ := Number.max 1 (← Number.div? blocks countY)
  let countZ : Number := if (Number.int inner).less (countZ * deep) then .int
    (Int.fdiv (inner + deep - 1) deep)
    else countZ
  if countZ.trunc? == some 1 then return 0
  let bytes ← Dtype.size? dtype
  return ((last * (vector * bytes) * outer : Int) : Number) * countZ

/-- The bytes of scratch memory for a sum along an axis, counted in shapes of rank 4. -/
def workspace (s : List DimId) (dim : Int) (dtype : String) : Build Number := do
  let g ← get
  require .reduceDynamic (← ofExcept (Shape.isStaticAt? g.dim s (-1)))
  let last := ((s.getLast?).map fun d => (g.dim d).value).getD 0
  require (.reduceRank s.length 4) (decide (s.length ≤ 4))
  let dim := 4 - (s.length : Int) + dim
  let sizes := List.replicate (4 - s.length) 1 ++ s.map fun d => (g.dim d).upper
  let at_ (i : Nat) := sizes.getD i 1
  let (a, b, c) ← match dim with
    | 0 => pure (at_ 1, at_ 2, at_ 0)
    | 1 => pure (at_ 0, at_ 2, at_ 1)
    | 2 => pure (at_ 0, at_ 1, at_ 2)
    | k => throw (.reduceAxis k)
  ofExcept (stridedWorkspace (a * b) c (at_ 3) (vectorLength last) dtype)

/-! ## Application -/

def apply (o : OpId) (x : TensorId) : Build TensorId := do
  setInputs o [x]
  linkInputs o
  let p ← op o
  let t ← tensor x
  let axis ← match p.param? "reduction_axes" with
    | some (.list [v]) => pure v
    | _ => throw .manyAxes
  let asked ← expect .unmet axis.int?
  let dim ← ofExcept (wrapDim? asked t.rank)
  setParam o "reduction_axes" (.list [if asked < 0 then .int dim else axis])
  require (.badAxis dim t.rank) (0 ≤ dim && dim < t.rank)
  let shape ← if ((p.param? "keepdim").getD .none).truthy then do
      let one ← staticDim 1
      pure (t.shape.set dim.toNat one)
    else pure (t.shape.eraseIdx dim.toNat)
  let dtype := match p.param? "output_type" with
    | some (.text d) => d
    | _ => t.dtype
  let y ← soleOutput o shape dtype
  modifyOp o fun p => { p with outputAccessors := some [.ofShape shape] }
  if p.cls == .reduceSum && asked != (t.rank : Int) - 1 then
    setParam o "workspace" (← workspace t.shape asked t.dtype).toValue
  return y

end Reduce

end TensorGraph

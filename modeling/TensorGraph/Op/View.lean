import TensorGraph.Arena

/-!
# Views

Reshaping, flattening, and dropping or adding axes of size 1: operators whose output shows the
elements of the input with another shape.
-/

namespace TensorGraph

namespace View

open Build

/-- A view is stored where its input is, and has its element type. -/
def viewOutput (o : OpId) (shape : List DimId) (x : TensorId) : Build TensorId := do
  let y ← output o shape (← tensor x).dtype
  modifyTensor y fun t => { t with viewOf := some x }
  setOutputs o [y]
  return y

/-! ## Reshaping -/

def keepsDynamic (xs ys : List (List Int)) : Bool :=
  let fixed (vs : List (List Int)) := ((vs.filter (·.length == 1)).map (·.headD 0)).prodInt
  let dynamic (vs : List (List Int)) := (vs.filter (1 < ·.length)).length
  dynamic xs == dynamic ys && fixed xs == fixed ys && dynamic xs == 1

/-- Replaces the one unknown size `-1` by what is left of the elements. -/
def solve? (source target : List Int) : Except Fault (List Int) := do
  let known := (target.filter (· != -1)).prodInt
  let count := source.prodInt
  match (target.filter (· == -1)).length with
  | 0 =>
    if count == known then return target else throw (.elementCount count known)
  | 1 =>
    if known ≤ 0 then throw (.notReshapable source target)
    if Int.fmod count known != 0 then throw .unmet
    return target.map fun n => if n == -1 then Int.fdiv count known else n
  | _ => throw .unmet

def sizesByAxis (shapes : List (List Int)) : List (List Int) :=
  match shapes with
  | [] => []
  | s :: rest =>
    let rank := rest.foldl (fun n t => min n t.length) s.length
    (List.range rank).map fun i => Dim.sortedValues (shapes.map fun t => t.getD i 0)

/-- The axes of the new shape; only one may be dynamic, and it is the given dimension if there is
one. -/
def makeShape (o : OpId) (kept : Option DimId) : Nat → List (List Int) → Build (List DimId)
  | _, [] => pure []
  | i, [v] :: rest => do
    let d ← staticDim v
    let ds ← makeShape o kept (i + 1) rest
    return d :: ds
  | i, vs :: rest => do
    let unknown ← intParam o "unknown_idx"
    require (.manyDynamic (← op o).kind) (unknown == -1)
    setParam o "unknown_idx" (.int i)
    let d ← match kept with
      | some d => pure d
      | none => addDim (← ofExcept (Dim.dynamic? vs none))
    let ds ← makeShape o kept (i + 1) rest
    return d :: ds

def inferFrom (o : OpId) (x : TensorId) (shapes : List (List Int)) : Build (List DimId) := do
  let xs ← dims x
  let ys := sizesByAxis shapes
  let dynamic := ((← shape x).zip xs).filter fun (_, d) => 1 < d.values.length
  let kept := if keepsDynamic (xs.map (·.values)) ys then (dynamic.head?).map (·.1) else none
  makeShape o kept 0 ys

/-- Pairs every possible input shape with a target shape; a single target serves all of them. -/
def pairTargets (sources targets : List (List Int)) : Build (List (List Int × List Int)) := do
  if targets.length < sources.length then
    require .unmet (targets.length == 1)
    return sources.map fun s => (s, targets.headD [])
  else return sources.zip targets

def inferReshape (o : OpId) (x : TensorId) (target : List DimId) : Build (List DimId) := do
  let g ← get
  let sources := Shape.choices ((← dims x).map (·.values))
  let targets := Shape.choices (target.map fun d => (g.dim d).values)
  let shapes ← (← pairTargets sources targets).mapM fun (s, t) => ofExcept (solve? s t)
  inferFrom o x shapes

def createReshape : Build OpId := newOp .reshape "reshape" [("unknown_idx", .int (-1))]

def applyReshape (o : OpId) (x : TensorId) (target : List DimId) (sizeTensors : List TensorId) :
    Build TensorId := do
  setParam o "shape" (.list (target.map .dim))
  setInputs o (x :: sizeTensors)
  linkInputs o
  viewOutput o (← inferReshape o x target) x

def reshape (x : TensorId) (target : List DimId) : Build TensorId := do
  applyReshape (← createReshape) x target []

/-- The sizes of a reshaped tensor when the program runs, from those of its input and the fixed ones
of its own. -/
def runtimeSizes (unknown : Int) (source sizes : List Int) : Option (List Int) :=
  if unknown < 0 then some sizes
  else
    let others := (sizes.eraseIdx unknown.toNat).prodInt
    if others = 0 then none else some (sizes.set unknown.toNat (Int.tdiv source.prodInt others))

/-! ## Flattening -/

def createFlatten (start last : Value) : Build OpId :=
  newOp .flatten "flatten" [("unknown_idx", .int (-1)), ("start", start), ("end", last)]

def flattenSizes (start last : Int) (s : List Int) : List Int :=
  s.take start.toNat ++ [(s.between start (last + 1)).prodInt] ++ s.fromIdx (last + 1)

def applyFlatten (o : OpId) (x : TensorId) : Build TensorId := do
  let rank := (← shape x).length
  let position (key : String) : Build Int := do
    let some i := (← param o key).int? | throw .unmet
    ofExcept (wrapDim? i rank)
  let start ← position "start"
  let last ← position "end"
  require (.flattenStart start rank) (0 ≤ start && start < rank)
  require (.flattenEnd last rank) (0 ≤ last && last < rank)
  require (.flattenOrder start last) (start ≤ last)
  setInputs o [x]
  linkInputs o
  let sources := Shape.choices ((← dims x).map (·.values))
  viewOutput o (← inferFrom o x (sources.map (flattenSizes start last))) x

/-! ## Axes of size 1 -/

private def axisMap (pairs : List (Nat × Nat)) : Value :=
  .map (pairs.map fun (a, b) => (.int a, .int b))

def createSqueeze (dim : Value) : Build OpId := newOp .squeeze "squeeze" [("dim", dim)]

def squeezeShape (look : DimTable) (dim : Option Int) (s : List DimId) : List (Nat × DimId) :=
  (s.zipIdx.filter fun (d, i) => !((dim.all fun k => k == (i : Int)) && (look d).isFixed 1)).map
    fun (d, i) => (i, d)

def applySqueeze (o : OpId) (x : TensorId) : Build TensorId := do
  setInputs o [x]
  linkInputs o
  let s ← shape x
  let dim ← match ← param o "dim" with
    | .none => pure none
    | v =>
      let some i := v.int? | throw .unmet
      some <$> ofExcept (wrapDim? i s.length)
  let kept := squeezeShape (← look) dim s
  setParam o "out_dim_to_in" (axisMap (kept.zipIdx.map fun ((i, _), k) => (k, i)))
  viewOutput o (kept.map (·.2)) x

def createUnsqueeze (dim : Value) : Build OpId := newOp .unsqueeze "unsqueeze" [("dim", dim)]

def applyUnsqueeze (o : OpId) (x : TensorId) : Build TensorId := do
  setInputs o [x]
  linkInputs o
  let s ← shape x
  let some i := (← param o "dim").int? | throw .unmet
  let dim ← ofExcept (wrapDim? i (s.length + 1))
  let one ← staticDim 1
  let inside : Bool := 0 ≤ dim && dim < s.length
  let k := if inside then dim.toNat else s.length
  setParam o "out_dim_to_in"
    (axisMap ((List.range s.length).map fun j => (if j < k then j else j + 1, j)))
  viewOutput o (s.take k ++ [one] ++ s.drop k) x

end View

end TensorGraph

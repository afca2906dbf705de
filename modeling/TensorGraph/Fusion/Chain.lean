import TensorGraph.Catalog
import TensorGraph.Graph.Prune

/-!
# Chains

A product or a convolution that is followed by elementwise operators, each the only user of what
stands before it, can often be computed by a single operator.
-/

namespace TensorGraph

/-- An operator, the functions applied to its result one after the other, and the operator that does
all of it. -/
structure Chain where
  root : OpClass
  steps : List ScalarFn
  into : OpClass
deriving Inhabited

namespace Chain

open Build

def applies (o : Operator) (f : ScalarFn) : Bool :=
  o.kind == "elementwise" &&
    match o.param? "func" with
    | some (.func g) => g == f
    | _ => false

def checksBias : OpClass → Bool
  | .conv2dBias | .conv2dBiasRelu | .conv2dBiasSigmoid | .conv2dBiasHardswish | .transposedConv2dBias
  | .transposedConv2dBiasRelu => true
  | _ => false

def suits (c : OpClass) (ts : List TensorId) : Build Bool := do
  let g ← get
  let shapes := ts.map fun t => (g.tensor t).shape
  if (Matmul.extraOperands? c).isSome then
    return (← ofExcept (Matmul.extraProblem? g.dim shapes)) == ""
  else if Matmul.hasBias c && Matmul.family? c == some .gemmRcr then
    match shapes with
    | [a, b, bias] => return (← ofExcept (Matmul.biasProblem? .gemmRcr g.dim a b bias)) == ""
    | _ => throw .badType
  else if checksBias c then
    match ts with
    | [x, w, b] => return (← Conv.problem? x w b).isNone
    | _ => throw .badType
  else return true

/-- Follows the users of a tensor as long as each is alone and applies the next function. -/
def follow (t : TensorId) : List ScalarFn → Build (Option (List (OpId × TensorId)))
  | [] => return some []
  | f :: fs => do
    let some o := (← tensor t).dst.sole? | return none
    let [y] ← outputs o | return none
    if !applies (← op o) f then return none
    return (← follow y fs).map ((o, y) :: ·)

def find? (c : Chain) (t : TensorId) (root : OpId) : Build (Option (List (OpId × TensorId))) := do
  if (← op root).kind != c.root.label then return none
  if !(← suits c.root (← inputs root)) then return none
  follow t c.steps

def findAny? (t : TensorId) (root : OpId) : List Chain →
    Build (Option (Chain × List (OpId × TensorId)))
  | [] => return none
  | c :: cs => do
    match ← c.find? t root with
    | some links => return some (c, links)
    | none => findAny? t root cs

/-- The operand of an operator other than the tensor that comes along the chain; there may be
none. -/
def otherOperand? (o : OpId) (along : TensorId) : Build (Option TensorId) := do
  match ← expect .badKey (← op o).args with
  | [_] => return none
  | [a, b] =>
    if a == along then return some b
    else if b == along then return some a
    else throw .patternUnlinked
  | ts => throw (.patternInputs ts.length)

/-- The other operands along a chain, each with the operator that uses it. -/
def otherOperands (along : TensorId) : List (OpId × TensorId) → Build (List (OpId × TensorId))
  | [] => return []
  | (o, y) :: rest => do
    let here ← otherOperand? o along
    let more ← otherOperands y rest
    return (here.map (o, ·)).toList ++ more

def build (c : OpClass) (settings : List (String × Value)) (ts : List TensorId) :
    Build TensorId := do
  let vs ← ofExcept ((Signature.fixed (Catalog.settings c)).bind? ⟨[], settings⟩)
  let o ← Catalog.create c vs
  let operands ← ofExcept ((Catalog.operands c).bind? ⟨ts.map .tensor, []⟩)
  match ← Catalog.apply c o vs operands with
  | .tensor y => return y
  | _ => throw .noField

/-- What a new operator takes over from the root of a chain. -/
def settings (root : Operator) : List (String × Value) :=
  if (Conv.profile? root.cls).isSome then Conv.settings root else []

def residualFits (c : OpClass) (root : OpId) (ts : List TensorId) : Build Bool := do
  match c with
  | .conv2dBiasAdd | .conv2dBiasAddRelu | .conv2dBiasAddHardswish =>
    require (.activationInputs ts.length) (4 ≤ ts.length)
    let r ← expect .badIndex ts[3]?
    let y ← outputAt root 0
    return Shape.same (← look) (← shape y) (← shape r)
  | _ => return true

def replace? (chains : List Chain) (t : TensorId) : Build (Option (TensorId × List TensorId)) := do
  let some root := (← tensor t).src.sole? | return none
  let some (c, links) ← findAny? t root chains | return none
  let ts ← inputs root
  let others ← otherOperands t links
  let operands := ts ++ others.map (·.2)
  if !(← suits c.into operands) then return none
  if !(← residualFits c.into root operands) then return none
  let last := (links.getLast?.map (·.2)).getD t
  let y ← build c.into (settings (← op root)) operands
  copyMarks y last
  replaceTensor last y
  forgetUse ts root
  for (o, x) in others do
    removeDst x o
  return some (y, t :: links.map (·.2))

def fuse (chains : List Chain) (ts : Graph) : Build Graph := do
  let (roots, _) ← ts.foldlM (fun (roots, gone) t => do
    if gone.contains t then return (roots, gone)
    if (← tensor t).isOutput then return (roots ++ [t], gone)
    match ← replace? chains t with
    | none => return (roots, gone)
    | some (y, dropped) =>
      return (if (← tensor y).isOutput then roots ++ [y] else roots, gone ++ dropped))
    (([] : List TensorId), ([] : List TensorId))
  Graph.tidy (← Graph.sort roots)

/-! ## Convolutions -/

def convBias : List Chain := [⟨.conv2d, [.add], .conv2dBias⟩]

def convActivation : List Chain :=
  [⟨.conv2dBias, [.add, .relu], .conv2dBiasAddRelu⟩, ⟨.conv2dBias, [.relu], .conv2dBiasRelu⟩,
   ⟨.conv2dBias, [.sigmoid], .conv2dBiasSigmoid⟩,
     ⟨.transposedConv2dBias, [.relu], .transposedConv2dBiasRelu⟩,
   ⟨.transposedConv2d, [.add, .relu], .transposedConv2dBiasRelu⟩,
   ⟨.transposedConv2dBias, [.relu], .transposedConv2dBiasRelu⟩]

def convExtra : List Chain :=
  [⟨.conv2dBiasFewChannels, [.relu], .conv2dBiasReluFewChannels⟩,
    ⟨.conv2dBias, [.add], .conv2dBiasAdd⟩,
   ⟨.transposedConv2d, [.add], .transposedConv2dBias⟩]

def fuseConv (ts : Graph) : Build Graph := do
  let ts ← fuse convBias ts
  let ts ← fuse convActivation ts
  if (← target).platform == .cuda then fuse convExtra ts else return ts

/-! ## Matrix products -/

def productBias : List Chain := [⟨.gemmRcr, [.add], .gemmRcrBias⟩]

def productActivation : List Chain :=
  [⟨.bmmCcr, [.add], .bmmCcrAdd⟩, ⟨.bmmCrr, [.add], .bmmCrrAdd⟩, ⟨.bmmRrr, [.add], .bmmRrrAdd⟩,
   ⟨.gemmRcrBias, [.relu], .gemmRcrBiasRelu⟩,
   ⟨.gemmRcrBias, [.sigmoid, .mul, .tanh], .gemmRcrBiasSigmoidMulTanh⟩,
   ⟨.gemmRcrBias, [.sigmoid, .mul], .gemmRcrBiasSigmoidMul⟩,
     ⟨.gemmRcrBias, [.sigmoid], .gemmRcrBiasSigmoid⟩,
   ⟨.gemmRcrBias, [.tanh], .gemmRcrBiasTanh⟩,
   ⟨.gemmRcrBias, [.add, .relu], .gemmRcrBiasAddRelu⟩,
   ⟨.gemmRcrBias, [.add, .add, .relu], .gemmRcrBiasAddAddRelu⟩,
     ⟨.gemmRcrBias, [.add, .add], .gemmRcrBiasAddAdd⟩,
   ⟨.gemmRcrBias, [.add], .gemmRcrBiasAdd⟩,
   ⟨.gemmRcrBias, [.mul, .add], .gemmRcrBiasMulAdd⟩,
     ⟨.gemmRcrBias, [.mul, .tanh], .gemmRcrBiasMulTanh⟩,
   ⟨.gemmRcrBias, [.mul], .gemmRcrBiasMul⟩]

end Chain

end TensorGraph

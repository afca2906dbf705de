import TensorGraph.Fusion.Chain

/-!
# Special shapes

For a few shapes there are faster kernels: products with a single column or with few columns and a
short inner size.
-/

namespace TensorGraph

namespace Special

open Build

/-- Replaces every tensor for which `replace?` has something to put in its place. -/
def substitute (replace? : TensorId → Build (Option (List TensorId))) (ts : Graph) :
    Build Graph := do
  let (new, changed) ← ts.foldlM (fun (new, changed) t => do
    match ← replace? t with
    | some ys => return (new ++ ys, true)
    | none => return (new ++ [t], changed)) (([] : Graph), false)
  if changed then Graph.tidy new else return ts

def pair (o : OpId) : Build (TensorId × TensorId) := do
  match ← inputs o with
  | [a, b] => return (a, b)
  | _ => throw .badNumber

def product? (general special : OpClass)
    (fits : DimTable → List DimId → List DimId → Except Fault Bool)
    (t : TensorId) : Build (Option (List TensorId)) := do
  let some o := (← tensor t).src.sole? | return none
  if (← op o).kind != general.label then return none
  let (a, b) ← pair o
  if !(← ofExcept (fits (← look) (← shape a) (← shape b))) then return none
  let y ← Chain.build special [] [a, b]
  copyMarks y t
  let _ ← copyScale y t
  forgetUse [a, b] o
  replaceTensor t y
  return some [y]

def narrow : Graph → Build Graph :=
  substitute (product? .bmmRcr .bmmRcrN1 fun look sa sb => .ok (Matmul.fitsNarrow look sa sb))

def smallRight : Graph → Build Graph := substitute
    (product? .gemmRrr .gemmRrrSmallNk Matmul.fitsSmallRight?)

/-! ## Convolutions with a kernel of one point -/

/-- The product that does what a convolution with a kernel of one point does. -/
def pointProduct? (kind : String) : Option OpClass :=
  [("conv2d", OpClass.gemmRcr), ("conv2d_bias", .gemmRcrBias),
    ("conv2d_bias_relu", .gemmRcrBiasRelu),
   ("conv2d_bias_sigmoid", .gemmRcrBiasSigmoid), ("conv2d_bias_hardswish", .gemmRcrBiasHardswish),
   ("conv2d_bias_add_relu", .gemmRcrBiasAddRelu)].lookup kind

private def isNumber (v : Value) (n : Int) : Bool := (Number.ofValue? v).any (·.same (.int n))

def isPointwise (o : OpId) : Build Bool := do
  for (key, n) in [("pad", 0), ("dilate", 1), ("group", 1), ("stride", 1)] do
    if !isNumber (← param o key) n then return false
  let s ← shape (← inputAt o 1)
  if (← dim (← axis s 1)).only? != some 1 then return false
  return (← dim (← axis s 2)).only? == some 1

def reshape (x : TensorId) (target : List Value) : Build TensorId := do
  let o ← Catalog.create .reshape []
  match ← Catalog.apply .reshape o [] [.tensor x, .tuple target] with
  | .tensor y => return y
  | _ => throw .noField

def squeeze (x : TensorId) : Build TensorId := do
    View.applySqueeze (← View.createSqueeze (.int 1)) x

def point? (t : TensorId) : Build (Option (List TensorId)) := do
  let some o := (← tensor t).src.sole? | return none
  let some c := pointProduct? (← op o).kind | return none
  if !(← isPointwise o) then return none
  let operands ← inputs o
  let x ← inputAt o 0
  let w ← inputAt o 1
  let w0 ← squeeze w
  let w1 ← squeeze w0
  let [batch, height, width, channels] ← Rearrange.applySize (← Rearrange.createSize)
    x | throw .badNumber
  let out ← Rearrange.applySizeAt (← Rearrange.createSize) w 0
  let flat ← reshape x [.int (-1), .tensor channels]
  require (.inputCount operands.length) (2 ≤ operands.length && operands.length ≤ 4)
  let y ← Chain.build c [] (flat :: w1 :: operands.drop 2)
  let z ← reshape y [.tensor batch, .tensor height, .tensor width, .tensor out]
  copyMarks z t
  let _ ← copyScale z t
  forgetUse operands o
  replaceTensor t z
  return some [w0, w1, batch, height, width, channels, out, flat, y, z]

def point : Graph → Build Graph := substitute point?

def fuse (ts : Graph) : Build Graph := do
  let ts ← narrow ts
  let ts ← smallRight ts
  if (← target).asksFor "transform_conv_to_gemm" then point ts else return ts

end Special

end TensorGraph

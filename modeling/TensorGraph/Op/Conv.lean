import TensorGraph.Op.Pad

/-!
# Convolutions

A convolution slides a kernel over an image; the transposed one spreads it.
-/

namespace TensorGraph

namespace Conv

open Build

def profile? : OpClass → Option (String × String)
  | .conv2d => some ("conv2d", "LinearCombination")
  | .conv2dBias => some ("conv2d_bias", "LinearCombination")
  | .conv2dBiasRelu => some ("conv2d_bias_relu", "LinearCombinationRelu")
  | .conv2dBiasHardswish => some ("conv2d_bias_hardswish", "LinearCombinationHardSwish")
  | .conv2dBiasSigmoid => some ("conv2d_bias_sigmoid", "LinearCombinationSigmoid")
  | .conv2dBiasAdd => some ("conv2d_bias_add_identity", "LinearCombinationResidualBlock")
  | .conv2dBiasAddHardswish => some ("conv2d_bias_add_hardswish", "LinearCombinationResidualBlock")
  | .conv2dBiasAddRelu => some ("conv2d_bias_add_relu", "LinearCombinationResidualBlock")
  | .conv2dBiasFewChannels => some ("conv2d_bias_few_channels", "LinearCombination")
  | .conv2dBiasHardswishFewChannels => some ("conv2d_bias_hardswish_few_channels",
    "LinearCombinationHardSwish")
  | .conv2dBiasReluFewChannels => some ("conv2d_bias_relu_few_channels", "LinearCombinationRelu")
  | .transposedConv2d => some ("transposed_conv2d", "LinearCombination")
  | .transposedConv2dBias => some ("transposed_conv2d_bias", "LinearCombination")
  | .transposedConv2dBiasRelu => some ("transposed_conv2d_bias_relu", "LinearCombinationRelu")
  | _ => none

def isTransposed : OpClass → Bool
  | .transposedConv2d | .transposedConv2dBias | .transposedConv2dBiasRelu => true
  | _ => false

def hasFewChannels : OpClass → Bool
  | .conv2dBiasFewChannels | .conv2dBiasHardswishFewChannels | .conv2dBiasReluFewChannels => true
  | _ => false

/-- How many operands a convolution has: image and weights, then bias, then residual. -/
def operandCount : OpClass → Nat
  | .conv2d | .transposedConv2d => 2
  | .conv2dBiasAdd | .conv2dBiasAddHardswish | .conv2dBiasAddRelu => 4
  | _ => 3

def create (cls : OpClass) (stride pad dilate group : Value) : Build OpId := do
  let (kind, epilogue) ← expect .noField (profile? cls)
  newOp cls kind [("stride", stride), ("pad", pad), ("dilate", dilate), ("group", group),
    ("has_profiler", .bool true), ("epilogue_alignment", .int 1), ("epilogue", .text epilogue),
    ("workspace", .int 0), ("split_k", .none)]

structure Window where
  stride : Number
  pad : Number
  dilate : Number

def outSize (transposed : Bool) (w : Window) (n kernel : Int) : Except Fault Int := do
  let covered := ((kernel - 1 : Int) : Number) * w.dilate + 1
  if transposed then Spatial.whole (((n - 1 : Int) : Number) * w.stride - 2 * w.pad + covered)
  else
    let q ← Number.floorDiv? ((n : Number) + w.pad + w.pad - covered) w.stride
    Spatial.whole (q + 1)

def channelsFit (x w : Int) (group : Value) : Except Fault Bool :=
  match Number.ofValue? group, group with
  | some g, _ => .ok (((w : Number) * g).same x)
  | none, .text _ | none, .list _ | none, .tuple _ => .ok false
  | none, _ => .error .badType

def resultShape (o : OpId) (x w : TensorId) : Build (List DimId) := do
  let ws := (← dims w).map (·.lower)
  let co ← ofExcept (Spatial.size? ws 0)
  setParam o "CO" (.int co)
  let kh ← ofExcept (Spatial.size? ws 1)
  setParam o "KH" (.int kh)
  let kw ← ofExcept (Spatial.size? ws 2)
  setParam o "KW" (.int kw)
  let p ← op o
  let setting (key : String) := (p.param? key).getD .none
  let number (key : String) : Except Fault Number :=
    match Number.ofValue? (setting key) with
    | some n => .ok n
    | none => .error .badType
  Spatial.infer 4 x fun s => do
    let c ← Spatial.size? s 3
    let cw ← Spatial.size? ws 3
    if !(← channelsFit c cw (setting "group")) then throw .convChannels
    let (n, h, wd, _) ← Spatial.four? s
    let win : Window := ⟨← number "stride", ← number "pad", ← number "dilate"⟩
    return [n, ← outSize (isTransposed p.cls) win h kh, ← outSize (isTransposed p.cls) win wd kw,
      co]

private def sizeText (v : Value) : String := v.text?.getD ""

def execKey? (s : List Value) : Except Fault String :=
  match s.map sizeText with
  | n :: h :: w :: c :: _ => .ok s!"NI == {n} && HI == {h} && WI == {w} && CI == {c}"
  | _ => .error .badIndex

def rangeKey (low high h w c : Value) : String :=
  let l := sizeText low
  let u := sizeText high
  let h := sizeText h
  let w := sizeText w
  let c := sizeText c
  s!"NI >= {l} && NI <= {u} && HI == {h} && WI == {w} && CI == {c}"

def findWorkloads (o : OpId) (x : TensorId) : Build Unit :=
  Spatial.noteWorkloads o x fun s => execKey? (s.map .int)

/-- The final step handles as many channels at once as divide their number: 8, 4, 2 or 1. -/
def alignResult (o : OpId) (shape : List DimId) : Build Unit := do
  let d ← dim (← axis shape (-1))
  require .convDynamicOutput d.isStatic
  match [8, 4, 2].find? (fun (k : Int) => d.value % k == 0) with
  | some k => setParam o "epilogue_alignment" (.int k)
  | none => pure ()

def apply (o : OpId) (x w : TensorId) (rest : List TensorId) : Build TensorId := do
  setInputs o (x :: w :: rest)
  linkInputs o
  let shape ← resultShape o x w
  findWorkloads o x
  alignResult o shape
  soleOutput o shape

def padFewChannels (x : TensorId) : Build TensorId := do
  let last ← dim (← axis (← shape x) (-1))
  let c := last.lower
  if 1 ≤ c && c < 4 then Pad.padChannels .nhwc3to4 x
  else if 5 ≤ c && c < 8 then Pad.padChannels .nhwc3to8 x
  else return x

def signature (o : OpId) : Build String := do
  let kh := sizeText (← param o "KH")
  let kw := sizeText (← param o "KW")
  let s := sizeText (← param o "stride")
  let p := sizeText (← param o "pad")
  let co := sizeText (← param o "CO")
  return s!"conv2d: K=[{kh}, {kw}], S=[{s}], P=[{p}], CO=[{co}]"

def settings (o : Operator) : List (String × Value) :=
  let keys := match o.cls with
    | .conv2dBiasFewChannels | .conv2dBiasReluFewChannels => ["dilate", "pad", "stride"]
    | _ => ["dilate", "group", "pad", "stride"]
  keys.filterMap fun k => (o.param? k).map (k, ·)

def problem? (x w b : TensorId) : Build (Option String) := do
  let g ← get
  let xs := (g.tensor x).shape
  let ws := (g.tensor w).shape
  let bs := (g.tensor b).shape
  if xs.length != 4 then return some ("x should be 4D: x_shape=" ++ Shape.dump g.dim xs)
  else if ws.length != 4 then return some ("w should be 4D: w_shape=" ++ Shape.dump g.dim ws)
  else
    match bs, ws with
    | [d], e :: _ =>
      if (g.dim d).same (g.dim e) then return none
      else return some ("out channels in bias does not match: b_shape[0]=" ++ (g.dim d).dump ++
        " != w_shape[0]=" ++
        (g.dim e).dump)
    | _, _ => return some ("b should be 1D: b_shape=" ++ Shape.dump g.dim bs)

end Conv

end TensorGraph

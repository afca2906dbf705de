import TensorGraph.Catalog
import TensorGraph.PseudoCode

/-!
# Methods

What an operator can be asked: its workloads and their keys, its inputs, its pseudo code. A method
that an operator does not have is a missing field.
-/

namespace TensorGraph

inductive Method
  | dropInputs | givenIndex | tensorIndex | replaceInput | findWorkloads | sizeTable | workloadKey | rangeKey | readKey
  | keyAlignment | splitFactors | settings | kernelName | checkInputs | checkShape | pseudoCode
deriving DecidableEq, Inhabited, Repr

namespace Method

open Build Param

private def isConcat (c : OpClass) : Bool := c == .concatenate || c == .concatenateTanh

private def isLayer : OpClass → Bool
  | .layernorm | .batchLayernormSigmoidMul | .groupLayernorm | .groupLayernormSigmoidMul => true
  | _ => false

private def isGroups (c : OpClass) : Bool := c == .groupNorm || c == .groupNormSwish

private def isPooling : OpClass → Bool
  | .avgPool2d | .maxPool2d | .upsampling2d | .upsampling2dAdd | .roiAlign | .multiLevelRoiAlign => true
  | _ => false

/-- Does an operator have the workloads of one of its inputs? -/
private def byImage (c : OpClass) : Bool :=
  (Conv.profile? c).isSome || isPooling c ||
  [OpClass.argmax, .topk, .batchGather, .nms, .efficientNms, .flashAttention].contains c

private def isProduct (c : OpClass) : Bool := (Matmul.family? c).isSome

private def hasBiasCheck : OpClass → Bool
  | .conv2dBias | .conv2dBiasHardswish | .conv2dBiasRelu | .conv2dBiasSigmoid | .transposedConv2dBias
  | .transposedConv2dBiasRelu => true
  | _ => false

/-- What a method takes; `none` if the operator does not have it. -/
def signature? (m : Method) (c : OpClass) : Option Signature :=
  let fixed (ps : List Param) : Option Signature := some (.fixed ps)
  match m with
  | .dropInputs => if isConcat c then fixed [needed "indices"] else none
  | .givenIndex => if isConcat c then fixed [needed "idx"] else none
  | .tensorIndex => if isConcat c then fixed [needed "tensor"] else none
  | .replaceInput => fixed [needed "old_tensor", needed "new_tensor"]
  | .settings => fixed []
  | .pseudoCode => fixed [optional "with_shape" (.bool true)]
  | .findWorkloads =>
    if byImage c then fixed [needed "x"]
    else if c == .softmax || isLayer c || isGroups c then
      fixed [optional "dynamic_profiling_strategy" (.strategy .max)]
    else if Matmul.family? c == some .group then fixed [optional "dynamic_profiling_strategy" .none]
    else if isProduct c then fixed [needed "dynamic_profiling_strategy"]
    else none
  | .sizeTable => if isProduct c then fixed [optional "for_profiling" (.bool false)] else none
  | .workloadKey =>
    if byImage c then fixed [needed "shape"]
    else if isProduct c || c == .softmax || isLayer c || isGroups c then fixed
      [needed "name_value_mapping"]
    else none
  | .rangeKey =>
    if (Conv.profile? c).isSome then fixed (["dim0_lb", "dim0_ub", "dim1", "dim2", "dim3"].map
      needed) else none
  | .readKey =>
    if c == .batchGather || c == .flashAttention || c == .gemmRrrSmallNk then none
    else if byImage c || isProduct c || c == .softmax || isLayer c || isGroups c then fixed
      [needed "key"]
    else none
  | .keyAlignment => if isProduct c then fixed [needed "exec_key"] else none
  | .splitFactors => if isProduct c then fixed (["M", "N", "K"].map needed) else none
  | .kernelName => if isProduct c || (Conv.profile? c).isSome || isPooling c then fixed [] else none
  | .checkInputs =>
    if hasBiasCheck c then fixed (["x", "w", "b"].map needed)
    else if (Matmul.extraOperands? c).isSome then some .anyNumber
    else
      match Matmul.family? c with
      | some .gemmRcr | some .gemmRrr => if Matmul.hasBias c then fixed (["X", "W", "bias"].map
        needed) else none
      | _ => none
  | .checkShape => if c == .bmmRcrN1 || c == .gemmRrrSmallNk then fixed (["a", "b"].map
    needed) else none

private def sizes (v : Value) : Build (List (String × List String)) := do
  match v with
  | .map es => es.mapM fun (k, v) => do
    return ((k.text?).getD "", (← Operand.members v).map fun v => (v.text?).getD "")
  | _ => throw .noField

private def shape (v : Value) : Build (List Value) := do
  match v with
  | .list vs | .tuple vs => return vs
  | _ => throw .badType

private def ints (vs : List Value) : Build (List Int) := vs.mapM Operand.int

def genKey (c : OpClass) (v : Value) : Build String := do
  if isProduct c then Matmul.execKey (← sizes v)
  else if c == .softmax then Norm.softmaxKey (← sizes v)
  else if isLayer c then Norm.layerKey (← sizes v)
  else if isGroups c then Norm.groupsKey (← sizes v)
  else if (Conv.profile? c).isSome then ofExcept (Conv.execKey? (← shape v))
  else
    let s ← shape v
    match c with
    | .argmax => ofExcept (Search.argmaxKey? (← ints s))
    | .topk => ofExcept (Search.topkKey? (← ints s))
    | .batchGather => ofExcept (Search.gatherKey? (← ints s))
    | .nms => ofExcept (Detection.nmsKey? (← ints s))
    | .efficientNms => ofExcept (Detection.efficientKey? (← ints s))
    | .flashAttention => ofExcept (Attention.execKey? (← ints s))
    | _ => throw .noField

def invertKey (c : OpClass) (key : String) : Build Value := do
  if Matmul.family? c == some .group then
    return .list ((Workload.equalities key).map fun t => .int (t.toInt?.getD 0))
  else if c == .softmax || isLayer c then
    return .ints ((Workload.parts key).filterMap Workload.number?)
  else if isGroups c then
    let parts := Workload.parts key
    let values := parts.filterMap Workload.number?
    let names := (parts.filter fun p => (Workload.number? p).isNone).map fun p =>
      p.trimAscii.toString
    require (.keyCount values.length names.length) (values.length == names.length)
    return .map (Workload.lastOfEach (names.zip values) |>.map fun (n, v) => (.text n, .int v))
  else return .list ((Workload.numbersIn key).map fun (n : Nat) => .int n)

def retune (o : OpId) (v : Value) : Build Unit := do
  let c := (← op o).cls
  if Matmul.family? c == some .group then
    match v with
    | .none => Matmul.groupWorkloads o
    | _ => pure ()
  else if isProduct c then Matmul.findWorkloads o v
  else if c == .softmax then Norm.softmaxWorkloads o v
  else if isLayer c then Norm.layerWorkloads o v
  else if isGroups c then Norm.groupsWorkloads o v
  else if isPooling c then Spatial.noteUntuned o
  else
    let x ← Operand.tensor v
    match c with
    | .argmax => Spatial.noteWorkloads o x Search.argmaxKey?
    | .topk => Spatial.noteWorkloads o x Search.topkKey?
    | .batchGather => Spatial.noteWorkloads o x Search.gatherKey?
    | .nms => Spatial.noteWorkloads o x Detection.nmsKey?
    | .efficientNms => Spatial.noteWorkloads o x Detection.efficientKey?
    | .flashAttention => Spatial.noteWorkloads o x Attention.execKey?
    | _ => Conv.findWorkloads o x

def sharedName (o : OpId) : Build String := do
  let c := (← op o).cls
  match c with
  | .upsampling2d | .upsampling2dAdd => Pool.upsamplingSignature o
  | .roiAlign | .multiLevelRoiAlign => Pool.roiSignature o
  | .avgPool2d | .maxPool2d => throw .badKey
  | c => if isProduct c then Matmul.signature o else Conv.signature o

private def verdict (problem : String) : Value := .tuple [.bool (problem == ""), .text problem]

def inputsFit (o : OpId) (vs : List Value) : Build Value := do
  let c := (← op o).cls
  let ts ← vs.mapM Operand.tensor
  if hasBiasCheck c then
    match ts with
    | [x, w, b] => return verdict ((← Conv.problem? x w b).getD "")
    | _ => throw .badType
  else
    let g ← get
    let shapes := ts.map fun t => (g.tensor t).shape
    if (Matmul.extraOperands? c).isSome then
      return verdict (← ofExcept (Matmul.extraProblem? g.dim shapes))
    else
      match Matmul.family? c, shapes with
      | some f, [a, b, bias] => return verdict (← ofExcept (Matmul.biasProblem? f g.dim a b bias))
      | _, _ => throw .badType

def shapesFit (o : OpId) (a b : Value) : Build Bool := do
  let a ← Operand.tensor a
  let b ← Operand.tensor b
  let g ← get
  if (← op o).cls == .bmmRcrN1 then return Matmul.fitsNarrow g.dim (g.tensor a).shape (g.tensor
    b).shape
  else ofExcept (Matmul.fitsSmallRight? g.dim (g.tensor a).shape (g.tensor b).shape)

/-- How far the inner size of a product may be split, in the order of their digits. -/
def splitSpace (vs : List Value) : Build Value := do
  let target ← expect .noTarget (← get).target
  match ← vs.mapM Operand.int with
  | [m, n, k] =>
    let fs ← ofExcept (Matmul.splitFactors? (target.platform == .rocm) m n k)
    return .ints (fs.mergeSort fun a b => toString a ≤ toString b)
  | _ => throw .badType

private def textKey (v : Value) : Build String :=
  match v with
  | .text s => pure s
  | _ => throw .badType

private def replace (o : OpId) (old new : Value) : Build Unit := do
  match old, new with
  | .tensor a, .tensor b => Build.replaceInput o a b
  | _, _ => let _ ← inputs o

def run (m : Method) (o : OpId) (vs : List Value) : Build Value := do
  let x ← op o
  match m, vs with
  | .dropInputs, [v] =>
    let indices ← if v.int?.isSome then pure [v] else Operand.members v
    Concat.removeInputs o (indices.map fun v => v.int?.getD (-1))
    return .none
  | .givenIndex, [v] => return .int (← Concat.givenIndex o (← Operand.int v))
  | .tensorIndex, [v] =>
    match v with
    | .tensor t => return .int (← Concat.tensorIndex o t)
    | _ => throw (.concatUnknown (← inputs o).length)
  | .replaceInput, [old, new] =>
    replace o old new
    return .none
  | .settings, _ =>
    let settings := if (Conv.profile? x.cls).isSome then Conv.settings x else []
    return .map (settings.map fun (k, v) => (.text k, v))
  | .pseudoCode, [v] => return .text (← ofExcept (PseudoCode.operator? (← get) v.truthy o))
  | .findWorkloads, [v] =>
    retune o v
    return .none
  | .sizeTable, [v] =>
    let table ← Matmul.sizeTable o v.truthy
    return .map (table.map fun (n, ss) => (.text n, .list (ss.map (·.toValue))))
  | .workloadKey, [v] => return .text (← genKey x.cls v)
  | .rangeKey, [low, high, h, w, c] => return .text (Conv.rangeKey low high h w c)
  | .readKey, [v] => invertKey x.cls (← textKey v)
  | .keyAlignment, [v] => return .int (← Matmul.keyAlignment o (← textKey v))
  | .splitFactors, vs => splitSpace vs
  | .kernelName, _ => return .text (← sharedName o)
  | .checkInputs, vs => inputsFit o vs
  | .checkShape, [a, b] => return .bool (← shapesFit o a b)
  | _, _ => throw .noField

def call (m : Method) (o : OpId) (a : Args) : Build Value := do
  let s ← expect .noField (m.signature? (← op o).cls)
  m.run o (← ofExcept (s.bind? a))

end Method

end TensorGraph

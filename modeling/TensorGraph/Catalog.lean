import TensorGraph.Op.Attention
import TensorGraph.Op.Conv
import TensorGraph.Op.Detection
import TensorGraph.Op.Elementwise
import TensorGraph.Op.Matmul.Group
import TensorGraph.Op.Norm
import TensorGraph.Op.Pool
import TensorGraph.Op.Rearrange
import TensorGraph.Op.Reduce
import TensorGraph.Op.Scatter
import TensorGraph.Op.Search
import TensorGraph.Op.Slice
import TensorGraph.Op.Split
import TensorGraph.Operand
import TensorGraph.Signature

/-!
# The catalog of operators

Each operator with the parameters it is configured with (`settings`) and those it is applied to
(`operands`).
-/

namespace TensorGraph

namespace Catalog

open Build Param

/-! ## Signatures -/

private def windowParams : List Param :=
  [needed "stride", needed "pad", optional "dilate" (.int 1), optional "group" (.int 1)]

private def fewChannelsParams : List Param :=
  [needed "stride", needed "pad", optional "dilate" (.int 1), optional "auto_padding" (.bool true)]

private def permutedParams (layout : String) : List Param :=
  [needed "shape", optional "layout" (.text layout)]

private def detectionParams : List Param :=
  [optional "preNmsTop" (.int 2000), optional "nmsMaxOut" (.int 200),
    optional "iouThreshold" (.float 0.5),
   optional "minBoxSize" (.int 0)]

private def roiParams : List Param :=
  ["num_rois", "pooled_size", "sampling_ratio", "spatial_scale", "position_sensitive",
    "continuous_coordinate"].map
    needed

private def outputParams : List Param := [optional "keepdim" (.bool false), optional "dtype" .none]

def settings : OpClass → List Param
  | .elementwise => [needed "func_enum"]
  | .fusedElementwise => [needed "elementwise_ops"]
  | .flatten => [optional "start_dim" (.int 0), optional "end_dim" (.int (-1))]
  | .squeeze | .unsqueeze => [needed "dim"]
  | .argmax => [optional "dim" (.int 0)]
  | .topk => [needed "k"]
  | .sliceScatter => [needed "cat_op"]
  | .sliceReshapeScatter => [needed "cat_op", needed "reshape_op", needed "cat_op_2"]
  | .bmmRcrPermute | .bmmRrrPermute => permutedParams "0213"
  | .bmmSoftmaxBmm => [optional "scale" (.float 1.0)]
  | .bmmSoftmaxBmmPermute =>
    [needed "shape", optional "scale" (.float 1.0), optional "causal" (.bool false),
      optional "layout" (.text "0213")]
  | .gemmRcrBiasPermute | .gemmRcrPermute | .gemmRrrBiasPermute | .gemmRrrPermute => permutedParams "20314"
  | .perm021fcCcrBiasPermute => [optional "layout" (.text "021")]
  | .conv2dBiasFewChannels | .conv2dBiasHardswishFewChannels | .conv2dBiasReluFewChannels => fewChannelsParams
  | .conv2d | .conv2dBias | .conv2dBiasAdd | .conv2dBiasAddHardswish | .conv2dBiasAddRelu | .conv2dBiasHardswish
  | .conv2dBiasRelu | .conv2dBiasSigmoid | .transposedConv2d | .transposedConv2dBias | .transposedConv2dBiasRelu =>
    windowParams
  | .flashAttention => ["batch_size", "dropout", "max_seq_len", "causal"].map needed
  | .groupNorm | .groupNormSwish => ["num_groups", "num_channels"].map needed
  | .layernorm | .batchLayernormSigmoidMul | .groupLayernorm | .groupLayernormSigmoidMul =>
    [optional "normalized_shape" .none]
  | .layernormSigmoidMul => ["layer_norm", "sigmoid", "mul"].map needed
  | .padLastDim => ["ndim", "out_dim"].map needed
  | .avgPool2d | .maxPool2d => ["kernel_size", "stride", "pad"].map needed
  | .reduceMean | .reduceSum => needed "dim" :: outputParams
  | .var => needed "dim" :: needed "unbiased" :: outputParams
  | .vectorNorm => optional "ord_kind" (.int 2) :: optional "dim" .none :: outputParams
  | .upsampling2d | .upsampling2dAdd => ["scale_factor", "mode"].map needed
  | .nms | .efficientNms => detectionParams
  | .batchedNms => [optional "iou_threshold" (.float 0.5), optional "keep_n" (.int (-1))]
  | .roiAlign => roiParams
  | .multiLevelRoiAlign => roiParams ++ [needed "im_shape"]
  | _ => []

private def normParams : List Param :=
  [needed "x", optional "gamma" .none, optional "beta" .none, optional "normalized_shape" .none,
   optional "eps" (.float 1e-5)]

def productParams (c : OpClass) : List Param :=
  match c, Matmul.extraOperands? c with
  | .bmmCcrAdd, _ | .bmmCrrAdd, _ | .bmmRrrAdd, _ => ["a", "b", "c"].map needed
  | .bmmSoftmaxBmm, _ | .bmmSoftmaxBmmPermute, _ => ["a", "b", "b1"].map needed
  | .bmmRcrN1, _ => [needed "a", needed "b", optional "alpha" (.float 1.0)]
  | _, some _ => ["a", "b", "bias", "d0"].map needed ++ [optional "d1" .none]
  | c, none => (if Matmul.hasBias c then ["a", "b", "bias"] else ["a", "b"]).map needed

def operands (c : OpClass) : Signature :=
  match c with
  | .elementwise | .tupleConstruct | .listConstruct | .fusedElementwise => .anyNumber
  | .clamp => .fixed [needed "x", optional "min_value" .none, optional "max_value" .none]
  | .getitem => .fixed [needed "vals", needed "index"]
  | .reshape => .fixed [needed "x", needed "shape"]
  | .expand => .fixed [needed "tensor", needed "shape"]
  | .batchGather => .fixed [needed "x", needed "indices"]
  | .chunk => .fixed [needed "input", needed "chunks", optional "dim" (.int 0)]
  | .concatenate | .concatenateTanh => .fixed [needed "inputs", optional "dim" (.int 0)]
  | .dynamicSlice => .fixed [needed "x", needed "start_indices", needed "end_indices"]
  | .gather => .fixed [needed "x", needed "dim", needed "index"]
  | .permute => .fixed [needed "x", needed "dims"]
  | .size | .softmax => .fixed [needed "x", optional "dim" .none]
  | .split => .fixed [needed "x", needed "split_size_or_sections", optional "dim" (.int 0)]
  | .sliceScatter | .sliceReshapeScatter | .layernormSigmoidMul => .fixed []
  | .groupGemmRcr | .groupGemmRcrBias | .groupGemmRcrBiasRelu | .groupGemmRcrBiasSigmoid =>
    .fixed [needed "operand_groups", optional "output_stride_dim" .none]
  | .flashAttention => .fixed [needed "x", needed "cu_seqlens"]
  | .bertEmbeddings =>
    .fixed (["input_ids", "token_type_ids", "position_ids", "word_embeddings",
      "token_type_embeddings", "position_embeddings", "gamma", "beta"].map needed ++
      [optional "eps" (.float 1e-5)])
  | .groupNorm | .groupNormSwish | .layernorm | .batchLayernormSigmoidMul => .fixed normParams
  | .groupLayernorm | .groupLayernormSigmoidMul =>
    .fixed [needed "inputs", needed "gammas", needed "betas", optional "normalized_shapes" .none,
      optional "eps" (.float 1e-5)]
  | .upsampling2dAdd => .fixed [needed "x", needed "r"]
  | .nms => .fixed [needed "x", needed "scores"]
  | .efficientNms => .fixed [needed "boxes", needed "scores"]
  | .roiAlign => .fixed [needed "x", needed "rois"]
  | .multiLevelRoiAlign => .fixed (["p2", "p3", "p4", "p5", "rois"].map needed)
  | c =>
    if (Conv.profile? c).isSome then .fixed
      ((["x", "w", "b", "r"].take (Conv.operandCount c)).map needed)
    else if (Matmul.family? c).isSome then .fixed (productParams c)
    else .fixed [needed "x"]

/-! ## New operators -/

def create (c : OpClass) (vs : List Value) : Build OpId := do
  match c, vs with
  | .elementwise, [f] => Elementwise.create f
  | .fusedElementwise, [ops] => Elementwise.fuse (← (← Operand.members ops).mapM Operand.op)
  | .reshape, _ => View.createReshape
  | .flatten, [start, last] => View.createFlatten start last
  | .squeeze, [dim] => View.createSqueeze dim
  | .unsqueeze, [dim] => View.createUnsqueeze dim
  | .argmax, [dim] => Search.createArgmax dim
  | .topk, [k] => Search.createTopk k
  | .batchGather, _ => Search.createGather
  | .chunk, _ => Split.createChunk
  | .split, _ => Split.create
  | .concatenate, _ | .concatenateTanh, _ => Concat.create c
  | .dynamicSlice, _ => Slice.create
  | .expand, _ => Rearrange.createExpand
  | .gather, _ => Rearrange.createGather
  | .permute021, _ | .permute102, _ | .permute210, _ => Rearrange.createPermute c
  | .size, _ => Rearrange.createSize
  | .sliceScatter, [cat] => Scatter.join (← Operand.op cat)
  | .sliceReshapeScatter, [cat, reshape, cat2] =>
    Scatter.joinReshaped (← Operand.op cat) (← Operand.op reshape) (← Operand.op cat2)
  | .bmmSoftmaxBmm, [scale] => Matmul.createAttention scale
  | .bmmSoftmaxBmmPermute, [shape, scale, causal, layout] =>
    Matmul.createAttentionPermuted shape scale causal.truthy layout
  | .perm021fcCcrBiasPermute, [layout] => Matmul.createPerm021Permuted layout
  | .bmmRcrPermute, [shape, layout] | .bmmRrrPermute, [shape, layout] | .gemmRcrBiasPermute,
    [shape, layout]
  | .gemmRcrPermute, [shape, layout] | .gemmRrrBiasPermute, [shape, layout] | .gemmRrrPermute,
    [shape, layout] =>
    Matmul.createPermuted c shape layout
  | .bmmRcrSoftmax, _ | .gemmRcrSoftmax, _ | .gemmRcrBiasSoftmax, _ => Matmul.create c
  | .flashAttention, [batch, dropout, length, causal] => Attention.create batch dropout length causal
  | .bertEmbeddings, _ => Attention.createEmbeddings
  | .groupNorm, [groups, channels] | .groupNormSwish, [groups, channels] => Norm.createGroups c groups channels
  | .layernorm, [shape] | .batchLayernormSigmoidMul, [shape] => Norm.createLayer c shape
  | .groupLayernorm, [shapes] | .groupLayernormSigmoidMul, [shapes] => Norm.createGroupLayer c shapes
  | .layernormSigmoidMul, [layer, sigmoid, mul] =>
    Norm.joinSigmoidMul (← Operand.op layer) (← Operand.op sigmoid) (← Operand.op mul)
  | .padLastDim, [ndim, size] => Pad.createLast ndim size
  | .avgPool2d, [kernel, stride, pad] | .maxPool2d, [kernel, stride, pad] => Pool.create c kernel stride pad
  | .reduceMean, [dim, keepdim, dtype] | .reduceSum, [dim, keepdim, dtype] => Reduce.create c dim keepdim dtype []
  | .var, [dim, unbiased, keepdim, dtype] => Reduce.create c dim keepdim dtype [("unbiased",
    unbiased)]
  | .vectorNorm, [ord, dim, keepdim, dtype] =>
    match dim with
    | .none => throw .flattenedNorm
    | dim => Reduce.create c dim keepdim dtype [("ord_kind", .text (ord.text?.getD ""))]
  | .softmax, _ => Norm.createSoftmax
  | .upsampling2d, [factor, mode] | .upsampling2dAdd, [factor, mode] => Pool.createUpsampling c factor mode
  | .nms, [top, out, threshold, size] | .efficientNms, [top, out, threshold, size] =>
    Detection.create c top out threshold size
  | .batchedNms, [threshold, keep] => Detection.createBatched threshold keep
  | .roiAlign, [rois, size, ratio, scale, sensitive, continuous] =>
    Pool.createRoi c rois size ratio scale sensitive continuous []
  | .multiLevelRoiAlign, [rois, size, ratio, scale, sensitive, continuous, image] =>
    Pool.createRoi c rois size ratio scale sensitive continuous [("im_shape", image)]
  | c, vs =>
    match (Conv.profile? c).isSome, vs with
    | true, [stride, pad, dilate, group] =>
      Conv.create c stride pad dilate (if Conv.hasFewChannels c then .int 1 else group)
    | _, _ => if (Matmul.family? c).isSome then Matmul.create c else newOp c c.label []

/-! ## Application -/

def one (t : TensorId) : Value := .tensor t

def several (ts : List TensorId) : Value := .list (ts.map .tensor)

/-- The item of a list at a signed position; only nodes can be picked. -/
def item (vals index : Value) : Build Value := do
  let vs ← match vals with
    | .list vs | .tuple vs => pure vs
    | _ => throw .unmet
  require .unmet !vs.isEmpty
  let i ← match index with
    | .float x => expect .badNumber ((Number.float x).trunc?)
    | .text s => expect .badNumber s.toInt?
    | v => Operand.int v
  match vs.at? (← ofExcept (wrapDim? i vs.length)) with
  | some (.tensor t) => return .tensor t
  | some (.dim d) => return .dim d
  | some v => throw (.badItem v)
  | none => throw .badIndex

def reshape (o : OpId) (x target : Value) : Build Value := do
  match target with
  | .int _ | .bool _ =>
    setParam o "shape" (.list ((← Operand.shape [target]).map .dim))
    setInputs o [← Operand.tensor x]
    throw .badType
  | target =>
    let vs ← Operand.members target
    let target ← Operand.shape vs
    let sizes ← Operand.sizeTensors vs
    one <$> View.applyReshape o (← Operand.tensor x) target sizes

private def expand (o : OpId) (x target : Value) : Build Value := do
  let vs ← Operand.members target
  let sizes ← Operand.sizeTensors vs
  one <$> Rearrange.applyExpand o (← Operand.tensor x) (← Operand.shape vs) sizes

private def slice (o : OpId) (x starts stops : Value) : Build Value := do
  let x ← Operand.tensor x
  let starts ← Operand.members starts
  let stops ← Operand.members stops
  require .sliceLengths (starts.length == stops.length)
  let rank := (← shape x).length
  require (.sliceRank rank starts.length) (rank == starts.length)
  let a ← Operand.bounds 0 starts
  let b ← Operand.bounds Slice.openEnd stops
  one <$> Slice.apply o x a b

private def permute (x dims : Value) : Build Value := do
  let ds ← Operand.members dims
  require (.permutePattern dims) (ds.length == 3)
  let ds ← ds.mapM Operand.position
  one <$> Rearrange.permute (← Operand.tensor x) ds

private def bound (v : Value) : Build (Option TensorId) :=
  match v with
  | .none => pure none
  | v => some <$> Operand.scalarOrTensor v

def normShape (v : Value) : Build (Option (List DimId × List Value)) := do
  match v with
  | .none => return none
  | v =>
    let vs ← Operand.members v
    let ds ← Operand.shape vs
    let g ← get
    return some (ds, (vs.zip ds).filterMap fun (v, d) =>
      if (g.dim d).isStatic then none else some v)

/-- The shapes that a group normalises over, and the tensors that hold dynamic sizes in them. -/
def normShapes (v : Value) : Build (Option (List (List DimId) × List TensorId)) := do
  match v with
  | .none => return none
  | v =>
    let vss ← (← Operand.members v).mapM Operand.members
    let shapes ← vss.mapM Operand.shape
    let sizes ← Operand.sizeTensors vss.flatten
    let g ← get
    return some (shapes, sizes.filter fun t => (g.tensor t).sizeVar.any fun d =>
      !(g.dim d).isStatic)

private def splitRequest (v : Value) : Split.Request :=
  match v with
  | .list vs | .tuple vs => .sizes vs
  | v => .each v

def groupProducts (o : OpId) (groups strideDim : Value) : Build Value := do
  let groups ← (← Operand.members groups).mapM fun v => do (← Operand.members v).mapM Operand.tensor
  match strideDim with
  | .none => several <$> Matmul.applyGroup o groups none
  | v => one <$> do expect .badIndex (← Matmul.applyGroup o groups (some (v.int?.getD 0))).head?

def apply (c : OpClass) (o : OpId) (settings vs : List Value) : Build Value := do
  match c, vs with
  | .elementwise, vs => one <$> do Elementwise.apply o (← vs.mapM Operand.scalarOrTensor)
  | .fusedElementwise, _ => throw (.notDefined "")
  | .clamp, [x, low, high] =>
    let low ← bound low
    let high ← bound high
    one <$> do Elementwise.clamp (← Operand.scalarOrTensor x) low high
  | .getitem, [vals, index] => item vals index
  | .tupleConstruct, vs => return .tuple vs
  | .listConstruct, vs => return .list vs
  | .reshape, [x, target] => reshape o x target
  | .flatten, [x] => one <$> do View.applyFlatten o (← Operand.tensor x)
  | .squeeze, [x] => one <$> do View.applySqueeze o (← Operand.tensor x)
  | .unsqueeze, [x] => one <$> do View.applyUnsqueeze o (← Operand.tensor x)
  | .argmax, [x] => one <$> do Search.applyArgmax o (← Operand.tensor x)
  | .topk, [x] => one <$> do Search.applyTopk o (← Operand.tensor x)
  | .batchGather, [x, indices] => one <$> do Search.applyGather o (← Operand.tensor x) (← Operand.tensor indices)
  | .chunk, [x, chunks, dim] =>
    let chunks ← Operand.int chunks
    let x ← Operand.tensor x
    let ys ← Split.applyChunk o x chunks (← Operand.int dim)
    return .tuple (ys.map .tensor)
  | .concatenate, [ts, dim] | .concatenateTanh, [ts, dim] =>
    let ts ← Operand.tensors ts
    require .badIndex !ts.isEmpty
    one <$> do Concat.apply o ts (← Operand.position dim)
  | .dynamicSlice, [x, starts, stops] => slice o x starts stops
  | .expand, [x, target] => expand o x target
  | .gather, [x, dim, index] =>
    let index ← Operand.tensor index
    let x ← Operand.tensor x
    one <$> do Rearrange.applyGather o x (← Operand.int dim) index
  | .permute, [x, dims] => permute x dims
  | .permute021, [x] | .permute102, [x] | .permute210, [x] =>
    one <$> do Rearrange.applyPermute o (← Operand.tensor x)
  | .size, [x, dim] =>
    let x ← Operand.tensor x
    match dim.int? with
    | some i => one <$> Rearrange.applySizeAt o x i
    | none => several <$> Rearrange.applySize o x
  | .split, [x, parts, dim] =>
    let x ← Operand.tensor x
    let ys ← Split.apply o x (splitRequest parts) (← Operand.position dim)
    return .tuple (ys.map .tensor)
  | .sliceScatter, _ | .sliceReshapeScatter, _ => throw (.notCallable c.label)
  | .groupGemmRcr, [groups, dim] | .groupGemmRcrBias, [groups, dim] | .groupGemmRcrBiasRelu, [groups, dim]
  | .groupGemmRcrBiasSigmoid, [groups, dim] => groupProducts o groups dim
  | .bmmRcrN1, [a, b, alpha] =>
    setParam o "alpha" alpha
    one <$> do Matmul.apply o [← Operand.tensor a, ← Operand.tensor b]
  | .flashAttention, [x, lengths] => one <$> do Attention.apply o (← Operand.tensor x) (← Operand.tensor lengths)
  | .bertEmbeddings, [ids, types, positions, words, typeTable, positionTable, gamma, beta, eps] =>
    let ts ← [ids, types, positions, words, typeTable, positionTable, gamma, beta].mapM Operand.tensor
    match ts with
    | [ids, types, positions, words, typeTable, positionTable, gamma, beta] =>
      one <$> Attention.applyEmbeddings o ids types positions words typeTable positionTable gamma
        beta eps
    | _ => throw .badType
  | .groupNorm, [x, gamma, beta, _, eps] | .groupNormSwish, [x, gamma, beta, _, eps] =>
    one <$> do Norm.applyGroups o (← Operand.tensor x) (← Operand.tensor? gamma) (← Operand.tensor? beta) eps
  | .layernorm, [x, gamma, beta, norm, eps] | .batchLayernormSigmoidMul, [x, gamma, beta, norm, eps] =>
    let norm ← normShape norm
    one <$> do Norm.applyLayer o (← Operand.tensor x) (← Operand.tensor? gamma) (← Operand.tensor? beta) norm eps
  | .groupLayernorm, [xs, gammas, betas, norms, eps] | .groupLayernormSigmoidMul, [xs, gammas, betas, norms, eps] =>
    let norms ← normShapes norms
    several <$> do
      Norm.applyGroupLayer o (← Operand.tensors xs) (← Operand.tensors? gammas)
        (← Operand.tensors? betas) norms eps
  | .layernormSigmoidMul, _ => one <$> outputAt o 0
  | .nhwc3to4, [x] | .nhwc3to8, [x] => one <$> do Pad.applyChannels o (← Operand.tensor x)
  | .padLastDim, [x] => one <$> do Pad.applyLast o (← Operand.tensor x)
  | .avgPool2d, [x] | .maxPool2d, [x] => one <$> do Pool.apply o (← Operand.tensor x)
  | .reduceMean, [x] | .reduceSum, [x] | .var, [x] | .vectorNorm, [x] =>
    one <$> do Reduce.apply o (← Operand.tensor x)
  | .softmax, [x, dim] => one <$> do Norm.applySoftmax o (← Operand.tensor x) dim
  | .upsampling2d, [x] => one <$> do Pool.applyUpsampling o (← Operand.tensor x) []
  | .upsampling2dAdd, [x, r] => one <$> do Pool.applyUpsampling o (← Operand.tensor x) [← Operand.tensor r]
  | .nms, [x, scores] => one <$> do Detection.applyNms o (← Operand.tensor x) (← Operand.tensor scores)
  | .efficientNms, [x, scores] =>
    several <$> do Detection.applyEfficient o (← Operand.tensor x) (← Operand.tensor scores)
  | .batchedNms, [x] => one <$> do Detection.applyBatched o (← Operand.tensor x)
  | .roiAlign, x :: rest | .multiLevelRoiAlign, x :: rest =>
    one <$> do Pool.applyRoi o (← Operand.tensor x) (← rest.mapM Operand.tensor)
  | c, vs =>
    if (Conv.profile? c).isSome then
      match ← vs.mapM Operand.tensor with
      | x :: w :: rest =>
        let padded := Conv.hasFewChannels c && (settings.getLastD .none).truthy
        let x ← if padded then Conv.padFewChannels x else pure x
        one <$> Conv.apply o x w rest
      | _ => throw .badType
    else
      let vs := if (Matmul.extraOperands? c).isSome && (vs.getLastD .none) matches .none then
        vs.dropLast else vs
      one <$> do Matmul.apply o (← vs.mapM Operand.tensor)

/-! ## Plain functions -/

/-- Functions of one operand that are applied without being configured, and how many operands they
take. -/
def functions : List (String × ScalarFn) :=
  [("tanh", .tanh), ("cos", .cos), ("sin", .sin), ("sign", .sign), ("abs", .abs), ("log", .log),
    ("exp", .exp),
   ("sqrt", .sqrt), ("max", .max), ("min", .min), ("sigmoid", .sigmoid), ("leaky_relu", .leakyRelu),
   ("hardtanh", .hardTanh), ("relu", .relu), ("silu", .silu), ("nan_to_num", .nanToNum)]

def applyFunction (f : ScalarFn) (a : Args) : Build TensorId := do
  let s : Signature := if f == .hardTanh then .anyNumber else .fixed [needed "tensor"]
  let vs ← ofExcept (s.bind? a)
  Elementwise.applyFn f (← vs.mapM Operand.scalarOrTensor)

/-- Arithmetic on tensors and numbers, at least one of them a tensor. -/
def arithmetic (f : ScalarFn) (a b : Value) : Build TensorId := do
  match a, b with
  | .tensor _, _ | _, .tensor _ => Elementwise.applyFn f [← Operand.scalarOrTensor a,
    ← Operand.scalarOrTensor b]
  | _, _ => throw .badType

end Catalog

end TensorGraph

import TensorGraph.Value

/-!
# Faults

Everything that can go wrong while a graph is built or transformed, one constructor per cause.
`Fault.kind` sorts the causes, `Fault.message?` words them.
-/

namespace TensorGraph

inductive FaultKind
  /-- the request makes no sense for these operands -/
  | rejected
  /-- a condition that the library relies on does not hold -/
  | broken
  /-- the request makes sense and is not supported -/
  | unsupported
  /-- a value of the right type has no meaning here -/
  | badValue
  /-- the feature is switched off -/
  | disabled
  | badIndex
  | badKey
  | noField
  | badType
  | zeroDivision
  | unset
  | tooDeep
  | noProgram
  | noText
deriving DecidableEq, Inhabited, Repr

inductive Fault
  -- plain failures
  | badIndex
  | badKey
  | noField
  | badType
  | badNumber
  | zeroDivision
  | unsetLabel
  | tooDeep
  | unmet
  | noTarget
  -- processes
  | noProgram
  | noText
  -- dimensions
  | fewValues (values : Value) (name : Option String)
  | negativeValue (values : List Int) (name : Option String)
  | notAnInteger (name : Option String) (value : Value)
  | noValues
  | badDim (value : Value)
  | dynamicSize
  | unknownDtype (dtype : String)
  -- bound data
  | boundProduced (name : Option String) (sources : Nat)
  | dataDtype (expected got : String)
  | dataSize (got expected : Int)
  -- accessors
  | beyondRank (dim : Int) (rank : Nat)
  | dimNames (names : List String) (rank : Nat)
  | dynamicStride
  | noStride
  | strideFixed
  | rankChanged
  | strideBeyondRank (dim : Int) (rank : Nat)
  | dynamicStrideDim
  | dynamicAfterStride
  | changedAfterStride
  | dynamicDimsChanged
  -- elementwise operators
  | noOperands (f : Value)
  | badOperand
  | notBroadcastable
  | fusedShapes
  | fusedEmpty
  | fusedBoundary
  | fusedNoInputs
  | fusedConstant
  | badItem (value : Value)
  -- views
  | manyDynamic (kind : String)
  | elementCount (have_ want : Int)
  | notReshapable (source target : List Int)
  | flattenStart (start : Int) (rank : Nat)
  | flattenEnd (last : Int) (rank : Nat)
  | flattenOrder (start last : Int)
  -- convolutions
  | convChannels
  | convDynamicOutput
  -- embeddings
  | indexDtypes
  | tableDtypes
  | indexDtype (dtype : String)
  | tableDtype (dtype : String)
  | indexShapes
  | dynamicEmbedding
  | embeddingWidth
  | embeddingWidths
  -- matrix products
  | switchedOff (what : String)
  | biasRank (rank : Nat)
  | biasDynamic (rank : Nat)
  | biasShape
  | biasCheck (text : String)
  | batchSizes
  | bmmRank (operand : String) (ranks : String) (rank : Nat)
  | bmmBothFlat
  | innerSizes
  | specialShapes (kind : String) (rankA rankB : Nat)
  | oddAlignment (m n k : Int)
  | notMultiple (what : String)
  | noLayout (layout : Value)
  | notDefined (what : String)
  | dynamicColumns
  | noDimInfo (name : String)
  | noWorkload
  | gemmRankA (rank : Nat)
  | gemmRankB (rank : Nat)
  | gemmShapes (rankA rankB : Nat)
  | dynamicInner
  | badStrategy (s : Value)
  | groupBatches (detail : Bool)
  | groupStride
  | alignmentsDiffer
  -- normalisation
  | epsType (v : Value)
  | keyCount (values keys : Nat)
  | staticNeeded (dim : String)
  | gammaBetaRanks (gamma beta : Nat)
  | gammaChannels
  | groupChannels
  | emptyRange (what : String)
  | layernormInputs (most : Int) (count : Nat)
  | layernormRank (norm : Value) (rank : Nat)
  | layernormStatic (param : String) (shape : Value)
  | layernormTuned
  | layernormShapes
  | batchLayernormRank (what : String) (rank : Nat)
  | batchLayernormNormRank (norm : Value)
  | groupNormInputs (count : Nat)
  | groupNormShapes (idx : Nat)
  | groupNormMissing
  | groupNormBetas
  -- padding and reductions
  | padSmaller
  | padRank
  | padRankUnsupported
  | reduceDim
  | repeatedDim (dim : Int)
  | reduceDynamic
  | reduceRank (rank most : Nat)
  | manyAxes
  | badAxis (axis : Int) (rank : Nat)
  | reduceAxis (axis : Int)
  | flattenedNorm
  | softmaxRank (rank : Nat)
  | softmaxDim (dim : Value) (rank : Nat)
  -- tensor operators
  | gatherIndex (dtype : String)
  | batchGatherIndex (dtype : String)
  | gatherDim (dim : Int) (rank : Nat)
  | chunkCount (chunks : Int)
  | scalarTensor
  | chunkDim (dim : Int) (rank : Nat)
  | chunkDynamic (dim : Int)
  | notTensors
  | concatDim (dim rank : Int)
  | concatRanks (rank first : Nat)
  | concatShapes
  | concatIndex (idx : Int)
  | concatUnknown (count : Nat)
  | concatAccessors (accessors inputs : Nat) (name : Option String)
  | concatTooMany (indices inputs : Nat)
  | concatMasks (inputs masks : Nat)
  | concatRemoved (left inputs : Nat)
  | concatStrided (idx : Int) (name : Option String)
  | sliceLengths
  | sliceRank (rank count : Nat)
  | expandRank (want have_ : Nat)
  | expandSize
  | expandTwice (dim first : Int)
  | permutePattern (dims : Value)
  | notCallable (kind : String)
  | sliceInputs
  | splitDim (dim rank : Int)
  | splitCount (count : Int)
  | splitSum (sizes : Value) (size : Int)
  | splitSizeType
  | splitDynamic
  | splitSize
  -- passes
  | paddedShape
  | dynamicAlignment
  | noAlignmentRule (kind : String)
  | manySources (count : Nat)
  | notGroupable (kind : String)
  | notGroupKind (kind : String)
  | catMasks
  | permuteSources (count : Nat)
  | permuteUnlinked
  | unexpectedOp (kind : String)
  | patternInputs (count : Nat)
  | activationInputs (count : Nat)
  | patternUnlinked
  | usageConflict
  | expandOutputs
  | expandInputs
  | noInnerAxis (kind : String)
  | inputCount (count : Nat)
  | viewUnlinked
  | catUnlinked
  | axisRange (axis : Int) (rank : Nat)
  | catDimRange (dim : Int) (rank : Nat)
  | catDimDynamic
  | unsupportedStride
  | sliceMasked (idx : Nat) (input slice : Option String)
  | inputAndOutput (name : Option String)
  | shapeOperand (tensor op : Option String)
  | inputNotEstablished (tensor op : Option String)
  | notDstOp (op tensor : Option String)
  | notInOutputs (tensor op : Option String)
  | outputNotEstablished (tensor op : Option String)
  | notSrcOp (op tensor : Option String)
  | notInInputs (tensor op : Option String)
  | alreadyBound (name : String)
  | bindProduced (name : String)
  | bindInput (name : String)
  -- outputs of a compilation
  | givenNotOutput (name : Option String)
  | givenTwice (name : Option String)
  | outputNotGiven (name : Option String)
  | outputTwice (name : Option String)
  -- kernels
  | kernelDtype (dtype : String)
  | argumentDtype (dtype : String)
  | kernelShapes
  | broadcastShapes
  | noExpression
  | manyResults
  -- libraries
  | pointerDtype
  | recordDtype (dtype : String)
  | constantPlace (name : String)
  | tensorPlace (name : String)
  | noOutputIndex (name : String)
  | inputIsView
  | externalNotView
  -- compilers
  | compileFailed (stdout stderr : String)
  | noBinaryCompiler
  | unknownArch
  -- tables
  | emptyTable
  | unevenTable
deriving Inhabited

namespace Fault

def kind : Fault → FaultKind
  | badIndex => .badIndex
  | badKey | unknownDtype _ => .badKey
  | noField => .noField
  | badType => .badType
  | zeroDivision => .zeroDivision
  | unsetLabel => .unset
  | tooDeep => .tooDeep
  | noProgram => .noProgram
  | noText => .noText
  | badNumber | dynamicSize | boundProduced .. | dataDtype .. | dataSize .. | expandRank
    .. | expandSize
  | alreadyBound _ | bindProduced _ | bindInput _ | noBinaryCompiler | givenNotOutput
    _ | givenTwice _
  | outputNotGiven _ | outputTwice _ => .badValue
  | switchedOff _ | emptyTable | unevenTable => .disabled
  | unmet | beyondRank .. | dimNames .. | strideFixed | rankChanged | strideBeyondRank
    .. | dynamicStrideDim
  | dynamicAfterStride | changedAfterStride | dynamicDimsChanged | fusedBoundary | manyDynamic
    _ | elementCount ..
  | flattenStart .. | flattenEnd .. | flattenOrder .. | indexDtypes | tableDtypes | indexDtype
    _ | tableDtype _
  | indexShapes | dynamicEmbedding | embeddingWidth | embeddingWidths | innerSizes | specialShapes
    .. | notMultiple _
  | noDimInfo _ | alignmentsDiffer | epsType _ | keyCount .. | staticNeeded
    _ | layernormTuned | groupNormShapes _
  | reduceRank ..
  | softmaxRank _ | batchGatherIndex _ | concatIndex _ | concatUnknown _ | concatAccessors
    .. | concatTooMany ..
  | concatMasks .. | concatRemoved .. | sliceInputs | paddedShape | manySources _ | notGroupable
    _ | notGroupKind _
  | catMasks | permuteSources _ | patternInputs _ | activationInputs
    _ | patternUnlinked | usageConflict
  | expandOutputs | expandInputs | viewUnlinked | catUnlinked | axisRange .. | catDimRange
    .. | catDimDynamic
  | sliceMasked .. | inputAndOutput _ | shapeOperand .. | broadcastShapes | manyResults
  | recordDtype _ | constantPlace _ | tensorPlace _ | noOutputIndex _ | inputIsView | externalNotView => .broken
  | fusedConstant | badItem _ | noLayout _ | notDefined _ | badStrategy _ | layernormInputs
    .. | layernormRank ..
  | layernormStatic .. | batchLayernormRank .. | batchLayernormNormRank _ | groupNormInputs
    _ | groupNormMissing
  | groupNormBetas | padRankUnsupported | reduceDynamic | manyAxes | flattenedNorm | softmaxDim
    .. | expandTwice ..
  | permutePattern _ | splitDynamic | dynamicAlignment | noAlignmentRule _ | inputCount _
  | kernelDtype _ | argumentDtype _ | pointerDtype => .unsupported
  | _ => .rejected

def nameText (n : Option String) : String := n.getD "None"

def shapeText? (rank : Nat) : Option String := if rank = 0 then some "[]" else none

private def intsText (open_ close : String) (ns : List Int) : String :=
  open_ ++ ", ".intercalate (ns.map toString) ++ close

private def listText (ns : List Int) : String := intsText "[" "]" ns

private def tupleText (ns : List Int) : String :=
  match ns with
  | [n] => s!"({n},)"
  | ns => intsText "(" ")" ns

private def textsText (ss : List String) : String := "[" ++ ", ".intercalate (ss.map Text.quoted) ++
    "]"

/-- The words of each cause, if it has any that spell out no node. -/
def message? : Fault → Option String
  | unmet => some ""
  | noTarget => some "Target is not set yet."
  | fewValues vs n =>
    vs.text?.map fun t =>
      s!"IntVar 'values' field must have at least 2 values! values: {t}, name: {nameText n}"
  | negativeValue vs n => some s!"IntVar has < 0 value! values: {listText vs}, name: {nameText n}"
  | notAnInteger n v =>
    v.text?.map fun t => s!"IntImm only takes an int value! Name: {nameText n}, current value: {t}"
  | noValues => some "Unsupported dim definition: []"
  | badDim v => v.text?.map fun t => s!"Unsupported dim type: {v.typeText}, dim: {t}"
  | unknownDtype d => some (s!"Unknown dtype: {d}. Expected one of dict_keys(" ++
      textsText ["float16", "float32", "float", "int", "int32", "int64"] ++ ")")
  | boundProduced n k => some s!"Cannot bind tensor {nameText n}; len(self.src_ops())={k} > 0"
  | dataDtype e g => some s!"data's dtype did not match: expected {e}, got {g}"
  | dataSize g e => some ("ConstantTensor's maximum size is not equal to len(data)! " ++
      s!"Got len(data)={g}, but expected at least {e} bytes. " ++
      "Check that the ConstantTensor's size and dtype are correct.")
  | beyondRank d r => some s!"dim {d} must be smaller than original_shapes' rank, {r}"
  | dimNames ns r => (shapeText? r).map fun t =>
      s!"dim_names must have the same length as shapes, dim_names: {textsText ns}, shapes: {t}"
  | noStride => some "Failed to get stride strs!"
  | strideFixed => some "Tensor accessor cannot be updated once stride_dim is set!"
  | strideBeyondRank d r => some s!"stride_dim {d} must be less than #dims {r}!"
  | dynamicStrideDim => some "Stride dim can't be dynamic!"
  | noOperands f => f.text?.map fun t => s!"Elementwise op {t} doesn't have inputs!"
  | fusedEmpty => some "fused_elementwise argument elementwise_ops cannot be empty!"
  | badItem v => v.text?.map fun t => s!"getitem op does not support this val type: {t}"
  | manyDynamic k => some s!"{k} doesn't support multiple dynamic dims, "
  | elementCount a b => some ("When there is no unknown index, we expect dim products to be equal, got current " ++
      s!"shape numel={a} != new shape prod={b}")
  | notReshapable s t => some s!"cannot reshape tensor {tupleText s} with shape {tupleText t}"
  | flattenStart s r => some s!"flatten start_dim={s} must be non-negative and less than input rank={r}"
  | flattenEnd e r => some s!"flatten end_dim={e} must be non-negative and less than input rank={r}"
  | flattenOrder s e => some s!"flatten start_dim={s} must be less than or equal to end_dim={e}"
  | convChannels => some "X/W Shape mismatch for conv2d"
  | convDynamicOutput => some "Conv output last dimension must be static!"
  | indexDtypes => some "dtype of input_ids, token_type_ids, and position_ids must be the same"
  | tableDtypes => some "dtype of word_embeddings, token_type_embeddings, position_embeddings must be the same"
  | indexDtype d => some s!"Expected dtype int/int32/int64 for index, got dtype {d}"
  | tableDtype d => some s!"Expected float16 embeddings, but got {d}"
  | switchedOff w => some s!"{w} is disabled for now"
  | biasRank r => some s!"Bias should be {r}D vector "
  | biasDynamic r => some s!"Bias should be fixed {r}D vector"
  | biasShape => some "GEMM/Bias shape doesn't match"
  | biasCheck t => some t
  | bmmRank o rs r => (shapeText? r).map fun t =>
      s!"bmm operand {o} should have {rs} dimensions! Current shape: {t}."
  | bmmBothFlat => some "bmm operand A and B both have 2 dimensions! Use gemm instead."
  | specialShapes k a b =>
    if a + b = 0 then some s!"shape (tensor a:[], tensor b:[]) not valid for {k}" else none
  | oddAlignment m n k => some s!"A / B alignment == 1 is not supported! m: {m}, n: {n}, k: {k}."
  | noLayout l => l.text?.map fun t => s!"{t} is not implemented!"
  | notDefined w => some w
  | noDimInfo n => some s!"Couldn't find valid dim info for dim {n}"
  | noWorkload => some "Gemm input has empty dim values: []"
  | gemmRankA r => (shapeText?
    r).map fun t => s!"gemm operand A should have >= 2 dimensions! Current shape: {t}."
  | gemmRankB r => (shapeText?
    r).map fun t => s!"gemm operand B should have 2 dimensions! Current shape: {t}."
  | badStrategy s => s.text?.map fun t =>
      s!"Gemm only supports MIN or MAX dynamic profiling! Current dynamic_profiling_strategy: {t}"
  | groupBatches detail => if detail then none else some "Batch dim is different in groups"
  | groupStride => some "only support cases where output_stride_dim equals to 1"
  | epsType v => some s!"eps must be float, instead it is {v.typeText}"
  | keyCount v k => some s!"expected len(vals) == len(key_strs), but got {v}, {k}"
  | staticNeeded d => some s!"groupnorm requires {d} to be static"
  | gammaBetaRanks g b =>
    some s!"Gamma and beta must have the same number of dimensions, but got {g} and {b}"
  | emptyRange w => some s!"{w} input has empty dim values: []"
  | layernormInputs m c => some s!"Expect 1 ~ {m} inputs for Layernorm. Actual #inputs: {c}"
  | layernormRank n r => n.text?.bind fun u => (shapeText? r).map fun t =>
      "Layernorm normalized_shape length must be smaller than the input." ++
      s!"Current normalized_shape: {u}, input shape: {t}"
  | layernormStatic p v => v.text?.map fun t => s!"Layernorm {p} shape must be immutable values.Current value: {t}"
  | layernormTuned => some "For profiling, normalized_shape must be 1D"
  | batchLayernormRank w r => (shapeText? r).map fun t => s!"Layernorm {w}: {t}"
  | batchLayernormNormRank n => n.text?.map fun t =>
      s!"Layernorm normalized_shape length must be 1. Current normalized_shape: {t}"
  | groupNormInputs c => some s!"Expect multiples of 3 inputs for group layernorm. Actual #inputs: {c}"
  | groupNormShapes i => some s!"found shape mismatch for input_{i},"
  | groupNormBetas => some "expected beta not to be None, but got None: \x7bbetas\x7d"
  | padSmaller => some "Output of padded dim must be larger than original dim"
  | padRank => some "Data/Op dims mismatch"
  | padRankUnsupported => some ""
  | reduceDim => some "dim must be either int or a list/tuple of ints."
  | repeatedDim d => some s!"dim {d} appears multiple times in the list of dims"
  | reduceDynamic => some "expect the last dim to be static"
  | reduceRank r m => some s!"expected rank <= num_dims, but got rank={r}, num_dims={m}"
  | manyAxes => some "Multiple reduction axes are not supported yet"
  | badAxis a r => some s!"invalid axis {a}, expected in a range [0, {r})"
  | reduceAxis a => some s!"Expected reduction_axis to be within [0, 2], but got reduction_axis={a}"
  | flattenedNorm => some "flattening input tensor before normalization is not supported yet"
  | softmaxRank r => some s!"softmax only supports input with rank >= 2, current rank: {r}"
  | softmaxDim d r => d.text?.map fun t =>
      s!"softmax currently only supports dim=x._rank() - 1, dim={t}, x._rank()={r}"
  | gatherIndex d => some s!"expected dtype int64 for index but got {d}"
  | batchGatherIndex d => some s!"batch_gather(): Expected dtype int/int32/int64 for index, got dtype {d}"
  | gatherDim d r => some s!"dimension value {d} expected to be less than {r}"
  | chunkCount c => some s!"chunks must be >= 1 but got chunks={c}"
  | scalarTensor => some "expected a non-scalar tensor"
  | chunkDim d r => some s!"chunk dim={d} expected to be less than input_rank={r}"
  | chunkDynamic d => some s!"Not implemented: chunk along dynamic axes dim={d}"
  | notTensors => some "expected a list of Tensors"
  | concatDim d r => some s!"concat_dim ({d}) expected to be less than rank ({r})"
  | concatRanks a b => some s!"tensors expected to have the same rank, got {a} and {b}"
  | concatIndex i => some s!"Expected orig_idx to be non-None for idx {i}"
  | concatUnknown n => some s!"Expected idx to be less than the number of inputs, but got: None, {n}"
  | concatAccessors a n m => some ("expected curr_input_accessors have the same length as num_curr_inputs, " ++
      s!"but got len(curr_input_accessors)={a}, num_curr_inputs={n}, op: {nameText m}")
  | concatTooMany i n => some s!"Expected len(indices) <= num_curr_inputs, but got {i} and {n}"
  | concatMasks o m => some s!"original_inputs and input_masks must have the same length, but got {o} and {m}"
  | concatRemoved l n =>
    some s!"Expected num_new_inputs + len(indices) == num_curr_inputs, but got {l} and {n}"
  | concatStrided i n => some s!"Cannot remove an input (idx: {i}) with a valid TensorAccessor for {nameText n}"
  | sliceLengths => some "len(start_indices) must equal to len(end_indices)"
  | sliceRank r n =>
    some s!"input rank expected to be equal to the length of start_indices, but got {r} and {n}"
  | expandRank w h => some s!"Input shape ndim ({w}) must match tensor's ndim ({h})"
  | expandTwice d f =>
    some
      s!"Expand only supports expanding one dim. Tried to expand dim {d}, but already expanded dim {f}."
  | permutePattern ds => ds.text?.map fun t => s!"Permute op doesn't support permute pattern {t}"
  | notCallable k => some s!"op {k} cannot be called directly"
  | splitDim d r => some s!"split dim ({d}) expected to be less than rank ({r})"
  | splitCount n => some s!"the number of splits expected >=0 but got {n}"
  | splitSum s n => s.text?.map fun t => s!"sum of split_sizes ({t}) does not match split_dim_size ({n})"
  | splitSizeType => some "split_size expected to be of int"
  | splitDynamic => some "split dynamic axis"
  | splitSize => some "split_size expected to be > 0"
  | noAlignmentRule k => some s!"Need to add alignment check support for op {k}"
  | manySources n => some s!"A tensor can't have more than 1 src_op in this stage, len(src_ops): {n}"
  | notGroupable k => some s!"_fuse_gemm_ops only supports gemm_rcr family ops. {k} is not supported"
  | notGroupKind k => some s!"{k} not in _group_gemm_op_mapping"
  | catMasks => some "The input_pasts of cat_op must be all True"
  | permuteSources n => some s!"Source should have 2 elements, got {n} instead"
  | unexpectedOp k => some s!"Unexpected op type: {k}"
  | patternInputs n => some s!"next_op in pattern should have input length of 1 or 2, got {n} instead"
  | activationInputs n => some ("The number of inputs must be larger than 4 for conv2d_bias_add_activation " ++
      s!"family fusions. Current number of inputs: {n}")
  | patternUnlinked => some "input does not come from upstream node"
  | expandOutputs => some "expand must only have 1 output"
  | expandInputs => some "expand must have at least 1 input"
  | noInnerAxis k => some s!"Can't find K index mapping for {k}"
  | inputCount n => some s!"Unsupported number of inputs: {n}"
  | catUnlinked => some "Expected idx to be not None"
  | axisRange a r => some s!"axis ({a}) is not in range of [0, {r})"
  | catDimRange d r => (shapeText?
    r).map fun t => ("Expected cat_dim to be less than the length of " ++
      s!"input_tensor_shape, but got cat_dim: {d}, and input_tensor_shape: {t}")
  | unsupportedStride => some "Unsupported op:"
  | sliceMasked i t s => some (s!"Expected input_mask to be True at idx={i} for input_tensor {nameText t} and " ++
      s!"slice_op {nameText s}")
  | inputAndOutput n => some s!"{nameText n} can not be input and output"
  | shapeOperand t o => some s!"Invalid: shape tensor {nameText t} has reshape op {nameText o} in its dst_ops"
  | inputNotEstablished t o => some s!"Input tensor {nameText t} not established in graph for op {nameText o}"
  | notDstOp o t => some s!"Op {nameText o} not designated as dst_op for tensor {nameText t}"
  | notInOutputs t o => some s!"Tensor {nameText t} not in outputs for op {nameText o}"
  | outputNotEstablished t o => some s!"Output tensor {nameText t} not established in graph for op {nameText o}"
  | notSrcOp o t => some s!"Op {nameText o} not designated as src_op for tensor {nameText t}"
  | notInInputs t o => some s!"Tensor {nameText t} not in inputs for op {nameText o}"
  | alreadyBound n => some s!"Tensor {n} is already bound!"
  | bindProduced n => some s!"Cannot bind non-constant tensor {n}"
  | bindInput n => some s!"Cannot bind input tensor {n}"
  | givenNotOutput n => some s!"Got non-output tensor in output_tensors list: {nameText n}"
  | givenTwice n => some s!"Got duplicate name {nameText n} in output_tensors list."
  | outputNotGiven n => some s!"Output {nameText n} was not passed into output_tensors"
  | outputTwice n => some s!"Output {nameText n} appears in the graph twice after optimizations."
  | kernelDtype d => some s!"Unsupported dtype {d}!"
  | argumentDtype d => some s!"Unsupported dtype {d}"
  | pointerDtype => some ""
  | recordDtype d => some s!"unknown dtype {d}"
  | constantPlace n => some s!"Constant node '{n}' must have non-negative offset"
  | tensorPlace n => some s!"Non-parameter node '{n}' must have non-negative offset"
  | noOutputIndex n =>
    some s!"Tensor {n} was marked as an output, but its index was not found in output_name_to_index"
  | compileFailed out err => some s!"Building failed. Logs:\n{out}\n{err}"
  | noBinaryCompiler => some "Cannot compile .bin file without specifying binary_cc_cmd!"
  | unknownArch => some "Unsupported GPU Arch"
  | emptyTable => some "Data variable is empty"
  | unevenTable => some "Keys are not uniform"
  | _ => none

end Fault

end TensorGraph

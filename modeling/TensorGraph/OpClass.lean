/-!
# Kinds of operators

The operators that a graph can be built from, each with the label it is called by.
-/

namespace TensorGraph

inductive OpClass
  | elementwise | clamp | fusedElementwise | getitem | tupleConstruct | listConstruct | reshape | flatten | squeeze
  | unsqueeze
  | argmax | batchGather | chunk | concatenate | concatenateTanh | dynamicSlice | expand | gather | permute
  | permute021 | permute102 | permute210 | size | sliceReshapeScatter | sliceScatter | split | topk
  | bmmCcr | bmmCcrAdd | bmmCrr | bmmCrrAdd | bmmRcr | bmmRcrPermute | bmmRrr | bmmRrrAdd | bmmRrrPermute
  | bmmSoftmaxBmm | bmmSoftmaxBmmPermute
  | gemmRcr | gemmRcrBias | gemmRcrBiasAdd | gemmRcrBiasAddAdd | gemmRcrBiasAddAddRelu | gemmRcrBiasAddRelu
  | gemmRcrBiasFastGelu | gemmRcrBiasGelu | gemmRcrBiasHardswish | gemmRcrBiasMul | gemmRcrBiasMulAdd
  | gemmRcrBiasMulTanh | gemmRcrBiasPermute | gemmRcrBiasRelu | gemmRcrBiasSigmoid | gemmRcrBiasSigmoidMul
  | gemmRcrBiasSigmoidMulTanh | gemmRcrBiasSwish | gemmRcrBiasTanh | gemmRcrPermute | gemmRrr | gemmRrrBias
  | gemmRrrBiasPermute | gemmRrrPermute
  | groupGemmRcr | groupGemmRcrBias | groupGemmRcrBiasRelu | groupGemmRcrBiasSigmoid
  | perm021fcCcr | perm021fcCcrBias | perm021fcCcrBiasPermute | perm021fcCrc | perm021fcCrcBias | perm102BmmRcr
  | perm102BmmRcrBias | perm102BmmRrr | perm102BmmRrrBias
  | bmmRcrN1 | bmmRrrK1Tanh | gemmRrrSmallNk | bmmRcrSoftmax | gemmRcrBiasSoftmax | gemmRcrSoftmax
  | conv2d | conv2dBias | conv2dBiasAdd | conv2dBiasAddHardswish | conv2dBiasAddRelu | conv2dBiasFewChannels
  | conv2dBiasHardswish | conv2dBiasHardswishFewChannels | conv2dBiasRelu | conv2dBiasReluFewChannels
  | conv2dBiasSigmoid | transposedConv2d | transposedConv2dBias | transposedConv2dBiasRelu
  | flashAttention | bertEmbeddings | groupNorm | groupNormSwish | batchLayernormSigmoidMul | groupLayernorm
  | groupLayernormSigmoidMul | layernorm | layernormSigmoidMul
  | nhwc3to4 | nhwc3to8 | padLastDim | avgPool2d | maxPool2d | reduceMean | reduceSum | var | vectorNorm | softmax
  | upsampling2d | upsampling2dAdd
  | efficientNms | nms | batchedNms | roiAlign | multiLevelRoiAlign
deriving DecidableEq, Inhabited, Repr

namespace OpClass

def label : OpClass → String
  | elementwise => "elementwise"
  | clamp => "clamp"
  | fusedElementwise => "fused_elementwise"
  | getitem => "getitem"
  | tupleConstruct => "tuple_construct"
  | listConstruct => "list_construct"
  | reshape => "reshape"
  | flatten => "flatten"
  | squeeze => "squeeze"
  | unsqueeze => "unsqueeze"
  | argmax => "argmax"
  | batchGather => "batch_gather"
  | chunk => "chunk"
  | concatenate => "concatenate"
  | concatenateTanh => "concatenate_tanh"
  | dynamicSlice => "dynamic_slice"
  | expand => "expand"
  | gather => "gather"
  | permute => "permute"
  | permute021 => "permute021"
  | permute102 => "permute102"
  | permute210 => "permute210"
  | size => "size"
  | sliceReshapeScatter => "slice_reshape_scatter"
  | sliceScatter => "slice_scatter"
  | split => "split"
  | topk => "topk"
  | bmmCcr => "bmm_ccr"
  | bmmCcrAdd => "bmm_ccr_add"
  | bmmCrr => "bmm_crr"
  | bmmCrrAdd => "bmm_crr_add"
  | bmmRcr => "bmm_rcr"
  | bmmRcrPermute => "bmm_rcr_permute"
  | bmmRrr => "bmm_rrr"
  | bmmRrrAdd => "bmm_rrr_add"
  | bmmRrrPermute => "bmm_rrr_permute"
  | bmmSoftmaxBmm => "bmm_softmax_bmm"
  | bmmSoftmaxBmmPermute => "bmm_softmax_bmm_permute"
  | gemmRcr => "gemm_rcr"
  | gemmRcrBias => "gemm_rcr_bias"
  | gemmRcrBiasAdd => "gemm_rcr_bias_add"
  | gemmRcrBiasAddAdd => "gemm_rcr_bias_add_add"
  | gemmRcrBiasAddAddRelu => "gemm_rcr_bias_add_add_relu"
  | gemmRcrBiasAddRelu => "gemm_rcr_bias_add_relu"
  | gemmRcrBiasFastGelu => "gemm_rcr_bias_fast_gelu"
  | gemmRcrBiasGelu => "gemm_rcr_bias_gelu"
  | gemmRcrBiasHardswish => "gemm_rcr_bias_hardswish"
  | gemmRcrBiasMul => "gemm_rcr_bias_mul"
  | gemmRcrBiasMulAdd => "gemm_rcr_bias_mul_add"
  | gemmRcrBiasMulTanh => "gemm_rcr_bias_mul_tanh"
  | gemmRcrBiasPermute => "gemm_rcr_bias_permute"
  | gemmRcrBiasRelu => "gemm_rcr_bias_relu"
  | gemmRcrBiasSigmoid => "gemm_rcr_bias_sigmoid"
  | gemmRcrBiasSigmoidMul => "gemm_rcr_bias_sigmoid_mul"
  | gemmRcrBiasSigmoidMulTanh => "gemm_rcr_bias_sigmoid_mul_tanh"
  | gemmRcrBiasSwish => "gemm_rcr_bias_swish"
  | gemmRcrBiasTanh => "gemm_rcr_bias_tanh"
  | gemmRcrPermute => "gemm_rcr_permute"
  | gemmRrr => "gemm_rrr"
  | gemmRrrBias => "gemm_rrr_bias"
  | gemmRrrBiasPermute => "gemm_rrr_bias_permute"
  | gemmRrrPermute => "gemm_rrr_permute"
  | groupGemmRcr => "group_gemm_rcr"
  | groupGemmRcrBias => "group_gemm_rcr_bias"
  | groupGemmRcrBiasRelu => "group_gemm_rcr_bias_relu"
  | groupGemmRcrBiasSigmoid => "group_gemm_rcr_bias_sigmoid"
  | perm021fcCcr => "perm021fc_ccr"
  | perm021fcCcrBias => "perm021fc_ccr_bias"
  | perm021fcCcrBiasPermute => "perm021fc_ccr_bias_permute"
  | perm021fcCrc => "perm021fc_crc"
  | perm021fcCrcBias => "perm021fc_crc_bias"
  | perm102BmmRcr => "perm102_bmm_rcr"
  | perm102BmmRcrBias => "perm102_bmm_rcr_bias"
  | perm102BmmRrr => "perm102_bmm_rrr"
  | perm102BmmRrrBias => "perm102_bmm_rrr_bias"
  | bmmRcrN1 => "bmm_rcr_n1"
  | bmmRrrK1Tanh => "bmm_rrr_k1_tanh"
  | gemmRrrSmallNk => "gemm_rrr_small_nk"
  | bmmRcrSoftmax => "bmm_rcr_softmax"
  | gemmRcrBiasSoftmax => "gemm_rcr_bias_softmax"
  | gemmRcrSoftmax => "gemm_rcr_softmax"
  | conv2d => "conv2d"
  | conv2dBias => "conv2d_bias"
  | conv2dBiasAdd => "conv2d_bias_add"
  | conv2dBiasAddHardswish => "conv2d_bias_add_hardswish"
  | conv2dBiasAddRelu => "conv2d_bias_add_relu"
  | conv2dBiasFewChannels => "conv2d_bias_few_channels"
  | conv2dBiasHardswish => "conv2d_bias_hardswish"
  | conv2dBiasHardswishFewChannels => "conv2d_bias_hardswish_few_channels"
  | conv2dBiasRelu => "conv2d_bias_relu"
  | conv2dBiasReluFewChannels => "conv2d_bias_relu_few_channels"
  | conv2dBiasSigmoid => "conv2d_bias_sigmoid"
  | transposedConv2d => "transposed_conv2d"
  | transposedConv2dBias => "transposed_conv2d_bias"
  | transposedConv2dBiasRelu => "transposed_conv2d_bias_relu"
  | flashAttention => "flash_attention"
  | bertEmbeddings => "bert_embeddings"
  | groupNorm => "group_norm"
  | groupNormSwish => "group_norm_swish"
  | batchLayernormSigmoidMul => "batch_layernorm_sigmoid_mul"
  | groupLayernorm => "group_layernorm"
  | groupLayernormSigmoidMul => "group_layernorm_sigmoid_mul"
  | layernorm => "layernorm"
  | layernormSigmoidMul => "layernorm_sigmoid_mul"
  | nhwc3to4 => "nhwc3to4"
  | nhwc3to8 => "nhwc3to8"
  | padLastDim => "pad_last_dim"
  | avgPool2d => "avg_pool2d"
  | maxPool2d => "max_pool2d"
  | reduceMean => "reduce_mean"
  | reduceSum => "reduce_sum"
  | var => "var"
  | vectorNorm => "vector_norm"
  | softmax => "softmax"
  | upsampling2d => "upsampling2d"
  | upsampling2dAdd => "upsampling2d_add"
  | efficientNms => "efficient_nms"
  | nms => "nms"
  | batchedNms => "batched_nms"
  | roiAlign => "roi_align"
  | multiLevelRoiAlign => "multi_level_roi_align"

def all : List OpClass :=
  [elementwise, clamp, fusedElementwise, getitem, tupleConstruct, listConstruct, reshape, flatten,
    squeeze,
   unsqueeze, argmax, batchGather, chunk, concatenate, concatenateTanh, dynamicSlice, expand,
     gather, permute,
   permute021, permute102, permute210, size, sliceReshapeScatter, sliceScatter, split, topk, bmmCcr,
     bmmCcrAdd,
   bmmCrr, bmmCrrAdd, bmmRcr, bmmRcrPermute, bmmRrr, bmmRrrAdd, bmmRrrPermute, bmmSoftmaxBmm,
   bmmSoftmaxBmmPermute, gemmRcr, gemmRcrBias, gemmRcrBiasAdd, gemmRcrBiasAddAdd,
     gemmRcrBiasAddAddRelu,
   gemmRcrBiasAddRelu, gemmRcrBiasFastGelu, gemmRcrBiasGelu, gemmRcrBiasHardswish, gemmRcrBiasMul,
   gemmRcrBiasMulAdd, gemmRcrBiasMulTanh, gemmRcrBiasPermute, gemmRcrBiasRelu, gemmRcrBiasSigmoid,
   gemmRcrBiasSigmoidMul, gemmRcrBiasSigmoidMulTanh, gemmRcrBiasSwish, gemmRcrBiasTanh,
     gemmRcrPermute, gemmRrr,
   gemmRrrBias, gemmRrrBiasPermute, gemmRrrPermute, groupGemmRcr, groupGemmRcrBias,
     groupGemmRcrBiasRelu,
   groupGemmRcrBiasSigmoid, perm021fcCcr, perm021fcCcrBias, perm021fcCcrBiasPermute, perm021fcCrc,
   perm021fcCrcBias, perm102BmmRcr, perm102BmmRcrBias, perm102BmmRrr, perm102BmmRrrBias, bmmRcrN1,
     bmmRrrK1Tanh,
   gemmRrrSmallNk, bmmRcrSoftmax, gemmRcrBiasSoftmax, gemmRcrSoftmax, conv2d, conv2dBias,
     conv2dBiasAdd,
   conv2dBiasAddHardswish, conv2dBiasAddRelu, conv2dBiasFewChannels, conv2dBiasHardswish,
   conv2dBiasHardswishFewChannels, conv2dBiasRelu, conv2dBiasReluFewChannels, conv2dBiasSigmoid,
     transposedConv2d,
   transposedConv2dBias, transposedConv2dBiasRelu, flashAttention, bertEmbeddings, groupNorm,
     groupNormSwish,
   batchLayernormSigmoidMul, groupLayernorm, groupLayernormSigmoidMul, layernorm,
     layernormSigmoidMul, nhwc3to4,
   nhwc3to8, padLastDim, avgPool2d, maxPool2d, reduceMean, reduceSum, var, vectorNorm, softmax,
     upsampling2d,
   upsampling2dAdd, efficientNms, nms, batchedNms, roiAlign, multiLevelRoiAlign]

def ofLabel? (s : String) : Option OpClass := all.find? (·.label == s)

end OpClass

end TensorGraph

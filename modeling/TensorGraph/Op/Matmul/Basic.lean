import TensorGraph.Constant
import TensorGraph.Op.Concat
import TensorGraph.Op.View

/-!
# Matrix products

Products of two matrices, with row major (`r`) or column major (`c`) operands A, B and result C, one
at a time (`gemm`), in batches (`bmm`), or with permuted axes; some add a bias and apply further
operations to the result.
-/

namespace TensorGraph

namespace Matmul

open Build

inductive Family
  | gemmRcr | gemmRrr
  | bmmCcr | bmmCrr | bmmRcr | bmmRrr
  /-- two products with a softmax between them -/
  | attention
  | perm021Ccr | perm021Crc | perm102Rcr | perm102Rrr
  /-- products for a few special sizes -/
  | narrow | singleInner | smallRight
  | group
deriving DecidableEq, Inhabited, Repr

def family? : OpClass → Option Family
  | .gemmRcr | .gemmRcrBias | .gemmRcrBiasAdd | .gemmRcrBiasAddAdd | .gemmRcrBiasAddAddRelu | .gemmRcrBiasAddRelu
  | .gemmRcrBiasFastGelu | .gemmRcrBiasGelu | .gemmRcrBiasHardswish | .gemmRcrBiasMul | .gemmRcrBiasMulAdd
  | .gemmRcrBiasMulTanh | .gemmRcrBiasPermute | .gemmRcrBiasRelu | .gemmRcrBiasSigmoid | .gemmRcrBiasSigmoidMul
  | .gemmRcrBiasSigmoidMulTanh | .gemmRcrBiasSwish | .gemmRcrBiasTanh | .gemmRcrPermute => some .gemmRcr
  | .gemmRrr | .gemmRrrBias | .gemmRrrBiasPermute | .gemmRrrPermute => some .gemmRrr
  | .bmmCcr | .bmmCcrAdd => some .bmmCcr
  | .bmmCrr | .bmmCrrAdd => some .bmmCrr
  | .bmmRcr | .bmmRcrPermute => some .bmmRcr
  | .bmmRrr | .bmmRrrAdd | .bmmRrrPermute => some .bmmRrr
  | .bmmSoftmaxBmm | .bmmSoftmaxBmmPermute => some .attention
  | .perm021fcCcr | .perm021fcCcrBias | .perm021fcCcrBiasPermute => some .perm021Ccr
  | .perm021fcCrc | .perm021fcCrcBias => some .perm021Crc
  | .perm102BmmRcr | .perm102BmmRcrBias => some .perm102Rcr
  | .perm102BmmRrr | .perm102BmmRrrBias => some .perm102Rrr
  | .bmmRcrN1 => some .narrow
  | .bmmRrrK1Tanh => some .singleInner
  | .gemmRrrSmallNk => some .smallRight
  | .groupGemmRcr | .groupGemmRcrBias | .groupGemmRcrBiasRelu | .groupGemmRcrBiasSigmoid => some .group
  | _ => none

/-- Operators that apply further operands to the biased result, and how many they take. -/
def extraOperands? : OpClass → Option Nat
  | .gemmRcrBiasAdd | .gemmRcrBiasAddRelu | .gemmRcrBiasMul | .gemmRcrBiasMulTanh | .gemmRcrBiasSigmoidMul
  | .gemmRcrBiasSigmoidMulTanh => some 1
  | .gemmRcrBiasAddAdd | .gemmRcrBiasAddAddRelu | .gemmRcrBiasMulAdd => some 2
  | _ => none

def hasBias : OpClass → Bool
  | .gemmRcrBias | .gemmRcrBiasFastGelu | .gemmRcrBiasGelu | .gemmRcrBiasHardswish | .gemmRcrBiasPermute
  | .gemmRcrBiasRelu | .gemmRcrBiasSigmoid | .gemmRcrBiasSwish | .gemmRcrBiasTanh | .gemmRrrBias
  | .gemmRrrBiasPermute | .perm021fcCcrBias | .perm021fcCcrBiasPermute | .perm021fcCrcBias | .perm102BmmRcrBias
  | .perm102BmmRrrBias => true
  | c => (extraOperands? c).isSome

def epilogue (c : OpClass) : String :=
  if (extraOperands? c).isSome then "LinearCombinationResidualBlockV2"
  else
    match c with
    | .gemmRcrBiasFastGelu => "LinearCombinationFastGELU"
    | .gemmRcrBiasGelu => "LinearCombinationGELU"
    | .gemmRcrBiasHardswish => "LinearCombinationHardSwish"
    | .gemmRcrBiasRelu | .groupGemmRcrBiasRelu => "LinearCombinationRelu"
    | .gemmRcrBiasSigmoid | .groupGemmRcrBiasSigmoid => "LinearCombinationSigmoid"
    | .gemmRcrBiasSwish => "LinearCombinationSilu"
    | .gemmRcrBiasTanh => "LinearCombinationTanh"
    | _ => "LinearCombination"

/-! ## New operators -/

private def common (c : OpClass) : List (String × Value) :=
  [("has_profiler", .bool true), ("epilogue_alignment", .int 1), ("epilogue", .text (epilogue c)),
   ("workspace", .int 0), ("split_k", .int 1),
     ("num_sources", .int ((extraOperands? c).getD 0 : Nat)),
   ("alpha", .float 1.0), ("permute_shape", .text "")]

private def special (c : OpClass) : List (String × Value) :=
  match c with
  | .bmmCcrAdd | .bmmCrrAdd | .bmmRrrAdd => [("has_d", .bool true)]
  | .bmmRcrN1 | .bmmRrrK1Tanh | .gemmRrrSmallNk => [("f_ab_alignment", .bool true),
    ("has_profiler", .bool false)]
  | .groupGemmRcr | .groupGemmRcrBias | .groupGemmRcrBiasRelu | .groupGemmRcrBiasSigmoid =>
    [("int_state_flag", .int 0)]
  | _ => []

def create (c : OpClass) : Build OpId := do
  match c with
  | .bmmRcrSoftmax => throw (.switchedOff "BMM + Softmax")
  | .gemmRcrSoftmax | .gemmRcrBiasSoftmax => throw (.switchedOff "GEMM + Softmax")
  | c => newOp c c.label (common c ++ special c)

/-- The sizes of the permuted result, joined by underscores. -/
def joinSizes? : Value → Except Fault String
  | .list vs | .tuple vs => do
    let ts ← vs.mapM fun v => v.text?.elim (throw .badType) pure
    return "_".intercalate ts
  | .text s => .ok ("_".intercalate (s.toList.map fun c => String.ofList [c]))
  | _ => .error .badType

def layoutText (pre : String) (layout : Value) : Build String := do
  return pre ++ "_" ++ (layout.text?).getD ""

def createPermuted (c : OpClass) (shape layout : Value) : Build OpId := do
  let five := (family? c).any fun f => f == .gemmRcr || f == .gemmRrr
  let kind ← match c, layout with
    | .gemmRcrPermute, .text "20314" => pure c.label
    | .gemmRcrPermute, .text "m2n3" => pure (c.label ++ "_m2n3")
    | .gemmRcrBiasPermute, .text "20314" => pure c.label
    | .gemmRcrBiasPermute, .text "m2n3" => pure (c.label ++ "_m2n3")
    | .gemmRcrBiasPermute, .text "m3n2" => pure (c.label ++ "_m3n2")
    | .gemmRcrPermute, l | .gemmRcrBiasPermute, l => throw (.noLayout l)
    | c, _ => pure c.label
  let l ← layoutText (if five then "Permute5D" else "Permute4DBMM") layout
  let sizes ← ofExcept (joinSizes? shape)
  newOp c kind (common c ++ [("shape", shape), ("layout", .text l), ("permute_shape", .text sizes)])

def createAttention (scale : Value) : Build OpId :=
  newOp .bmmSoftmaxBmm "bmm_softmax_bmm" (common .bmmSoftmaxBmm ++ [("scale", scale)])

def createAttentionPermuted (shape scale : Value) (causal : Bool) (layout : Value) :
    Build OpId := do
  let l ← layoutText "Permute4DBMM" layout
  newOp .bmmSoftmaxBmmPermute ("bmm_softmax_bmm_permute" ++ if causal then "_causal" else "")
    (common .bmmSoftmaxBmmPermute ++ [("scale", scale), ("shape", shape), ("layout", .text l)])

def createPerm021Permuted (layout : Value) : Build OpId := do
  let l ← layoutText "Permute3DBMM" layout
  newOp .perm021fcCcrBiasPermute "perm021fc_ccr_bias_permute"
    (common .perm021fcCcrBiasPermute ++ [("shape", .ints [0]), ("layout", .text l)])

/-! ## Alignment -/

def commonAlignment (a b : Int) : Int :=
  let d := Int.gcd a b
  if d % 8 == 0 then 8 else if d % 4 == 0 then 4 else if d % 2 == 0 then 2 else 1

/-- The alignment that the operands of a product with sizes M, N, K allow; the special products have
no such rule. -/
def alignment? (f : Family) (m n k : Int) : Option Int :=
  match f with
  | .gemmRcr | .bmmRcr | .attention | .perm102Rcr | .group => some (commonAlignment k k)
  | .gemmRrr | .bmmRrr | .perm102Rrr => some (commonAlignment k n)
  | .bmmCcr | .perm021Ccr => some (commonAlignment m k)
  | .bmmCrr | .perm021Crc => some (commonAlignment m n)
  | .narrow | .singleInner | .smallRight => none

def noteAlignment (o : OpId) (shape : List DimId) : Build Unit := do
  let d ← dim (← axis shape (-1))
  require .dynamicColumns d.isStatic
  let n := d.value
  if Int.fmod n 8 == 0 then setParam o "epilogue_alignment" (.int 8)
  else if Int.fmod n 4 == 0 then setParam o "epilogue_alignment" (.int 4)
  else if Int.fmod n 2 == 0 then setParam o "epilogue_alignment" (.int 2)

/-! ## Checks of the operands -/

def batchesAgree (a b : Dim) : Bool := a.same b || a.isFixed 1 || b.isFixed 1

def checkInner (f : Family) (a b : TensorId) : Build Unit := do
  let sa ← shape a
  let sb ← shape b
  let check (x y : DimId) : Build Unit := do
    let dx ← dim x
    let dy ← dim y
    require (.gemmShapes sa.length sb.length) (dx.same dy)
    require .dynamicInner dx.isStatic
  match f with
  | .gemmRcr => check (← axis sa (-1)) (← axis sb (-1))
  | .gemmRrr => check (← axis sa (-1)) (← axis sb 0)
  | _ => pure ()

def padInner (a b : TensorId) : Build (TensorId × TensorId) := do
  let ta ← tensor a
  let tb ← tensor b
  let da ← dim (← axis ta.shape 1)
  let db ← dim (← axis tb.shape 2)
  require (.gemmShapes ta.rank tb.rank) (da.same db)
  require .dynamicInner db.isStatic
  let k := da.value
  if Int.fmod k 2 == 0 then return (a, b)
  let more := (Int.fdiv k 8 + 1) * 8 - k
  let da1 ← staticDim more
  let za ← zeroTensor [← axis ta.shape 0, da1, ← axis ta.shape 2] ta.dtype
  let db1 ← staticDim more
  let zb ← zeroTensor [← axis tb.shape 0, ← axis tb.shape 1, db1] tb.dtype
  let a ← Concat.concat [a, za] 1
  let b ← Concat.concat [b, zb] 2
  return (a, b)

def checkRanks (f : Family) (a b : TensorId) : Build Unit := do
  let ra := (← shape a).length
  let rb := (← shape b).length
  match f with
  | .gemmRcr | .gemmRrr =>
    require (.gemmRankA ra) (2 ≤ ra)
    require (.gemmRankB rb) (rb == 2)
  | _ =>
    require (.bmmRank "A" "2 or 3" ra) (ra == 2 || ra == 3)
    require (.bmmRank "B" "2 or 3" rb) (rb == 2 || rb == 3)
    require .bmmBothFlat !(ra == 2 && rb == 2)

def batchSize (a b : TensorId) : Build DimId := do
  checkRanks .bmmRcr a b
  let sa ← shape a
  let sb ← shape b
  if sa.length == 2 then axis sb 0
  else if sb.length == 2 then axis sa 0
  else
    let da ← axis sa 0
    let db ← axis sb 0
    let g ← get
    require .batchSizes (batchesAgree (g.dim da) (g.dim db))
    return if (g.dim da).isFixed 1 then db else da

def joinBatches (da db : DimId) : Build DimId := do
  let g ← get
  require .batchSizes (batchesAgree (g.dim da) (g.dim db))
  return if (g.dim da).isFixed 1 then db else da

def fitsNarrow (look : DimTable) (sa sb : List DimId) : Bool :=
  match sa, sb with
  | [b, _, k], [b', n, k'] =>
    (look n).isStatic && (look k').isStatic && (look b).same (look b') && (look k).same (look k') &&
    (look n).value == 1
  | _, _ => false

def fitsSmallRight? (look : DimTable) (sa sb : List DimId) : Except Fault Bool :=
  match sb with
  | [] => .error .badIndex
  | k :: rest =>
    if !(look k).isStatic then .ok false
    else
      match rest with
      | [] => .error .badIndex
      | n :: more =>
        .ok ((look n).isStatic && 2 ≤ sa.length && more.isEmpty && (look k).value ≤
          16 && (look n).value ≤ 8)

def productShape (f : Family) (a b : TensorId) : Build (List DimId) := do
  let sa ← shape a
  let sb ← shape b
  match f with
  | .gemmRcr | .group => return sa.dropLast ++ [← axis sb 0]
  | .gemmRrr => return sa.dropLast ++ [← axis sb 1]
  | .bmmCcr =>
    let n ← batchSize a b
    return [n, ← axis sa (-1), ← axis sb (-2)]
  | .bmmCrr =>
    let n ← batchSize a b
    return [n, ← axis sa (-1), ← axis sb (-1)]
  | .bmmRcr =>
    let n ← batchSize a b
    return [n, ← axis sa (-2), ← axis sb (-2)]
  | .bmmRrr =>
    let n ← batchSize a b
    return [n, ← axis sa (-2), ← axis sb (-1)]
  | .attention =>
    let n ← joinBatches (← axis sa 0) (← axis sb 0)
    let ka ← dim (← axis sa 2)
    let kb ← dim (← axis sb 2)
    require .innerSizes (ka.same kb)
    return [n, ← axis sa 1]
  | .perm021Ccr =>
    let n ← joinBatches (← axis sa 0) (← axis sb 0)
    return [n, ← axis sa 2, ← axis sb 1]
  | .perm021Crc =>
    let n ← joinBatches (← axis sa 0) (← axis sb 0)
    return [n, ← axis sb 2, ← axis sa 2]
  | .perm102Rcr =>
    let n ← joinBatches (← axis sa 1) (← axis sb 0)
    return [← axis sa 0, n, ← axis sb 1]
  | .perm102Rrr =>
    let n ← joinBatches (← axis sa 1) (← axis sb 0)
    return [← axis sa 0, n, ← axis sb 2]
  | .narrow =>
    require (.specialShapes "bmm_rcr_n1" sa.length sb.length) (fitsNarrow (← look) sa sb)
    let n ← batchSize a b
    return [n, ← axis sa (-2), ← axis sb (-2)]
  | .singleInner =>
    require (.bmmRank "A" "3" sa.length) (sa.length == 3)
    require (.bmmRank "B" "3" sb.length) (sb.length == 3)
    let g ← get
    let da ← axis sa 0
    require .batchSizes ((g.dim da).same (g.dim (← axis sb 0)))
    require .innerSizes ((g.dim (← axis sa 2)).same (g.dim (← axis sb 1)))
    let m ← axis sa 1
    require (.notMultiple "M") ((g.dim m).values.all fun v => Int.fmod v 8 == 0)
    let n ← axis sb 2
    require (.notMultiple "N") ((g.dim n).values.all fun v => Int.fmod v 8 == 0)
    return [da, m, n]
  | .smallRight =>
    let g ← get
    require .innerSizes ((g.dim (← axis sa (-1))).same (g.dim (← axis sb 0)))
    require (.specialShapes "gemm_rrr_small_nk" sa.length sb.length)
      (← ofExcept (fitsSmallRight? g.dim sa sb))
    return sa.dropLast ++ [← axis sb 1]

/-! ## Bias -/

def biasProblem? (f : Family) (look : DimTable) (sa sb bias : List DimId) : Except Fault String :=
  match bias with
  | [d] => do
    if !(look d).isStatic then return "Bias should be fixed 1D vector! Current bias shape: " ++
      (look d).dump
    let some n := sb.at? (if f == .gemmRcr then 0 else 1) | throw .badIndex
    if (look n).same (look d) then return ""
    return "GEMM/Bias shape doesn't match! Gemm shape: " ++ Shape.dump look (sa.dropLast ++ [n]) ++
      ", bias shape: " ++ (look d).dump
  | ds => .ok ("Bias should be 1D vector! Current bias shape: " ++ Shape.dump look ds)

def extraProblem? (look : DimTable) (shapes : List (List DimId)) : Except Fault String :=
  match shapes with
  | sa :: sb :: bias :: extra => do
    let p ← biasProblem? .gemmRcr look sa sb bias
    if p != "" then return p
    let some n := sb.at? 0 | throw .badIndex
    let base := sa.dropLast ++ [n]
    if extra.all fun d => Shape.same look d base then return ""
    return "Additional elementwise shape \x7bd_shape\x7d doesn't match gemm_bias' shape \x7bbase_shape\x7d"
  | ss => .ok s!"input for gemm_rcr_bias_broadcast should be at least 3, got {ss.length} instead."

/-- The shape of a biased product; the bias has the size of its last axis. -/
def biasedShape (f : Family) (a b bias : TensorId) : Build (List DimId) := do
  let g ← get
  let sbias ← shape bias
  match f with
  | .gemmRcr | .gemmRrr =>
    let p ← ofExcept (biasProblem? f g.dim (← shape a) (← shape b) sbias)
    require (.biasCheck p) (p == "")
    productShape f a b
  | .perm102Rcr | .perm102Rrr =>
    require (.biasRank 2) (sbias.length == 2)
    let d ← dim (← axis sbias 1)
    require (.biasDynamic 2) d.isStatic
    let s ← productShape f a b
    require .biasShape ((g.dim (← axis s 2)).same d)
    return s
  | .perm021Crc =>
    require (.biasRank 1) (sbias.length == 1)
    let d ← dim (← axis sbias 0)
    require (.biasDynamic 1) d.isStatic
    let s ← productShape f a b
    require .biasShape ((g.dim (← axis s 2)).same d)
    return s
  | _ =>
    require (.biasRank 1) (sbias.length == 1)
    let d ← dim (← axis sbias 0)
    require (.biasDynamic 1) (d.values.length == 1)
    let s ← productShape f a b
    require .biasShape ((g.dim (← axis s 2)).value == d.value)
    return s

/-! ## Application -/

def accessors (ts : List TensorId) : Build (List Accessor) := do
  let g ← get
  return ts.map fun t => Accessor.ofShape (g.tensor t).shape

def setOperands (o : OpId) (ts accessed : List TensorId) : Build Unit := do
  let as ← accessors accessed
  modifyOp o fun x => { x with inputs := some ts, inputAccessors := some as }
  linkInputs o

def result (o : OpId) (s : List DimId) : Build TensorId := do
  let y ← soleOutput o s
  let as ← accessors [y]
  modifyOp o fun x => { x with outputAccessors := some as }
  return y

def reshapeTo (y : TensorId) (sizes : List (Int ⊕ DimId)) : Build TensorId := do
  let ds ← sizes.mapM fun s =>
    match s with
    | .inl n => staticDim n
    | .inr d => pure d
  View.reshape y ds

def sizesParam (o : OpId) : Build (List Int) := do
  match ← param o "shape" with
  | .list vs | .tuple vs => vs.mapM fun v => expect .badType v.int?
  | _ => throw .badType

def quotient (a b : Int) : Build Int := do
  require .zeroDivision (b != 0)
  return Int.fdiv a b

/-- The result of a batched product, its batches split into groups that are moved behind the
rows. -/
def permuteBatches (o : OpId) (y : TensorId) (s : List DimId) : Build TensorId := do
  let layout ← param o "layout"
  match layout, s with
  | .text "Permute4DBMM_0213", [b, m, n] =>
    let d ← expect .badIndex (← sizesParam o).head?
    let k ← quotient (← fixedSize b) d
    reshapeTo y [.inl k, .inr m, .inl d, .inr n]
  | .text "Permute4DBMM_0213", _ => throw .badNumber
  | l, _ => throw (.noLayout l)

def isRocm : Build Bool := do
  return (← get).target.any (·.platform == .rocm)

def permuteFive (o : OpId) (y : TensorId) (s : List DimId) : Build TensorId := do
  let x ← op o
  let layout ← param o "layout"
  let rocm ← isRocm
  let is (l : String) : Bool := match layout with
    | .text t => t == l
    | _ => false
  -- the rows or the columns take up the second factor
  let byRows ← match x.cls with
    | .gemmRcrBiasPermute => pure (is "Permute5D_20314" && rocm || is "Permute5D_m3n2")
    | .gemmRrrBiasPermute =>
      require (.noLayout layout) (is "Permute5D_20314")
      pure rocm
    | .gemmRcrPermute =>
      require (.noLayout layout) (is "Permute5D_20314" || is "Permute5D_m2n3" && rocm)
      pure false
    | _ =>
      require (.noLayout layout) (is "Permute5D_20314")
      pure false
  match s, ← sizesParam o with
  | [m, n], [t1, t2, t3] =>
    let m ← fixedSize m
    if byRows then
      let rows ← quotient (← quotient m t1) t2
      let columns ← quotient (← fixedSize n) t3
      reshapeTo y [.inl t2, .inl rows, .inl t3, .inl t1, .inl columns]
    else
      let rows ← quotient m t1
      let n ← fixedSize n
      let columns ← quotient (← quotient n t3) t2
      reshapeTo y [.inl t2, .inl rows, .inl t3, .inl t1, .inl columns]
  | _, _ => throw .badNumber

def applyPlain (o : OpId) (f : Family) (a b : TensorId) (rest accessed : List TensorId)
    (inferShape : Build (List DimId)) : Build (TensorId × List DimId) := do
  setOperands o (a :: b :: rest) accessed
  checkRanks f a b
  let s ← inferShape
  noteAlignment o s
  let y ← result o s
  return (y, s)

def apply (o : OpId) (ts : List TensorId) : Build TensorId := do
  let c := (← op o).cls
  let f ← expect .noField (family? c)
  match c, ts with
  | .bmmCcrAdd, [a, b, d] | .bmmCrrAdd, [a, b, d] | .bmmRrrAdd, [a, b, d] =>
    let (y, _) ← applyPlain o f a b [] [a, b] (productShape f a b)
    setOperands o [a, b, d] [a, b, d]
    return y
  | .bmmSoftmaxBmm, [a, b, b1] | .bmmSoftmaxBmmPermute, [a, b, b1] =>
    let (y, s) ← applyPlain o f a b [b1] [a, b, b1] do
      return (← productShape f a b) ++ [← axis (← shape b1) 2]
    if c == .bmmSoftmaxBmm then return y
    permuteBatches o y s
  | .bmmRcrPermute, [a, b] | .bmmRrrPermute, [a, b] =>
    let (y, s) ← applyPlain o f a b [] [a, b] (productShape f a b)
    permuteBatches o y s
  | .perm021fcCcr, [a, b] =>
    let (a, b) ← padInner a b
    return (← applyPlain o f a b [] [a, b] (productShape f a b)).1
  | .perm021fcCcrBiasPermute, [a, b, bias] =>
    let (a, b) ← padInner a b
    let (y, s) ← applyPlain o f a b [bias] [a, b] (biasedShape f a b bias)
    match ← param o "layout", s with
    | .text "Permute3DBMM_021", [n, m, k] =>
      setParam o "epilogue_alignment" (.int 1)
      reshapeTo y [.inr n, .inr k, .inr m]
    | l, _ => throw (.noLayout l)
  | .bmmRcrN1, [a, b] =>
    setInputs o [a, b]
    linkInputs o
    let s ← productShape f a b
    let y ← soleOutput o s
    let ins ← accessors [a, b]
    let outs ← accessors [y]
    modifyOp o fun x => { x with inputAccessors := some ins, outputAccessors := some outs }
    return y
  | .bmmRrrK1Tanh, [a, b] | .gemmRrrSmallNk, [a, b] =>
    setInputs o [a, b]
    linkInputs o
    soleOutput o (← productShape f a b)
  | c, a :: b :: rest =>
    checkInner f a b
    let inferShape := match rest with
      | bias :: _ => if hasBias c then biasedShape f a b bias else productShape f a b
      | [] => productShape f a b
    let (y, s) ← applyPlain o f a b rest (a :: b :: rest) inferShape
    match c with
    | .gemmRcrPermute | .gemmRcrBiasPermute | .gemmRrrPermute | .gemmRrrBiasPermute => permuteFive o y s
    | _ => return y
  | _, _ => throw .badType

def product (c : OpClass) (ts : List TensorId) : Build TensorId := do apply (← create c) ts

end Matmul

end TensorGraph

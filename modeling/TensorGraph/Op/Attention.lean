import TensorGraph.Op.Spatial

/-!
# Attention and embeddings
-/

namespace TensorGraph

namespace Attention

open Build

def create (batchSize dropout maxLength causal : Value) : Build OpId := do
  let o ← newOp .flashAttention "flash_attention" []
  require .unmet ((Number.ofValue? dropout).any (·.same 0))
  for (k, v) in [("batch_size", batchSize), ("dropout", dropout), ("max_seq_len", maxLength),
    ("seq_len", .int 512),
      ("head_size", .int (-1)), ("causal", causal), ("workspace", .int 0)] do
    setParam o k v
  return o

def execKey? (s : List Int) : Except Fault String := do
  let (n, _, h, c) ← Spatial.four? s
  return s!"total == {n} && num_heads == {h} && head_sizes == {c}"

/-- The length that sequences are padded to: 128, or a multiple of 256. -/
def paddedLength? (n : Number) : Except Fault Number := do
  if !(Number.less 128 n) then return 128
  if !(Number.less 256 n) then return 256
  let k ← Number.floorDiv? (n + 256 - 1) 256
  return k * 256

def apply (o : OpId) (x lengths : TensorId) : Build TensorId := do
  setInputs o [x, lengths]
  linkInputs o
  Spatial.noteWorkloads o x execKey?
  let shape ← Spatial.infer 3 x fun s => do
    let (n, _, h, c) ← Spatial.four? s
    return [n, h, c]
  let y ← output o shape
  let xs := (← dims x).map (·.lower)
  let (total, _, heads, size) ← ofExcept (Spatial.four? xs)
  require .unmet ([8, 16, 32, 64, 128].contains size)
  setParam o "head_size" (.int size)
  let length ← ofExcept (paddedLength? (← Spatial.numberParam o "max_seq_len"))
  setParam o "seq_len" length.toValue
  let batch ← Spatial.numberParam o "batch_size"
  setParam o "workspace" (((4 * heads : Int) : Number) *
    (((total * size : Int) : Number) + batch * length)).toValue
  setOutputs o [y]
  return y

/-! ## Embeddings -/

def createEmbeddings : Build OpId := newOp .bertEmbeddings "bert_embeddings" []

/-- Adds the embeddings of words, types and positions and normalises them. -/
def applyEmbeddings (o : OpId) (ids types positions words typeTable positionTable gamma beta
    : TensorId) (eps : Value) :
    Build TensorId := do
  let g ← get
  let dtype (t : TensorId) := (g.tensor t).dtype
  require .indexDtypes (dtype ids == dtype types && dtype ids == dtype positions)
  require .tableDtypes (dtype words == dtype typeTable && dtype words == dtype positionTable)
  require (.indexDtype (dtype ids)) (["int", "int32", "int64"].contains (dtype ids))
  require (.tableDtype (dtype words)) (dtype words == "float16")
  let shapeOf (t : TensorId) := (g.tensor t).shape
  require .indexShapes (Shape.same g.dim (shapeOf ids) (shapeOf types))
  require .indexShapes (Shape.same g.dim (shapeOf ids) (shapeOf positions))
  let d ← axis (shapeOf words) (-1)
  require .dynamicEmbedding (g.dim d).isStatic
  require .embeddingWidth ((g.dim d).value % 8 == 0)
  require .embeddingWidths ((g.dim d).same (g.dim (← axis (shapeOf typeTable) (-1))))
  require .embeddingWidths ((g.dim d).same (g.dim (← axis (shapeOf positionTable) (-1))))
  setParam o "eps" eps
  setInputs o [ids, types, positions, words, typeTable, positionTable, gamma, beta]
  linkInputs o
  soleOutput o (shapeOf ids ++ [d])

end Attention

end TensorGraph

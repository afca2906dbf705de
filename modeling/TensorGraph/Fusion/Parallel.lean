import TensorGraph.Fusion.Chain
import TensorGraph.Graph.Reach
import TensorGraph.Strided.Support

/-!
# Parallel products

Products of the same size whose results are joined side by side are computed as one batched product.
-/

namespace TensorGraph

namespace Parallel

open Build

def sameShapes (a b : OpId) : Build Bool := do
  let g ← get
  let xs ← inputs a
  let ys ← inputs b
  return xs.length == ys.length &&
    (xs.zip ys).all fun (x, y) => Shape.same g.dim (g.tensor x).shape (g.tensor y).shape

/-- The biased product that makes a tensor, if it can be computed together with others. -/
def product? (accepts : OpId → Build Bool) (t : TensorId) : Build (Option OpId) := do
  let y ← tensor t
  let (some _, some o) := (y.dst.sole?, y.src.sole?) | return none
  if (← op o).kind != "gemm_rcr_bias" then return none
  let [x, w, b] ← inputs o | throw .badNumber
  if !(← Graph.areConstant [w, b]) then return none
  let g ← get
  let (some _, some source) := ((g.tensor x).dst.sole?, (g.tensor x).src.sole?) | return none
  let [_, k] := (g.tensor x).shape | return none
  let [n, k'] := (g.tensor w).shape | return none
  let [m] := (g.tensor b).shape | return none
  if [k, n, k', m].any fun d => !(g.dim d).isStatic then return none
  if ← accepts source then return some o else return none

def close (runs : List (List OpId)) (run : List OpId) : List (List OpId) :=
  if 2 ≤ run.length then runs ++ [run] else runs

def runs (accepts : OpId → Build Bool) (ts : List TensorId) : Build (List (List OpId)) := do
  let (done, run) ← ts.foldlM (fun (done, run) t => do
    match ← product? accepts t with
    | none => return (close done run, [])
    | some o =>
      match run.getLast? with
      | none => return (done, [o])
      | some p =>
        if ← sameShapes p o then return (done, run ++ [o]) else return (close done run, [o]))
    (([] : List (List OpId)), ([] : List OpId))
  return close done run

def joinsRows (cat : OpId) : Build Bool := do
  let ts ← inputs cat
  if ts.length ≤ 1 then return false
  let rank := (← tensor (ts.headD default)).rank
  return (← param cat "concat_dim") == .int ((rank : Int) - 1)

def result (o : OpId) : Build TensorId := do
  match ← outputs o with
  | [y] => return y
  | _ => throw .unmet

/-- The batched product of joined operands, its batches laid side by side. -/
def batchedProduct (xs ws bs : List TensorId) : Build TensorId := do
  let s ← shape (ws.headD default)
  let n ← fixedSize (← axis s 0)
  let k ← fixedSize (← axis s 1)
  let count : Int := ws.length
  let keepsColumns := Matmul.commonAlignment k n < Matmul.commonAlignment k k
  let x ← Matmul.reshapeTo (← Concat.concat xs (-1)) [.inl (-1), .inl count, .inl k]
  let w ← Matmul.reshapeTo (← Concat.concat ws 0) [.inl count, .inl n, .inl k]
  let w ← if keepsColumns then pure w
    else Rearrange.applyPermute (← Rearrange.createPermute .permute021) w
  let b ← Matmul.reshapeTo (← Concat.concat bs 0) [.inl count, .inl n]
  let y ← Matmul.product (if keepsColumns then .perm102BmmRcrBias else .perm102BmmRrrBias) [x, w, b]
  Matmul.reshapeTo y [.inl (-1), .inl (count * n)]

def merge (run : List OpId) (cat : OpId) : Build (List TensorId) := do
  for o in run do
    for t in ← inputs o do
      modifyTensor t fun x => { x with dst := { x.dst with ops := [] } }
  let triples ← run.mapM fun o => do
    match ← inputs o with
    | [x, w, b] => return (x, w, b)
    | _ => throw .unmet
  let y ← batchedProduct (triples.map (·.1)) (triples.map (·.2.1)) (triples.map (·.2.2))
  let ts ← inputs cat
  let whole ← outputAt cat 0
  let new ← if run.length == ts.length then do
      replaceTensor whole y
      pure [y]
    else do
      let first ← Concat.tensorIndex cat (← result (run.headD default))
      let last ← Concat.tensorIndex cat (← result (run.getLastD default))
      let left := ts.take first ++ [y] ++ ts.drop (last + 1)
      require .catMasks ((← expect .badKey (← op cat).inputMasks).all id)
      let as ← Matmul.accessors left
      modifyOp cat fun x => { x with
        inputs := some left
        inputAccessors := some as
        givenInputs := some left
        inputMasks := some (left.map fun _ => true) }
      addDst y cat
      pure []
  for o in run do
    detach (← result o)
  return new

def mergeAll (accepts : OpId → Build Bool) (keep : List OpId → Build Bool) (ts : Graph) :
    Build Graph := do
  let found ← (Graph.sources (← get) ts).mapM fun o => do
    if (← op o).kind != "concatenate" then return []
    if !(← joinsRows o) then return []
    return (← (← runs accepts (← inputs o)).filterM keep).map (·, o)
  let ts ← found.flatten.foldlM (fun (ts : Graph) (run, cat) => do return ts ++ (← merge run cat))
    ts
  Graph.tidy (← Graph.sort ts)

def joinWritten : Graph → Build Graph := mergeAll (fun o => return Strided.writes (← op o)) fun _ =>
    return true

def splitsRows (o : OpId) : Build Bool := do
  if (← op o).kind != "split" then return false
  let some x := (← inputs o).head? | return false
  return (← param o "split_dim") == .int (((← tensor x).rank : Int) - 1)

def sameSplit (run : List OpId) : Build Bool := do
  if run.length ≤ 1 then return true
  let sources ← run.mapM fun o => do return (← tensor (← inputAt o 0)).src.sole?
  match sources with
  | some s :: rest => return (← op s).kind == "split" && rest.all (· == some s)
  | _ => return false

def joinSplit : Graph → Build Graph := mergeAll splitsRows sameSplit

def fuse (ts : Graph) : Build Graph := do joinSplit (← joinWritten ts)

end Parallel

end TensorGraph

import TensorGraph.Op.Spatial

/-!
# Searching along an axis

Positions of the largest elements along the last axis, and gathering by index along an axis after
common ones.
-/

namespace TensorGraph

namespace Search

open Build

/-- The length of the last axis, and how many times it occurs; the product of all sizes is a word of
64 bits. -/
def instances? (s : List Int) : Except Fault (Int × Int × Int) := do
  let count := Workload.wordProduct s
  let size ← match s.getLast? with
    | some n => .ok n
    | none => .error .badIndex
  return (count, size, if size == 0 then 0 else Int.fdiv count size)

/-! ## The largest element -/

def createArgmax (dim : Value) : Build OpId :=
  newOp .argmax "argmax" [("dim", dim), ("has_profiler", .bool true), ("workspace", .int 0)]

def argmaxKey? (s : List Int) : Except Fault String := do
  let (_, size, num) ← instances? s
  return s!"instance_size == {size} &&  instance_num == {num}"

def applyArgmax (o : OpId) (x : TensorId) : Build TensorId := do
  setInputs o [x]
  linkInputs o
  let s ← shape x
  let shape ← Spatial.infer (s.length - 1) x fun s => .ok s.dropLast
  Spatial.noteWorkloads o x argmaxKey?
  soleOutput o shape "int64"

/-! ## The largest elements -/

def createTopk (k : Value) : Build OpId :=
  newOp .topk "topk" [("topK", k), ("has_profiler", .bool true), ("workspace", .int 0)]

def topkKey? (s : List Int) : Except Fault String := do
  let (count, size, num) ← instances? s
  return s!"elem_cnt == {count} &&  instance_size == {size} &&  instance_num == {num}"

def applyTopk (o : OpId) (x : TensorId) : Build TensorId := do
  setInputs o [x]
  linkInputs o
  let s ← shape x
  let k ← param o "topK"
  let n ← expect (.notAnInteger none k) k.int?
  let d ← staticDim n
  require .badIndex !s.isEmpty
  Spatial.noteWorkloads o x topkKey?
  soleOutput o (s.dropLast ++ [d]) "int64"

/-! ## Gathering -/

def createGather : Build OpId := newOp .batchGather "batch_gather" []

def gatherKey? (s : List Int) : Except Fault String :=
  match s with
  | m :: k :: _ => .ok s!"M == {m} && K == {k}"
  | _ => .error .badIndex

def gatherSizes? (indices s : List Int) : Except Fault (List Int) := do
  for (n, i) in indices.dropLast.zipIdx do
    if (← Spatial.size? s i) != n then throw .unmet
  match indices.getLast? with
  | none => throw .badIndex
  | some n => if indices.length ≤ s.length then return s.set (indices.length - 1) n else throw .badIndex

def applyGather (o : OpId) (x indices : TensorId) : Build TensorId := do
  let i ← tensor indices
  require (.batchGatherIndex i.dtype) (["int", "int32", "int64"].contains i.dtype)
  setInputs o [x, indices]
  linkInputs o
  Spatial.noteWorkloads o x gatherKey?
  let ns := (← dims indices).map (·.lower)
  let shape ← Spatial.infer (← shape x).length x (gatherSizes? ns)
  soleOutput o shape

end Search

end TensorGraph

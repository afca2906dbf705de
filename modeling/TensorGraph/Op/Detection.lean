import TensorGraph.Constant
import TensorGraph.Op.Spatial

/-!
# Detection

Operators that drop boxes which overlap others too much.
-/

namespace TensorGraph

namespace Detection

open Build

def create (cls : OpClass) (top out threshold size : Value) : Build OpId :=
  newOp cls cls.label [("preNmsTop", top), ("nmsMaxOut", out), ("iouThreshold", threshold),
    ("minBoxSize", size), ("has_profiler", .bool true), ("workspace", .int 0)]

def nmsKey? (s : List Int) : Except Fault String :=
  match s with
  | n :: k :: _ => .ok s!"num_batch == {n} &&  num_rois == {k}"
  | _ => .error .badIndex

def efficientKey? (s : List Int) : Except Fault String :=
  match s with
  | n :: k :: c :: _ => .ok s!"num_batch == {n} && num_rois == {k * c} && num_classes == {c}"
  | _ => .error .badIndex

def resultShape (o : OpId) (x scores : TensorId) (last : Nat) : Build (List DimId) := do
  let ws := (← dims scores).map (·.lower)
  setParam o "KH" (.int (← ofExcept (Spatial.size? ws 0)))
  setParam o "KW" (.int (← ofExcept (Spatial.size? ws 1)))
  let most ← param o "nmsMaxOut"
  Spatial.infer 3 x fun s => do
    let n ← Spatial.size? s 0
    let h ← Spatial.size? s last
    let k ← match Number.ofValue? most with
      | some k => Spatial.whole k
      | none => .error .badType
    return [n, k, h]

def applyNms (o : OpId) (x scores : TensorId) : Build TensorId := do
  setInputs o [x, scores]
  linkInputs o
  let shape ← resultShape o x scores 2
  Spatial.noteWorkloads o x nmsKey?
  soleOutput o shape

def applyEfficient (o : OpId) (boxes scores : TensorId) : Build (List TensorId) := do
  setInputs o [boxes, scores]
  linkInputs o
  Spatial.noteWorkloads o boxes efficientKey?
  let shape ← resultShape o boxes scores 3
  let one ← staticDim 1
  let count ← output o [shape.headD default, one] "int64"
  let kept ← output o shape
  let keptScores ← output o shape.dropLast
  let classes ← output o shape.dropLast "int64"
  let ys := [count, kept, keptScores, classes]
  setOutputs o ys
  return ys

def createBatched (threshold keep : Value) : Build OpId :=
  newOp .batchedNms "batched_nms" [("keep_n", keep), ("iou_threshold", threshold)]

def applyBatched (o : OpId) (x : TensorId) : Build TensorId := do
  setInputs o [x]
  linkInputs o
  let shape ← Spatial.infer 1 x fun s => do return [← Spatial.size? s 0]
  let y ← output o shape "int64"
  let boxes := (← dim (← axis (← Build.shape x) 0)).lower
  let scratch ← zeroTensor [← staticDim ((boxes + 63) / 64 * boxes)] "int64"
  setDst scratch (.ofList [o])
  setInputs o [x, scratch]
  setOutputs o [y]
  return y

end Detection

end TensorGraph

import TensorGraph.Number
import TensorGraph.Workload

/-!
# Sizes of images

Images are tensors of rank 4: batch, height, width, channels.
-/

namespace TensorGraph

namespace Spatial

open Build

def sizesOf (x : TensorId) : Build (List (List Int)) := do
  return Shape.choices ((← dims x).map (·.values))

def shapeOf (rank : Nat) (sizes : List (List Int)) : Build (List DimId) :=
  (List.range rank).mapM fun i => dimOfValues (Dim.sortedValues (sizes.map fun s => s.getD i 0))
    none

def infer (rank : Nat) (x : TensorId) (f : List Int → Except Fault (List Int)) :
    Build (List DimId) := do
  let ys ← (← sizesOf x).mapM fun s => ofExcept (f s)
  shapeOf rank ys

def size? (s : List Int) (i : Nat) : Except Fault Int :=
  match s[i]? with
  | some n => .ok n
  | none => .error .badIndex

def four? (s : List Int) : Except Fault (Int × Int × Int × Int) :=
  match s with
  | n :: h :: w :: c :: _ => .ok (n, h, w, c)
  | _ => .error .badIndex

def numberParam (o : OpId) (key : String) : Build Number := do
  expect .badType (Number.ofValue? (← param o key))

def whole (n : Number) : Except Fault Int :=
  match n.trunc? with
  | some n => .ok n
  | none => .error .badNumber

def noteWorkloads (o : OpId) (x : TensorId) (key : List Int → Except Fault String) :
    Build Unit := do
  modifyOp o fun p => { p with execPath := some [] }
  for s in ← sizesOf x do
    let k ← ofExcept (key s)
    modifyOp o fun p => { p with execPath := p.execPath.map fun e => Workload.insert e k (.algo "")
      }

def noteUntuned (o : OpId) : Build Unit := modifyOp o fun p =>
    { p with execPath := some [("true", .algo "")] }

end Spatial

end TensorGraph

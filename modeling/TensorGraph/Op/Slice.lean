import TensorGraph.Arena

/-!
# Slices

A slice keeps on each axis the elements from a start up to an end. Both may be negative, counted
from the end of the axis, and are clipped to it.
-/

namespace TensorGraph

namespace Slice

open Build

def openEnd : Int := 0x7FFFFFFF

def normalize (size start stop : Int) : Int × Int :=
  let start := if 0 ≤ start then start else size + start
  let start := if start < 0 then 0 else start
  let stop := if 0 ≤ stop then stop else size + stop
  let stop := if stop < 0 then 0 else stop
  let start := if size < start then size else start
  let stop := if size < stop then size else stop
  let start := if stop < start then stop else start
  (start, stop)

def length (size start stop : Int) : Int :=
  let (a, b) := normalize size start stop
  b - a

def coversAll (d : Dim) (start stop : Int) : Bool :=
  start == 0 && stop == openEnd || d.isStatic && d.value ≤ length d.value start stop

/-- The sliced axis: the axis itself if nothing is cut off, whatever its size. -/
def sliceDim (d : DimId) (start stop : Int) : Build DimId := do
  if start == 0 && stop == openEnd then return d
  let sizes := (← dim d).values.map (length · start stop)
  dimOfValues (Dim.sortedValues sizes) none

def create : Build OpId := newOp .dynamicSlice "dynamic_slice" []

def apply (o : OpId) (x : TensorId) (starts stops : List Int) : Build TensorId := do
  setInputs o [x]
  setParam o "start_indices" (.ints starts)
  setParam o "end_indices" (.ints stops)
  linkInputs o
  let t ← tensor x
  let shape ← (t.shape.zip (starts.zip stops)).mapM fun (d, a, b) => sliceDim d a b
  soleOutput o shape t.dtype

def slice (x : TensorId) (starts stops : List Int) :
    Build TensorId := do apply (← create) x starts stops

end Slice

end TensorGraph

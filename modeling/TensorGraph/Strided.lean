import TensorGraph.Strided.Slice
import TensorGraph.Strided.Split
import TensorGraph.Strided.View

/-!
# Strided access

All that can be done to read and write tensors in place instead of copying parts of them.
-/

namespace TensorGraph

namespace Strided

open Build

/-- Lets operators read and write in place, as far as the machine allows. -/
def access (ts : Graph) : Build Graph := do
  let platform := ((← get).target.map (·.platform)).getD .cuda
  let steps := match platform with
    | .cuda =>
      [scatterReshapedSlices, readSplitGroups, takeViews, writeConcats, readSplits, readSlices,
        scatterSlices,
       writeViewedGroups]
    | .rocm => [takeViews, readSplits, scatterSlices]
  steps.foldlM (fun ts step => step ts) ts

end Strided

end TensorGraph

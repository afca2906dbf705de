import TensorGraph.Alignment.Padding
import TensorGraph.Alignment.Transpose
import TensorGraph.Fusion.Concat
import TensorGraph.Fusion.Parallel
import TensorGraph.Fusion.Pointwise
import TensorGraph.Fusion.Product
import TensorGraph.Fusion.Special
import TensorGraph.Fusion.Transpose
import TensorGraph.Graph.NoOps
import TensorGraph.Graph.Refine
import TensorGraph.Strided

/-!
# Passes

What is done to a sorted graph, step by step.
-/

namespace TensorGraph

namespace Pass

abbrev Step := Graph → Build Graph

/-- A step that changes nodes and keeps the list of tensors. -/
def inPlace (f : Graph → Build Unit) : Step := fun ts => do
  f ts
  return ts

def optimization : List Step :=
  [LayoutRule.fuse, Alignment.transposeOdd, Chain.fuseConv, Product.fuse, ConcatFusion.fuse,
    Pointwise.fuse,
   Parallel.fuse, Grouping.fuse, Special.fuse, Alignment.pad, Strided.access, ConcatFusion.fuse]

def optimize : Step := fun ts => optimization.foldlM (fun ts step => step ts) ts

end Pass

end TensorGraph

import TensorGraph.Arena

/-!
# Constant contents

A tensor that no operator produces can be bound to constant bytes, of its own element type and
exactly as many as its largest shape needs.
-/

namespace TensorGraph

namespace Build

def sizeBytes (t : TensorId) (alignment : Int) : Build Int := do
  let g ← get
  let x := g.tensor t
  ofExcept (Dtype.alignedSize? g.dim x.shape x.dtype alignment)

def bindData (t : TensorId) (data : BoundData) : Build Unit := do
  let x ← tensor t
  let dtype := Dtype.normal data.dtype
  require (.boundProduced x.name x.src.ops.length) x.src.ops.isEmpty
  require (.dataDtype x.dtype dtype) (Dtype.normal x.dtype == dtype)
  let size ← sizeBytes t 1
  require (.dataSize data.bytes size) (size == data.bytes)
  modifyTensor t fun x => { x with data := some { data with dtype := dtype } }

def zeroTensor (shape : List DimId) (dtype : String) (name : Option String := none) :
    Build TensorId := do
  let size ← ofExcept (Dtype.alignedSize? (← look) shape dtype 1)
  let t ← addTensor { Tensor.ofShape shape dtype with name := name }
  bindData t ⟨max 0 size, dtype⟩
  return t

end Build

end TensorGraph

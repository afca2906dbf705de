import TensorGraph.Shape

/-!
# Element types and sizes

Element types are known by their names. `alignedSize?` is the number of bytes of the largest tensor
of a shape, rounded up to a multiple of the alignment.
-/

namespace TensorGraph

namespace Dtype

def size? (dtype : String) : Except Fault Int :=
  match dtype with
  | "float16" => .ok 2
  | "float32" | "float" | "int" | "int32" => .ok 4
  | "int64" => .ok 8
  | d => .error (.unknownDtype d)

def normal (dtype : String) : String :=
  match dtype with
  | "int" => "int32"
  | "float" => "float32"
  | d => d

def roundUp? (size alignment : Int) : Except Fault Int :=
  if alignment == 0 then .error .zeroDivision
  else if Int.fmod size alignment == 0 then .ok size
  else .ok ((Int.fdiv size alignment + 1) * alignment)

def alignedSize? (look : DimTable) (shape : List DimId) (dtype : String) (alignment : Int) :
    Except Fault Int := do
  let size ← size? dtype
  roundUp? (Shape.maxElements look shape * size) alignment

end Dtype

end TensorGraph

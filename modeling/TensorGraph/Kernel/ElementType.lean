import TensorGraph.Arena

/-!
# Types inside kernels

Half-precision elements are computed with in pairs or one by one, or as single-precision numbers.
-/

namespace TensorGraph.Kernel

inductive ComputeType
  | half2 | half | float
deriving DecidableEq, Inhabited, Repr

namespace ComputeType

def text : ComputeType → String
  | half2 => "half2"
  | half => "half"
  | float => "float"

def isPair : ComputeType → Bool
  | half2 => true
  | _ => false

/-- The function that turns one type into another; pairs are turned into nothing else. -/
def converter? : ComputeType → ComputeType → Except Fault String
  | half, float => .ok "__half2float"
  | float, half => .ok "__float2half_rn"
  | _, _ => .error .noField

end ComputeType

end TensorGraph.Kernel

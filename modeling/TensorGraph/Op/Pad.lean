import TensorGraph.Op.Spatial

/-!
# Padding

Padding the channels of an image to 4 or 8, or the last axis of any tensor to a given size.
-/

namespace TensorGraph

namespace Pad

open Build

def applyChannels (o : OpId) (x : TensorId) : Build TensorId := do
  setInputs o [x]
  linkInputs o
  let channels : Int := if (← op o).cls == .nhwc3to4 then 4 else 8
  let shape ← Spatial.infer 4 x fun s => do
    let (n, h, w, _) ← Spatial.four? s
    return [n, h, w, channels]
  soleOutput o shape

def padChannels (cls : OpClass) (x : TensorId) : Build TensorId := do
  let o ← newOp cls cls.label []
  applyChannels o x

/-- How much an odd size is padded by: one up to 16, else to the next multiple of 8. -/
def oddPadding (n : Int) : Int :=
  if n % 2 == 0 then 0
  else if n < 16 then 1
  else (Int.fdiv n 8 + 1) * 8 - n

def createLast (ndim size : Value) : Build OpId :=
  newOp .padLastDim "pad_last_dim" [("ndim", ndim), ("out_dim", size)]

def applyLast (o : OpId) (x : TensorId) : Build TensorId := do
  setInputs o [x]
  linkInputs o
  let s ← shape x
  let last ← dim (← axis s (-1))
  let size ← Spatial.numberParam o "out_dim"
  require .padSmaller ((Number.int last.upper).less size)
  let ndim ← param o "ndim"
  require .padRank ((Number.ofValue? ndim).any fun n => n.same (s.length : Int))
  require .padRankUnsupported (decide (s.length ≤ 4))
  match size with
  | .int n => soleOutput o (s.dropLast ++ [← staticDim n])
  | size => throw (.notAnInteger none size.toValue)

end Pad

end TensorGraph

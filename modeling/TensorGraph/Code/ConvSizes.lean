import TensorGraph.Code.IntExpr

/-!
# Sizes of a convolution at run time

The function that runs a convolution first computes the sizes of the result from those that it is
given.
-/

namespace TensorGraph.Code

namespace ConvSizes

private def plusOne (e : IntExpr) : IntExpr := .add e (.lit 1)

def covered (kernel dilation : String) : IntExpr :=
  plusOne (.mul (.paren (.sub (.var kernel) (.lit 1))) (.var dilation))

def outSize (n stride pad covered : String) : IntExpr :=
  plusOne (.div (.paren (.sub (.add (.add (.var n) (.var pad)) (.var pad)) (.var covered)))
    (.var stride))

def transposedSize (n stride pad covered : String) : IntExpr :=
  .add (.sub (.mul (.paren (.sub (.var n) (.lit 1))) (.var stride)) (.mul (.lit 2) (.var pad)))
    (.var covered)

/-- What the sizes are computed from: the image, the kernel and its settings, each as an
expression. -/
structure Given where
  batch : IntExpr
  height : IntExpr
  width : IntExpr
  channels : IntExpr
  outChannels : IntExpr
  kernelHeight : IntExpr
  kernelWidth : IntExpr
  stride : IntExpr
  dilation : IntExpr
  pad : IntExpr
deriving DecidableEq, Inhabited, Repr

def Given.parameters : Given where
  batch := .var "*batch"
  height := .var "*in_h"
  width := .var "*in_w"
  channels := .var "*in_ch"
  outChannels := .var "*out_ch"
  kernelHeight := .var "*kernel_h"
  kernelWidth := .var "*kernel_w"
  stride := .var "stride"
  dilation := .var "dilation"
  pad := .var "pad"

def Given.ofSizes (batch height width channels outChannels kernelHeight kernelWidth stride dilation
    pad : Int) : Given :=
  ⟨.lit batch, .lit height, .lit width, .lit channels, .lit outChannels, .lit kernelHeight,
    .lit kernelWidth,
   .lit stride, .lit dilation, .lit pad⟩

end ConvSizes

open ConvSizes in
def convSizes (transposed : Bool) (g : Given) : Assignments :=
  let size := if transposed then transposedSize else outSize
  [("NI", g.batch), ("HI", g.height), ("WI", g.width), ("CI", g.channels), ("CO", g.outChannels),
   ("KH", g.kernelHeight), ("KW", g.kernelWidth), ("SH", g.stride), ("SW", g.stride),
     ("DH", g.dilation),
   ("DW", g.dilation), ("PH", g.pad), ("PW", g.pad), ("KHEff", covered "KH" "DH"),
     ("KWEff", covered "KW" "DW"),
   ("NO", .var "NI"), ("HO", size "HI" "SH" "PH" "KHEff"), ("WO", size "WI" "SW" "PW" "KWEff")]

def runTimeSizes (transposed : Bool) (g : ConvSizes.Given) : Int × Int :=
  let env := (convSizes transposed g).run .truncating fun _ => 0
  (env "HO", env "WO")

end TensorGraph.Code

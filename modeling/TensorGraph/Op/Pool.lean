import TensorGraph.Op.Spatial

/-!
# Pooling, scaling and regions of interest

Operators on images that are not tuned.
-/

namespace TensorGraph

namespace Pool

open Build

def create (cls : OpClass) (kernel stride pad : Value) : Build OpId :=
  newOp cls cls.label [("stride", stride), ("pad", pad), ("kernel_size", kernel), ("KH", kernel),
    ("KW", kernel), ("reduce_func", .text (if cls == .avgPool2d then "avg" else "max"))]

private def setting? (o : Operator) (key : String) : Except Fault Number :=
  match (o.param? key).bind Number.ofValue? with
  | some n => .ok n
  | none => .error .badType

def outSize (kernel stride pad : Number) (n : Int) : Except Fault Int := do
  let q ← Number.floorDiv? ((n : Number) + pad + pad - kernel) stride
  Spatial.whole (q + 1)

def apply (o : OpId) (x : TensorId) : Build TensorId := do
  setInputs o [x]
  linkInputs o
  Spatial.noteUntuned o
  let p ← op o
  let shape ← Spatial.infer 4 x fun s => do
    let (n, h, w, c) ← Spatial.four? s
    let kernel ← setting? p "kernel_size"
    let stride ← setting? p "stride"
    let pad ← setting? p "pad"
    return [n, ← outSize kernel stride pad h, ← outSize kernel stride pad w, c]
  soleOutput o shape

/-! ## Scaling -/

def createUpsampling (cls : OpClass) (factor mode : Value) : Build OpId :=
  newOp cls cls.label [("scale_factor", factor), ("mode", mode)]

def applyUpsampling (o : OpId) (x : TensorId) (rest : List TensorId) : Build TensorId := do
  setInputs o (x :: rest)
  linkInputs o
  Spatial.noteUntuned o
  let p ← op o
  let shape ← Spatial.infer 4 x fun s => do
    let (n, h, w, c) ← Spatial.four? s
    let factor ← setting? p "scale_factor"
    return [n, ← Spatial.whole (h * factor), ← Spatial.whole (w * factor), c]
  soleOutput o shape

def upsamplingSignature (o : OpId) : Build String := do
  let s := ((← param o "scale_factor").text?).getD ""
  let m := ((← param o "mode").text?).getD ""
  return s!"upsampling2d: S=[{s}], M=[{m}]]"

/-! ## Regions of interest -/

def createRoi (cls : OpClass) (rois size ratio scale sensitive continuous : Value)
    (more : List (String × Value)) :
    Build OpId :=
  newOp cls cls.label ([("num_rois", rois), ("sampling_ratio", ratio), ("spatial_scale", scale),
    ("position_sensitive", sensitive), ("continuous_coordinate", continuous),
      ("pooled_size", size)] ++ more)

def applyRoi (o : OpId) (x : TensorId) (rest : List TensorId) : Build TensorId := do
  setInputs o (x :: rest)
  linkInputs o
  Spatial.noteUntuned o
  let p ← op o
  let shape ← Spatial.infer 4 x fun s => do
    let (n, _, _, c) ← Spatial.four? s
    let rois ← setting? p "num_rois"
    let rois ← Spatial.whole (if p.cls == .multiLevelRoiAlign then rois * n else rois)
    let size ← Spatial.whole (← setting? p "pooled_size")
    return [rois, size, size, c]
  soleOutput o shape

def roiSignature (o : OpId) : Build String := do
  let entries ← ["num_rois", "sampling_ratio", "spatial_scale", "position_sensitive",
    "continuous_coordinate", "pooled_size"].mapM fun k => do
      let t := ((← param o k).text?).getD ""
      return s!"{k}=[{t}]"
  return "roi_align: " ++ (", " ++ String.ofList (List.replicate 32 ' ')).intercalate entries

end Pool

end TensorGraph

import TensorGraph.Fusion.Group
import TensorGraph.Strided.Concat

/-!
# Reading out of a split

Products that can read an operand straight out of a larger tensor need no split before them.
-/

namespace TensorGraph

namespace Strided

open Build

def setInput (o : OpId) (i : Nat) (x : TensorId) : Build Unit :=
  modifyOp o fun p => { p with inputs := p.inputs.map (·.set i x) }

/-! ## Groups of products -/

def groupBehind? (parts : List TensorId) : Build (Option OpId) := do
  let first ← expect .badIndex parts.head?
  let some o := (← tensor first).dst.sole? | return none
  if !"group_gemm_r".isPrefixOf (← op o).kind then return none
  return if (← intParam o "groups") == parts.length then some o else none

def firstOperands (o : OpId) : Build (List (TensorId × Nat × Nat)) := do
  let step := if (← op o).kind.endsWith "bias" then 3 else 2
  let ts ← inputs o
  (List.range (← intParam o "groups").toNat).mapM fun i => do
    return (← expect .badIndex ts[i * step]?, i, i * step)

/-- Lets a group of products read one part of a split, which starts at an offset, out of the tensor
before it; gives the offset of the next part. -/
def readGroupPart (o : OpId) (x : TensorId) (dim : Int) (firsts : List (TensorId × Nat × Nat))
    (offset : Int)
    (t : TensorId) : Build Int := do
  let step := Matmul.memberInputs (← op o).cls
  let (_, i, k) ← expect .badKey (firsts.reverse.find? (·.1 == t))
  let s ← shape x
  updateInputAccessor o (i * step) fun look a => a.rebase look s dim offset
  setInput o k x
  let size := (← Build.dim (← axis (← shape t) dim)).value
  detach t
  return offset + size

def readSplitGroup (split : OpId) : Build Unit := do
  if !(← Grouping.isFusibleSplit split) then return ()
  let parts ← outputs split
  let some o ← groupBehind? parts | return ()
  let firsts ← firstOperands o
  let operands := firsts.map (·.1)
  if !(operands.all parts.contains && parts.all operands.contains) then return ()
  let g ← get
  let single := operands.all fun t => (g.tensor t).src.ops.length == 1 &&
    (g.tensor t).dst.ops.length == 1
  if !single then return ()
  let x ← inputAt split 0
  let dim ← intParam split "split_dim"
  let offset ← parts.foldlM (readGroupPart o x dim firsts) 0
  require .unmet (offset == (← Build.dim (← axis (← shape x) dim)).value)
  setDst x ⟨[o], true⟩

def readSplitGroups (ts : Graph) : Build Graph := do
  for o in Graph.sources (← get) ts do
    if (← op o).kind == "split" then readSplitGroup o
  Graph.tidy ts

/-! ## Single products -/

def readsSplits (kind : String) : Build Bool := do
  match (← target).platform with
  | .rocm => return kind == "bmm_softmax_bmm_permute"
  | .cuda => return ["bmm_rcr_n1", "bmm_rcr", "bmm_rrr_permute"].contains kind

def isEvenAxis (o : OpId) (i at_ : Nat) : Build Bool := do
  let a ← expect .badIndex (← inputAccessor? o i)
  let d ← dim (← axis a.seenShape at_)
  return d.isStatic && d.value % 2 == 0

def isAligned (o : OpId) (offset : Int) : Build Bool := do
  let kind := (← op o).kind
  if kind == "bmm_rcr_n1" then return true
  if offset % 2 != 0 then return false
  match kind with
  | "bmm_rrr_permute" =>
    if !(← isEvenAxis o 0 2) then return false
    isEvenAxis o 1 2
  | "bmm_rcr" => isEvenAxis o 0 2
  | "bmm_softmax_bmm_permute" =>
    if !(← isEvenAxis o 0 2) then return false
    if !(← isEvenAxis o 2 1) then return false
    isEvenAxis o 2 2
  | k => throw (.unexpectedOp k)

def allRead (t : TensorId) (offset : Int) : Build Bool := do
  let users := (← tensor t).dst.ops
  if users.isEmpty then return false
  users.allM fun o => do
    if !(← readsSplits (← op o).kind) then return false
    if !(← isAligned o offset) then return false
    return users.length == 1

def strideKnown (t : TensorId) (dim : Int) (readable : Bool) : Build Bool := do
  let users := (← tensor t).dst.ops
  users.foldlM (fun ok o => do
    (← inputs o).zipIdx.foldlM (fun ok (u, i) => do
      if u != t || !ok then return ok
      allows (← inputAccessor? o i) dim none) ok) readable

/-- Can all users of the parts of a split read out of the tensor before it? -/
def partOffsets (dim stride : Int) (parts : List TensorId) : Build (Bool × List Int) := do
  let (ok, _, offsets) ← parts.foldlM (fun (ok, offset, offsets) t => do
    let here ← allRead t (offset * stride)
    let ok ← strideKnown t dim (ok && here)
    let size ← fixedSize (← axis (← shape t) dim)
    return (ok, offset + size, offsets ++ [offset])) (true, (0 : Int), ([] : List Int))
  return (ok, offsets)

def readPart (x : TensorId) (dim start : Int) (t : TensorId) (o : OpId) : Build Unit := do
  if let some i := (← inputs o).findIdx? (· == t) then
    let s ← shape x
    updateInputAccessor o i fun look a => a.rebase look s dim start
    setInput o i x
  addDst x o

def readSplit (split : OpId) : Build Unit := do
  let dim ← intParam split "split_dim"
  let x ← inputAt split 0
  if !(← isFixedFrom split dim) then return ()
  let parts ← outputs split
  let later := (← shape x).fromIdx (dim + 1)
  let stride := (← later.mapM fixedSize).prodInt
  let (ok, offsets) ← partOffsets dim stride parts
  if !ok then return ()
  removeDst x split
  for (t, start) in parts.zip offsets do
    for o in (← tensor t).dst.ops do
      readPart x dim start t o
  for t in parts do
    detach t

def readSplits (ts : Graph) : Build Graph := do
  for o in Graph.sources (← get) ts do
    if (← op o).kind == "split" then readSplit o
  Graph.tidy ts

end Strided

end TensorGraph

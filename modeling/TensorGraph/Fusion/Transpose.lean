import TensorGraph.Fusion.Chain

/-!
# Transposed operands

A batched product that reads the transposed form of a tensor can read the tensor itself in the other
layout, so that nothing has to be transposed.
-/

namespace TensorGraph

/-- A product and what it becomes when its first or its second operand is no longer transposed
before it. -/
structure LayoutRule where
  product : OpClass
  first : Option OpClass
  second : Option OpClass
  /-- only for operands that have batches -/
  batched : Bool
deriving Inhabited

namespace LayoutRule

open Build

def all : List LayoutRule :=
  [⟨.bmmCcr, some .bmmRcr, some .bmmCrr, false⟩, ⟨.bmmCrr, some .bmmRrr, some .bmmCcr, false⟩,
   ⟨.bmmRcr, some .bmmCcr, some .bmmRrr, false⟩, ⟨.bmmRrr, some .bmmCrr, some .bmmRcr, false⟩,
   ⟨.gemmRcr, some .bmmCcr, some .bmmRrr, true⟩, ⟨.gemmRrr, some .bmmCrr, some .bmmRcr, true⟩,
   ⟨.gemmRcrBias, some .bmmCcrAdd, some .bmmRrrAdd, true⟩,
     ⟨.gemmRrrBias, some .bmmCrrAdd, none, true⟩]

def productUser? (t : TensorId) : Build (Option OpId) := do
  let g ← get
  return (g.tensor t).dst.ops.find? fun o => "bmm".isPrefixOf (g.op o).kind || "gemm".isPrefixOf
    (g.op o).kind

def hasBatches (ts : List TensorId) : Build Bool := do
  let g ← get
  let a ← expect .badIndex ts[0]?
  let b ← expect .badIndex ts[1]?
  return (g.tensor a).rank != 2 || (g.tensor b).rank != 2

/-- Would reading the tensor before its transposition turn even rows into odd ones? -/
def spoilsAlignment (before after : TensorId) : Build Bool := do
  let p ← dim (← axis (← shape before) (-1))
  let q ← dim (← axis (← shape after) (-1))
  return p.isStatic && p.value % 2 == 1 && q.isStatic && q.value % 2 == 0

/-- A transposition and a product of the rule that reads its result, which nobody asks for. -/
def candidate? (r : LayoutRule) (t : TensorId) : Build (Option (OpId × OpId)) := do
  let x ← tensor t
  if x.isOutput then return none
  let some p := x.src.sole? | return none
  let some o ← productUser? t | return none
  if (← op p).kind != "permute021" || (← op o).kind != r.product.label then return none
  return some (p, o)

def lacksBatches (r : LayoutRule) (ts : List TensorId) : Build Bool := do
  if r.batched then return !(← hasBatches ts) else return false

/-- Is there nothing to gain from reading the tensor before its transposition, or no operator for
it? -/
def refuses (r : LayoutRule) (t before : TensorId) (ts : List TensorId) : Build Bool := do
  let a ← expect .badIndex ts[0]?
  if r.first.isNone && a == t then return true
  if r.second.isNone then
    if (← expect .badIndex ts[1]?) == t then return true
  spoilsAlignment before t

/-- What the product becomes, and its operands: one of the first two is no longer transposed. -/
def rewritten (r : LayoutRule) (t before : TensorId) (ts : List TensorId) :
    Build (Option OpClass × List TensorId) := do
  let a ← expect .badIndex ts[0]?
  let b ← expect .badIndex ts[1]?
  if a == t then return (r.first, ts.set 0 before)
  if b == t then return (r.second, ts.set 1 before)
  throw .permuteUnlinked

def dropUnused (t before : TensorId) (p : OpId) : Build Unit := do
  if (← tensor t).dst.ops.isEmpty then
    removeDst before p
    detach t

def replace? (r : LayoutRule) (t : TensorId) : Build (Option (TensorId × TensorId)) := do
  let some (p, o) ← r.candidate? t | return none
  let ts ← inputs o
  if ← r.lacksBatches ts then return none
  let [before] ← inputs p | throw .unmet
  let [y] ← outputs o | throw .unmet
  if ← r.refuses t before ts then return none
  forgetUse ts o
  let (into, operands) ← r.rewritten t before ts
  dropUnused t before p
  let z ← Chain.build (← expect .badType into) [] operands
  copyMarks z y
  let _ ← copyScale z y
  return some (y, z)

def applyOnce (r : LayoutRule) (ts : Graph) : Build (Bool × Graph) := do
  let (new, _, fused) ← ts.foldlM (fun (new, pending, fused) t => do
    match pending with
    | some (y, z) =>
      if y == t then
        replaceTensor t z
        return (new ++ [z], none, fused)
      else return (new ++ [t], pending, fused)
    | none =>
      if fused then return (new ++ [t], none, fused)
      match ← r.replace? t with
      | some p => return (new ++ [t], some p, true)
      | none => return (new ++ [t], none, false))
    (([] : Graph), (none : Option (TensorId × TensorId)), false)
  return (fused, ← Graph.tidy new)

def applyEach (ts : Graph) : Build (Bool × Graph) :=
  all.foldlM (fun (fused, ts) r => do
    let (here, ts) ← r.applyOnce ts
    return (fused || here, ts)) (false, ts)

def applyAll : Nat → Graph → Build Graph
  | 0, _ => throw .tooDeep
  | n + 1, ts => do
    let (fused, ts) ← applyEach ts
    if fused then applyAll n ts else return ts

def fuse (ts : Graph) : Build Graph := do
  let n := (← get).ops.size
  applyAll (3 * (n + 1) * (n + 1)) ts

end LayoutRule

end TensorGraph

import TensorGraph.Constant
import TensorGraph.Graph.Order
import TensorGraph.Number

/-!
# Memory planning

Each tensor that is no parameter and no view gets a place in one block of memory.
-/

namespace TensorGraph

namespace Graph

open Build

structure Lifetime where
  tensor : TensorId
  first : Nat
  last : Nat
  size : Int
deriving DecidableEq, Inhabited, Repr

namespace Lifetime

def overlaps (a b : Lifetime) : Bool := max a.first b.first ≤ min a.last b.last

end Lifetime

abbrev Lifetimes := List (Option String × Lifetime)

def Lifetimes.set (ls : Lifetimes) (name : Option String) (l : Lifetime) : Lifetimes :=
  if ls.any (·.1 == name) then ls.map fun e => if e.1 == name then (name, l) else e
  else ls ++ [(name, l)]

/-- A step touches a tensor; an output lives until the last step. -/
def touch (steps i : Nat) (ls : Lifetimes) (t : TensorId) : Build Lifetimes := do
  let x ← tensor t
  if x.isParam then return ls
  let life ← match ls.lookup x.name with
    | some l => do
      require .usageConflict (l.tensor == t)
      let _ ← sizeBytes t 64
      pure { l with first := min l.first i, last := max l.last i }
    | none => do
      let size ← sizeBytes t 64
      pure ⟨t, i, i, size⟩
  let life := if x.isOutput then { life with last := steps - 1 } else life
  return ls.set x.name life

def baseTensor (g : Arena) : Nat → TensorId → TensorId
  | 0, t => t
  | n + 1, t =>
    match (g.tensor t).viewOf with
    | some v => baseTensor g n v
    | none => t

/-- A tensor lives as long as its views; views need no place of their own. -/
def joinViews (ls : Lifetimes) : Build Lifetimes := do
  let g ← get
  let (ls, views) ← ls.foldlM (fun (acc, views) (name, _) => do
    match acc.lookup name with
    | none => return (acc, views)
    | some l =>
      if (g.tensor l.tensor).viewOf.isNone then return (acc, views)
      let base := baseTensor g (g.tensors.size + 1) l.tensor
      if (g.tensor base).isParam then return (acc, views)
      let baseName := (g.tensor base).name
      let b ← expect .unmet (acc.lookup baseName)
      return (acc.set baseName { b with last := max b.last l.last }, name :: views)) (ls, [])
  return ls.filter fun e => !views.contains e.1

def lifetimes (steps : List OpId) : Build (List Lifetime) := do
  let ls ← steps.zipIdx.foldlM (fun ls (o, i) => do
    let ts ← inputs o
    let us ← outputs o
    (ts ++ us).foldlM (touch steps.length i) ls) ([] : Lifetimes)
  let ls ← joinViews ls
  for (_, l) in ls do
    require .unmet (l.last < steps.length && l.first ≤ l.last)
  return ls.map (·.2)

structure Placed where
  life : Lifetime
  offset : Int
deriving DecidableEq, Inhabited, Repr

structure Gap where
  passed : Int
  best : Option Int
  width : Int

def Gap.pass (size : Int) (g : Gap) (p : Placed) : Gap :=
  let width := p.offset - g.passed
  let g := if size ≤ width && width < g.width then
    { g with width := width, best := some g.passed } else g
  { g with passed := max g.passed (p.offset + p.life.size) }

/-- The place for a tensor among those placed so far, which are sorted by their offsets: the
smallest gap that is large enough, or behind all of them. -/
def place (placed : List Placed) (l : Lifetime) : Int :=
  let rivals := placed.filter fun p => l.overlaps p.life
  let g := rivals.foldl (Gap.pass l.size) ⟨0, none, 0x7FFFFFFFFFFFFFFF⟩
  g.best.getD g.passed

def insertPlaced (p : Placed) : List Placed → List Placed
  | [] => [p]
  | q :: qs => if p.offset < q.offset then p :: q :: qs else q :: insertPlaced p qs

def placeAll (ls : List Lifetime) : List Placed :=
  (ls.mergeSort fun a b => b.size ≤ a.size).foldl
    (fun placed l => insertPlaced ⟨l, place placed l⟩ placed) []

/-- How much memory a graph needs: for tensors, for constants, and as scratch memory, which all
operators share or which is an operator's own. -/
structure Plan where
  blob : Int
  constants : Int
  shared : Number
  unique : Number

def placeConstants (ts : Graph) : Build Int :=
  ts.foldlM (fun offset t => do
    if (← tensor t).data.isNone then return offset
    modifyTensor t fun x => { x with offset := some offset }
    return offset + (← sizeBytes t 64)) 0

def placeViews (ts : Graph) : Build Unit :=
  ts.forM fun t => do
    if let some v := (← tensor t).viewOf then
      let offset := (← tensor v).offset
      modifyTensor t fun x => { x with offset := offset }

/-- The scratch memory of all sources: the most that one asks for, and a place for each that needs
its own and has none yet. -/
def scratch (ts : Graph) : Build (Number × Number) := do
  (sourceSteps (← get) ts).foldlM (fun (shared, unique) o => do
    let p ← op o
    let shared ← match p.param? "workspace" with
      | some v => do pure (Number.max shared (← expect .badType (Number.ofValue? v)))
      | none => pure shared
    match p.param? "unique_workspace", p.param? "unique_workspace_offset" with
    | some v, none =>
      setParam o "unique_workspace_offset" unique.toValue
      return (shared, unique + (← expect .badType (Number.ofValue? v)))
    | _, _ => return (shared, unique)) ((0 : Number), (0 : Number))

def plan (ts : Graph) : Build Plan := do
  let ls ← lifetimes (sourceSteps (← get) ts)
  let placed := placeAll ls
  for p in placed do
    modifyTensor p.life.tensor fun x => { x with offset := some p.offset }
  let blob := placed.foldl (fun n p => max n (p.offset + p.life.size)) 0
  let constants ← placeConstants ts
  placeViews ts
  let (shared, unique) ← scratch ts
  return ⟨blob, constants, shared, unique⟩

/-- Plans the memory of a graph without ever using a place twice. -/
def planApart (ts : Graph) : Build Plan := do
  let (blob, constants) ← ts.foldlM (fun (blob, constants) t => do
    let x ← tensor t
    if x.data.isSome then
      modifyTensor t fun x => { x with offset := some constants }
      return (blob, constants + (← sizeBytes t 64))
    else if x.viewOf.isNone then
      modifyTensor t fun x => { x with offset := some blob }
      return (blob + (← sizeBytes t 64), constants)
    else return (blob, constants)) ((0 : Int), (0 : Int))
  let (shared, unique) ← scratch ts
  placeViews ts
  return ⟨blob, constants, shared, unique⟩

end Graph

end TensorGraph

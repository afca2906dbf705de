import TensorGraph.Graph.Order

/-!
# Names

Every tensor, operator and dimension of a graph gets a name; names that are set already are kept.
-/

namespace TensorGraph

/-- A text as an identifier: everything that cannot stand in one becomes an underscore, and one is
put before a leading digit. -/
def Text.identifier (s : String) : String :=
  let cs := s.toList
  let body := cs.map fun c => if Text.isWord c then c else '_'
  match cs with
  | c :: _ => String.ofList (if Text.isDecimal c then '_' :: body else body)
  | [] => ""

namespace Namer

/-- A name derived from the given one: itself, or with the number of names in use if it is taken. -/
def fresh (n : Namer) (s : String) : String × Namer :=
  let s := Text.identifier s
  if n.used.contains s then (s!"{s}_{n.used.length}", n) else (s, { n with used := n.used ++ [s] })

def outputCount (n : Namer) (op : String) : Nat := (n.outputs.lookup op).getD 0

def setOutputCount (n : Namer) (op : String) (k : Nat) : Namer :=
  if n.outputs.any (·.1 == op) then
    { n with outputs := n.outputs.map fun e => if e.1 == op then (op, k) else e }
  else { n with outputs := n.outputs ++ [(op, k)] }

end Namer

namespace Graph

open Build

def freshName (s : String) : Build String := do
  let (name, namer) := (← get).namer.fresh s
  modify fun g => { g with namer := namer }
  return name

def modifyNamer (f : Namer → Namer) : Build Unit := modify fun g => { g with namer := f g.namer }

def nameSource (t : TensorId) : Build Unit := do
  if (← tensor t).name.isNone then
    let k := (← get).namer.tensors
    let name ← freshName s!"tensor_{k}"
    modifyTensor t fun x => { x with name := some name }
    modifyNamer fun n => { n with tensors := n.tensors + 1 }

def nameProduced (t : TensorId) (last : Option String) (o : OpId) : Build (Option String) := do
  let x ← op o
  let last ← if x.name.isSome then pure last else do
    let k := (← get).namer.ops
    let name ← freshName s!"{x.kind}_{k}"
    modifyOp o fun x => { x with name := some name, firstName := some name }
    modifyNamer fun n => { n with ops := n.ops + 1 }.setOutputCount name 0
    pure (some name)
  if (← tensor t).name.isNone then
    let f ← expect .unsetLabel last
    let k := (← get).namer.outputCount f
    let name ← freshName s!"{f}_{k}"
    modifyTensor t fun x => { x with name := some name }
    modifyNamer (·.setOutputCount f (k + 1))
  return last

def nameDims (t : TensorId) : Build Unit := do
  let x ← tensor t
  let name := Fault.nameText x.name
  for (d, i) in x.shape.zipIdx do
    modifyDim d fun v => if v.name.isNone then { v with name := some s!"{name}_dim_{i}" } else v

def nameTensor (last : Option String) (t : TensorId) : Build (Option String) := do
  let sources := (← tensor t).src.ops
  let last ← if sources.isEmpty then do
      nameSource t
      pure last
    else sources.foldlM (nameProduced t) last
  nameDims t
  return last

def giveNames (ts : Graph) : Build Unit := do
  let _ ← ts.foldlM nameTensor none

end Graph

end TensorGraph

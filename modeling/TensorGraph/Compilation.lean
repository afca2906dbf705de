import TensorGraph.Graph.ConstantFolding
import TensorGraph.Library.Model
import TensorGraph.Pass

/-!
# Compiling a graph

From the outputs of a graph to the library that runs it: the graph is sorted, constants are bound,
what is unused is dropped, nodes get names, the graph is optimised and its kernels are chosen, what
is constant is computed, memory is planned and the library is put together.
-/

namespace TensorGraph

namespace Graph

open Build

/-- The outputs asked for are outputs, each named once, and no output of the graph is missing. -/
def checkGiven (ts outputs : Graph) : Build Unit := do
  let _ ← outputs.foldlM (fun (seen : List (Option String)) t => do
    let x ← tensor t
    require (.givenNotOutput x.name) x.isOutput
    require (.givenTwice x.name) (!seen.contains x.name)
    return x.name :: seen) []
  let g ← get
  let given := outputs.map fun t => (g.tensor t).name
  ts.reverse.forM fun t => do
    let x ← tensor t
    require (.outputNotGiven x.name) (!x.isOutput || given.contains x.name)

def checkKept (ts outputs : Graph) : Build Unit := do
  let g ← get
  let names := (outputs.map fun t => (g.tensor t).name).distinct
  let seen ← ts.foldlM (fun (seen : List (Option String)) t => do
    let name := (g.tensor t).name
    if !names.contains name then return seen
    require (.outputTwice name) (!seen.contains name)
    return name :: seen) []
  require .noField (names.all seen.contains)

def bindConstants (constants : List (String × BoundData)) (ts : Graph) : Build Unit :=
  ts.forM fun t => do
    let x ← tensor t
    match x.name with
    | none => pure ()
    | some name =>
      match constants.lookup name with
      | none => pure ()
      | some data =>
        require (.alreadyBound name) x.data.isNone
        require (.bindProduced name) x.src.ops.isEmpty
        require (.bindInput name) (!x.isInput)
        bindData t data

def outputsNamed (ts outputs : Graph) : Build Graph := do
  let g ← get
  let kept := (ts.filter fun t => (g.tensor t).isOutput).reverse
  outputs.mapM fun t => expect .badKey (kept.find? fun u => (g.tensor u).name == (g.tensor t).name)

end Graph

structure Workshop where
  constants : List (String × BoundData)
  /-- chooses the kernels of all operators that have a choice -/
  tune : Graph → Build Unit
  machine : Graph.Machine
  emitter : Arena → Library.Emitter

structure Compiled where
  graph : Graph
  plan : Graph.Plan
  library : Library.Model

namespace Workshop

open Build

def prepare (w : Workshop) (outputs : Graph) : Build Graph := do
  let ts ← Graph.sort outputs
  Graph.checkGiven ts outputs
  Graph.bindConstants w.constants ts
  Graph.forgetUnused ts
  Graph.dropExpands ts
  Graph.giveNames ts
  Graph.markParams ts
  let ts ← Pass.optimize ts
  Graph.markViews ts
  Graph.shareNames ts
  return ts

def compile (w : Workshop) (outputs : Graph) : Build Compiled := do
  let ts ← w.prepare outputs
  w.tune ts
  let ts ← Graph.foldConstants w.machine ts
  Graph.checkKept ts outputs
  let plan ← Graph.plan ts
  let kept ← Graph.outputsNamed ts outputs
  let g ← get
  let library ← ofExcept (Library.Model.ofGraph? g (← target).platform (w.emitter g) ts kept)
  return ⟨ts, plan, library⟩

end Workshop

end TensorGraph

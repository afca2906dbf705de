import TensorGraph.Graph.Folding
import TensorGraph.Graph.Memory
import TensorGraph.Graph.Prune
import TensorGraph.Graph.Rewire

/-!
# Constant folding

The constant part of a graph is planned, generated, compiled and run once; its results become
constants of the graph, and the operators that computed them are dropped.
-/

namespace TensorGraph

namespace Graph

open Build

/-- What runs a graph: it generates the sources of a graph with its outputs and its plan, compiles
them, loads the library and runs it. -/
structure Machine where
  generate : Graph → Graph → Plan → Build Unit
  compile : Build Unit
  load : Build Unit
  run : Build Unit

def Machine.reliable : Machine where
  generate := fun _ _ _ => do
    let _ ← target
  compile := pure ()
  load := pure ()
  run := pure ()

/-- The element type of an array that is asked for by the name of a tensor's: the short names stand
for wide types there. -/
def arrayDtype (dtype : String) : String × Int :=
  match dtype with
  | "float" => ("float64", 8)
  | "int" => ("int64", 8)
  | "float16" => ("float16", 2)
  | "int64" => ("int64", 8)
  | d => (d, 4)

/-- A constant in the place of a computed tensor, as large as the tensor can be. -/
def constantFor (outputs : List (Option String)) (t : TensorId) :
    Build (Option String × TensorId) := do
  let x ← tensor t
  let (dtype, bytes) := arrayDtype x.dtype
  let elements := Shape.maxElements (← look) x.shape
  let u ← addTensor { Tensor.ofShape x.shape x.dtype with
    name := x.name, dst := x.dst, isOutput := outputs.contains x.name }
  bindData u ⟨elements * bytes, dtype⟩
  return (x.name, u)

def computeConstants (m : Machine) (ts : Graph) : Build (List (Option String × TensorId)) := do
  let g ← get
  let outputs := (ts.filter fun t => (g.tensor t).isOutput).map fun t => (g.tensor t).name
  let part ← constantPart ts
  let g ← get
  let results := part.filter fun t => (g.tensor t).isOutput
  if results.isEmpty then return []
  let memory ← plan part
  m.generate part results memory
  m.compile
  m.load
  let g ← get
  let fresh ← (part.filter fun t => (g.tensor t).data.isNone).mapM (constantFor outputs)
  m.run
  return fresh

def attempt {α : Type} (step : Build α) : Build (Option α) :=
  tryCatch (some <$> step) fun _ => pure none

def putConstants (fresh : List (Option String × TensorId)) (ts : Graph) : Build Graph :=
  ts.mapM fun t => do
    match fresh.lookup (← tensor t).name with
    | some u =>
      replaceTensor t u
      return u
    | none => return t

def foldConstants (m : Machine) (ts : Graph) : Build Graph := do
  match ← attempt (computeConstants m ts) with
  | none => return ts
  | some fresh =>
    let ts ← putConstants fresh ts
    forgetUnused ts
    tidy ts

end Graph

end TensorGraph

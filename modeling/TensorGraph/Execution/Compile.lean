import TensorGraph.Execution.Runner
import TensorGraph.Execution.Toolchain
import TensorGraph.Text.Path

/-!
# Compiling many files

Every source file is compiled by a task of its own; raw bytes are turned into an object by the
linker, inside their own directory, and removed afterwards.
-/

namespace TensorGraph.Execution

structure CompileJob where
  source : String
  object : String
deriving DecidableEq, Inhabited, Repr

namespace CompileJob

def line? (base : Text.Path) (compiler : Compiler) (binary : Option Compiler) (j : CompileJob) :
    Except Fault String :=
  if j.source.endsWith ".bin" then
    match binary with
    | none => throw .noBinaryCompiler
    | some b =>
      let source := Text.Path.ofText j.source
      let dir := (source.under base).parent.text
      let line := b.line (Text.Path.ofText j.object).name source.name
      return s!"cd {dir} && {line} && rm {source.name} && cd -"
  else return compiler.line j.object j.source

end CompileJob

abbrev CompileTask := Task Nat Int

abbrev CompileRunner := Runner Nat Int

namespace CompileRunner

def ofWorkers (workers : Nat) (limit : Int) : CompileRunner :=
  .ofFarm (.ofCount workers) "builder" limit

/-- A compiler that ends with another code than 0 has failed. -/
def digest (o : Outcome) (t : CompileTask) : Except Fault CompileTask :=
  .ok (if o.code = 0 then { t with result := some 0 } else
    { t with failed := true, result := some (-1) })

/-- A failed compiler stops the collection; one that was stopped for its time does not. -/
def extract (t : CompileTask) : Except Fault Unit :=
  if !t.timedOut && t.failed then .error (.compileFailed t.stdout t.stderr) else .ok ()

def enqueue (base : Text.Path) (compiler : Compiler) (binary : Option Compiler) :
    Nat → List CompileJob → CompileRunner → Except Fault Unit × CompileRunner
  | _, [], r => (.ok (), r)
  | i, j :: js, r =>
    match j.line? base compiler binary with
    | .error f => (.error f, r)
    | .ok line => enqueue base compiler binary (i + 1) js (r.push
      (.ofCommand i (.shell line) j.object))

/-- Works off the queue; `none` while it is still waiting after so many rounds. -/
def finish? (c : Conduct) (rounds : Nat) (r : CompileRunner) :
    Option (Except Fault Unit × CompileRunner) :=
  (r.join? c rounds).map fun
    | (.error f, r) => (.error f, r)
    | (.ok (), r) =>
      let (result, r) := r.collect digest extract c.outcome
      (result.map fun _ => (), r)

def compileAll? (c : Conduct) (rounds : Nat) (base : Text.Path) (compiler : Compiler)
    (binary : Option Compiler)
    (jobs : List CompileJob) (r : CompileRunner) : Option (Except Fault Unit × CompileRunner) :=
  match enqueue base compiler binary 0 jobs r with
  | (.error f, r) => some (.error f, r)
  | (.ok (), r) => finish? c rounds r

def link? (c : Conduct) (rounds : Nat) (t : Toolchain) (library : String) (objects : List String)
    (r : CompileRunner) :
    Option (Except Fault Unit × CompileRunner) :=
  finish? c rounds (r.push (.ofCommand 0 (.shell (t.linkLine library objects)) library))

end CompileRunner

end TensorGraph.Execution

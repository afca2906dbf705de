import TensorGraph.Execution.Devices
import TensorGraph.Fault

/-!
# Tasks

A task is a command that runs as a process of its own.
-/

namespace TensorGraph.Execution

inductive Command
  | shell (line : String)
  | program (words : List String)
deriving DecidableEq, Inhabited, Repr

/-- What a process leaves behind: the bytes that it has written, and its exit code. -/
structure Outcome where
  stdout : ByteArray
  stderr : ByteArray
  code : Int
deriving Inhabited

/-- A started process: its device and the reading of the clock at its start. -/
structure Process where
  device : Device
  started : Int
deriving DecidableEq, Inhabited, Repr

structure Task (ι ρ : Type) where
  id : ι
  command : Command
  name : String
  process : Option Process
  finished : Bool
  timedOut : Bool
  failed : Bool
  stdout : String
  stderr : String
  result : Option ρ
deriving DecidableEq, Repr

namespace Task

variable {ι ρ : Type}

def ofCommand (id : ι) (command : Command) (name : String) : Task ι ρ :=
  ⟨id, command, name, none, false, false, false, "", "", none⟩

def isStarted (t : Task ι ρ) : Bool := t.process.isSome

def start (t : Task ι ρ) (device : Device) (time : Int) : Task ι ρ :=
  { t with process := some ⟨device, time⟩ }

/-- Looks after a started task: one that has been running for longer than `limit` is stopped and
counts as failed, one whose process has ended is finished. -/
def poll (t : Task ι ρ) (now limit : Int) (ended : Bool) : Task ι ρ :=
  match t.process with
  | none => t
  | some p =>
    if now - p.started > limit then { t with finished := true, timedOut := true, failed := true }
    else { t with finished := t.finished || ended }

/-- Reads what the process of a task that has not failed has written, which has to be text, and
digests it. -/
def read (digest : Outcome → Task ι ρ → Except Fault (Task ι ρ)) (o : Outcome) (t : Task ι ρ) :
    Task ι ρ × Except Fault Unit :=
  if t.failed then (t, .ok ())
  else if !t.isStarted then (t, .error .noField)
  else
    match String.fromUTF8? o.stdout with
    | none => (t, .error .noText)
    | some stdout =>
      let t := { t with stdout }
      match String.fromUTF8? o.stderr with
      | none => (t, .error .noText)
      | some stderr =>
        let t := { t with stderr }
        match digest o t with
        | .ok t => (t, .ok ())
        | .error f => (t, .error f)

end Task

end TensorGraph.Execution

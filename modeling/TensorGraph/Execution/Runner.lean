import TensorGraph.Execution.Task

/-!
# Running a queue of tasks

A runner has devices, a time limit and a queue. It works in rounds.
-/

namespace TensorGraph.Execution

/-- How the clock and the processes of a queue behave, round by round; processes are known by their
place in the queue. -/
structure Conduct where
  /-- the clock at the start of a round -/
  clock : Nat → Int
  /-- the clock when the task at a place is started in a round -/
  startTime : Nat → Nat → Int
  /-- can the command at a place be started? -/
  starts : Nat → Bool
  /-- is the process at a place seen to have ended, when it is polled in a round? -/
  ended : Nat → Nat → Bool
  /-- what the process at a place leaves behind -/
  outcome : Nat → Outcome

def Conduct.immediate (outcome : Nat → Outcome) : Conduct :=
  ⟨fun _ => 0, fun _ _ => 0, fun _ => true, fun _ _ => true, outcome⟩

structure Runner (ι ρ : Type) where
  tag : String
  farm : DeviceFarm
  limit : Int
  /-- the tasks that have given their devices back -/
  done : List ι
  queue : List (Task ι ρ)
deriving DecidableEq, Repr

namespace Runner

variable {ι ρ : Type}

def ofFarm (farm : DeviceFarm) (tag : String) (limit : Int) : Runner ι ρ :=
  ⟨tag, farm, limit, [], []⟩

def push (r : Runner ι ρ) (t : Task ι ρ) : Runner ι ρ := { r with queue := r.queue ++ [t] }

def reset (r : Runner ι ρ) : Runner ι ρ :=
  { r with farm := r.farm.releaseAll, done := [], queue := [] }

/-- What the walk along the queue changes besides the tasks: the devices, the tasks that are done,
and a fault that ends it. -/
structure Board (ι : Type) where
  farm : DeviceFarm
  done : List ι
  fault : Option Fault := none

/-- The turn of a task: one that waits is started on an idle device, one that has been started is
polled. If its command cannot be started, its device stays taken. -/
def visit [DecidableEq ι] (c : Conduct) (limit : Int) (round place : Nat) (t : Task ι ρ)
    (b : Board ι) :
    Task ι ρ × Board ι :=
  if b.fault.isSome || t.id ∈ b.done then (t, b)
  else
    match t.process with
    | none =>
      match b.farm.acquire with
      | (none, farm) => (t, { b with farm })
      | (some d, farm) =>
        if c.starts place then (t.start d (c.startTime round place), { b with farm })
        else (t, { b with farm, fault := some .noProgram })
    | some p =>
      let t := t.poll (c.clock round) limit (c.ended round place)
      (t, if t.finished then { b with farm := b.farm.release p.device, done := t.id :: b.done } else
        b)

def walk [DecidableEq ι] (c : Conduct) (limit : Int) (round : Nat) :
    Nat → List (Task ι ρ) → Board ι → List (Task ι ρ) × Board ι
  | _, [], b => ([], b)
  | place, t :: ts, b =>
    let (t, b) := visit c limit round place t b
    let (ts, b) := walk c limit round (place + 1) ts b
    (t :: ts, b)

def round [DecidableEq ι] (c : Conduct) (k : Nat) (r : Runner ι ρ) : Option Fault × Runner ι ρ :=
  let (queue, b) := walk c r.limit k 0 r.queue { farm := r.farm, done := r.done }
  (b.fault, { r with farm := b.farm, done := b.done, queue })

def allFinished (r : Runner ι ρ) : Bool := r.queue.all (·.finished)

/-- Rounds from round `k` on until one has found every task finished; `none` if `rounds` of them are
not enough. -/
def joinFrom? [DecidableEq ι] (c : Conduct) : Nat → Nat → Runner ι ρ →
    Option (Except Fault Unit × Runner ι ρ)
  | _, 0, _ => none
  | k, rounds + 1, r =>
    match r.round c k with
    | (some f, r') => some (.error f, r')
    | (none, r') => if r.allFinished then some (.ok (), r') else joinFrom? c (k + 1) rounds r'

def join? [DecidableEq ι] (c : Conduct) (rounds : Nat) (r : Runner ι ρ) :
    Option (Except Fault Unit × Runner ι ρ) :=
  joinFrom? c 0 rounds r

/-- Reads the tasks from a place on and extracts what they yield. -/
def collectFrom {β : Type} (digest : Outcome → Task ι ρ → Except Fault (Task ι ρ))
    (extract : Task ι ρ → Except Fault β) (outcome : Nat → Outcome) :
    Nat → List (Task ι ρ) → List (Task ι ρ) × Except Fault (List β)
  | _, [] => ([], .ok [])
  | place, t :: ts =>
    match t.read digest (outcome place) with
    | (t, .error f) => (t :: ts, .error f)
    | (t, .ok ()) =>
      if t.finished && t.result.isSome then
        match extract t with
        | .error f => (t :: ts, .error f)
        | .ok y =>
          let (rest, ys) := collectFrom digest extract outcome (place + 1) ts
          (t :: rest, ys.map (y :: ·))
      else
        let (rest, ys) := collectFrom digest extract outcome (place + 1) ts
        (t :: rest, ys)

/-- Collects the results of the queue and resets the runner. -/
def collect {β : Type} (digest : Outcome → Task ι ρ → Except Fault (Task ι ρ))
    (extract : Task ι ρ → Except Fault β) (outcome : Nat → Outcome) (r : Runner ι ρ) :
      Except Fault (List β) × Runner ι ρ :=
  match collectFrom digest extract outcome 0 r.queue with
  | (_, .ok ys) => (.ok ys, r.reset)
  | (queue, .error f) => (.error f, { r with queue })

end Runner

end TensorGraph.Execution

import TensorGraph.Op.Conv
import TensorGraph.Tuning.Measurement

/-!
# Kernels for all batch sizes

A convolution whose batch is dynamic has been tuned for some listed batch sizes.
-/

namespace TensorGraph.Tuning

/-- Measures two kernels against each other at a batch size; the first argument counts the
comparisons made before. -/
abbrev Prober := Nat → (lower upper : String) → (batch : Int) →
    Option Measurement × Option Measurement

def lowerWins? (results : Option Measurement × Option Measurement) : Except Fault Bool :=
  match results with
  | (some a, some b) => .ok (a.isBetter b)
  | (some _, none) => .ok true
  | (none, _) => .error .unmet

/-- The cutting point between `low` and `high`, and the number of comparisons made; `last` is the
size measured last. -/
def cutFrom? (wins? : Nat → Int → Except Fault Bool) (step : Nat) (low high last : Int) :
    Except Fault (Int × Nat) :=
  if _h : low < (low + high).fdiv 2 ∧ (low + high).fdiv 2 < high then
    match wins? step ((low + high).fdiv 2) with
    | .error f => .error f
    | .ok true => cutFrom? wins? (step + 1) ((low + high).fdiv 2 + 1) high ((low + high).fdiv 2)
    | .ok false => cutFrom? wins? (step + 1) low ((low + high).fdiv 2 - 1) ((low + high).fdiv 2)
  else .ok (last, step)
termination_by (high - low).toNat
decreasing_by all_goals omega

structure Region where
  low : Int
  high : Int
  lower : String
  upper : String
deriving DecidableEq, Inhabited, Repr

def Region.cut? (probe : Prober) (step : Nat) (r : Region) : Except Fault (Int × Nat) :=
  cutFrom? (fun k batch => lowerWins? (probe k r.lower r.upper batch)) step r.low r.high
    ((r.low + r.high).fdiv 2)

def regions : List (Int × String) → List Region
  | (a, p) :: (b, q) :: rest => ⟨a, b, p, q⟩ :: regions ((b, q) :: rest)
  | _ => []

def kernelOf : ExecEntry → String
  | .algo name => name
  | .item _ _ algo => algo

def Region.entries (r : Region) (cut h w c : Int) : ExecPath :=
  [(Conv.rangeKey (.int r.low) (.int cut) (.int h) (.int w) (.int c), .algo r.lower),
   (Conv.rangeKey (.int cut) (.int r.high) (.int h) (.int w) (.int c), .algo r.upper)]

def sizes? (key : String) : Option (Int × Int × Int × Int) :=
  match Workload.numbersIn key with
  | [n, h, w, c] => some (n, h, w, c)
  | _ => none

/-- Replaces the workloads of listed batch sizes by workloads of ranges, which cover all sizes in
between. -/
def coverBatches? (probe : Prober) (path : ExecPath) : Except Fault ExecPath := do
  match path with
  | [] | [_] => return path
  | first :: _ =>
    let some (_, h, w, c) := sizes? first.1 | throw .badIndex
    let some batches := path.mapM (fun e => (sizes? e.1).map fun s =>
      (s.1, kernelOf e.2)) | throw .badIndex
    let (_, found) ← (regions batches).foldlM
      (fun (acc : Nat × ExecPath) r => do
        let (cut, step) ← r.cut? probe acc.1
        return (step, (r.entries cut h w c).foldl (fun p e => Workload.insert p e.1 e.2) acc.2))
      (0, [])
    return found

end TensorGraph.Tuning

import TensorGraph.Execution.Runner

/-!
# Measurements

A kernel is measured by a program that prints how long it took and how much memory it needs besides
its operands, as in `TIME:0.25` and `WS:512`.
-/

namespace TensorGraph.Tuning

open Execution

structure Measurement where
  duration : Float
  workspace : Nat
deriving Inhabited

namespace Measurement

def isBetter (a b : Measurement) : Bool :=
  if a.duration == b.duration then a.workspace < b.workspace else a.duration < b.duration

/-- The first run of characters that follows a label and satisfies `p`. -/
def fieldAfter? (label : List Char) (p : Char → Bool) : List Char → Option (List Char)
  | [] => none
  | c :: cs =>
    let run := ((c :: cs).drop label.length).takeWhile p
    if label.isPrefixOf (c :: cs) && !run.isEmpty then some run else fieldAfter? label p cs

/-- The number that digits with at most one point stand for. -/
def number? (cs : List Char) : Option Float :=
  let whole := cs.takeWhile Char.isDigit
  let rest := cs.dropWhile Char.isDigit
  let part := rest.drop 1
  if (whole.isEmpty && part.isEmpty) || !(part.all Char.isDigit) then none
  else (String.ofList (whole ++ part)).toNat?.map fun n => Float.ofScientific n true part.length

def ofOutput? (stdout : String) : Except Fault Measurement := do
  let some time := fieldAfter? "TIME:".toList (fun c => c.isDigit || c == '.')
    stdout.toList | throw .badIndex
  let some duration := number? time | throw .badNumber
  let some space := fieldAfter? "WS:".toList Char.isDigit stdout.toList | throw .badIndex
  return ⟨duration, ((String.ofList space).toNat?).getD 0⟩

end Measurement

abbrev MeasureTask := Task String Measurement

def digest (_ : Outcome) (t : MeasureTask) : Except Fault MeasureTask :=
  if !t.stderr.isEmpty then .ok { t with failed := true }
  else (Measurement.ofOutput? t.stdout).map fun m => { t with result := some m }

def best? {ι : Type} : List (ι × Measurement) → Option (ι × Measurement)
  | [] => none
  | r :: rs => some (rs.foldl (fun best r => if r.2.isBetter best.2 then r else best) r)

end TensorGraph.Tuning

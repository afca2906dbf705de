import TensorGraph.Arena

/-!
# Workloads

An operator that is tuned has a workload for each size or range of sizes it may meet.
-/

namespace TensorGraph

namespace Workload

def insert (p : ExecPath) (key : String) (e : ExecEntry) : ExecPath :=
  if p.any (·.1 == key) then p.map fun x => if x.1 == key then (key, e) else x
  else p ++ [(key, e)]

def condition? (name : String) (values : List String) : Option String :=
  match values with
  | [] => none
  | [v] => some s!"{name} == {v}"
  | v :: rest =>
    let w := rest.getLastD v
    some s!"{name} >= {v} && {name} <= {w}"

def conditions? (sizes : List (String × List String)) : Option String := do
  let ts ← sizes.mapM fun (n, vs) => condition? n vs
  return " && ".intercalate ts

def numbersIn (s : String) : List Nat :=
  let (runs, last) := s.toList.foldl (fun (acc : List Nat × Option Nat) c =>
    if c.isDigit then (acc.1, some (acc.2.getD 0 * 10 + (c.toNat - 48)))
    else
      match acc.2 with
      | some n => (acc.1 ++ [n], none)
      | none => acc) ([], none)
  match last with
  | some n => runs ++ [n]
  | none => runs

def parts (key : String) : List String := (key.splitOn " == ").flatMap fun s => s.splitOn " && "

def number? (s : String) : Option Int :=
  if !s.isEmpty && s.toList.all Char.isDigit then s.toInt? else none

def lastOfEach (es : List (String × Int)) : List (String × Int) :=
  es.foldl (fun acc (n, v) =>
    if acc.any (·.1 == n) then acc.map fun e => if e.1 == n then (n, v) else e else acc ++ [(n, v)])
      []

private def dropBlanks (cs : List Char) : List Char :=
  cs.dropWhile fun c => c == ' ' || c == '\t' || c == '\n' || c == '\r' || c == '\x0b' || c
    == '\x0c'

/-- The digits after `==`, blanks between them ignored, at the start of a text. -/
def equalTo? (cs : List Char) : Option (String × List Char) :=
  match cs with
  | '=' :: '=' :: rest =>
    let rest := dropBlanks rest
    let ds := rest.takeWhile Char.isDigit
    if ds.isEmpty then none else some (String.ofList ds, rest.dropWhile Char.isDigit)
  | _ => none

def equalities (s : String) : List String := go s.toList.length s.toList
where
  go : Nat → List Char → List String
    | 0, _ => []
    | _, [] => []
    | n + 1, c :: cs =>
      match equalTo? (c :: cs) with
      | some (ds, rest) => ds :: go n rest
      | none => go n cs

/-- The number that the size `letter` of a group is compared with, at the start of a text. -/
def groupSize? (letter : Char) (cs : List Char) : Option (String × List Char) := do
  guard ("GROUP_".toList.isPrefixOf cs)
  let rest := cs.drop 6
  let ds := rest.takeWhile Char.isDigit
  guard !ds.isEmpty
  match rest.dropWhile Char.isDigit with
  | '_' :: l :: rest =>
    guard (l == letter)
    equalTo? (dropBlanks rest)
  | _ => none

def groupSizes (letter : Char) (s : String) : List String := go s.toList.length s.toList
where
  go : Nat → List Char → List String
    | 0, _ => []
    | _, [] => []
    | n + 1, c :: cs =>
      match groupSize? letter (c :: cs) with
      | some (ds, rest) => ds :: go n rest
      | none => go n cs

def wordProduct (ns : List Int) : Int := Int.bmod ns.prodInt 0x10000000000000000

end Workload

end TensorGraph

/-!
# Signed indices

Positions in a list are given by integers; a negative one counts from the end. `xs.at? i` fails
outside the list, `xs.fromIdx i` and `xs.toIdx i` clip to it.
-/

namespace List

/-- The distance of a signed position from the start, clipped to the list. -/
def clipIdx {α : Type _} (xs : List α) (i : Int) : Nat :=
  (if i < 0 then i + xs.length else i).toNat

def at? {α : Type _} (xs : List α) (i : Int) : Option α :=
  let j := if i < 0 then i + xs.length else i
  if j < 0 then none else xs[j.toNat]?

def fromIdx {α : Type _} (xs : List α) (i : Int) : List α := xs.drop (xs.clipIdx i)

def toIdx {α : Type _} (xs : List α) (i : Int) : List α := xs.take (xs.clipIdx i)

def between {α : Type _} (xs : List α) (i j : Int) : List α :=
  (xs.take (xs.clipIdx j)).drop (xs.clipIdx i)

/-- The list with the member at a signed position replaced, if there is such a position. -/
def setAt? {α : Type _} (xs : List α) (i : Int) (a : α) : Option (List α) :=
  let j := if i < 0 then i + xs.length else i
  if 0 ≤ j ∧ j < xs.length then some (xs.set j.toNat a) else none

def distinct {α : Type _} [BEq α] (xs : List α) : List α :=
  xs.foldl (fun acc x => if acc.contains x then acc else acc ++ [x]) []

theorem at?_natCast {α : Type _} (xs : List α) (i : Nat) : xs.at? i = xs[i]? := by
  have h : ¬ ((i : Int) < 0) := by omega
  simp [at?, h]

end List

def List.prodInt (xs : List Int) : Int := xs.foldl (· * ·) 1

def List.sumInt (xs : List Int) : Int := xs.foldl (· + ·) 0

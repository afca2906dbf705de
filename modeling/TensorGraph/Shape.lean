import TensorGraph.Dim

/-!
# Shapes

A shape is a list of dimensions, each known by its number; `look` says what the numbers stand for.
-/

namespace TensorGraph

abbrev DimTable := DimId → Dim

namespace Shape

def same (look : DimTable) : List DimId → List DimId → Bool
  | [], [] => true
  | a :: as, b :: bs => (look a).same (look b) && same look as bs
  | _, _ => false

def broadcastDim? (look : DimTable) (a b : DimId) : Option DimId :=
  if (look a).same (look b) then some a
  else if (look a).isFixed 1 then some b
  else if (look b).isFixed 1 then some a
  else none

def broadcastReversed? (look : DimTable) : List DimId → List DimId → Option (List DimId)
  | [], bs => some bs
  | as, [] => some as
  | a :: as, b :: bs => do
    let c ← broadcastDim? look a b
    let cs ← broadcastReversed? look as bs
    return c :: cs

def broadcast? (look : DimTable) (as bs : List DimId) : Option (List DimId) :=
  (broadcastReversed? look as.reverse bs.reverse).map List.reverse

/-- The number of elements spanned by the fixed dimensions at the end, at most `count` of them. -/
def trailingProduct (ds : List Dim) (count : Int) : Int :=
  ((ds.reverse.take count.toNat).takeWhile (·.isStatic)).foldl (fun n d => n * d.value) 1

def trailingElements (look : DimTable) (shape : List DimId) (count : Int) : Int :=
  trailingProduct (shape.map look) count

def allStatic (look : DimTable) (shape : List DimId) (start : Int) : Bool :=
  (shape.fromIdx start).all fun d => (look d).isStatic

def isStaticAt? (look : DimTable) (shape : List DimId) (i : Int) : Except Fault Bool :=
  if (shape.length : Int) < i then .ok false
  else
    match shape.at? i with
    | some d => .ok (look d).isStatic
    | none => .error .badIndex

def maxElements (look : DimTable) (shape : List DimId) : Int :=
  shape.foldl (fun n d => n * (look d).upper) 1

def choices : List (List Int) → List (List Int)
  | [] => [[]]
  | vs :: rest => vs.flatMap fun v => (choices rest).map (v :: ·)

def dump (look : DimTable) (shape : List DimId) : String :=
  "[" ++ ", ".intercalate (shape.map fun d => (look d).dump) ++ "]"

end Shape

/-- The position of an axis given by a signed index; one below the first axis is let through. -/
def wrapDim? (idx : Int) (rank : Nat) : Except Fault Int :=
  let i := if idx < 0 then idx + rank else idx
  if i < rank then .ok i else .error .unmet

end TensorGraph

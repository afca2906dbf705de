import TensorGraph.Fault
import TensorGraph.SignedIndex

/-!
# Dimensions

The size of one axis: a fixed number, or one of several numbers that is known only when the program
runs.
-/

namespace TensorGraph

structure Dim where
  isStatic : Bool
  values : List Int
  name : Option String
deriving DecidableEq, Inhabited, Repr

namespace Dim

def static (n : Int) (name : Option String := none) : Dim := ⟨true, [n], name⟩

def lower (d : Dim) : Int := d.values.headD 0

def upper (d : Dim) : Int := d.values.getLastD 0

def value (d : Dim) : Int := d.values.headD 0

def same (a b : Dim) : Bool :=
  a.isStatic == b.isStatic && a.values == b.values && (a.isStatic || a.name == b.name)

def isFixed (d : Dim) (n : Int) : Bool := d.isStatic && d.values == [n]

def only? (d : Dim) : Option Int := if d.upper == d.lower then some d.upper else none

private def insertSorted (n : Int) : List Int → List Int
  | [] => [n]
  | m :: ms => if n < m then n :: m :: ms else if n == m then m :: ms else m :: insertSorted n ms

private theorem mem_insertSorted {n m : Int} {ms : List Int} : m ∈ insertSorted n ms ↔ m = n ∨
    m ∈ ms := by
  fun_induction insertSorted n ms with
  | case1 => simp
  | case2 => simp
  | case3 k ks _ same =>
    rw [eq_of_beq same, List.mem_cons]
    exact (or_self_left).symm
  | case4 k ks _ _ ih =>
    rw [List.mem_cons, ih, List.mem_cons]
    exact or_left_comm

private theorem insertSorted_increasing {n : Int} {ms : List Int}
    (increasing : ms.Pairwise (· < ·)) :
    (insertSorted n ms).Pairwise (· < ·) := by
  fun_induction insertSorted n ms with
  | case1 => simp
  | case2 k ks less =>
    refine List.pairwise_cons.2 ⟨fun m hm => ?_, increasing⟩
    rcases List.mem_cons.1 hm with rfl | hm
    · exact less
    · exact Int.lt_trans less ((List.pairwise_cons.1 increasing).1 m hm)
  | case3 => exact increasing
  | case4 k ks notLess notSame ih =>
    obtain ⟨first, rest⟩ := List.pairwise_cons.1 increasing
    refine List.pairwise_cons.2 ⟨fun m hm => ?_, ih rest⟩
    rcases mem_insertSorted.1 hm with rfl | hm
    · have : m ≠ k := fun same => notSame (by simp [same])
      omega
    · exact first m hm

def sortedValues (ns : List Int) : List Int := ns.foldr insertSorted []

@[simp] theorem mem_sortedValues {n : Int} {ns : List Int} : n ∈ sortedValues ns ↔ n ∈ ns := by
  induction ns with
  | nil => rfl
  | cons m ms ih => exact mem_insertSorted.trans (by rw [List.mem_cons, ← ih]; rfl)

theorem sortedValues_increasing (ns : List Int) : (sortedValues ns).Pairwise (· < ·) := by
  induction ns with
  | nil => exact List.Pairwise.nil
  | cons m ms ih => exact insertSorted_increasing ih

/-- A dynamic dimension with the given possible sizes: at least two are listed and none is
negative. -/
def dynamic? (values : List Int) (name : Option String) : Except Fault Dim :=
  if values.length < 2 then .error (.fewValues (.ints values) name)
  else if values.any (· < 0) then .error (.negativeValue values name)
  else
    match sortedValues values with
    | [n] => .ok ⟨false, [n, n], name⟩
    | ns => .ok ⟨false, ns, name⟩

/-- The order in which a message lists distinct sizes: by their residues modulo 8, or modulo 32 from
the fifth size on; `-1` stands where `-2` does. -/
def listed (ns : List Int) : List Int :=
  let slots : Int := if ns.length < 5 then 8 else 32
  ns.mergeSort fun a b => slot slots a ≤ slot slots b
where
  slot (slots n : Int) : Int := (if n == -1 then -2 else n).emod slots

def ofValues? (values : List Int) (name : Option String) : Except Fault Dim :=
  match values.distinct with
  | [] => .error .noValues
  | [n] => .ok (static n name)
  | ns => dynamic? (listed ns) name

/-- The dimension that spans the given sizes: only the smallest and the largest are kept. -/
def spanning? (values : List Int) (name : Option String) : Except Fault Dim :=
  match sortedValues values with
  | [] => .error .badNumber
  | n :: ns => ofValues? [n, ns.getLastD n] name

def pseudoCode (d : Dim) : String :=
  if d.isStatic then toString d.value
  else
    match d.name with
    | some n => n
    | none => "IntVar([" ++ ", ".intercalate (d.values.map toString) ++ "])"

/-- All that is known about a dimension, on one line if 80 characters suffice. -/
def dump (d : Dim) : String :=
  let name := (Value.inner? (.ofText? d.name)).getD ""
  let values := d.values.map toString
  let short := "[" ++ ", ".intercalate values ++ "]"
  let line := s!"\x7b'depth': 0, 'name': {name}, 'nop': False, 'values': {short}\x7d"
  if line.length ≤ 80 then line
  else
    let long := "[ " ++ (",\n" ++ String.ofList (List.replicate 14 ' ')).intercalate values ++ "]"
    let shown := if short.length ≤ 67 then short else long
    s!"\x7b 'depth': 0,\n  'name': {name},\n  'nop': False,\n  'values': {shown}\x7d"

end Dim

end TensorGraph

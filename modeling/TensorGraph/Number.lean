import TensorGraph.Fault

/-!
# Numbers

Sizes are whole numbers, but a setting such as a stride or a scale may be a fraction, and what is
computed with one is a fraction too.
-/

namespace TensorGraph

/-- A whole number or a binary fraction. -/
inductive Number
  | int (n : Int)
  | float (x : Float)
deriving Inhabited

namespace Number

def ofValue? : Value → Option Number
  | .float x => some (.float x)
  | v => v.int?.map .int

def toValue : Number → Value
  | .int n => .int n
  | .float x => .float x

def toFloat : Number → Float
  | .int n => Float.ofInt n
  | .float x => x

private def lift (f : Int → Int → Int) (g : Float → Float → Float) : Number → Number → Number
  | .int a, .int b => .int (f a b)
  | a, b => .float (g a.toFloat b.toFloat)

instance : Add Number := ⟨lift (· + ·) (· + ·)⟩

instance : Sub Number := ⟨lift (· - ·) (· - ·)⟩

instance : Mul Number := ⟨lift (· * ·) (· * ·)⟩

instance : Coe Int Number := ⟨.int⟩

instance (n : Nat) : OfNat Number n := ⟨.int n⟩

def less : Number → Number → Bool
  | .int a, .int b => decide (a < b)
  | a, b => decide (a.toFloat < b.toFloat)

/-- A finite binary fraction as a quotient of integers, the second one positive. -/
def quotient? (x : Float) : Option (Int × Int) :=
  (Decimal.Binary.ofFloat? x).map fun b =>
    let (num, den) := b.fraction
    (if b.neg then -(num : Int) else (num : Int), (den : Int))

/-- The exact value: a fraction, or an infinity with its sign. -/
def quantity? : Number → Option (Rat ⊕ Bool)
  | .int n => some (.inl n)
  | .float x =>
    match quotient? x with
    | some (a, b) => some (.inl (Rat.divInt a b))
    | none => if x.isNaN then none else some (.inr (decide (x < 0)))

def same (a b : Number) : Bool :=
  match a.quantity?, b.quantity? with
  | some x, some y => decide (x = y)
  | _, _ => false

def trunc? : Number → Option Int
  | .int n => some n
  | .float x => (quotient? x).map fun (a, b) => Int.tdiv a b

/-- A quotient rounded to 53 binary digits, a half to the even neighbour, and then down. -/
def roundedDiv (a b : Nat) : Nat :=
  let digits := Nat.log2 (a / b)
  let up := Nat.pow 2 (if a < b then 53 else 52 - digits)
  let down := Nat.pow 2 (digits - 52)
  Decimal.roundDiv (a * up) (b * down) * down / up

def truncDiv (a b : Int) : Int := a.sign * b.sign * roundedDiv a.natAbs b.natAbs

def div? (a b : Number) : Except Fault Number :=
  if b.same 0 then .error .zeroDivision else .ok (.float (a.toFloat / b.toFloat))

def floorDiv? (a b : Number) : Except Fault Number :=
  if b.same 0 then .error .zeroDivision
  else
    match a, b with
    | .int a, .int b => .ok (.int (Int.fdiv a b))
    | a, b =>
      match quotient? a.toFloat, quotient? b.toFloat with
      | some (p, q), some (r, s) => .ok (.float (Float.ofInt (Int.fdiv (p * s) (q * r))))
      | _, _ => .ok (.float (a.toFloat / b.toFloat).floor)

def max (a b : Number) : Number := if a.less b then b else a

end Number

end TensorGraph

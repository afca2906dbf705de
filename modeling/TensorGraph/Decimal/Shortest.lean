/-!
# Decimal text of binary floating point numbers

A finite double is `±m · 2^q`.
-/

namespace TensorGraph.Decimal

/-- The magnitude of a finite double is `m * 2 ^ q`; `narrow` says that the gap below it is half the
gap above. -/
structure Binary where
  neg : Bool
  m : Nat
  q : Int
  narrow : Bool
deriving DecidableEq, Repr

/-- Reads the sign, exponent and fraction fields; infinities and NaNs have no magnitude. -/
def Binary.ofFloat? (x : Float) : Option Binary :=
  let bits := x.toBits.toNat
  let neg := bits / Nat.pow 2 63 == 1
  let e : Nat := bits / Nat.pow 2 52 % Nat.pow 2 11
  let f := bits % Nat.pow 2 52
  if e == 2047 then none
  else if e == 0 then some ⟨neg, f, -1074, false⟩
  else some ⟨neg, f + Nat.pow 2 52, (e : Int) - 1075, f == 0 && e > 1⟩

def Binary.fraction (b : Binary) : Nat × Nat := (b.m * Nat.pow 2 b.q.toNat, Nat.pow 2 (-b.q).toNat)

/-- Rounds `num / den` to the nearest whole number, a half to the even one. -/
def roundDiv (num den : Nat) : Nat :=
  let k := num / den
  let r := num % den
  if 2 * r < den then k else if den < 2 * r then k + 1 else k + k % 2

/-- The least `p` with `num / den < 10 ^ p`; a positive fraction then lies in `[10 ^ (p - 1), 10 ^
p)`. -/
def magnitude (num den : Nat) : Int :=
  if den ≤ num then ((Nat.toDigits 10 (num / den)).length : Int)
  else
    Int.negOfNat (((List.range 400).find? fun k => den ≤ num * Nat.pow 10 (k + 1)).getD 0)

structure Digits where
  digits : Nat
  exp : Int
deriving DecidableEq, Repr

/-- Does `d` lie in the interval of reals that round to `b`? -/
def Binary.roundsFrom (b : Binary) (d : Digits) : Bool :=
  let scale := b.q - 2
  let left := d.digits * Nat.pow 10 d.exp.toNat * Nat.pow 2 (-scale).toNat
  let unit := Nat.pow 10 (-d.exp).toNat * Nat.pow 2 scale.toNat
  let low := (4 * b.m - (if b.narrow then 1 else 2)) * unit
  let high := (4 * b.m + 2) * unit
  if b.m % 2 == 0 then low ≤ left && left ≤ high else low < left && left < high

/-- The two neighbours of `num / den` on the grid of multiples of `10 ^ exp`, the nearer one first;
of two equally near ones the even one. -/
def neighbours (num den : Nat) (exp : Int) : List Digits :=
  let n := num * Nat.pow 10 (-exp).toNat
  let d := den * Nat.pow 10 exp.toNat
  let near := roundDiv n d
  let far := if near == n / d then near + 1 else n / d
  [⟨near, exp⟩, ⟨far, exp⟩]

def Binary.shortest (b : Binary) : Digits :=
  if b.m == 0 then ⟨0, 0⟩
  else
    let (num, den) := b.fraction
    let p := magnitude num den
    ((List.range 17).findSome? fun (n : Nat) =>
      (neighbours num den (p - (n + 1 : Nat))).find? b.roundsFrom).getD ⟨num / den, 0⟩

def Digits.trim (d : Digits) : Digits :=
  go (Nat.toDigits 10 d.digits).length d
where
  go : Nat → Digits → Digits
    | 0, d => d
    | k + 1, d => if d.digits != 0 && d.digits % 10 == 0 then go k ⟨d.digits / 10, d.exp + 1⟩ else d

/-- How a decimal is laid out: numbers whose leading digit stands for `10 ^ e` with `low ≤ e < high`
are positional, whole numbers then end in `.0`; the others have an exponent of at least two digits
with a sign. -/
structure Layout where
  low : Int
  high : Int

def Layout.standard : Layout := ⟨-4, 16⟩

private def zeros (n : Nat) : String := String.ofList (List.replicate n '0')

def Digits.render (d : Digits) (l : Layout) : String :=
  if d.digits == 0 then "0.0"
  else
    let cs := Nat.toDigits 10 d.digits
    let lead := d.exp + cs.length - 1
    if l.low ≤ lead && lead < l.high then
      if 0 ≤ d.exp then String.ofList cs ++ zeros d.exp.toNat ++ ".0"
      else if 0 ≤ lead then
        let k := (lead + 1).toNat
        String.ofList (cs.take k) ++ "." ++ String.ofList (cs.drop k)
      else "0." ++ zeros (-lead - 1).toNat ++ String.ofList cs
    else
      let frac := match cs.drop 1 with
        | [] => ""
        | r => "." ++ String.ofList r
      let e := toString lead.natAbs
      String.ofList (cs.take 1) ++ frac ++ "e" ++ (if lead < 0 then "-" else "+")
        ++ (if e.length < 2 then "0" ++ e else e)

def text (x : Float) : String :=
  match Binary.ofFloat? x with
  | some b => (if b.neg then "-" else "") ++ b.shortest.trim.render .standard
  | none => if x.isNaN then "nan" else if x < 0 then "-inf" else "inf"

/-- `x` to `places` decimal places, a half to the even neighbour; negative `places` count from the
point leftwards. -/
def roundTo (x : Float) (places : Int) : Float :=
  match Binary.ofFloat? x with
  | none => x
  | some b =>
    let (num, den) := b.fraction
    let r := roundDiv (num * Nat.pow 10 places.toNat) (den * Nat.pow 10 (-places).toNat)
    let y := if 0 ≤ places then Float.ofScientific r true places.toNat
      else Float.ofScientific r false (-places).toNat
    if b.neg then -y else y

end TensorGraph.Decimal

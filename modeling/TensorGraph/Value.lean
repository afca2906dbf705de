import TensorGraph.Decimal.Shortest
import TensorGraph.Text.Quoted

/-!
# Values

Operators are configured with plain values (numbers, texts, lists, …) and are applied to nodes of a
graph.
-/

namespace TensorGraph

structure DimId where
  idx : Nat
deriving DecidableEq, Inhabited, Repr, Hashable

structure TensorId where
  idx : Nat
deriving DecidableEq, Inhabited, Repr, Hashable

structure OpId where
  idx : Nat
deriving DecidableEq, Inhabited, Repr, Hashable

inductive ScalarFn
  | add | sub | mul | div | tanh | cos | sin | sign | abs | log | exp | sqrt | max | min | sigmoid | leakyRelu
  | hardTanh | relu | nanToNum | clampNanToNum | silu
deriving DecidableEq, Inhabited, Repr

namespace ScalarFn

def table : List (ScalarFn × String) :=
  [(add, "ADD"), (sub, "SUB"), (mul, "MUL"), (div, "DIV"), (tanh, "TANH"), (cos, "COS"),
    (sin, "SIN"),
   (sign, "SIGN"), (abs, "ABS"), (log, "LOGE"), (exp, "EXP"), (sqrt, "SQRT"), (max, "MAX"),
     (min, "MIN"),
   (sigmoid, "SIGMOID"), (leakyRelu, "LRELU"), (hardTanh, "HARDTANH"), (relu, "RELU"),
     (nanToNum, "NAN_TO_NUM"),
   (clampNanToNum, "CLAMP_NAN_TO_NUM"), (silu, "SILU")]

def label (f : ScalarFn) : String := ((table.find? (·.1 == f)).map (·.2)).getD ""

def ofLabel? (s : String) : Option ScalarFn := (table.find? (·.2 == s)).map (·.1)

def text (f : ScalarFn) : String := "FuncEnum." ++ f.label

def code (f : ScalarFn) : Nat := table.findIdx (·.1 == f) + 1

end ScalarFn

/-- Which sizes of a dynamic dimension stand for all of them when kernels are measured. -/
inductive ProfileStrategy
  | min | max | hints
deriving DecidableEq, Inhabited, Repr

namespace ProfileStrategy

def label : ProfileStrategy → String
  | .min => "MIN"
  | .max => "MAX"
  | .hints => "HINTS"

def ofLabel? (s : String) : Option ProfileStrategy := [min, max, hints].find? (·.label == s)

def code : ProfileStrategy → Nat
  | .min => 1
  | .max => 2
  | .hints => 3

def text (s : ProfileStrategy) : String := "DynamicProfileStrategy." ++ s.label

end ProfileStrategy

/-- What an operator can be configured with or applied to. -/
inductive Value
  | none
  | bool (b : Bool)
  | int (n : Int)
  | float (x : Float)
  | text (s : String)
  | list (xs : List Value)
  | tuple (xs : List Value)
  | map (entries : List (Value × Value))
  | dim (d : DimId)
  | tensor (t : TensorId)
  | op (o : OpId)
  | func (f : ScalarFn)
  | strategy (s : ProfileStrategy)
deriving Inhabited

namespace Value

mutual

def beq : Value → Value → Bool
  | .none, .none => true
  | .bool a, .bool b => a == b
  | .int a, .int b => a == b
  | .float a, .float b => a == b
  | .text a, .text b => a == b
  | .list xs, .list ys => beqAll xs ys
  | .tuple xs, .tuple ys => beqAll xs ys
  | .map es, .map fs => beqEntries es fs
  | .dim a, .dim b => a == b
  | .tensor a, .tensor b => a == b
  | .op a, .op b => a == b
  | .func a, .func b => a == b
  | .strategy a, .strategy b => a == b
  | _, _ => false

def beqAll : List Value → List Value → Bool
  | [], [] => true
  | x :: xs, y :: ys => beq x y && beqAll xs ys
  | _, _ => false

def beqEntries : List (Value × Value) → List (Value × Value) → Bool
  | [], [] => true
  | (k, v) :: es, (l, w) :: fs => beq k l && beq v w && beqEntries es fs
  | _, _ => false

end

instance : BEq Value := ⟨beq⟩

def ints (ns : List Int) : Value := .list (ns.map .int)

def ofText? : Option String → Value
  | some s => .text s
  | .none => .none

def ofInt? : Option Int → Value
  | some n => .int n
  | .none => .none

/-- The integer that a value stands for: itself, or 0 and 1 for the truth values. -/
def int? : Value → Option Int
  | .int n => some n
  | .bool b => some (if b then 1 else 0)
  | _ => .none

def isNumber : Value → Bool
  | .int _ | .bool _ | .float _ => true
  | _ => false

def typeText : Value → String
  | .none => "<class 'NoneType'>"
  | .bool _ => "<class 'bool'>"
  | .int _ => "<class 'int'>"
  | .float _ => "<class 'float'>"
  | .text _ => "<class 'str'>"
  | .list _ => "<class 'list'>"
  | .tuple _ => "<class 'tuple'>"
  | .map _ => "<class 'dict'>"
  | .dim _ => "<class 'dim'>"
  | .tensor _ => "<class 'tensor'>"
  | .op _ => "<class 'op'>"
  | .func _ => "<enum 'FuncEnum'>"
  | .strategy _ => "<enum 'DynamicProfileStrategy'>"

def truthy : Value → Bool
  | .none => false
  | .bool b => b
  | .int n => n != 0
  | .float x => x != 0
  | .text s => !s.isEmpty
  | .list xs | .tuple xs => !xs.isEmpty
  | .map es => !es.isEmpty
  | _ => true

mutual

def inner? : Value → Option String
  | .none => some "None"
  | .bool b => some (if b then "True" else "False")
  | .int n => some (toString n)
  | .float x => some (Decimal.text x)
  | .text s => some (Text.quoted s)
  | .list xs => (innerAll? xs).map fun ts => "[" ++ ", ".intercalate ts ++ "]"
  | .tuple xs => (innerAll? xs).map fun ts =>
    match ts with
    | [t] => "(" ++ t ++ ",)"
    | ts => "(" ++ ", ".intercalate ts ++ ")"
  | .map es => (innerEntries? es).map fun ts => "\x7b" ++ ", ".intercalate ts ++ "\x7d"
  | .dim _ | .tensor _ | .op _ => .none
  | .func f => some s!"<{f.text}: {f.code}>"
  | .strategy s => some s!"<{s.text}: {s.code}>"

def innerAll? : List Value → Option (List String)
  | [] => some []
  | x :: xs => do
    let t ← inner? x
    let ts ← innerAll? xs
    return t :: ts

def innerEntries? : List (Value × Value) → Option (List String)
  | [] => some []
  | (k, v) :: es => do
    let kt ← inner? k
    let vt ← inner? v
    let ts ← innerEntries? es
    return (kt ++ ": " ++ vt) :: ts

end

def text? : Value → Option String
  | .text s => some s
  | .func f => some f.text
  | .strategy s => some s.text
  | v => v.inner?

end Value

end TensorGraph

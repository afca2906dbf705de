/-!
# Integer expressions of generated code

The sources that are generated compute with integers.
-/

namespace TensorGraph.Code

inductive IntExpr
  | lit (n : Int)
  | var (name : String)
  | paren (e : IntExpr)
  | mul (a b : IntExpr)
  | div (a b : IntExpr)
  | mod (a b : IntExpr)
  | add (a b : IntExpr)
  | sub (a b : IntExpr)
deriving DecidableEq, Inhabited, Repr

structure Division where
  quotient : Int → Int → Int
  remainder : Int → Int → Int
  /-- the sign of division -/
  sign : String

namespace Division

def truncating : Division := ⟨Int.tdiv, Int.tmod, "/"⟩

def flooring : Division := ⟨Int.fdiv, Int.fmod, "//"⟩

end Division

namespace IntExpr

def eval (d : Division) (env : String → Int) : IntExpr → Int
  | lit n => n
  | var x => env x
  | paren e => e.eval d env
  | mul a b => a.eval d env * b.eval d env
  | div a b => d.quotient (a.eval d env) (b.eval d env)
  | mod a b => d.remainder (a.eval d env) (b.eval d env)
  | add a b => a.eval d env + b.eval d env
  | sub a b => a.eval d env - b.eval d env

def text (d : Division) : IntExpr → String
  | lit n => toString n
  | var x => x
  | paren e => "(" ++ e.text d ++ ")"
  | mul a b => a.text d ++ " * " ++ b.text d
  | div a b => a.text d ++ " " ++ d.sign ++ " " ++ b.text d
  | mod a b => a.text d ++ " % " ++ b.text d
  | add a b => a.text d ++ " + " ++ b.text d
  | sub a b => a.text d ++ " - " ++ b.text d

def isAtom : IntExpr → Bool
  | lit _ | var _ | paren _ => true
  | _ => false

/-- Can it stand to the right of a plus sign and to the left of a product sign? -/
def isTerm : IntExpr → Bool
  | add .. | sub .. => false
  | _ => true

/-- Is the tree the one that a reader of the text would build? -/
def isBracketed : IntExpr → Bool
  | lit _ | var _ => true
  | paren e => e.isBracketed
  | mul a b | div a b | mod a b => a.isTerm && b.isAtom && a.isBracketed && b.isBracketed
  | add a b | sub a b => b.isTerm && a.isBracketed && b.isBracketed

def product? : List IntExpr → Option IntExpr
  | [] => none
  | e :: es => some (es.foldl mul e)

def sum? : List IntExpr → Option IntExpr
  | [] => none
  | e :: es => some (es.foldl add e)

def textOrEmpty (d : Division) : Option IntExpr → String
  | none => ""
  | some e => e.text d

end IntExpr

abbrev Assignments := List (String × IntExpr)

namespace Assignments

def run (d : Division) (as : Assignments) (env : String → Int) : String → Int :=
  as.foldl (fun env (x, e) => let v := e.eval d env; fun y => if y = x then v else env y) env

def text (d : Division) (indent type : String) (as : Assignments) : String :=
  "".intercalate (as.map fun (x, e) => "\n" ++ indent ++ type ++ x ++ " = " ++ e.text d ++ ";")

end Assignments

end TensorGraph.Code

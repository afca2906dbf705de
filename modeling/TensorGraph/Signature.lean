import TensorGraph.Fault

/-!
# Signatures

Arguments are given by position or by name.
-/

namespace TensorGraph

structure Args where
  positional : List Value
  named : List (String × Value)
deriving Inhabited

/-- A parameter and what stands in for it when it is not given. -/
structure Param where
  name : String
  default : Option Value
deriving Inhabited

def Param.needed (name : String) : Param := ⟨name, none⟩

def Param.optional (name : String) (default : Value) : Param := ⟨name, some default⟩

/-- The parameters of a call, or any number of nameless ones. -/
inductive Signature
  | fixed (params : List Param)
  | anyNumber
deriving Inhabited

namespace Signature

private def bindNamed? (named : List (String × Value)) (p : Param) : Except Fault Value :=
  match named.lookup p.name, p.default with
  | some v, _ => .ok v
  | none, some v => .ok v
  | none, none => .error .badType

def bind? (s : Signature) (a : Args) : Except Fault (List Value) :=
  match s with
  | .anyNumber => if a.named.isEmpty then .ok a.positional else .error .badType
  | .fixed ps => do
    let given := a.positional.length
    if ps.length < given then throw .badType
    let rest := ps.drop given
    if a.named.any fun e => !(rest.map (·.name)).contains e.1 then throw .badType
    let vs ← rest.mapM (bindNamed? a.named)
    return a.positional ++ vs

end Signature

end TensorGraph

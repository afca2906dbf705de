/-!
# Names of files

The text of a path is cut at its slashes; empty parts and parts that are a single dot say nothing
and are dropped.
-/

namespace TensorGraph.Text

structure Path where
  absolute : Bool
  parts : List String
deriving DecidableEq, Inhabited, Repr

namespace Path

def ofText (s : String) : Path :=
  ⟨s.startsWith "/", (s.splitOn "/").filter fun p => p != "" && p != "."⟩

def name (p : Path) : String := p.parts.getLastD ""

def parent (p : Path) : Path := { p with parts := p.parts.dropLast }

def under (p base : Path) : Path := if p.absolute then p else
    { base with parts := base.parts ++ p.parts }

def text (p : Path) : String :=
  if p.absolute then "/" ++ "/".intercalate p.parts
  else if p.parts.isEmpty then "." else "/".intercalate p.parts

end Path

end TensorGraph.Text

import TensorGraph.Text.CharClass

/-!
# Quoted text

A text inside a list or a table is written between quotes: single ones, unless the text holds a
single quote and no double one.
-/

namespace TensorGraph.Text

private def hexDigits (n width : Nat) : List Char :=
  let ds := Nat.toDigits 16 n
  List.replicate (width - ds.length) '0' ++ ds

def escape (quote c : Char) : List Char :=
  if c == quote || c == '\\' then ['\\', c]
  else if c == '\t' then ['\\', 't']
  else if c == '\n' then ['\\', 'n']
  else if c == '\r' then ['\\', 'r']
  else if isPrintable c then [c]
  else if c.toNat < 256 then '\\' :: 'x' :: hexDigits c.toNat 2
  else if c.toNat < 65536 then '\\' :: 'u' :: hexDigits c.toNat 4
  else '\\' :: 'U' :: hexDigits c.toNat 8

def quoteFor (cs : List Char) : Char :=
  let single := Char.ofNat 39
  if cs.contains single && !cs.contains '"' then '"' else single

def quoted (s : String) : String :=
  let q := quoteFor s.toList
  String.ofList (q :: s.toList.flatMap (escape q) ++ [q])

end TensorGraph.Text

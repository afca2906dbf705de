import TensorGraph.Decimal.Shortest

/-!
# Reports

A report is what is shown of something: plain data, lists and records. `Report.text` writes it on
one line, the fields of a record in alphabetical order.
-/

namespace TensorGraph

inductive Report
  | null
  | bool (b : Bool)
  | int (n : Int)
  | float (x : Float)
  | text (s : String)
  | list (xs : List Report)
  | record (fields : List (String × Report))
deriving Inhabited

namespace Report

def texts (ss : List String) : Report := .list (ss.map .text)

def ints (ns : List Int) : Report := .list (ns.map .int)

def nats (ns : List Nat) : Report := .list (ns.map fun (n : Nat) => .int n)

def ofText? : Option String → Report
  | some s => .text s
  | none => .null

def ofInt? : Option Int → Report
  | some n => .int n
  | none => .null

private def hex (n : Nat) : String :=
  let ds := Nat.toDigits 16 n
  String.ofList (List.replicate (4 - ds.length) '0' ++ ds)

private def escapedChar (c : Char) : String :=
  match c with
  | '"' => "\\\""
  | '\\' => "\\\\"
  | '\n' => "\\n"
  | '\r' => "\\r"
  | '\t' => "\\t"
  | '\x08' => "\\b"
  | '\x0c' => "\\f"
  | c =>
    let n := c.toNat
    if n < 32 || 127 ≤ n && n < 0x10000 then "\\u" ++ hex n
    else if n < 127 then String.singleton c
    else
      let k := n - 0x10000
      "\\u" ++ hex (0xD800 + k / 1024) ++ "\\u" ++ hex (0xDC00 + k % 1024)

def quotedText (s : String) : String := "\"" ++ String.join (s.toList.map escapedChar) ++ "\""

private def insertField (k : String) (v : String) : List (String × String) → List (String × String)
  | [] => [(k, v)]
  | (l, w) :: rest => if k < l then (k, v) :: (l, w) :: rest else (l, w) :: insertField k v rest

mutual

def line : Report → String
  | .null => "null"
  | .bool b => if b then "true" else "false"
  | .int n => toString n
  | .float x => Decimal.text x
  | .text s => quotedText s
  | .list xs => "[" ++ ", ".intercalate (lines xs) ++ "]"
  | .record fields =>
    let fs := (fieldLines fields).foldr (fun e acc => insertField e.1 e.2 acc) []
    "\x7b" ++ ", ".intercalate (fs.map fun (k, v) => quotedText k ++ ": " ++ v) ++ "\x7d"

def lines : List Report → List String
  | [] => []
  | x :: xs => line x :: lines xs

def fieldLines : List (String × Report) → List (String × String)
  | [] => []
  | (k, v) :: rest => (k, line v) :: fieldLines rest

end

end Report

end TensorGraph

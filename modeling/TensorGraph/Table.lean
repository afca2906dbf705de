import TensorGraph.Number

/-!
# Text tables

A table lists rows with named cells under a header.
-/

namespace TensorGraph

abbrev Row := List (String × Value)

structure TableStyle where
  /-- where lines stand: `always`, `topbottom`, `markdown` or nowhere -/
  separator : Value := .text "always"
  /-- how much wider than its widest cell a column is -/
  margin : Value := .int 0
  /-- on which side of a cell the margin stands: `left`, `right`, `centerleft` or `centerright` -/
  side : Value := .text "centerleft"
  fill : Value := .text " "
  newline : Value := .text "\n"
  /-- decimal places of fractions -/
  places : Value := .int 2
  /-- is the table put between quotation marks? -/
  quote : Value := .bool true

namespace TableStyle

def set? (s : TableStyle) (key : String) (v : Value) : Option TableStyle :=
  match key with
  | "row_sep" => some { s with separator := v }
  | "padding_width" => some { s with margin := v }
  | "padding_weight" => some { s with side := v }
  | "padding_char" => some { s with fill := v }
  | "newline_char" => some { s with newline := v }
  | "float_rounding" => some { s with places := v }
  | "quote" => some { s with quote := v }
  | _ => none

end TableStyle

namespace Table

def cellText (v : Value) : String := v.text?.getD ""

def columns (rows : List Row) : List String := ((rows.headD []).map (·.1))

/-- There is a row, and every row has a cell in each column. -/
def validate? (rows : List Row) : Except Fault Unit :=
  if rows.isEmpty then .error .emptyTable
  else if rows.all fun r => (columns rows).all fun c => r.any (·.1 == c) then .ok ()
  else .error .unevenTable

def roundCell? (places : Value) (v : Value) : Except Fault Value :=
  match v with
  | .float x =>
    if !places.truthy then .ok v
    else
      match places.int? with
      | some n => .ok (.float (Decimal.roundTo x n))
      | none => .error .badType
  | v => .ok v

abbrev Widths := List (String × Number)

def fitCell? (s : TableStyle) (widths : Widths) (key : String) (v : Value) :
    Except Fault (Widths × Value) := do
  let v ← roundCell? s.places v
  let some w := widths.lookup key | throw .badKey
  let some margin := Number.ofValue? s.margin | throw .badType
  let len : Number := ((cellText v).length : Int)
  if (w - margin).less len then
    return (widths.map fun e => if e.1 == key then (key, len + margin) else e, v)
  return (widths, v)

def fit? (s : TableStyle) (rows : List Row) : Except Fault (Widths × List Row) := do
  let start : Widths := (columns rows).map fun c => (c, ((c.length : Int) : Number))
  rows.foldlM (fun (widths, done) r => do
    let (widths, r) ← r.foldlM (fun (widths, cells) (k, v) => do
      let (widths, v) ← fitCell? s widths k v
      return (widths, cells ++ [(k, v)])) (widths, ([] : Row))
    return (widths, done ++ [r])) (start, ([] : List Row))

def wholeWidths? (widths : Widths) : Except Fault (List (String × Int)) :=
  widths.mapM fun (k, w) =>
    match w with
    | .int n => .ok (k, n)
    | .float _ => .error .badType

private def dashes (n : Int) : String := String.ofList (List.replicate n.toNat '-')

def innerLine (widths : List (String × Int)) : String :=
  String.join (widths.map fun (_, w) => "+" ++ dashes w) ++ "+"

def outerLine (widths : List (String × Int)) : String :=
  String.ofList ("+" ++ String.join (widths.map fun (_, w) => dashes (w + 1))).toList.dropLast ++
    "+"

def rightMargin (side : Value) (margin : Int) : Int :=
  match side with
  | .text "left" => 0
  | .text "right" => margin
  | .text "centerright" => -(Int.fdiv (-margin) 2)
  | _ => Int.fdiv margin 2

def pad (side : Value) (fill : Char) (width : Int) (text : String) : String :=
  let right := rightMargin side (width - text.length)
  let left := String.ofList (List.replicate (width - right - text.length).toNat fill) ++ text
  left ++ String.ofList (List.replicate (width - left.length).toNat fill)

structure Layout where
  style : TableStyle
  rows : List Row
  widths : List (String × Int)

def layout? (rows : List Row) (style : Option (List (String × Value))) : Except Fault Layout := do
  validate? rows
  let (widths, rows) ← fit? {} rows
  let widths ← wholeWidths? widths
  match style with
  | none => return ⟨{}, rows, widths⟩
  | some params =>
    let s ← params.foldlM (fun (s : TableStyle) (k, v) =>
      match s.set? k v with
      | some s => .ok s
      | none => .error .badType) {}
    let (widths, rows) ← fit? s rows
    return ⟨s, rows, ← wholeWidths? widths⟩

namespace Layout

private def isSep (l : Layout) (names : List String) : Bool :=
  match l.style.separator with
  | .text s => names.contains s
  | _ => false

private def newline? (l : Layout) : Except Fault String :=
  match l.style.newline with
  | .text s => .ok s
  | _ => .error .badType

private def fill? (l : Layout) : Except Fault Char :=
  match l.style.fill with
  | .text s =>
    match s.toList with
    | [c] => .ok c
    | _ => .error .badType
  | _ => .error .badType

def cells? (l : Layout) (texts : List String) : Except Fault String := do
  let cs ← (l.widths.zip texts).mapM fun ((_, w), t) => do
    return "|" ++ pad l.style.side (← l.fill?) w t
  return String.join cs ++ "|"

def header? (l : Layout) : Except Fault String := do
  let nl ← l.newline?
  let top := if l.isSep ["topbottom", "always"] then nl ++ outerLine l.widths ++ nl else ""
  let names ← l.cells? (l.widths.map (·.1))
  let line := if l.isSep ["always"] then innerLine l.widths ++ nl
    else if l.isSep ["markdown"] then (innerLine l.widths).replace "+" "|" ++ nl
    else ""
  return top ++ names ++ nl ++ line

def body? (l : Layout) : Except Fault String := do
  let lines ← l.rows.mapM fun r => l.cells?
    (l.widths.map fun (k, _) => cellText ((r.lookup k).getD .none))
  let last := lines.length - 1
  let parts ← lines.zipIdx.mapM fun (t, i) => do
    let inner : Bool := i < last
    let nl ← if inner || l.isSep ["always", "topbottom"] then l.newline? else .ok ""
    let step := if inner then nl ++ (if l.isSep ["always"] then innerLine l.widths ++
      nl else "") else ""
    let bottom := if !inner && l.isSep ["always", "topbottom"] then nl ++ outerLine l.widths else ""
    return t ++ step ++ bottom
  return String.join parts

def markdown? (l : Layout) : Except Fault String := do
  let text := (← l.header?) ++ (← l.body?)
  return if l.style.quote.truthy then "```" ++ text ++ "```" else text

end Layout

end Table

end TensorGraph

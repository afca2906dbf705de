import TensorGraph.Arena

/-!
# What a library is made of

A graph becomes a library that runs it. The user hands over one buffer for each input and each
output; they are numbered, inputs first, and each number is a slot.
-/

namespace TensorGraph.Library

inductive Place
  /-- the buffer that the user handed over for a slot -/
  | slot (i : Int)
  /-- where another tensor's pointer points -/
  | sameAs (name : String)
deriving DecidableEq, Inhabited, Repr

/-- Refuses a missing buffer: of a tensor, or of a slot. -/
structure NullCheck where
  name : String
  slot : Option Int
  sizes : List String
  mayBeEmpty : Bool
deriving DecidableEq, Inhabited, Repr

namespace NullCheck

def pointer (c : NullCheck) : String :=
  match c.slot with
  | none => c.name
  | some i => s!"params[{i}].ptr"

def text (c : NullCheck) : String :=
  let missing := s!"{c.pointer} == nullptr"
  let condition := if c.mayBeEmpty then missing ++ " && " ++ "*".intercalate ("1" :: c.sizes) ++
    " != 0" else missing
  "\nif (" ++ condition ++ ") \x7b\n    throw std::runtime_error(\"Constant " ++ c.name ++
    " was not set! Set the value with set_constant.\");\n\x7d\n    "

end NullCheck

def assignText (name value : String) : String := s!"     {name} = {value};"

inductive SetUp
  | point (name : String) (place : Place)
  | check (c : NullCheck)
  /-- a check that is not needed -/
  | skip
deriving DecidableEq, Inhabited, Repr

def SetUp.text : SetUp → String
  | point n (.slot i) => assignText n s!"static_cast<decltype({n})>(params[{i}].ptr)"
  | point n (.sameAs m) => assignText n m
  | check c => c.text
  | skip => ""

structure Slice where
  name : String
  offset : Int
deriving DecidableEq, Inhabited, Repr

def Slice.text (block : String) (s : Slice) : String :=
  s!"    {s.name} = reinterpret_cast<decltype({s.name})>({block} + {s.offset});"

/-- How a constant gets its pointer: from the library's own block, or later from the user. -/
inductive ConstantSetUp
  | own (s : Slice)
  | given (name : String)
deriving DecidableEq, Inhabited, Repr

def ConstantSetUp.text : ConstantSetUp → String
  | own s => s.text "constants"
  | given n => assignText s!"constant_name_to_ptr_[\"{n}\"]"
      s!"const_cast<const void**>(reinterpret_cast<void**>(&{n}))"

structure Record where
  slot : Int
  name : String
  shape : List Dim
  dtype : String
deriving DecidableEq, Inhabited, Repr

namespace Record

def dtypeText? (dtype : String) : Except Fault String :=
  match dtype with
  | "float16" => .ok "kHalf"
  | "float32" | "float" => .ok "kFloat"
  | "int32" | "int" => .ok "kInt"
  | "int64" => .ok "kLong"
  | d => .error (.recordDtype d)

private def braces (ts : List String) : String := "\x7b" ++ ", ".intercalate ts ++ "\x7d"

def shapeText (r : Record) : String :=
  assignText s!"max_param_shapes_[{r.slot}]" (braces (r.shape.map fun d => toString d.upper))

def boundsText (r : Record) : String :=
  assignText s!"params[{r.slot}].shape_ptrs"
    (braces (r.shape.map fun d => s!"ParamDim({d.lower}, {d.upper}, &{Fault.nameText d.name})"))

def nameText (r : Record) : String := assignText s!"param_names_[{r.slot}]" s!"\"{r.name}\""

def typeText (types : String) (r : Record) : String :=
  assignText s!"param_dtypes_[{r.slot}]" (types ++ "::" ++ (dtypeText? r.dtype).toOption.getD "")

end Record

structure Copy where
  slot : Int
  source : String
  sizes : List String
  elementBytes : Int
deriving DecidableEq, Inhabited, Repr

def Copy.text (c : Copy) : String :=
  s!"DEVICE_CHECK(DeviceToDeviceCopy(params[{c.slot}].ptr, {c.source}, " ++ "*".intercalate
    ("1" :: c.sizes) ++
    s!" * {c.elementBytes}, stream));"

/-- A constant that is part of the library: its place in the file of constants and in the block of
constants. -/
structure OwnedConstant where
  name : String
  dataOffset : Int
  offset : Int
  bytes : Int
deriving DecidableEq, Inhabited, Repr

def OwnedConstant.text (c : OwnedConstant) : String :=
  "ConstantInfo\x7b\"" ++ c.name ++ s!"\", {c.dataOffset}, {c.offset}, {c.bytes}" ++ "\x7d"

/-- The type of a pointer to elements; one platform has fewer of them, and writes them all alike. -/
def pointerText? (p : Platform) (dtype : String) : Except Fault String :=
  match p, dtype with
  | .cuda, "float16" => .ok "cutlass::half_t*"
  | .cuda, "float" | .cuda, "float32" => .ok "float*"
  | .cuda, "int64" => .ok "int64_t*"
  | .cuda, "int" | .cuda, "int32" => .ok "int32_t*"
  | .rocm, "float16" | .rocm, "int64" => .ok "void *"
  | _, _ => .error .pointerDtype

def sizeText (d : Dim) : String := if d.isStatic then toString d.value else Fault.nameText d.name

end TensorGraph.Library

/-!
# SHA-1

The 160 bit digest of a sequence of bytes: the message is padded to blocks of 64 bytes, and each
block is mixed into five words.
-/

namespace TensorGraph.Sha1

structure State where
  a : UInt32
  b : UInt32
  c : UInt32
  d : UInt32
  e : UInt32
deriving DecidableEq, Repr

def initial : State := ⟨0x67452301, 0xEFCDAB89, 0x98BADCFE, 0x10325476, 0xC3D2E1F0⟩

private def rotl (x : UInt32) (n : UInt32) : UInt32 := (x <<< n) ||| (x >>> (32 - n))

/-- A one bit, zeros up to the last eight bytes of a block, and the length in bits. -/
def pad (bs : List UInt8) : List UInt8 :=
  let n := bs.length
  let zeros := (55 + 64 - n % 64) % 64
  let bits := 8 * n
  bs ++ 0x80 :: List.replicate zeros 0 ++
    (List.range 8).map fun i => UInt8.ofNat (bits / Nat.pow 256 (7 - i) % 256)

def words : List UInt8 → List UInt32
  | a :: b :: c :: d :: rest =>
    ((a.toUInt32 <<< 24) ||| (b.toUInt32 <<< 16) ||| (c.toUInt32 <<< 8) ||| d.toUInt32) ::
      words rest
  | _ => []

/-- The 80 words that one block of 16 words is stretched to. -/
def schedule (block : Array UInt32) : Array UInt32 :=
  (List.range 64).foldl (fun w i =>
    let at_ (k : Nat) := w.getD (i + 16 - k) 0
    w.push (rotl (at_ 3 ^^^ at_ 8 ^^^ at_ 14 ^^^ at_ 16) 1)) block

def round (s : State) (i : Nat) (w : UInt32) : State :=
  let (f, k) : UInt32 × UInt32 :=
    if i < 20 then ((s.b &&& s.c) ||| ((~~~s.b) &&& s.d), 0x5A827999)
    else if i < 40 then (s.b ^^^ s.c ^^^ s.d, 0x6ED9EBA1)
    else if i < 60 then ((s.b &&& s.c) ||| (s.b &&& s.d) ||| (s.c &&& s.d), 0x8F1BBCDC)
    else (s.b ^^^ s.c ^^^ s.d, 0xCA62C1D6)
  ⟨rotl s.a 5 + f + s.e + k + w, s.a, rotl s.b 30, s.c, s.d⟩

def mix (s : State) (block : List UInt32) : State :=
  let w := schedule block.toArray
  let t := (List.range 80).foldl (fun t i => round t i (w.getD i 0)) s
  ⟨s.a + t.a, s.b + t.b, s.c + t.c, s.d + t.d, s.e + t.e⟩

def blocks (ws : List UInt32) : List (List UInt32) :=
  (List.range (ws.length / 16)).map fun i => (ws.drop (16 * i)).take 16

private def hexByte (n : Nat) : List Char :=
  let ds := Nat.toDigits 16 n
  List.replicate (8 - ds.length) '0' ++ ds

def hex (text : String) : String :=
  let s := (blocks (words (pad text.toUTF8.toList))).foldl mix initial
  String.ofList ([s.a, s.b, s.c, s.d, s.e].flatMap fun w => hexByte w.toNat)

end TensorGraph.Sha1

/-!
# Character classes

Three classes of characters above ASCII: those that belong to a word (letters and numbers of any
script), the decimal digits, and those that print as themselves.
-/

namespace TensorGraph.Text

def inRanges (rs : List (Nat × Nat)) (c : Char) : Bool :=
  rs.any fun r => r.1 ≤ c.toNat && c.toNat ≤ r.2

/-- Does the stretch that reaches to place `n` lie inside the class, when the first one does as
given? -/
def inStretch (inside : Bool) : List Nat → Nat → Bool
  | [], _ => false
  | k :: ks, n => if n < k then inside else inStretch (!inside) ks (n - k)

/-- The numbers that a text lists: small letters are leading digits, and a character from `0` to `Z`
ends a number. -/
def numbers (s : String) : List Nat := go 0 s.toList where
  go (n : Nat) : List Char → List Nat
    | [] => []
    | c :: cs => if 'a' ≤ c then go (n * 26 + (c.toNat - 97)) cs else (n * 43 +
      (c.toNat - 48)) :: go 0 cs

def wordStretches : List Nat :=
  numbers
    ("Z1721132131G1O1kL4<>57111d051224116113111D1bX1d:8dU1V216YbLK44b2b0E:421c=11?27?21@11NMc3;1>b092415F419131GI7;5H16AZb?b;31B1" ++
    "7:4:1@48222F17113431@1=2134<262186422F17121212O4117:23@9131F17121531B1?24:91;8222F17121531N2134:17;116331432111232333<F1E=B" ++
    "8131G1@31J321224:871148131G1:1531O2124:12A9131Y21@1531:4C165B3H191127O:Ab512<79:W211151H111:129125119:24P1OD<81TK5cMb0D;664" ++
    "43132734=<11:6V11512b01hP142711142Y142Q142711142?1b>142bH>D3@@c0263oB2A1J5bP3;7B=C>B>=13?b9S1413:6:F:6c3752R115bK:OWX25;b14" ++
    "J6;UG9b:b0:6:=1c7b4A83:YN=b=JTL:3b6297b023Y41612315eDbEgD262V26281111111O2b:1711331734264=5317cM2265;6=c?1412:1135611111141" ++
    ";2455411b?qVbAbSFoLNba>f>6432912V11512b=71@G9717171717171717bU1kW3I975254c0631c4145b01c834:Pb5@P:N81?P:W?hCfx=bEtv<bHb32g;3" ++
    "LDb4@O2bUW92cA2bE521115H@13141G=6:b9>b7L:H631121V:GIM7b4L;651I1YG3184:6G313b71132252111H32;73<6262697171b01>6cM=:6jzS<G4b6h" ++
    "oHiF2cDV7<5511:1=151112121cFQiCBbE2b;X<cN51d6C:7J6J;c336262623S<1J1C121?2>RcU<b2<b>A2fMM3b6@K4T9N5V:N2T4815ZdM2:6T4T4X8b9<;" ++
    "1?17121;1?1712bHh:9F:8H61Z19bJ6211b112312G2O2V89b5C125Q4JbKb=4D2b4?4131M:9GO1PP81L65@b;:F2K5JG7bUbNb<b8=b87Z<:gTO1Z62bSX8F;" ++
    "4KBb3LDG<b:JN1221=b2PI7:9T?:41218S31<b5>4;;114D;B1IbY711141?1:7b4A:;8222F17121531B1<5dMb:B45:53Nb5D2118:dUb4Y4Tb5D1;:Vb0=17" ++
    ":b;KE<47e=b1cNbX<82128121H?111>:bK82W@111L1:X71E1;b3C1BbNg591UA1?M5NcJ7121VE19:66121P>17:h9CeA1?Eb0vCc@cIAeHcj=c;?yWdq7nHhs" ++
    "Qn:7O1:6bT1:6NBb5@4<:171E5Cq0c1cCbP51bG=bE211LfmN8bcRZ9hzR417121gQb23A48j9cbMcE5=397:fcJDcFId6bZ1bL122122241<11171bF1428171" ++
    "L141511371hW2I1I1O1I1O1I1O1I1O1I182b7bpMOl8b2:72:41hDNBb14:bd7714121?1eI29b5bI714:sAb@1314bQb21?eF41K1211211:14111161411111" ++
    "1312112111111111121124171414111:1A53151AnE=cmS:xYbmfEPdsI7f72fe0>grRcu7mJbj1ekU")

def digitRanges : List (Nat × Nat) := [
  (1632, 1641), (1776, 1785), (1984, 1993), (2406, 2415), (2534, 2543), (2662, 2671), (2790, 2799),
    (2918, 2927),
  (3046, 3055), (3174, 3183), (3302, 3311), (3430, 3439), (3558, 3567), (3664, 3673), (3792, 3801),
    (3872, 3881),
  (4160, 4169), (4240, 4249), (6112, 6121), (6160, 6169), (6470, 6479), (6608, 6617), (6784, 6793),
    (6800, 6809),
  (6992, 7001), (7088, 7097), (7232, 7241), (7248, 7257), (42528, 42537), (43216, 43225),
    (43264, 43273),
  (43472, 43481), (43504, 43513), (43600, 43609), (44016, 44025), (65296, 65305), (66720, 66729),
    (68912, 68921),
  (69734, 69743), (69872, 69881), (69942, 69951), (70096, 70105), (70384, 70393), (70736, 70745),
    (70864, 70873),
  (71248, 71257), (71360, 71369), (71472, 71481), (71904, 71913), (72016, 72025), (72784, 72793),
    (73040, 73049),
  (73120, 73129), (92768, 92777), (92864, 92873), (93008, 93017), (120782, 120831),
    (123200, 123209),
  (123632, 123641), (125264, 125273), (130032, 130041)]

def printableStretches : List Nat :=
  numbers
    ("Q<1qJ2647111D1j:1V2b7231b<8K46AF1eD1b52b@2c?>b@2b62?1L211;5O9bO1dP18222F1711342922248142152I2316422F17121212211542233174117" ++
    "A:319131F1712152:131321?42<771318222F1712152922237342152B:216331432111232333<4533142161>E5=131G1@291314721321242:7F131G1:15" ++
    "2913147262142:12==131b813164@2J131B3H191127314611186:23<b?4MU211151H111G2511162:24PbM1T4W1T1?1=UeJ11512iQ142711142Y142Q1427" ++
    "11142?1b>142bH2P3J6c0262oV1L3c37F9H9D<=1312<c82:6:6>1;6c37b05bK:O1<4<413Z25;b14J6;3bC2bF1M2;6:6>2Ob6bR3b41cN8bA3?3bA7b02;8b" ++
    "05mB262V26281111111O2b:1?1>261C2319AH8b4A22K1=3Q?Q?d;4pBI;Ebq62P1i55b211512b=72>H97171717171717171cXRJ1c3<eZJ<5bD1c02cA5b01" ++
    "c81bY<b41baf:3b<9i4De<8eO521115Hb@3:6b=8bK8<6cN;N3bS1;4Q1b<9>2:2cAHL:6262697171bA4cX2:6jzS<G4b6hoHiF2cDV7<55J151112121cW@k?" ++
    "2b;71PZ6b81C14451d64eB362626233717=22<1J1C121?2>RcU534b23c21=31b4b3d1M3b6?L4T9N5b05N1U4>ZdM2:6T4T4X8b9;<1?17121;1?1712bHh:9" ++
    "F:8H61Z19bJ6211b112312G1bM89b5C125Q3K51bEb=4D2b71258131M234:797bEPW4<9b;3M2K5J74<7bUbNb<b8=b87b38:gTO1Z1322bSX8ZFJVLDG9bS4T" ++
    "9bC15=I7:6b:1B8W9c:1D;B1b1bF711141?1;6b@5:6418222F1712151:22232161572735d:c615NbM8:dUb;2VRbJ;:6=Cb?6:b;K2?4Ge=bAc>bX<821281" ++
    "21N122<9:bK82b32;KbM8bX=bNg591b21>:M3P2F1>bN7121b13112198:66121U12167:h9Ie;1?b7=vDc@cI15;eHcj=c==yWdq7nHhsQn:7O1:4bV1:6N26:" ++
    "bK::171E5Cq0c5c?bP4b>7AbE5;2>fmN8bcRZ9hzR417121gQb23A48j9cbMcE5=397:24efAb32G9cNbAfO:W2bO8cJEbKdID<c19Id6bZ1bL122122241<111" ++
    "71bF1428171L141511371hW2gR2q>?51?zMOf:71A271215eYb23>2:42hCOAb?51bd1714121?1eI2@YbQ4:42s;bIbQbBeF41K1211211:141111614111111" ++
    "312112111111111121124171414111:1A53151Ab92g<b14c><?2?1?1U:e2b=M=b14972>6dIwV5@3=3cN<c37<41?<4b=8:6X8N22bShW<>2535379M3;56::" ++
    "68879dB1b<U:xYbmfEPdsI7f72fe0>grRcu7mJbj1ekUyqq5fI")

def isWord (c : Char) : Bool :=
  c.isAlphanum || c == '_' || 128 ≤ c.toNat && inStretch false wordStretches (c.toNat - 128)

def isDecimal (c : Char) : Bool := c.isDigit || inRanges digitRanges c

def isPrintable (c : Char) : Bool :=
  if c.toNat < 128 then 32 ≤ c.toNat && c.toNat < 127 else inStretch false printableStretches
    (c.toNat - 128)

end TensorGraph.Text

import TensorGraph.Fusion.Chain
import TensorGraph.Strided.Support

/-!
# Groups of independent operators

Operators of one kind of which none depends on another are run as one. `Descendants` lists for each
of them the operators of its kind that depend on it.
-/

namespace TensorGraph

namespace Grouping

open Build

/-! ## Dependencies -/

abbrev Seen := List (TensorId × List OpId)

def union (as bs : List OpId) : List OpId := as ++ bs.filter (!as.contains ·)

/-- Collects the operators of a kind behind a tensor, and its own source if it is of the kind and
the tensor was not seen before. -/
def walk (g : Arena) (kind : String) : Nat → Seen → TensorId → Except Fault (Seen × List OpId)
  | 0, _, _ => .error .tooDeep
  | n + 1, seen, t => do
    if let some os := seen.lookup t then return (seen, os)
    let (seen, found) ← (g.tensor t).dst.ops.foldlM (fun (seen, found) o => do
      let some ys := (g.op o).outputs | throw .badKey
      ys.foldlM (fun (seen, found) y => do
        let (seen, more) ← walk g kind n seen y
        return (seen, union found more)) (seen, found)) (seen ++ [(t, [])], ([] : List OpId))
    let seen := seen.map fun e => if e.1 == t then (t, found) else e
    match (g.tensor t).src.ops with
    | [] => return (seen, found)
    | [o] => return (seen, if (g.op o).kind == kind then union found [o] else found)
    | os => throw (.manySources os.length)

abbrev Descendants := List (OpId × List OpId)

/-- Sets the entry of an operator, at the place that it already has or at the end. -/
def Descendants.put (d : Descendants) (o : OpId) (os : List OpId) : Descendants :=
  if d.any (·.1 == o) then d.map fun e => if e.1 == o then (o, os) else e else d ++ [(o, os)]

def survey (kind : String) (ts : Graph) : Build Seen := do
  let g ← get
  ts.foldlM (fun seen t => do return (← ofExcept (walk g kind (g.tensors.size + 1) seen t)).1) []

/-- What was found behind a tensor counts for its source, in place of what was found behind another
tensor before. -/
def Descendants.note (g : Arena) (kind : String) (d : Descendants) (e : TensorId × List OpId) :
    Descendants :=
  match (g.tensor e.1).src.ops.head? with
  | some o => if (g.op o).kind == kind then d.put o e.2 else d
  | none => d

def descendants (kind : String) (ts : Graph) : Build Descendants := do
  let seen ← survey kind ts
  return seen.foldl (Descendants.note (← get) kind) []

/-! ## Compatible operators -/

def alignment (o : OpId) : Build Int := do
  let x ← op o
  require (.noAlignmentRule x.kind) ("gemm_rcr".isPrefixOf x.kind)
  let k ← fixedSize (← axis (← shape (← inputAt o 0)) 1)
  return Matmul.commonAlignment k k

/-- Can a product be in a group: not scaled, its first operand a matrix of fixed size with even
rows. -/
def isCandidateProduct (o : OpId) : Build Bool := do
  match Number.ofValue? (← param o "alpha") with
  | some n => if !n.same 1 then return false
  | none => return false
  let s ← shape (← inputAt o 0)
  let g ← get
  if s.length != 2 || !Shape.allStatic g.dim s 0 then return false
  return decide (1 < (← alignment o))

def normSize (o : OpId) : Build Int := do
  let ns ← (← Norm.members (← param o "normalized_shape")).mapM fun v =>
    match v with
    | .dim d => fixedSize d
    | .tensor _ | .op _ => throw .noField
    | _ => throw .noField
  return ns.prodInt

def sizesAgree (a b : Int) : Bool :=
  let by4 (n : Int) : Bool := n % 4 == 0
  let inRange (n : Int) : Bool := 128 ≤ n && n ≤ 4096
  if a < 128 && b < 128 then true
  else if a ≤ 4096 && b ≤ 4096 && by4 a != by4 b then false
  else if 4 * b ≤ a || 4 * a ≤ b then false
  else if by4 a then inRange a == inRange b
  else true

def rowsAgree (a b : OpId) : Build Bool := do
  let sa ← shape (← inputAt a 0)
  let sb ← shape (← inputAt b 0)
  if sa.length != sb.length then return false
  let na ← Norm.members (← param a "normalized_shape")
  let nb ← Norm.members (← param b "normalized_shape")
  if na.length != nb.length then return false
  let rows := sa.length - na.length
  return Shape.same (← get).dim (sa.take rows) (sb.take rows)

def normsAgree (a b : OpId) : Build Bool := do
  if a == b then return true
  if (← param a "eps") != (← param b "eps") then return false
  if (← inputs a).length != 3 || (← inputs b).length != 3 then return false
  if !(← rowsAgree a b) then return false
  if !((← param a "gamma_constant") matches .none) then return false
  if !((← param a "beta_constant") matches .none) then return false
  return sizesAgree (← normSize a) (← normSize b)

def agree (kind : String) (a b : OpId) : Build Bool := do
  if (← inputs a).isEmpty || (← inputs a).length != (← inputs b).length then return false
  if (← outputs a).length != 1 then return false
  if "gemm".isPrefixOf kind then return (← alignment a) == (← alignment b)
  if "layernorm".isPrefixOf kind then normsAgree a b else return true

def isCandidate (kind : String) (o : OpId) : Build Bool :=
  if "gemm".isPrefixOf kind then isCandidateProduct o else pure true

/-! ## Finding groups -/

/-- The kinds of products that can be grouped, with the operator that stands for a group. -/
def groupClasses : List (String × OpClass) :=
  [("gemm_rcr", .groupGemmRcr), ("gemm_rcr_bias", .groupGemmRcrBias),
    ("gemm_rcr_bias_relu", .groupGemmRcrBiasRelu),
   ("gemm_rcr_bias_sigmoid", .groupGemmRcrBiasSigmoid)]

/-- Can the operators behind a split read straight from the tensor before it? -/
def isFusibleSplit (o : OpId) : Build Bool := do
  if (← param o "split_dim") != .int 1 then return false
  Strided.isFixedFrom o 1

/-- The products of a kind that read the parts of a split, as long as they agree. -/
def splitUsers (kind : String) : List TensorId → List OpId → Build (List OpId)
  | [], group => return group
  | t :: ts, group => do
    let some o := (← tensor t).dst.ops.head? | return group
    if (← op o).kind != kind then return group
    if !(← isCandidateProduct o) then return group
    match group.getLast? with
    | none => splitUsers kind ts [o]
    | some p => if (← alignment p) == (← alignment
      o) then splitUsers kind ts (group ++ [o]) else return group

def splitGroups (kind : String) (ops : List OpId) : Build (List (List OpId)) := do
  if (groupClasses.lookup kind).isNone then return []
  let found ← ops.mapM fun o => do
    if (← op o).kind != "split" then return []
    if !(← isFusibleSplit o) then return []
    let ys ← outputs o
    let group ← splitUsers kind ys []
    return if group.length == ys.length then [group] else []
  return found.flatten

def number (o : OpId) : Build Int := do
  let name ← expect .noField (← op o).name
  expect .badNumber ((name.splitOn "_").getLastD "").toInt?

def mostNorms : Nat := 39

def cut (group : List OpId) : Build (List (List OpId)) := do
  let sized ← group.mapM fun o => do return (o, ← normSize o)
  let sorted := (sized.mergeSort fun a b => b.2 ≤ a.2).map (·.1)
  let count := (sorted.length + mostNorms - 1) / mostNorms
  return (List.range count).map fun i =>
    (sorted.take (min ((i + 1) * mostNorms) count)).drop (i * mostNorms)

/-- The search for groups: the operators that are already in one, those still free, and the
groups. -/
structure Search where
  taken : List OpId
  free : List OpId
  groups : List (List OpId)
deriving Inhabited

/-- Takes an operator into a group if it is not known to depend on a member and agrees with the
first one. -/
def takeIn (kind : String) (d : Descendants) (first : OpId) (acc : List OpId × List OpId)
    (p : OpId) :
    Build (List OpId × List OpId) := do
  if acc.2.contains p then return acc
  if !(← agree kind first p) then return acc
  return (acc.1 ++ [p], union acc.2 (← expect .badKey (d.lookup p)))

/-- Collects what can be in a group with an operator: free operators that depend on no member, in
the order of their numbers. -/
def collect (kind : String) (d : Descendants) (o : OpId) (free : List OpId) :
    Build (List OpId) := do
  let below ← expect .badKey (d.lookup o)
  let numbered ← (free.filter (!below.contains ·)).mapM fun p => do return (p, ← number p)
  let sorted := (numbered.mergeSort fun a b => a.2 ≤ b.2).map (·.1)
  return (← sorted.foldlM (takeIn kind d o) ([o], below)).1

def Search.step (kind : String) (d : Descendants) (s : Search) (o : OpId) : Build Search := do
  let free := s.free.filter (· != o)
  if s.taken.contains o then return { s with free := free }
  let group ← collect kind d o free
  let groups ←
    if mostNorms < group.length && "layernorm".isPrefixOf kind then pure (s.groups ++ (← cut group))
    else pure (if 2 ≤ group.length then s.groups ++ [group] else s.groups)
  return ⟨s.taken ++ group, free.filter (!group.contains ·), groups⟩

def findGroups (kind : String) (ts : Graph) : Build (List (List OpId)) := do
  let d ← descendants kind ts
  if d.isEmpty then return []
  let ops := Graph.sources (← get) ts
  let candidates ← ops.filterM fun o => do
    if (← op o).kind != kind then return false
    isCandidate kind o
  require .unmet (candidates.length ≤ d.length)
  let split ← splitGroups kind ops
  let candidates := candidates.filter fun o => !split.any (·.contains o)
  let s ← candidates.foldlM (Search.step kind d) ⟨[], candidates, split⟩
  return s.groups

/-! ## Replacing groups -/

def sortByWeight (group : List OpId) : Build (List OpId) := do
  let named ← group.mapM fun o => do return (o, ← expect .badType (← tensor (← inputAt o 1)).name)
  return (named.mergeSort fun a b => !decide (b.2 < a.2)).map (·.1)

def takeOutputs (group : List OpId) (ys : List TensorId) : Build Unit := do
  for (o, i) in group.zipIdx do
    let y ← expect .badIndex ys[i]?
    replaceTensor (← outputAt o 0) y

def forgetMembers (group : List OpId) : Build Unit := do
  for o in group do
    forgetUse (← inputs o) o

def joinNorms (group : List OpId) : Build (List TensorId) := do
  let group ← sortByWeight group
  let first ← expect .badIndex group.head?
  let operands ← group.mapM inputs
  let norms ← group.mapM fun o => param o "normalized_shape"
  forgetMembers group
  let c : OpClass := if (← op first).kind == "layernorm" then .groupLayernorm else
    .groupLayernormSigmoidMul
  let eps ← param first "eps"
  let column (i : Nat) : Build Value := do
    return .list ((← operands.mapM fun ts => expect .badIndex ts[i]?).map .tensor)
  let vs ← ofExcept ((Signature.fixed (Catalog.settings c)).bind? ⟨[], []⟩)
  let o ← Catalog.create c vs
  let _ ← Catalog.apply c o vs [← column 0, ← column 1, ← column 2, .list norms, eps]
  let ys ← outputs o
  takeOutputs group ys
  return ys

def joinProducts (group : List OpId) : Build (List TensorId) := do
  let first ← expect .badIndex group.head?
  let kind := (← op first).kind
  require (.notGroupable kind) ("gemm_rcr".isPrefixOf kind)
  let group ← sortByWeight group
  let sized ← group.mapM fun o => do
    let s ← shape (← inputAt o 1)
    return (o, ← fixedSize (← axis s 1), ← fixedSize (← axis s 0))
  let group := (sized.mergeSort fun a b => b.2.1 < a.2.1 || b.2.1 == a.2.1 && b.2.2 ≤ a.2.2).map
    (·.1)
  let operands ← group.mapM inputs
  forgetMembers group
  let c ← expect (.notGroupKind kind) (groupClasses.lookup kind)
  let ys ← Matmul.applyGroup (← Matmul.create c) operands none
  takeOutputs group ys
  return ys

def joinKind (kind : String) (ts : Graph) : Build Graph := do
  let groups ← findGroups kind ts
  if groups.isEmpty then return ts
  let ts ← groups.foldlM (fun (ts : Graph) group => do
    return ts ++ (← if "layernorm".isPrefixOf kind then joinNorms group else joinProducts group)) ts
  Graph.tidy (← Graph.sort ts)

def productGroups (ts : Graph) : Build Graph := groupClasses.foldlM (fun ts (kind, _) =>
    joinKind kind ts) ts

def normGroups (ts : Graph) : Build Graph := do
    joinKind "layernorm" (← joinKind "layernorm_sigmoid_mul" ts)

def fuse (ts : Graph) : Build Graph := do
  let t ← target
  if t.platform != .cuda then return ts
  let ts ← if t.mentions "fuse_group_gemm" then productGroups ts else pure ts
  normGroups ts

end Grouping

end TensorGraph

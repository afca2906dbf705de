import TensorGraph.Shape

/-!
# Accessors

An accessor says how an operator reaches the elements of a tensor that lies inside another one: the
shape the operator sees, the shape of what is really stored, and, once the tensor has become a part
of a larger one, the axis along which it is a part, its offset there and the number of elements from
that axis on.
-/

namespace TensorGraph

abbrev AxisGroup := List Nat × List Nat

/-- How the elements of a tensor are reached. -/
structure Accessor where
  offset : Int
  seenShape : List DimId
  isContiguous : Bool
  fromStrided : Bool
  strideDim : Option Int
  storedShape : Option (List DimId)
  /-- the number of elements from the stride axis on, in the tensor and in what is stored -/
  seenTotal : Option Int
  storedTotal : Option Int
  groups : Option (List AxisGroup)
deriving DecidableEq, Inhabited, Repr

namespace Accessor

def trivialGroups (rank : Nat) : List AxisGroup := (List.range rank).map fun i => ([i], [i])

def ofShape (shape : List DimId) : Accessor where
  offset := 0
  seenShape := shape
  isContiguous := true
  fromStrided := false
  strideDim := none
  storedShape := none
  seenTotal := none
  storedTotal := none
  groups := some (trivialGroups shape.length)

/-! ## Relating two shapes of the same elements -/

/-- A partly walked shape: the next axis, the first axis of the open group and the elements that the
open group spans so far. -/
structure Walk where
  next : Nat
  start : Nat
  span : Option Int
deriving DecidableEq, Repr

namespace Walk

def axes (w : Walk) (n : Nat) : List Nat := List.range' w.start (w.next + n - w.start)

def close (w : Walk) (n : Nat) : Walk := ⟨w.next + n, w.next + n, none⟩

end Walk

def groupAxesFrom? (os as : List Dim) (o a : Walk) (acc : List AxisGroup) :
    Option (List AxisGroup) :=
  match os, as with
  | x :: os', y :: as' =>
    if x.isFixed 1 && o.span.isNone then
      groupAxesFrom? os' (y :: as') (o.close 1) a (acc ++ [(o.axes 1, [])])
    else if y.isFixed 1 && a.span.isNone then
      groupAxesFrom? (x :: os') as' o (a.close 1) (acc ++ [([], a.axes 1)])
    else if !x.isStatic || !y.isStatic then
      if x.same y && o.span.isNone && a.span.isNone then
        groupAxesFrom? os' as' (o.close 1) (a.close 1) (acc ++ [(o.axes 1, a.axes 1)])
      else none
    else
      match o.span, a.span with
      | none, none =>
        if x.value == y.value then
          groupAxesFrom? os' as' (o.close 1) (a.close 1) (acc ++ [(o.axes 1, a.axes 1)])
        else
          groupAxesFrom? os' as' { o with next := o.next + 1, span := some x.value }
            { a with next := a.next + 1, span := some y.value } acc
      | none, some q =>
        if x.value == q then
          groupAxesFrom? os' (y :: as') (o.close 1) (a.close 0) (acc ++ [(o.axes 1, a.axes 0)])
        else groupAxesFrom? os' (y :: as') { o with next := o.next + 1, span := some x.value } a acc
      | some p, none =>
        if p == y.value then
          groupAxesFrom? (x :: os') as' (o.close 0) (a.close 1) (acc ++ [(o.axes 0, a.axes 1)])
        else groupAxesFrom? (x :: os') as' o { a with next := a.next + 1, span := some y.value } acc
      | some p, some q =>
        if p < q then
          if p * x.value == q then
            groupAxesFrom? os' (y :: as') (o.close 1) (a.close 0) (acc ++ [(o.axes 1, a.axes 0)])
          else groupAxesFrom? os' (y :: as')
            { o with next := o.next + 1, span := some (p * x.value) } a acc
        else if q < p then
          if p == q * y.value then
            groupAxesFrom? (x :: os') as' (o.close 0) (a.close 1) (acc ++ [(o.axes 0, a.axes 1)])
          else groupAxesFrom? (x :: os') as' o
            { a with next := a.next + 1, span := some (q * y.value) } acc
        else none
  | [], [] => if o.span.isNone && a.span.isNone then some acc else none
  | _, _ => none
termination_by os.length + as.length

def endMark : Dim := Dim.static 0xFFFFFFFFFFFFFFFF

def groupAxes? (os as : List Dim) : Option (List AxisGroup) :=
  (groupAxesFrom? (os ++ [endMark]) (as ++ [endMark]) ⟨0, 0, none⟩ ⟨0, 0, none⟩ []).map
    List.dropLast

/-! ## Strides -/

/-- The factor that an axis contributes to a stride: its size, or for a dynamic axis its name, given
or its own. -/
def factor? (look : DimTable) (names : Option (List String)) (shape : List DimId) (i : Int) :
    Except Fault (Option String) := do
  let some d := shape.at? i | throw .badIndex
  if (look d).isStatic then return some (toString (look d).value)
  match names with
  | none => return (look d).name
  | some ns =>
    let some n := ns.at? i | throw .badIndex
    return some n

/-- The factors of the stride of one axis, behind the groups of the axes before it. -/
def stridesFrom? (look : DimTable) (names : Option (List String)) (a : Accessor)
    (strideDim dim : Int) :
    Bool → List AxisGroup → Except Fault (Option (List (Option String)))
  | _, [] => .ok (some [])
  | false, (os, as) :: rest =>
    if os.any fun (i : Nat) => (i : Int) == dim then
      let idx := os.findIdx fun (i : Nat) => (i : Int) == dim
      if as.any (fun (i : Nat) => (i : Int) == strideDim) && idx + 1 != os.length then .ok none
      else do
        let head ← (os.drop (idx + 1)).mapM fun (i : Nat) => factor? look names a.seenShape i
        let tail ← stridesFrom? look names a strideDim dim true rest
        return tail.map (head ++ ·)
    else stridesFrom? look names a strideDim dim false rest
  | true, (os, as) :: rest =>
    if as.any fun (i : Nat) => (i : Int) == strideDim then
      if as.findIdx (fun (i : Nat) => (i : Int) == strideDim) != 0 then .ok none
      else do
        let head ← as.mapM fun (i : Nat) => factor? look names (a.storedShape.getD []) i
        let tail ← stridesFrom? look names a strideDim dim true rest
        return tail.map (head ++ ·)
    else do
      let head ← os.mapM fun (i : Nat) => factor? look names a.seenShape i
      let tail ← stridesFrom? look names a strideDim dim true rest
      return tail.map (head ++ ·)

/-- The factors whose product is the distance between neighbours along an axis, if they are
known. -/
def strides? (look : DimTable) (a : Accessor) (dim : Int) (names : Option (List String)) :
    Except Fault (Option (List (Option String))) := do
  if (a.seenShape.length : Int) ≤ dim then throw (.beyondRank dim a.seenShape.length)
  if let some ns := names then
    if ns.length != a.seenShape.length then throw (.dimNames ns a.seenShape.length)
  match a.strideDim with
  | none =>
    let count := ((a.seenShape.length : Int) - (dim + 1)).toNat
    let fs ← (List.range count).mapM fun (k : Nat) => factor? look names a.seenShape (dim + 1 + k)
    return some fs
  | some s =>
    match a.groups with
    | none => return none
    | some gs => stridesFrom? look names a s dim false gs

def stride? (look : DimTable) (a : Accessor) (dim : Int) : Except Fault Int := do
  if !Shape.allStatic look a.seenShape (dim + 1) then throw .dynamicStride
  let some fs ← strides? look a dim none | throw .noStride
  fs.foldlM (fun n f =>
    match f with
    | none => throw .badType
    | some t =>
      match t.toInt? with
      | some k => pure (n * k)
      | none => throw .badNumber) 1

/-- The distance between neighbours along an axis, as a product of sizes and names. -/
def strideText? (look : DimTable) (a : Accessor) (dim : Int) (names : Option (List String)) :
    Except Fault String := do
  let some fs ← strides? look a dim names | throw .noStride
  let ts ← fs.mapM fun f =>
    match f with
    | some t => pure t
    | none => throw Fault.badType
  return " * ".intercalate ts

/-! ## Updates -/

/-- Multiplies the totals and the offset by the sizes of the axes behind the stride axis, which are
fixed and equal in both shapes. -/
def spanAfter (look : DimTable) : List DimId → List DimId → Accessor → Accessor × Option Fault
  | x :: xs, y :: ys, a =>
    if !(look x).isStatic || !(look y).isStatic then (a, some .dynamicAfterStride)
    else if (look x).values != (look y).values then (a, some .changedAfterStride)
    else
      let n := (look y).value
      spanAfter look xs ys { a with
        seenTotal := a.seenTotal.map (· * n)
        storedTotal := a.storedTotal.map (· * n)
        offset := a.offset * n }
  | _, _, a => (a, none)

/-- Notes whether the tensor is a proper part of what is stored, and whether it lies there in one
piece. -/
def noteParts (a : Accessor) (strideDim : Int) : Accessor :=
  match a.seenTotal, a.storedTotal with
  | some o, some t =>
    if o < t then { a with fromStrided := true, isContiguous := a.isContiguous &&
      !(decide (0 < strideDim)) } else a
  | _, _ => a

def rebase (look : DimTable) (a : Accessor) (shape : List DimId) (strideDim offset : Int) :
    Accessor × Option Fault :=
  if a.strideDim.isSome then (a, some .strideFixed)
  else
    let old := a.storedShape.getD a.seenShape
    let a := { a with storedShape := some shape, strideDim := some strideDim }
    if shape.length != old.length then (a, some .rankChanged)
    else if (shape.length : Int) ≤ strideDim then
      (a, some (.strideBeyondRank strideDim shape.length))
    else
      match old.at? strideDim, shape.at? strideDim with
      | some x, some y =>
        if !(look x).isStatic || !(look y).isStatic then (a, some .dynamicStrideDim)
        else
          let a := { a with
            seenTotal := some (look x).value
            storedTotal := some (look y).value
            offset := offset }
          match spanAfter look (old.fromIdx (strideDim + 1)) (shape.fromIdx (strideDim + 1)) a with
          | (a, some f) => (a, some f)
          | (a, none) => (a.noteParts strideDim, none)
      | _, _ => (a, some .badIndex)

def sameDynamic (look : DimTable) (as bs : List DimId) : Bool :=
  let dyn (ds : List DimId) := (ds.map look).filter (!·.isStatic)
  (dyn as).all (fun d => (dyn bs).any d.same) && (dyn bs).all (fun d => (dyn as).any d.same)

def reshape (look : DimTable) (a : Accessor) (shape : List DimId) : Accessor × Option Fault :=
  if a.strideDim.isSome then (a, some .strideFixed)
  else
    let a := { a with storedShape := some shape }
    if sameDynamic look a.seenShape shape then
      ({ a with groups := groupAxes? (a.seenShape.map look) (shape.map look) }, none)
    else (a, some .dynamicDimsChanged)

/-! ## Trials -/

/-- The accessor of a copy of the tensor: it knows the shapes and their groups of axes, and no
stride yet. -/
def copy (a : Accessor) : Accessor :=
  { ofShape a.seenShape with storedShape := a.storedShape, groups := a.groups }

private def unusedId (ds : List DimId) : DimId := ⟨(ds.map (·.idx)).foldl max 0 + 1⟩

/-- Are the strides at axis `at_` still known after axis `dim` has become a part of a larger one? -/
def allowsStride? (look : DimTable) (a : Accessor) (dim : Int) (at_ : Option Int) :
    Except Fault Bool := do
  let rank := a.seenShape.length
  let axes ← (List.range ((rank : Int) - dim).toNat).mapM fun (k : Nat) =>
    match a.seenShape.at? (dim + k) with
    | some d => .ok (look d)
    | none => .error Fault.badIndex
  if !axes.all (·.isStatic) then return false
  let old := a.storedShape.getD a.seenShape
  let some d := old.at? dim | throw .badIndex
  if !(look d).isStatic then throw .noField
  let wider := unusedId (old ++ a.seenShape)
  let some shape := old.setAt? dim wider | throw .badIndex
  let look' : DimTable := fun i => if i == wider then .static ((look d).value + 1) else look i
  match a.copy.rebase look' shape dim 0 with
  | (_, some f) => throw f
  | (b, none) => return (← b.strides? look' (at_.getD ((rank : Int) - 2)) none).isSome

private theorem le_foldl_max {n m : Nat} {ns : List Nat} (h : n ≤ m ∨ n ∈ ns) :
    n ≤ ns.foldl max m := by
  induction ns generalizing m with
  | nil => simpa using h
  | cons k ns ih =>
    refine ih ?_
    rcases h with before | here
    · exact .inl (by omega)
    · rcases List.mem_cons.1 here with rfl | later
      · exact .inl (by omega)
      · exact .inr later

private theorem unusedId_not_mem (ds : List DimId) : unusedId ds ∉ ds := by
  intro h
  have below : (unusedId ds).idx ≤ (ds.map (·.idx)).foldl max 0 :=
    le_foldl_max (.inr (List.mem_map_of_mem h))
  exact Nat.not_succ_le_self _ below

/-- What a trial has seen: on a copy, one more element along the axis, under a dimension that occurs
nowhere else, leaves the strides known. -/
theorem allowsStride?_ok {look : DimTable} {a : Accessor} {dim : Int} {at_ : Option Int}
    (h : a.allowsStride? look dim at_ = .ok true) :
    ∃ d wider shape b fs, (a.storedShape.getD a.seenShape).at? dim = some d ∧
    (look d).isStatic = true ∧
      wider ∉ a.storedShape.getD a.seenShape ∧ (a.storedShape.getD a.seenShape).setAt? dim wider =
        some shape ∧
      a.copy.rebase (fun i => if i == wider then .static ((look d).value + 1) else look i) shape dim
        0 = (b, none) ∧
      b.strides? (fun i => if i == wider then .static ((look d).value + 1) else look i)
        (at_.getD ((a.seenShape.length : Int) - 2)) none = .ok (some fs) := by
  unfold allowsStride? at h
  simp only [bind, Except.bind, pure, Except.pure] at h
  split at h
  · cases h
  split at h
  · cases h
  split at h
  · next d here =>
    split at h
    · cases h
    next static =>
    split at h
    · next shape set =>
      split at h
      · cases h
      · next b rebased =>
        split at h
        · cases h
        · next found known =>
          obtain ⟨fs, rfl⟩ := Option.isSome_iff_exists.1 (Except.ok.inj h)
          exact ⟨d, _, shape, b, fs, here, by simpa using static,
            fun used => unusedId_not_mem _ (List.mem_append_left _ used), set, rebased, known⟩
    · cases h
  · cases h

/-! ## Comparison -/

def sameShape? (look : DimTable) : Option (List DimId) → Option (List DimId) → Bool
  | none, none => true
  | some as, some bs => Shape.same look as bs
  | _, _ => false

def same (look : DimTable) (a b : Accessor) : Bool :=
  a.offset == b.offset && Shape.same look a.seenShape b.seenShape && a.isContiguous ==
    b.isContiguous &&
  a.fromStrided == b.fromStrided && a.strideDim == b.strideDim && sameShape? look a.storedShape
    b.storedShape &&
  a.seenTotal == b.seenTotal && a.storedTotal == b.storedTotal && a.groups == b.groups

end Accessor

end TensorGraph

import TensorGraph.Workload

/-!
# Normalisation

Layers that normalise over the last axes (`layernorm`), over groups of channels (`group_norm`), or
several tensors at once (`group_layernorm`), and softmax.
-/

namespace TensorGraph

namespace Norm

open Build

def tuned : Build Bool := return ((← get).target.map (·.platform)) == some .rocm

def constantFor (given : Bool) (text : String) : Value := if given then .none else .text text

/-- The small number that keeps a variance away from zero has to be a fraction. -/
def checkEps (eps : Value) : Build Unit :=
  match eps with
  | .float _ => pure ()
  | v => throw (.epsType v)

def members (v : Value) : Build (List Value) :=
  match v with
  | .list xs | .tuple xs => pure xs
  | _ => throw .badType

/-! ## The shapes of parameters -/

def checkParam (x : List DimId) (name : String) (given : Value) : Build Unit := do
  let g ← get
  let ps ← members given
  let dims ← ps.mapM fun v =>
    match v with
    | .dim d => if (g.dim d).isStatic then pure (g.dim d) else throw (.layernormStatic name given)
    | _ => throw (.layernormStatic name given)
  for (d, i) in dims.zipIdx do
    let e ← axis x ((x.length : Int) - ps.length + i)
    require .layernormShapes (d.value == (← fixedSize e))

def checkShapes (x : List DimId) (gamma beta : List DimId) (norm : Value) : Build Unit := do
  let ns ← members norm
  require (.layernormRank norm x.length) (decide (ns.length < x.length))
  checkParam x "gamma" (.list (gamma.map .dim))
  checkParam x "beta" (.list (beta.map .dim))
  checkParam x "normalized" norm

def shapeOf (t : Option TensorId) : Build (List DimId) :=
  match t with
  | some t => shape t
  | none => pure []

/-! ## Layers -/

def createLayer (cls : OpClass) (default : Value) : Build OpId := do
  let tuned ← tuned
  newOp cls cls.label [("has_profiler", .bool tuned), ("default_normalized_shape", default),
    ("normalized_shape", .list [])]

def layerKey (sizes : List (String × List String)) : Build String :=
  expect (.emptyRange "Layernorm") (Workload.conditions? sizes)

def layerWorkloads (o : OpId) (strategy : Value) : Build Unit := do
  let p ← op o
  if p.param? "has_profiler" matches some (.bool true) then
    let ns ← members (← param o "normalized_shape")
    require .layernormTuned (ns.length == 1)
  let s ← shape (← inputAt o 0)
  let rows ← s.dropLast.mapM dim
  let most := (rows.map (·.upper)).prodInt
  let least := (rows.map (·.lower)).prodInt
  let n ← fixedSize (← axis s (-1))
  modifyOp o fun p => { p with execPath := some [] }
  let pick ← match strategy with
    | .strategy .max => pure (some most)
    | .strategy .min => pure (some least)
    | _ => pure none
  if let some m := pick then
    let key ← layerKey [("M", [toString m]), ("N", [toString n])]
    let cond ← layerKey [("M", [toString least, toString most]), ("N", [toString n])]
    modifyOp o fun p => { p with execPath := some [(key, .item key cond "")] }

def checkBatch (o : OpId) (count : Nat) (x : List DimId) (gamma beta : Option TensorId) :
    Build Unit := do
  let g ← get
  require (.layernormInputs 4 count) (1 ≤ count && count ≤ 4)
  let rank (what : String) (n : Nat) (s : List DimId) : Build Unit :=
    require (.batchLayernormRank what s.length) (s.length == n)
  rank "input must be a 3-d matrix, current shape" 3 x
  let flat (t : Option TensorId) (what : String) : Build Unit := do
    if let some t := t then rank s!"{what} must be a 2-d matrix, current shapes" 2 (g.tensor
      t).shape
  flat gamma "gamma"
  flat beta "beta"
  let fits (t : Option TensorId) : Build Unit := do
    if let some t := t then
      let s := (g.tensor t).shape
      let same (i j : Nat) : Bool := (g.dim (x.getD i default)).same (g.dim (s.getD j default))
      require .layernormShapes (same 2 1 && same 0 0)
  fits gamma
  fits beta
  let norm ← param o "normalized_shape"
  match ← members norm with
  | [.dim d] => require .layernormShapes ((g.dim d).values == (g.dim (x.getD 2 default)).values)
  | [.tensor _] | [.op _] => throw .badKey
  | [_] => throw .noField
  | _ => throw (.batchLayernormNormRank norm)

def applyLayer (o : OpId) (x : TensorId) (gamma beta : Option TensorId)
    (norm : Option (List DimId × List Value))
    (eps : Value) : Build TensorId := do
  setParam o "gamma_constant" (constantFor gamma.isSome "1.0")
  setParam o "beta_constant" (constantFor beta.isSome "0.0")
  let extra ← match norm with
    | some (ds, extra) => do
      setParam o "normalized_shape" (.list (ds.map .dim))
      pure extra
    | none => do
      setParam o "normalized_shape" (← param o "default_normalized_shape")
      pure []
  checkEps eps
  setParam o "eps" eps
  let s ← shape x
  let sizeTensors := extra.filterMap fun v => if let .tensor t := v then some t else none
  let ts := x :: (gamma.toList ++ beta.toList ++ sizeTensors)
  modifyOp o fun p => { p with inputs := some ts, inputAccessors := some [.ofShape s] }
  let count := 1 + gamma.toList.length + beta.toList.length + extra.length
  if (← op o).cls == .batchLayernormSigmoidMul then checkBatch o count s gamma beta
  else
    let norm ← param o "normalized_shape"
    let most := 3 + ((← members norm).length : Int)
    require (.layernormInputs most count) (decide ((count : Int) ≤ most))
    checkShapes s (← shapeOf gamma) (← shapeOf beta) norm
  linkInputs o
  require .badKey (extra.length == sizeTensors.length)
  layerWorkloads o (.strategy .max)
  let y ← soleOutput o s
  modifyOp o fun p => { p with outputAccessors := some [.ofShape s] }
  return y

/-! ## Several layers at once -/

def createGroupLayer (cls : OpClass) (default : Value) : Build OpId := do
  match default with
  | .none => pure ()
  | v =>
    let vs ← members v
    require .badIndex !vs.isEmpty
  let o ← createLayer cls default
  setParam o "has_profiler" (.bool false)
  return o

/-- The operands that are given must be all there or all missing. -/
def allOrNone (missing : Fault) (ts : List (Option TensorId)) : Build Bool := do
  match ts with
  | [] => throw .badIndex
  | some _ :: rest =>
    require missing (rest.all (·.isSome))
    return true
  | none :: rest =>
    require .groupNormMissing (rest.all (·.isNone))
    return false

def checkCommonAxes (xs : List TensorId) (normRank : Nat) : Build Unit := do
  let g ← get
  let first := (g.tensor (xs.headD default)).shape
  for k in List.range (first.length - normRank) do
    for (x, i) in xs.zipIdx do
      let d ← axis (g.tensor x).shape k
      require (.groupNormShapes (i + 1)) ((g.dim (first.getD k default)).same (g.dim d))

def checkGroup (all : List (Option TensorId)) (norm : Value) : Build Unit := do
  require (.groupNormInputs all.length) (all.length % 3 == 0)
  let b := all.length / 3
  require .unmet (0 < b)
  let norms ← members norm
  require .unmet (norms.length == b)
  let thirds := (all.take b).zip (((all.drop b).take b).zip (all.drop (2 * b)))
  for ((x, gamma, beta), n) in thirds.zip norms do
    let x ← expect .noField x
    checkShapes (← shape x) (← shapeOf gamma) (← shapeOf beta) n
  let n ← members (norms.headD .none)
  checkCommonAxes ((all.take b).filterMap id) n.length

def applyGroupLayer (o : OpId) (xs : List TensorId) (gammas betas : List (Option TensorId))
    (norms : Option (List (List DimId) × List TensorId)) (eps : Value) : Build (List TensorId) := do
  setParam o "gamma_constant" (.text "1.0")
  let hasGamma ← allOrNone .groupNormMissing gammas
  setParam o "gamma_constant" (constantFor hasGamma "1.0")
  setParam o "beta_constant" (.text "0.0")
  let hasBeta ← allOrNone .groupNormBetas betas
  setParam o "beta_constant" (constantFor hasBeta "0.0")
  let extra ← match norms with
    | some (shapes, extra) => do
      setParam o "normalized_shape" (.list (shapes.map fun s => .list (s.map .dim)))
      pure extra
    | none => do
      setParam o "normalized_shape" (← param o "default_normalized_shape")
      pure []
  checkEps eps
  setParam o "eps" eps
  let ts := xs ++ gammas.filterMap id ++ betas.filterMap id ++ extra
  modifyOp o fun p => { p with inputs := some ts, inputAccessors := some [] }
  checkGroup (xs.map some ++ gammas ++ betas) (← param o "normalized_shape")
  linkInputs o
  let shapes ← xs.mapM shape
  let ys ← shapes.mapM fun s => output o s
  let accessors := shapes.map fun s => Accessor.ofShape s
  modifyOp o fun p => { p with
    outputs := some ys, outputAccessors := some accessors, inputAccessors := some accessors }
  return ys

/-! ## Layer normalisation, sigmoid and product as one -/

/-- Is the second operator the sigmoid of the first, and the third the product of that with the
first one's input? -/
def isSigmoidMul (layer sigmoid mul : OpId) : Build Bool := do
  let x ← inputAt layer 0
  let y ← outputAt layer 0
  if (← inputAt sigmoid 0) != y then return false
  let z ← outputAt sigmoid 0
  match ← inputs mul with
  | [a, b] => return a == z && b == x || b == z && a == x
  | _ => return false

def joinSigmoidMul (layer sigmoid mul : OpId) : Build OpId := do
  let o ← newOp .layernormSigmoidMul "layernorm_sigmoid_mul" []
  require .unmet (← isSigmoidMul layer sigmoid mul)
  let l ← op layer
  for key in ["gamma_constant", "beta_constant", "normalized_shape", "eps"] do
    setParam o key (← param layer key)
  let ys ← outputs mul
  let x ← inputAt layer 0
  let g ← get
  modifyOp o fun p => { p with
    inputs := l.inputs
    outputs := some ys
    outputAccessors := some (ys.map fun t => .ofShape (g.tensor t).shape)
    inputAccessors := some [.ofShape (g.tensor x).shape] }
  for t in l.inputList do
    discardDst t layer
    discardDst t mul
    addDst t o
  let y ← match ys with
    | [y] => pure y
    | _ => throw .unmet
  setSrc y (.ofList [o])
  for (d, i) in (← shape y).zipIdx do
    let e ← dim (← axis (← shape x) i)
    modifyDim d fun v => { v with values := e.values }
  for t in [← inputAt sigmoid 0, ← outputAt sigmoid 0] do
    setSrc t .empty
    setDst t .empty
  linkInputs o
  return o

/-! ## Groups of channels -/

def createGroups (cls : OpClass) (groups channels : Value) : Build OpId := do
  let tuned ← tuned
  let kind := if cls == .groupNormSwish then "groupnorm_swish" else "groupnorm"
  newOp cls kind [("num_groups", groups), ("has_profiler", .bool tuned), ("num_channels", channels)]

def groupsKey (sizes : List (String × List String)) : Build String :=
  expect (.emptyRange "Group norm") (Workload.conditions? sizes)

def groupsWorkloads (o : OpId) (strategy : Value) : Build Unit := do
  let s ← shape (← inputAt o 0)
  let n ← dim (← axis s 0)
  let static (i : Int) (what : String) : Build Int := do
    let d ← dim (← axis s i)
    require (.staticNeeded what) d.isStatic
    return d.value
  let h ← static 1 "h_dim"
  let w ← static 2 "w_dim"
  let c ← static 3 "c_dim"
  let groups := ((← param o "num_groups").text?).getD ""
  modifyOp o fun p => { p with execPath := some [] }
  let sizes (ns : List Int) : List (String × List String) :=
    [("N", ns.map toString), ("H", [toString h]), ("W", [toString w]), ("G", [groups]),
      ("C", [toString c])]
  let pick ← match strategy with
    | .strategy .max => pure (some n.upper)
    | .strategy .min => pure (some n.lower)
    | _ => pure none
  if let some m := pick then
    let key ← groupsKey (sizes [m])
    let cond ← groupsKey (sizes [n.lower, n.upper])
    modifyOp o fun p => { p with execPath := some [(key, .item key cond "")] }

def divides (groups : Value) (channels : Int) : Except Fault Bool :=
  match groups with
  | .float g =>
    if g == 0 then .error .zeroDivision
    else .ok ((Float.ofInt channels / g).floor * g == Float.ofInt channels)
  | v =>
    match v.int? with
    | none => .error .badType
    | some 0 => .error .zeroDivision
    | some g => .ok (Int.fmod channels g == 0)

def applyGroups (o : OpId) (x : TensorId) (gamma beta : Option TensorId) (eps : Value) :
    Build TensorId := do
  setParam o "gamma_constant" (constantFor gamma.isSome "1.0")
  setParam o "beta_constant" (constantFor beta.isSome "0.0")
  checkEps eps
  setParam o "eps" eps
  setInputs o (x :: (gamma.toList ++ beta.toList))
  let s ← shape x
  let gs ← shape (← expect .badType gamma)
  let bs ← shape (← expect .badType beta)
  require (.gammaBetaRanks gs.length bs.length) (gs.length == bs.length)
  let c ← fixedSize (← axis s (-1))
  require .gammaChannels (c == (← fixedSize (← axis gs 0)))
  require .groupChannels (← ofExcept (divides (← param o "num_groups") c))
  linkInputs o
  groupsWorkloads o (.strategy .max)
  soleOutput o s

/-! ## Softmax -/

def createSoftmax : Build OpId := do
  let tuned ← tuned
  newOp .softmax "softmax" [("has_profiler", .bool tuned)]

/-- The possible sizes by the names of the axes; of axes with one name the last one counts. -/
def sizesByName (ds : List Dim) : List (String × List Int) :=
  ds.foldl (fun acc d =>
    let n := Fault.nameText d.name
    if acc.any (·.1 == n) then acc.map fun e => if e.1 == n then (n, d.values) else e
    else acc ++ [(n, d.values)]) []

def softmaxKey (sizes : List (String × List String)) : Build String :=
  expect (.emptyRange "Softmax") (Workload.conditions? sizes)

def softmaxWorkloads (o : OpId) (strategy : Value) : Build Unit := do
  let sizes := sizesByName (← dims (← inputAt o 0))
  modifyOp o fun p => { p with execPath := some [] }
  let pick ← match strategy with
    | .strategy .max => pure (some fun (vs : List Int) => vs.getLastD 0)
    | .strategy .min => pure (some fun (vs : List Int) => vs.headD 0)
    | _ => pure none
  if let some f := pick then
    let key ← softmaxKey (sizes.map fun (n, vs) => (n, [toString (f vs)]))
    let cond ← softmaxKey (sizes.map fun (n, vs) => (n, vs.map toString))
    modifyOp o fun p => { p with execPath := some [(key, .item key cond "")] }

def applySoftmax (o : OpId) (x : TensorId) (dim : Value) : Build TensorId := do
  let rank := (← shape x).length
  let asked ← match dim with
    | .none => throw .flattenedNorm
    | v => expect .unmet v.int?
  let k ← ofExcept (wrapDim? asked rank)
  let dim := if asked < 0 then .int k else dim
  require (.softmaxDim dim rank) (k == (rank : Int) - 1)
  setInputs o [x]
  setParam o "dim" dim
  linkInputs o
  require (.softmaxRank rank) (2 ≤ rank)
  softmaxWorkloads o (.strategy .max)
  soleOutput o (← shape x)

end Norm

end TensorGraph

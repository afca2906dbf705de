import TensorGraph.Proofs.OutputMarks

/-!
# Building operators

A new operator touches nothing but itself: the operators that were there before stay as they are,
marks of outputs stay, and tensors come to know new users only (`Frame.built`).
-/

namespace TensorGraph

-- the instances for a long step are found, but their terms are large
set_option synthInstance.maxSize 1024

open Build

variable {a b x y : TensorId} {o : OpId} {s target : List DimId} {dtype : String} {cls : OpClass}
  {ts : List TensorId}

theorem Links.mem_insert {l : Links} {o p : OpId} : p ∈ (l.insert o).ops ↔ p ∈ l.ops ∨ p = o := by
  unfold Links.insert
  grind

namespace Build

variable {α β : Type} {R : Frame} {M : Nat}

theorem Within.seq {x : Build α} {f : α → Build β} (first : Within R x)
    (rest : ∀ a, Within R (f a)) : Within R (x >>= f) :=
  .bind

/-! ## New tensors -/

def Frame.grows : Frame := ⟨fun g g' => g.tensors.size ≤ g'.tensors.size, fun _ => Nat.le_refl _,
    Nat.le_trans⟩

instance (t : TensorId) : Within.SeesTensor .grows t fun _ => () :=
  ⟨fun _ => ⟨fun run => by rw [modifyTensor_ok.1 run]; simp [Frame.grows]⟩⟩

instance : Within.SeesOp .grows o fun _ => () :=
  ⟨fun _ => ⟨fun run => modifyOp_ok.1 run ▸ Nat.le_refl _⟩⟩

instance (priority := low) {x : Build α} [marks : Within .marks x] : Within .grows x :=
  ⟨fun run => (marks.keeps run).size⟩

/-- A step whose result is a new tensor. -/
class MakesNew (x : Build TensorId) : Prop where
  new : ∀ {g g' : Arena} {y : TensorId}, x g = .ok y g' → g.tensors.size ≤ y.idx ∧
    y.idx < g'.tensors.size

/-- A step that ends with a given tensor. -/
class Returns (y : TensorId) (x : Build TensorId) : Prop where
  eq : ∀ {g g' : Arena} {z : TensorId}, x g = .ok z g' → z = y ∧ g.tensors.size ≤ g'.tensors.size

namespace Returns

instance pure : Returns y (Pure.pure y) where
  eq run := by
    obtain ⟨rfl, rfl⟩ := pure_ok.1 run
    exact ⟨rfl, Nat.le_refl _⟩

instance bind {x : Build α} {f : α → Build TensorId} {y : TensorId} [rest : ∀ a, Returns y (f a)]
    [first : Within .grows x] :
    Returns y (x >>= f) where
  eq run := by
    obtain ⟨a, g₁, run₁, run₂⟩ := bind_ok.1 run
    exact ⟨((rest a).eq run₂).1, Nat.le_trans (first.keeps run₁) ((rest a).eq run₂).2⟩

end Returns

namespace MakesNew

instance addTensor (x : Tensor) : MakesNew (addTensor x) where
  new {g _ _} run := by
    simp only [Build.addTensor, bind_ok, get_ok, modify_ok, pure_ok] at run
    obtain ⟨_, _, ⟨rfl, rfl⟩, _, _, rfl, rfl, rfl⟩ := run
    simp

instance throw (f : Fault) : MakesNew (throw f) where
  new run := (throw_ok.1 run).elim

instance bind {x : Build α} {f : α → Build TensorId} [rest : ∀ a, MakesNew (f a)]
    [first : Within .grows x] :
    MakesNew (x >>= f) where
  new run := by
    obtain ⟨a, g₁, run₁, run₂⟩ := bind_ok.1 run
    exact ⟨Nat.le_trans (first.keeps run₁) ((rest a).new run₂).1, ((rest a).new run₂).2⟩

theorem bind_of {x : Build α} {f : α → Build TensorId} (rest : ∀ a, MakesNew (f a))
    (first : Within .grows x := by exact Build.Within.of_parts) : MakesNew (x >>= f) := bind

instance (priority := low) bind_returns {x : Build TensorId} {f : TensorId → Build TensorId}
    [rest : ∀ y, Returns y (f y)]
    [first : MakesNew x] : MakesNew (x >>= f) where
  new run := by
    obtain ⟨y, g₁, run₁, run₂⟩ := bind_ok.1 run
    obtain ⟨rfl, le⟩ := (rest y).eq run₂
    exact ⟨(first.new run₁).1, Nat.lt_of_lt_of_le (first.new run₁).2 le⟩

theorem of_bind {x : Build α} {f : α → Build TensorId} [step : MakesNew (x >>= f)] :
    MakesNew (x >>= f) := step

theorem of_parts {x : Build TensorId}
    (parts : MakesNew x := by
      repeat' first | infer_instance | intro _ | split | exact .of_bind | refine .bind_of ?_ | dsimp
        only) : MakesNew x := parts

end MakesNew

/-! ## New operators -/

/-- An operator from a number on. -/
class New (M : Nat) (o : OpId) : Prop where
  le : M ≤ o.idx

instance (o : { o : OpId // M ≤ o.idx }) : New M o.1 := ⟨o.2⟩

instance : New 0 o := ⟨Nat.zero_le _⟩

/-- The operators below a number stay, and no tensor comes to know one of them as its user. -/
structure Built (M : Nat) (g g' : Arena) : Prop where
  size : M ≤ g'.ops.size
  marks : SameMarks g g'
  op : ∀ o : OpId, o.idx < M → g'.op o = g.op o
  dst : ∀ t : TensorId, ∀ o : OpId, o.idx < M →
    (o ∈ (g'.tensor t).dst.ops ↔ o ∈ (g.tensor t).dst.ops)

def Frame.built (M : Nat) : Frame where
  rel g g' := M ≤ g.ops.size → Built M g g'
  refl g known := ⟨known, Frame.marks.refl g, fun _ _ => rfl, fun _ _ _ => Iff.rfl⟩
  trans := by
    intro g g₁ g' h h' known
    have first := h known
    have second := h' first.size
    exact ⟨second.size, Frame.marks.trans first.marks second.marks, fun o ho =>
      (second.op o ho).trans (first.op o ho), fun t o ho => (second.dst t o ho).trans
      (first.dst t o ho)⟩

/-- A step that creates an operator. -/
class Creates (M : Nat) (x : Build OpId) : Prop where
  new : ∀ {g g' : Arena} {o : OpId}, M ≤ g.ops.size → x g = .ok o g' → M ≤ o.idx

namespace Creates

instance newOp (kind : String) (settings : List (String × Value)) :
    Creates M (newOp cls kind settings) where
  new known run := by
    simp only [Build.newOp, addOp, bind_ok, get_ok, modify_ok, pure_ok] at run
    obtain ⟨_, _, ⟨rfl, rfl⟩, _, _, rfl, rfl, rfl⟩ := run
    exact known

instance throw (f : Fault) : Creates M (throw f) := ⟨fun _ run => (throw_ok.1 run).elim⟩

end Creates

namespace Within

instance (priority := low) marks_of_built {x : Build α} [built : Within (.built 0) x] :
    Within .marks x where
  keeps run := (built.keeps run (Nat.zero_le _)).marks

instance {x : Build OpId} [makes : Creates M x] :
    Known (.built M) x (Subtype.val : { o : OpId // M ≤ o.idx } → OpId) where
  bind rest first := ⟨fun run known => by
    obtain ⟨o, g₁, run₁, run₂⟩ := bind_ok.1 run
    exact (Frame.built M).trans (first.keeps run₁)
      ((rest ⟨o, makes.new known run₁⟩).keeps run₂) known⟩

end Within

theorem Built.of_eq {g g' : Arena} (known : M ≤ g.ops.size) (tensors : g'.tensors = g.tensors)
    (ops : g.ops.size ≤ g'.ops.size) (op : ∀ o : OpId, o.idx < M → g'.op o = g.op o) :
    Built M g g' :=
  ⟨Nat.le_trans known ops, .of_tensors tensors, op,
    fun t _ _ => by rw [Arena.tensor_eq, tensors, Arena.tensor_eq]⟩

theorem Built.modifyOp {g : Arena} (known : M ≤ g.ops.size) {o : OpId} (new : M ≤ o.idx)
    (f : Operator → Operator) :
    Built M g (g.modifyOp o f) := by
  refine .of_eq known rfl (by simp) fun p hp => Arena.op_modifyOp_ne ?_
  rintro rfl
  omega

theorem Built.modifyTensor {g : Arena} (known : M ≤ g.ops.size) (t : TensorId) {f : Tensor → Tensor}
    (mark : (f (g.tensor t)).isOutput = (g.tensor t).isOutput)
    (name : ∀ n, (g.tensor t).name = some n → (f (g.tensor t)).name = some n)
    (dst : ∀ o : OpId, o.idx < M → (o ∈ (f (g.tensor t)).dst.ops ↔ o ∈ (g.tensor t).dst.ops)) :
    Built M g (g.modifyTensor t f) := by
  refine ⟨known, sameMarks_modifyTensor g t mark name, fun _ _ => rfl, fun u o ho => ?_⟩
  rw [Arena.tensor_modifyTensor_ite]
  grind

instance (t : TensorId) : Within.SeesTensor (.built M) t fun x => (x.isOutput, x.name, x.dst) where
  modify same := ⟨fun run known => by
    simp only [Prod.mk.injEq] at same
    exact modifyTensor_ok.1 run ▸ .modifyTensor known t (same _).1 (fun _ h => (same _).2.1.trans h)
      fun _ _ => by rw [(same _).2.2]⟩

instance [new : New M o] : Within.SeesOp (.built M) o fun _ => () :=
  ⟨fun _ => ⟨fun run known => modifyOp_ok.1 run ▸ .modifyOp known new.le _⟩⟩

instance (d : Dim) : Within (.built M) (addDim d) where
  keeps run known := by
    obtain ⟨_, _, ⟨rfl, rfl⟩, _, _, rfl, -, rfl⟩ := run
    exact .of_eq known rfl (Nat.le_refl _) fun _ _ => rfl

instance (kind : String) (settings : List (String × Value)) :
    Within (.built M) (newOp cls kind settings) where
  keeps run known := by
    obtain ⟨_, _, ⟨rfl, rfl⟩, _, _, rfl, -, rfl⟩ := run
    exact .of_eq known rfl (by simp) fun p hp => Arena.op_push_old (by omega)

theorem within_addTensor {x : Tensor} (mark : x.isOutput = false) (unread : x.dst.ops = []) :
    Within (.built M) (addTensor x) where
  keeps {g _ _} run known := by
    have marks := (Within.addTensor mark).keeps run
    obtain ⟨_, _, ⟨rfl, rfl⟩, _, _, rfl, -, rfl⟩ := run
    refine ⟨known, marks, fun _ _ => rfl, fun t o _ => ?_⟩
    rw [Arena.tensor_push]
    split
    · next e =>
      rw [Arena.tensor_of_le (Nat.le_of_eq e.symm), unread]
      rfl
    · exact Iff.rfl

instance (t : TensorId) [new : New M o] : Within (.built M) (addDst t o) where
  keeps run known := by
    obtain ⟨-, rfl⟩ := addDst_ok.1 run
    refine .modifyTensor known t rfl (fun _ h => h) fun p hp => ?_
    have other : p ≠ o := by
      rintro rfl
      exact absurd new.le (by omega)
    rw [Links.mem_insert]
    simp [other]

instance [New M o] (key : String) (v : Value) : Within (.built M) (setParam o key v) := .of_parts

instance (vs : List Int) (name : Option String) : Within (.built M) (dimOfValues vs name) :=
  .of_parts

instance [New M o] : Within (.built M) (setInputs o ts) := .of_parts

instance [New M o] : Within (.built M) (setOutputs o ts) := .of_parts

instance [New M o] : Within (.built M) (linkInputs o) := .of_parts

instance : Within (.built M) (output o s dtype) := by
  unfold output
  have : ∀ depth, Within (.built M)
    (addTensor { Tensor.ofShape s dtype with depth := depth, src := .ofList [o] }) :=
    fun _ => within_addTensor rfl rfl
  infer_instance

instance [New M o] : Within (.built M) (soleOutput o s dtype) := .of_parts

instance : MakesNew (output o s dtype) := .of_parts

instance : MakesNew (soleOutput o s dtype) := .of_parts

instance (key : String) : ReadOnly (intParam o key) := .of_parts

instance (name : Option String) : Within (.built M) (zeroTensor s dtype name) := by
  have : Within (.built M) (addTensor { Tensor.ofShape s dtype with name := name }) :=
    within_addTensor rfl rfl
  exact .of_parts

/-! ## Rewiring without marks -/

instance (old new : TensorId) : Within .marks (replaceInput o old new) := .of_parts

instance : Within .marks (forgetUse ts o) := .of_parts

instance (dst src : TensorId) : Within .marks (copyScale dst src) := .of_parts

instance (i : Nat) (f : DimTable → Accessor → Accessor × Option Fault) :
    Within .marks (updateInputAccessor o i f) := .of_parts

instance (i : Nat) (f : DimTable → Accessor → Accessor × Option Fault) :
    Within .marks (updateOutputAccessor o i f) := .of_parts

end Build

variable {M : Nat}

/-! ## Views, rearrangements, concatenations and slices -/

namespace View

instance [New M o] : Within (.built M) (viewOutput o s x) := .of_parts

instance : MakesNew (viewOutput o s x) := .of_parts

instance [New M o] (kept : Option DimId) (i : Nat) (vs : List (List Int)) :
    Within (.built M) (makeShape o kept i vs) := by
  fun_induction makeShape o kept i vs with
  | case1 => infer_instance
  | case2 => infer_instance
  | case3 =>
    refine .bind_of fun _ => .bind_of fun _ => .bind_of fun _ => .bind_of fun _ => ?_
    split <;> infer_instance

instance [New M o] : Within (.built M) (inferReshape o x target) := by
  unfold inferReshape pairTargets
  exact .of_parts

instance : Within (.built M) createReshape := .of_parts

instance : Creates M createReshape := by unfold createReshape; infer_instance

instance (sizes : List TensorId) :
    MakesNew (applyReshape o x target sizes) := .of_parts

instance : MakesNew (reshape x target) := .of_parts

end View

namespace Rearrange

instance : Within (.built M) (createPermute cls) := .of_parts

instance : Creates M (createPermute cls) := by unfold createPermute; infer_instance

instance [New M o] : Within (.built M) (applyPermute o x) := .of_parts

end Rearrange

namespace Concat

instance : Creates M (create cls) := by unfold create; infer_instance

instance (dim : Int) : Within (.built M) (concat ts dim) := .of_parts

instance (t : TensorId) : ReadOnly (tensorIndex o t) := .of_parts

instance (indices : List Int) : Within .marks (removeInputs o indices) := by
  unfold removeInputs
  refine .bind_of fun x => .bind_of fun ts => .bind_of fun as => .bind_of fun given =>
    .bind_of fun masks => .bind_of fun _ => .bind_of fun _ => .bind_of fun _ => ?_
  split <;> infer_instance

end Concat

namespace Slice

instance (d : DimId) (start stop : Int) :
    Within .marks (sliceDim d start stop) := by unfold sliceDim; exact .of_parts

instance (starts stops : List Int) :
    Within .marks ((s.zip (starts.zip stops)).mapM fun (d, a, b) => sliceDim d a b) := by
  have turn : ∀ e : DimId × Int × Int, Within .marks (match e with | (d, a, b) => sliceDim d a b) :=
    fun _ => inferInstance
  infer_instance

end Slice

/-! ## Convolutions -/

instance (rank : Nat) (sizes : List (List Int)) :
    Within (.built M) (Spatial.shapeOf rank sizes) := by
  unfold Spatial.shapeOf
  infer_instance

namespace Conv

instance (w : TensorId) (rest : List TensorId) : MakesNew (apply o x w rest) := .of_parts

end Conv

/-! ## Products -/

namespace Matmul

instance (c : OpClass) : Within (.built M) (create c) := by unfold create; exact .of_parts

instance (c : OpClass) : Creates M (create c) := by
  unfold create
  split <;> infer_instance

instance (pre : String) (layout : Value) :
    ReadOnly (layoutText pre layout) := by unfold layoutText; exact .of_parts

instance (f : Family) : ReadOnly (checkInner f a b) := .of_parts

instance : Within (.built M) (padInner a b) := by
  unfold padInner
  refine .bind_of fun ta => .bind_of fun tb => .bind_of fun _ => .bind_of fun da =>
    .bind_of fun _ => .bind_of fun db => .bind_of fun _ => .bind_of fun _ => ?_
  dsimp only
  split
  · infer_instance
  · refine .bind_of fun _ => .bind_of fun _ => .bind_of fun _ => .bind_of fun _ => ?_
    infer_instance

instance (f : Family) : ReadOnly (checkRanks f a b) := .of_parts

instance (f : Family) : ReadOnly (productShape f a b) := .of_parts

instance (f : Family) (bias : TensorId) : ReadOnly (biasedShape f a b bias) := .of_parts

instance : ReadOnly (accessors ts) := .of_parts

instance [New M o] (accessed : List TensorId) : Within (.built M) (setOperands o ts accessed) :=
  .of_parts

instance : MakesNew (result o s) := .of_parts

instance (sizes : List (Int ⊕ DimId)) : Within (.built M) (sizes.mapM fun s =>
    match s with
    | .inl n => staticDim n
    | .inr d => pure d) := by
  have turn : ∀ s : Int ⊕ DimId, Within (.built M) (match s with
      | .inl n => staticDim n
      | .inr d => pure d) := fun s => by split <;> infer_instance
  infer_instance

instance (sizes : List (Int ⊕ DimId)) : Within (.built M) (reshapeTo y sizes) := .of_parts

instance (sizes : List (Int ⊕ DimId)) : MakesNew (reshapeTo y sizes) := .of_parts

instance : ReadOnly (sizesParam o) := .of_parts

instance (a b : Int) : ReadOnly (quotient a b) := .of_parts

instance : MakesNew (permuteBatches o y s) := .of_parts

instance : MakesNew (permuteFive o y s) := .of_parts

instance [New M o] : Within (.built M) (permuteBatches o y s) := .of_parts

instance [New M o] : Within (.built M) (permuteFive o y s) := .of_parts

section Plain

variable {o : OpId} {f : Family} {a b : TensorId} {rest accessed : List TensorId}
  {inferShape : Build (List DimId)}

instance [New M o] [Within (.built M) inferShape] :
    Within (.built M) (applyPlain o f a b rest accessed inferShape) := .of_parts

theorem makesNew_applyPlain [Within .marks inferShape] {k : TensorId × List DimId → Build TensorId}
    (after : ∀ y s, Returns y (k (y, s)) ∨ MakesNew (k (y, s))) :
    MakesNew (applyPlain o f a b rest accessed inferShape >>= k) := by
  unfold applyPlain
  simp only [bind_assoc, pure_bind]
  refine .bind_of fun _ => .bind_of fun _ => .bind_of fun s => .bind_of fun _ => ⟨fun run => ?_⟩
  obtain ⟨y, g₁, made, rest⟩ := bind_ok.1 run
  have new := MakesNew.new made
  rcases after y s with same | other
  · obtain ⟨rfl, size⟩ := same.eq rest
    omega
  · have := other.new rest
    omega

end Plain

instance [New M o] : Within (.built M) (apply o ts) := by
  unfold apply
  refine .bind_of fun x => ?_
  dsimp only
  refine .bind_of fun f => ?_
  split
  all_goals exact .of_parts

instance : MakesNew (apply o ts) := by
  unfold apply
  refine .bind_of fun x => ?_
  dsimp only
  refine .bind_of fun f => ?_
  split
  case h_4 | h_5 =>
    refine makesNew_applyPlain fun y s => ?_
    split
    · exact .inl inferInstance
    · exact .inr inferInstance
  case h_8 => exact .bind_of fun _ => makesNew_applyPlain fun y s => .inl inferInstance
  case h_9 =>
    refine .bind_of fun _ => makesNew_applyPlain fun y s => .inr (.bind_of fun _ => ?_)
    dsimp only
    split <;> infer_instance
  case h_13 =>
    refine .bind_of fun _ => ?_
    split
    all_goals
      refine makesNew_applyPlain fun y s => ?_
      split
      · exact .inr inferInstance
      · exact .inr inferInstance
      · exact .inr inferInstance
      · exact .inr inferInstance
      · exact .inl inferInstance
  all_goals first | infer_instance | exact makesNew_applyPlain fun y s => .inl inferInstance

end Matmul

end TensorGraph

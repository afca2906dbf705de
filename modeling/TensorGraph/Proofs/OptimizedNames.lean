import TensorGraph.Proofs.MovedMarks

/-!
# The names of the outputs after optimisation

Each pass of the optimisation, and so the whole of it, makes up no name of an output.
-/

namespace TensorGraph

set_option synthInstance.maxSize 1024

open Build List

variable {ts : Graph} {cat o : OpId} {t x y : TensorId} {kind : String} {i : Nat}

/-! ## Splits and concatenations that cancel -/

namespace ConcatFusion

instance (ts : List TensorId) (cat : Option OpId) : ReadOnly (soleUser? ts cat) := by
  induction ts generalizing cat with
  | nil => unfold soleUser?; infer_instance
  | cons t ts ih =>
    unfold soleUser?
    exact .of_parts

instance (n : Nat) (count : Option Nat) : Within .named (repeatUntilStable n count ts) := by
  induction n generalizing count ts with
  | zero => unfold repeatUntilStable; infer_instance
  | succ n ih => unfold repeatUntilStable; exact .of_parts

instance : Within .named (fuse ts) := .of_parts

end ConcatFusion

/-! ## Elementwise groups -/

namespace Pointwise

instance (n : Nat) (sources aside : List OpId) : ReadOnly (settle n sources aside) := by
  induction n generalizing sources aside with
  | zero => unfold settle; infer_instance
  | succ n ih => unfold settle; exact .of_parts

instance : Within .named (group ts) := .of_parts

instance : Within .named (joinNorms ts) := .of_parts

instance : Within .named (fuse ts) := .of_parts

end Pointwise

/-! ## Parallel products -/

namespace Parallel

instance (run : List OpId) : ReadOnly (sameSplit run) := by unfold sameSplit; exact .of_parts

instance (xs ws bs : List TensorId) : Within .marks (batchedProduct xs ws bs) := .of_parts

instance (run : List OpId) : Within .named (merge run cat) := .of_parts

instance {accepts : OpId → Build Bool} {keep : List OpId → Build Bool} [∀ o, ReadOnly (accepts o)]
    [∀ run, ReadOnly (keep run)] :
    Within .named (mergeAll accepts keep ts) := .of_parts

instance : Within .named (fuse ts) := by
  unfold fuse joinSplit joinWritten
  exact .of_parts

end Parallel

/-! ## Groups of independent operators -/

namespace Grouping

instance (d : Descendants) (first : OpId) (acc : List OpId × List OpId) (p : OpId) :
    ReadOnly (takeIn kind d first acc p) := by
  unfold takeIn
  exact .of_parts

instance (d : Descendants) (s : Search) :
    ReadOnly (s.step kind d o) := by unfold Search.step; exact .of_parts

instance : ReadOnly (findGroups kind ts) := .of_parts

instance (group : List OpId) : Within .named (takeOutputs group ts) := .of_parts

instance (group : List OpId) : Within .named (joinNorms group) := by
  have layers (p : Prop) [Decidable p] :
    (if p then OpClass.groupLayernorm else .groupLayernormSigmoidMul) = .groupLayernorm ∨
      (if p then OpClass.groupLayernorm else .groupLayernormSigmoidMul) =
        .groupLayernormSigmoidMul := by
    split <;> simp
  unfold joinNorms
  dsimp only
  refine .bind_of fun _ => .bind_of fun _ => .bind_of fun _ => .bind_of fun _ => ?_
  refine .bind_of fun _ => .bind_of fun first => .bind_of fun _ => .bind_of fun _ => ?_
  have := Catalog.create_layers (layers ((first.kind == "layernorm") = true))
  simp only [Catalog.apply_layers (layers _)]
  exact .of_parts

instance (group : List OpId) : Within .named (joinProducts group) := .of_parts

instance : Within .named (joinKind kind ts) := .of_parts

instance : Within .named (fuse ts) := .of_parts

end Grouping

/-! ## Special shapes -/

namespace Special

theorem substitute_named {replace? : TensorId → Build (Option (List TensorId))}
    (turn : ∀ t, Within .named (replace? t)) (ts : Graph) :
    Within .named (substitute replace? ts) := by
  unfold substitute
  refine Within.seq (@Within.foldlM _ _ _ _ _ (fun acc t => ?_) _) fun _ => inferInstance
  exact .of_parts

theorem product?_named {general special : OpClass} (known : Chain.Computes special)
    (fits : DimTable → List DimId → List DimId → Except Fault Bool) (t : TensorId) :
    Within .named (product? general special fits t) := by
  have := Chain.build_marks known
  unfold product?
  exact .of_parts

instance : Within .named (narrow ts) := substitute_named (product?_named (by decide) _) ts

instance : Within .named (smallRight ts) := substitute_named (product?_named (by decide) _) ts

theorem computes_point {kind : String} {c : OpClass} (found : pointProduct? kind = some c) :
    Chain.Computes c := by
  have known : ∀ e ∈ [("conv2d", OpClass.gemmRcr), ("conv2d_bias", .gemmRcrBias),
    ("conv2d_bias_relu", .gemmRcrBiasRelu),
      ("conv2d_bias_sigmoid", .gemmRcrBiasSigmoid),
        ("conv2d_bias_hardswish", .gemmRcrBiasHardswish),
      ("conv2d_bias_add_relu", .gemmRcrBiasAddRelu)], Chain.Computes e.2 := by decide
  obtain ⟨_, _, entries, -⟩ := lookup_eq_some_iff.1 found
  exact known (kind, c) (by rw [entries]; simp)

instance (target : List Value) : Within .marks (reshape x target) := by
  have : Within .marks (Catalog.create .reshape []) :=
    inferInstanceAs (Within .marks View.createReshape)
  have (o : OpId) : Within .marks (Catalog.apply .reshape o [] [.tensor x, .tuple target]) :=
    inferInstanceAs (Within .marks (Catalog.reshape o (.tensor x) (.tuple target)))
  unfold reshape
  exact .of_parts

instance : Within .named (point? t) := by
  unfold point?
  refine .bind_of fun x => ?_
  split
  · refine .bind_of fun _ => ?_
    split
    · next found =>
      have := Chain.build_marks (computes_point found)
      exact .of_parts
    · infer_instance
  · infer_instance

instance : Within .named (point ts) := substitute_named (fun _ => inferInstance) ts

instance : Within .named (fuse ts) := .of_parts

end Special

/-! ## Padded products -/

namespace Alignment

instance (z : TensorId) : Within .named (handOver y z) where
  keeps {g _ _} run named := by
    simp only [handOver, bind_ok, tensor_ok, modifyTensor_ok] at run
    obtain ⟨_, _, ⟨rfl, rfl⟩, _, _, rfl, rfl⟩ := run
    have first := namedFrom_modifyTensor named z
      (f := fun x => { x with isOutput := (g.tensor y).isOutput, name := (g.tensor y).name })
        fun mark => ⟨y, mark, rfl⟩
    exact Frame.named.trans (fun _ => first) (fun named => namedFrom_modifyTensor named y nofun)
      named

theorem padded?_product {o : OpId} {g g' : Arena} {c : OpClass}
    (run : padded? o g = .ok (some c) g') : (Matmul.family? c).isSome := by
  obtain ⟨x, g₁, -, run⟩ := bind_ok.1 run
  grind [pure_ok, bind_ok, Option.some.inj, Option.isSome_iff_ne_none]

theorem applyProduct_run {c : OpClass} (product : (Matmul.family? c).isSome) {p : OpId}
    {vs : List Value} {ts : List TensorId} {g h g' : Arena} {y : TensorId} (before : SameMarks g h)
    (run : (do
      let ws ← ofExcept ((Catalog.operands c).bind? ⟨ts.map .tensor, []⟩)
      match ← Catalog.apply c p vs ws with
      | .tensor y => return y
      | _ => throw .noField : Build TensorId) h = .ok y g') :
    SameMarks g g' ∧ g.tensors.size ≤ y.idx ∧ y.idx < g'.tensors.size := by
  simp only [bind_ok, ofExcept_ok] at run
  obtain ⟨ws, _, ⟨bound, rfl⟩, v, g₄, result, last⟩ := run
  obtain ⟨⟨z, rfl, new⟩, built⟩ := Catalog.product_run product bound result
  obtain ⟨rfl, rfl⟩ := pure_ok.1 last
  have size := before.size
  exact ⟨Frame.marks.trans before built, by omega, new.2⟩

theorem productLike_run {c : OpClass} (product : (Matmul.family? c).isSome) {o : OpId}
    {ts : List TensorId} {g g' : Arena} {y : TensorId} (run : productLike c o ts g = .ok y g') :
    SameMarks g g' ∧ g.tensors.size ≤ y.idx ∧ y.idx < g'.tensors.size := by
  have := Catalog.create_product product
  unfold productLike at run
  simp only [bind_ok, op_ok, ofExcept_ok] at run
  obtain ⟨x, _, ⟨rfl, rfl⟩, vs, _, ⟨-, rfl⟩, p, g₁, created, v, g₂, known, _, g₃, set, run⟩ := run
  have made : SameMarks g g₃ := Frame.marks.trans (Frame.marks.keeps created)
    (Frame.marks.trans (Frame.marks.keeps known) (Frame.marks.keeps set))
  generalize (g.op o).param? "alpha" = scale at run
  cases scale with
  | none => exact applyProduct_run product made run
  | some v =>
    obtain ⟨_, _, scaled, run⟩ := bind_ok.1 run
    exact applyProduct_run product (Frame.marks.trans made (Frame.marks.keeps scaled)) run

instance (named : Nat → Option String) (growth : Growth) :
    Within .marks (padInput o i named growth) := .of_parts

instance (m k n k' : Nat → Nat) : ReadOnly (Matmul.bmmSizes o m k n k') := .of_parts

instance (measuring : Bool) : ReadOnly (Matmul.sizeTable o measuring) := .of_parts

/-- Padding a product makes up no name of an output. -/
theorem padProduct_named {c : OpClass} (product : (Matmul.family? c).isSome) (o : OpId) :
    Within .named (padProduct c o) := by
  have (ts : List TensorId) : Within .marks (productLike c o ts) :=
    ⟨fun run => (productLike_run product run).1⟩
  unfold padProduct
  exact .of_parts

instance : Within .named (pad ts) := by
  unfold pad
  refine Within.seq (@Within.foldlM _ _ _ _ _ (fun acc t => ?_) _) fun _ => inferInstance
  refine .bind_of fun _ => Within.seq (@Within.mapM _ _ _ _ _ fun o => ?_) fun _ => inferInstance
  refine Within.bind_knowing (fun found => ∀ c, found = some c → (Matmul.family? c).isSome)
    (fun run c h => padded?_product (h ▸ run)) fun found product => ?_
  split
  · next c => exact padProduct_named (product c rfl) o
  · infer_instance

end Alignment

/-! ## Strided access -/

namespace Strided

instance (a : Option Accessor) (dim : Int) (i : Option Int) : ReadOnly (allows a dim i) := .of_parts

instance : ReadOnly (inputAccessor? o i) := .of_parts

instance : ReadOnly (writesInto o cat i) := .of_parts

instance : Within .marks (setOutput o i y) := .of_parts

instance : Within .named (writeConcats ts) := .of_parts

instance : Within .named (writeViewedGroups ts) := .of_parts

instance : Within .named (readSplitGroups ts) := .of_parts

instance : Within .named (readSplits ts) := .of_parts

instance : Within .named (readSlices ts) := .of_parts

instance : Within .marks (scatterSlices ts) := .of_parts

instance : Within .named (scatterReshapedSlices ts) := .of_parts

instance (ys : List TensorId) (as : List Accessor) : ReadOnly (writeViewed.seek x ys i as) := by
  induction as generalizing i with
  | nil => unfold writeViewed.seek; infer_instance
  | cons a as ih => unfold writeViewed.seek; exact .of_parts

instance (n count : Nat) : Within .named (takeViewsFrom n count ts) := by
  induction n generalizing count ts with
  | zero => unfold takeViewsFrom; infer_instance
  | succ n ih => unfold takeViewsFrom; exact .of_parts

instance : Within .named (takeViews ts) := .of_parts

instance : Within .named (access ts) := by
  unfold access
  dsimp only
  refine .bind_of fun g => ?_
  split
  all_goals
    simp only [foldlM_cons, foldlM_nil]
    infer_instance

end Strided

/-! ## The whole optimisation -/

namespace Pass

instance : Within .named (optimize ts) := by
  have steps : ∀ step ∈ optimization, ∀ ts, Within .named (step ts) := by
    simp only [optimization, forall_mem_cons]
    exact ⟨inferInstance, inferInstance, inferInstance, inferInstance, inferInstance, inferInstance,
      inferInstance, inferInstance, inferInstance, inferInstance, inferInstance,
      inferInstance, by simp⟩
  exact Within.foldlM_of steps ts

end Pass

end TensorGraph

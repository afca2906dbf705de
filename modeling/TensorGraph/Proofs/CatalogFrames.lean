import TensorGraph.Fusion.Chain
import TensorGraph.Proofs.Builders

/-!
# What the operators of the catalog touch

Convolutions and matrix products of the catalog are built within `Frame.built`; groups of products
or layers and fused elementwise operators take other operators apart and are built within
`Frame.marks` only.
-/

namespace TensorGraph

set_option synthInstance.maxSize 1024

open Build

variable {v : Value} {o : OpId} {M : Nat}

/-! ## Operands -/

namespace Operand

instance : ReadOnly (tensor v) := by unfold tensor; split <;> infer_instance

instance : ReadOnly (tensor? v) := by unfold tensor?; split <;> infer_instance

instance : ReadOnly (members v) := by unfold members; split <;> infer_instance

instance : Within .marks (dim? v) := by unfold dim?; exact .of_parts

end Operand

/-! ## Groups -/

namespace Matmul

instance (groups : List (List TensorId)) : Within .marks (applyGroup o groups none) := by
  unfold applyGroup
  dsimp only
  exact .of_parts

end Matmul

namespace Norm

instance (eps : Value) : ReadOnly (checkEps eps) := by unfold checkEps; split <;> infer_instance

instance : ReadOnly (members v) := by unfold members; split <;> infer_instance

instance (x : List DimId) (name : String) (given : Value) : ReadOnly (checkParam x name given) := by
  have turn : ∀ (g : Arena) (v : Value), ReadOnly (match v with
      | .dim d => if (g.dim d).isStatic then pure (g.dim d) else throw (.layernormStatic name given)
      | _ => throw (.layernormStatic name given) : Build Dim) :=
        fun g v => by split <;> infer_instance
  unfold checkParam
  exact .of_parts

instance (t : Option TensorId) : ReadOnly (shapeOf t) := by unfold shapeOf; split <;> infer_instance

instance (cls : OpClass) (default : Value) : Within .marks (createGroupLayer cls default) := by
  unfold createGroupLayer
  exact .of_parts

instance (missing : Fault) (ts : List (Option TensorId)) : ReadOnly (allOrNone missing ts) := by
  unfold allOrNone
  exact .of_parts

end Norm

/-! ## Products of the catalog -/

namespace Matmul

instance (c : OpClass) (shape layout : Value) : Within .marks (createPermuted c shape layout) := by
  unfold createPermuted
  exact .of_parts

end Matmul

namespace Catalog

theorem create_plain {c : OpClass} (product : (Matmul.family? c).isSome) (plain : settings c = [])
    (vs : List Value) :
    create c vs = Matmul.create c := by
  cases c <;> first | (cases product; done) | (cases plain; done) | rfl

theorem create_product {c : OpClass} (product : (Matmul.family? c).isSome) (vs : List Value) :
    Within .marks (create c vs) := by
  suffices made : create c vs = Matmul.create c ∨
    (∃ shape layout, create c vs = Matmul.createPermuted c shape layout) ∨
      (∃ scale, create c vs = Matmul.createAttention scale) ∨
      (∃ shape scale causal layout, create c vs = Matmul.createAttentionPermuted shape scale causal
        layout) ∨
      ∃ layout, create c vs = Matmul.createPerm021Permuted layout by
    rcases made with made | ⟨_, _, made⟩ | ⟨_, made⟩ | ⟨_, _, _, _, made⟩ | ⟨_, made⟩
    all_goals
      rw [made]
      exact .of_parts
  cases c <;> first | (cases product; done) | exact .inl rfl | skip
  case bmmSoftmaxBmm =>
    rcases vs with _ | ⟨a, _ | _⟩
    · exact .inl rfl
    · exact .inr (.inr (.inl ⟨_, rfl⟩))
    · exact .inl rfl
  case perm021fcCcrBiasPermute =>
    rcases vs with _ | ⟨a, _ | _⟩
    · exact .inl rfl
    · exact .inr (.inr (.inr (.inr ⟨_, rfl⟩)))
    · exact .inl rfl
  case bmmSoftmaxBmmPermute =>
    rcases vs with _ | ⟨a, _ | ⟨b, _ | ⟨c, _ | ⟨d, _ | _⟩⟩⟩⟩
    case cons.cons.cons.cons.nil => exact .inr (.inr (.inr (.inl ⟨_, _, _, _, rfl⟩)))
    all_goals exact .inl rfl
  all_goals
    rcases vs with _ | ⟨a, _ | ⟨b, _ | _⟩⟩
    case cons.cons.nil => exact .inr (.inl ⟨_, _, rfl⟩)
    all_goals exact .inl rfl

theorem apply_product {c : OpClass} (product : (Matmul.family? c).isSome)
    (single : Matmul.family? c ≠ some .group) (o : OpId) (settings vs : List Value) :
    (∃ alpha a b, apply c o settings vs = (do
      setParam o "alpha" alpha
      one <$> do Matmul.apply o [← Operand.tensor a, ← Operand.tensor b])) ∨
    ∃ ws : List Value, apply c o settings vs =
    (one <$> do Matmul.apply o (← ws.mapM Operand.tensor)) := by
  cases c <;> first
    | (cases product; done)
    | exact absurd rfl single
    | exact .inr ⟨_, rfl⟩
    | skip
  case bmmRcrN1 =>
    rcases vs with _ | ⟨a, _ | ⟨b, _ | ⟨alpha, _ | _⟩⟩⟩
    case cons.cons.cons.nil => exact .inl ⟨alpha, a, b, rfl⟩
    all_goals exact .inr ⟨_, rfl⟩

theorem apply_group {c : OpClass} (group : Matmul.family? c = some .group) {ts : List TensorId}
    {ws : List Value} (bound : (operands c).bind? ⟨ts.map .tensor, []⟩ = .ok ws) (o : OpId)
    (settings : List Value) {g g' : Arena} {v : Value} :
    apply c o settings ws g ≠ .ok v g' := by
  have two : operands c = .fixed [.needed "operand_groups", .optional "output_stride_dim"
    .none] := by
    cases c <;> first | rfl | cases group
  rw [two] at bound
  suffices first : ∃ t w, ws = [.tensor t, w] by
    obtain ⟨t, w, rfl⟩ := first
    have applied : apply c o settings [.tensor t, w] = groupProducts o (.tensor t) w := by
      cases c <;> first | rfl | cases group
    rw [applied]
    intro run
    cases run
  rcases ts with _ | ⟨a, _ | ⟨b, _ | _⟩⟩
  · cases bound
  · cases bound
    exact ⟨a, .none, rfl⟩
  · cases bound
    exact ⟨a, .tensor b, rfl⟩
  · cases bound

theorem create_conv {c : OpClass} (conv : (Conv.profile? c).isSome) (vs : List Value) :
    (∃ stride pad dilate group, create c vs = Conv.create c stride pad dilate group) ∨
    create c vs = newOp c c.label [] := by
  cases c <;> cases conv
  all_goals
    rcases vs with _ | ⟨a, _ | ⟨b, _ | ⟨c, _ | ⟨d, _ | _⟩⟩⟩⟩
    case cons.cons.cons.cons.nil => exact .inl ⟨_, _, _, _, rfl⟩
    all_goals exact .inr rfl

theorem apply_conv {c : OpClass} (conv : (Conv.profile? c).isSome) (o : OpId)
    (settings vs : List Value) :
    apply c o settings vs = (do
      match ← vs.mapM Operand.tensor with
      | x :: w :: rest =>
        let padded := Conv.hasFewChannels c && (settings.getLastD .none).truthy
        let x ← if padded then Conv.padFewChannels x else pure x
        one <$> Conv.apply o x w rest
      | _ => throw .badType) := by
  cases c <;> first | rfl | cases conv

section Run

variable {g g' : Arena} {c : OpClass} {o : OpId} {settings : List Value} {v : Value}

theorem product_run (product : (Matmul.family? c).isSome) {ts : List TensorId} {ws : List Value}
    (bound : (operands c).bind? ⟨ts.map .tensor, []⟩ = .ok ws)
    (run : apply c o settings ws g = .ok v g') :
    (∃ y, v = .tensor y ∧ g.tensors.size ≤ y.idx ∧ y.idx < g'.tensors.size) ∧ SameMarks g g' := by
  by_cases group : Matmul.family? c = some .group
  · exact absurd run (apply_group group bound o settings)
  rcases apply_product product group o settings ws with ⟨alpha, a, b, same⟩ | ⟨ws, same⟩
  · rw [same] at run
    refine ⟨?_, Frame.marks.keeps run⟩
    obtain ⟨_, g₁, first, rest⟩ := bind_ok.1 run
    obtain ⟨y, made, rfl⟩ := map_ok.1 rest
    have size := (Frame.marks.keeps first).size
    have new := MakesNew.new made
    exact ⟨y, rfl, by omega⟩
  · rw [same] at run
    refine ⟨?_, Frame.marks.keeps run⟩
    obtain ⟨y, made, rfl⟩ := map_ok.1 run
    exact ⟨y, rfl, MakesNew.new made⟩

theorem conv_run (conv : (Conv.profile? c).isSome) {ws : List Value}
    (run : apply c o settings ws g = .ok v g') :
    (∃ y, v = .tensor y ∧ g.tensors.size ≤ y.idx ∧ y.idx < g'.tensors.size) ∧ SameMarks g g' := by
  rw [apply_conv conv] at run
  obtain ⟨ts, g₁, operands, run⟩ := bind_ok.1 run
  obtain rfl := ReadOnly.keeps operands
  split at run
  · refine ⟨?_, Frame.marks.keeps run⟩
    dsimp only at run
    split at run
    all_goals
      obtain ⟨x, g₁, first, rest⟩ := bind_ok.1 run
      obtain ⟨y, made, rfl⟩ := map_ok.1 rest
      have size := (Frame.marks.keeps first).size
      have new := MakesNew.new made
      exact ⟨y, rfl, by omega⟩
  · exact (throw_ok.1 run).elim

end Run

end Catalog

/-! ## Groups of layers and views of the catalog -/

namespace Catalog

instance : Within .marks (normShapes v) := by unfold normShapes; exact .of_parts

theorem create_layers {c : OpClass} (layers : c = .groupLayernorm ∨ c = .groupLayernormSigmoidMul)
    (vs : List Value) :
    Within .marks (create c vs) := by
  rcases layers with rfl | rfl
  all_goals
    rcases vs with _ | ⟨v, _ | _⟩
    · exact inferInstanceAs (Within .marks (newOp _ _ []))
    · exact inferInstanceAs (Within .marks (Norm.createGroupLayer _ v))
    · exact inferInstanceAs (Within .marks (newOp _ _ []))

theorem apply_layers {c : OpClass} (layers : c = .groupLayernorm ∨ c = .groupLayernormSigmoidMul)
    (o : OpId) (settings : List Value) (xs gammas betas norms eps : Value) :
    apply c o settings [xs, gammas, betas, norms, eps] = (do
      let norms ← normShapes norms
      several <$> do
        Norm.applyGroupLayer o (← Operand.tensors xs) (← Operand.tensors? gammas)
          (← Operand.tensors? betas) norms eps) := by
  rcases layers with rfl | rfl <;> rfl

instance (x target : Value) : Within .marks
    (reshape o x target) := by unfold reshape; exact .of_parts

end Catalog

/-! ## The operators that chains end in -/

namespace Chain

def Computes (c : OpClass) : Prop := (Conv.profile? c).isSome ∨ (Matmul.family? c).isSome ∧
    Catalog.settings c = []

instance (c : OpClass) : Decidable (Computes c) :=
  decidable_of_iff ((Conv.profile? c).isSome ∨ (Matmul.family? c).isSome ∧
    (Catalog.settings c).isEmpty) (by simp [Computes])

/-- A built operator has a new result, and no output loses or gains its mark. -/
theorem build_run {c : OpClass} (known : Computes c) {settings : List (String × Value)}
    {ts : List TensorId} {g g' : Arena} {y : TensorId} (run : build c settings ts g = .ok y g') :
    (g.tensors.size ≤ y.idx ∧ y.idx < g'.tensors.size) ∧ SameMarks g g' := by
  unfold build at run
  simp only [bind_ok, ofExcept_ok] at run
  obtain ⟨vs, _, ⟨-, rfl⟩, o, g₁, created, ws, _, ⟨bound, rfl⟩, v, g₂, applied, last⟩ := run
  have before : SameMarks g g₁ := by
    rcases known with conv | ⟨product, plain⟩
    · rcases Catalog.create_conv conv vs with ⟨_, _, _, _, same⟩ | same
      · rw [same] at created
        exact Frame.marks.keeps created
      · rw [same] at created
        exact Frame.marks.keeps created
    · rw [Catalog.create_plain product plain] at created
      exact Frame.marks.keeps created
  have made : (∃ y, v = .tensor y ∧ g₁.tensors.size ≤ y.idx ∧ y.idx < g₂.tensors.size) ∧
    SameMarks g₁ g₂ := by
    rcases known with conv | ⟨product, -⟩
    · exact Catalog.conv_run conv applied
    · exact Catalog.product_run product bound applied
  obtain ⟨⟨z, rfl, result⟩, after⟩ := made
  obtain ⟨rfl, rfl⟩ := pure_ok.1 last
  have size := before.size
  exact ⟨by omega, Frame.marks.trans before after⟩

end Chain

end TensorGraph

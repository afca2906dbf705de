import Mathlib.Tactic.SplitIfs
import TensorGraph.Proofs.Extensions
import TensorGraph.Proofs.FailingSteps
import TensorGraph.Proofs.ForgottenUsers
import TensorGraph.Proofs.MergingReturns

/-!
# Products with functions of their results

A product and the functions that follow it become one operator.
-/

namespace TensorGraph

open Build List

variable {g h : Arena} {t x y : TensorId} {o : OpId} {f : Tensor → Tensor} {P : OpId → Prop}

namespace Build

abbrev Frame.shapes : Frame := .ofTensors Tensor.shape

instance (priority := low) {α : Type} {x : Build α} [Within .layout x] : Within .shapes x :=
  ⟨fun run => (Frame.layout.keeps run).2.1⟩

instance {z : TensorId} : Within .layout (copyScale z y) := by
  have (p : OpId) (v : Value) : Within .layout (setParam p "alpha" v) := setParam_layout (by decide)
  exact .of_parts

end Build

namespace Matmul

variable {a b : TensorId} {f : Family} {s : List DimId} {rest accessed : List TensorId}
  {inferShape : Build (List DimId)}

def HasProductShape (g : Arena) (f : Family) (a b : TensorId) (s : List DimId) : Prop :=
  ∃ k : Arena, k.dims = g.dims ∧ (∀ t, (k.tensor t).shape = (g.tensor t).shape) ∧
    productShape f a b k = .ok s k

theorem applyPlain_shape [ReadOnly inferShape]
    (infers : ∀ k, inferShape k = .ok s k → productShape f a b k = .ok s k)
    (run : applyPlain o f a b rest accessed inferShape g = .ok (y, s) h) :
    HasProductShape g f a b s ∧ (h.tensor y).shape = s := by
  simp only [applyPlain, bind_ok, pure_ok, Prod.mk.injEq] at run
  obtain ⟨_, g₁, set, _, g₂, checked, s', g₃, shape, _, g₄, -, y', g₅, made, ⟨rfl, rfl⟩, rfl⟩ := run
  obtain rfl := ReadOnly.keeps checked
  obtain rfl := ReadOnly.keeps shape
  obtain ⟨dims, shapes, -⟩ := Frame.layout.keeps set
  refine ⟨⟨g₁, dims, shapes, infers _ shape⟩, ?_⟩
  obtain ⟨y₁, g₆, sole, rest⟩ := bind_ok.1 made
  obtain ⟨z, g₇, run, shape', -⟩ := soleOutput_run (g := g₄) o s' "float16"
  obtain ⟨rfl, rfl⟩ := EStateM.Result.ok.inj (run.symm.trans sole)
  simp only [bind_ok, pure_ok] at rest
  obtain ⟨_, _, read, _, _, noted, rfl, rfl⟩ := rest
  obtain rfl := ReadOnly.keeps read
  rw [modifyOp_ok.1 noted]
  exact shape'

theorem biasedShape_gemm {bias : TensorId} {k : Arena} (gemm : f = .gemmRcr)
    (run : biasedShape f a b bias k = .ok s k) :
    productShape f a b k = .ok s k := by
  subst gemm
  iterate 6
    obtain ⟨_, _, read, run⟩ := bind_ok.1 run
    obtain rfl := ReadOnly.keeps read
  exact run

def successors : List OpClass := (Chain.productBias ++ Chain.productActivation).map (·.into)

def products : List OpClass := successors ++ [.bmmCcr, .bmmCrr, .bmmRcr, .bmmRrr]

theorem biased_gemm : ∀ c ∈ products, hasBias c = true → family? c = some .gemmRcr := by decide

theorem apply_shape (mem : (g.op o).cls ∈ products) (run : apply o (a :: b :: rest) g = .ok y h) :
    (∃ f, family? (g.op o).cls = some f ∧ HasProductShape g f a b (h.tensor y).shape) ∧
    g.Extends h := by
  unfold apply at run
  rw [bind_run (op_run o)] at run
  dsimp only at run
  -- of the many kinds of products, only those of `products` are left to look at
  generalize (g.op o).cls = c at mem run ⊢
  rw [bind_ok] at run
  obtain ⟨f, _, known, run⟩ := run
  obtain ⟨family, rfl⟩ := expect_ok.1 known
  suffices HasProductShape g f a b (h.tensor y).shape ∧
    g.Extends h from ⟨⟨f, family, this.1⟩, this.2⟩
  generalize list : a :: b :: rest = ts at run
  split at run
  case h_1 | h_2 | h_3 =>
    obtain ⟨rfl, rfl, -⟩ : _ = _ ∧ _ = _ ∧ _ := by simpa using list
    obtain ⟨⟨z, s⟩, k, made, run⟩ := bind_ok.1 run
    obtain ⟨product, shape⟩ := applyPlain_shape (fun _ => id) made
    obtain ⟨_, _, set, run⟩ := bind_ok.1 run
    obtain ⟨rfl, rfl⟩ := pure_ok.1 run
    rw [Frame.shapes.keeps set, shape]
    exact ⟨product, (Frame.extends.keeps made).trans (Frame.extends.keeps set)⟩
  case h_13 =>
    cases list
    obtain ⟨_, _, checked, run⟩ := bind_ok.1 run
    obtain rfl := ReadOnly.keeps checked
    obtain ⟨⟨z, s⟩, k, made, run⟩ := bind_ok.1 run
    have found : (HasProductShape g f a b s ∧ (k.tensor z).shape = s) ∧ g.Extends k := by
      rcases rest with _ | ⟨bias, rest⟩
      · exact ⟨applyPlain_shape (fun _ => id) made, Frame.extends.keeps made⟩
      · dsimp only at made
        split at made
        · next biased =>
          have gemm : f = .gemmRcr := Option.some.inj (family.symm.trans (biased_gemm c mem biased))
          exact ⟨applyPlain_shape (fun _ => biasedShape_gemm gemm) made, Frame.extends.keeps made⟩
        · exact ⟨applyPlain_shape (fun _ => id) made, Frame.extends.keeps made⟩
    split at run
    case h_5 =>
      obtain ⟨rfl, rfl⟩ := pure_ok.1 run
      grind
    all_goals exact absurd mem (by decide)
  case h_14 => exact (throw_ok.1 run).elim
  all_goals exact absurd mem (by decide)

end Matmul

namespace Chain

open Matmul (successors products HasProductShape)

variable {a b : TensorId} {c : OpClass} {rest : List TensorId}

theorem product_eq (mem : c ∈ products) (settings vs : List Value) :
    (∃ params, Catalog.create c settings = newOp c c.label params) ∧ Catalog.apply c o settings vs =
    (Catalog.one <$> do
      Matmul.apply o (← (if (Matmul.extraOperands? c).isSome && (vs.getLastD .none) matches
        .none then vs.dropLast else vs).mapM Operand.tensor)) := by
  cases c <;> first | exact absurd mem (by decide) | exact ⟨⟨_, rfl⟩, rfl⟩

theorem mapM_tensor {vs : List Value} {us : List TensorId}
    (run : (.tensor a :: .tensor b :: vs : List Value).mapM Operand.tensor g = .ok us h) :
    g = h ∧ ∃ rest, us = a :: b :: rest := by
  rw [← mapM'_eq_mapM, mapM'_cons, mapM'_cons] at run
  simp only [Operand.tensor, bind_ok, pure_ok, mapM'_eq_mapM] at run
  obtain ⟨_, _, ⟨rfl, rfl⟩, _, _, ⟨_, _, ⟨rfl, rfl⟩, more, k, members, rfl, rfl⟩, rfl, rfl⟩ := run
  exact ⟨ReadOnly.keeps members, more, rfl⟩

theorem bind?_positional {s : Signature} {ps ws : List Value} (bound : s.bind? ⟨ps, []⟩ = .ok ws) :
    ∃ more, ws = ps ++ more := by
  unfold Signature.bind? at bound
  split at bound
  · exact ⟨[], by simpa using bound.symm⟩
  · simp only [bind, Except.bind, pure, Except.pure, throw, throwThe, MonadExceptOf.throw] at bound
    grind

theorem newOp_ok {kind : String} {settings : List (String × Value)}
    (run : newOp c kind settings g = .ok o h) :
    (h.op o).cls = c ∧ h.dims = g.dims ∧ h.tensors = g.tensors := by
  obtain ⟨_, _, ⟨rfl, rfl⟩, _, _, rfl, rfl, rfl⟩ := run
  have cls (l : List (String × Value)) (x : Operator) :
    (l.foldl (fun o e => o.setParam e.1 e.2) x).cls = x.cls := by
    induction l generalizing x with
    | nil => rfl
    | cons e l ih =>
      rw [foldl_cons, ih]
      unfold Operator.setParam
      split <;> rfl
  simp_all [Arena.op_eq, Array.getD_eq_getD_getElem?, Operator.ofClass]

variable {settings : List (String × Value)}

theorem build_product (mem : c ∈ products) (run : build c settings (a :: b :: rest) g = .ok y h) :
    (∃ f, Matmul.family? c = some f ∧ HasProductShape g f a b (h.tensor y).shape) ∧ g.Extends h ∧
    Built g.ops.size g h := by
  unfold build at run
  simp only [bind_ok, ofExcept_ok] at run
  obtain ⟨vs, _, ⟨-, rfl⟩, o, g₁, created, ws, _, ⟨bound, rfl⟩, v, g₂, applied, last⟩ := run
  obtain ⟨⟨params, create⟩, apply⟩ := product_eq (o := o) mem vs ws
  rw [create] at created
  simp only [apply, map_ok, bind_ok] at applied
  obtain ⟨z, ⟨us, k, operands, applied⟩, rfl⟩ := applied
  obtain ⟨rfl, rfl⟩ := pure_ok.1 last
  have new : New g.ops.size o := ⟨Creates.new (Nat.le_refl _) created⟩
  obtain ⟨more, rfl⟩ := bind?_positional bound
  obtain ⟨rfl, rest', rfl⟩ : g₁ = k ∧ ∃ rest, us = a :: b :: rest := by
    rw [map_cons, map_cons, cons_append, cons_append] at operands
    generalize rest.map Value.tensor ++ more = ws at operands
    rcases ws with _ | ⟨w, ws⟩
    · rw [if_neg (by simp)] at operands
      exact mapM_tensor operands
    · split_ifs at operands
      · exact mapM_tensor operands
      · exact mapM_tensor operands
  obtain ⟨cls, dims, tensors⟩ := newOp_ok created
  obtain ⟨⟨f, family, k, dims', shapes, product⟩, more⟩ := Matmul.apply_shape (cls ▸ mem) applied
  refine ⟨?_, (Frame.extends.keeps created).trans more,
    (Frame.built g.ops.size).trans (Within.keeps created) (Within.keeps applied) (Nat.le_refl _)⟩
  exact ⟨f, cls ▸ family, k, dims'.trans dims, fun t =>
    (shapes t).trans (by rw [Arena.tensor_eq, tensors, ← Arena.tensor_eq]), product⟩

theorem build_shape (mem : c ∈ successors) (run : build c settings (a :: b :: rest) g = .ok y h) :
    (∃ f, Matmul.family? c = some f ∧ HasProductShape g f a b (h.tensor y).shape) ∧
    Built g.ops.size g h :=
  (build_product (mem_append_left _ mem) run).imp_right And.right

variable {c : Chain} {chains : List Chain} {root : OpId} {links others : List (OpId × TensorId)}
  {r : Option (TensorId × List TensorId)}

/-- What follows a product is left alone only if the operands do not suit the operator for all of
it.  Else the step returns only if the product reads no tensor twice and all other operands know
their users, which numbers do not; and the result has the shape of the product, whatever the other
operands are. -/
theorem replace?_shape (products : chains ⊆ productBias ++ productActivation)
    (source : (g.tensor t).src.sole? = some root)
    (found : findAny? t root chains g = .ok (some (c, links)) g)
    (along : otherOperands t links g = .ok others g)
    (reads : (g.op root).inputs = some (a :: b :: rest)) (run : replace? chains t g = .ok r h) :
    (r = none → suits c.into (a :: b :: rest ++ others.map (·.2)) g = .ok false g) ∧
    ∀ y dropped, r = some (y, dropped) →
      (a :: b :: rest).Nodup ∧
      (∀ p ∈ others, p.1.idx < g.ops.size → p.2.idx < g.tensors.size →
        p.1 ∈ (g.tensor p.2).dst.ops) ∧
      ∃ f, Matmul.family? c.root = some f ∧ HasProductShape g f a b (h.tensor y).shape := by
  have mem : c ∈ productBias ++ productActivation := products (findAny?_mem found).1
  have family : ∀ c ∈ productBias ++ productActivation, Matmul.family? c.root = Matmul.family?
    c.into := by decide
  have fits : ∀ c ∈ successors, ∀ root ts, residualFits c root ts = pure true := by
    intro c hc root ts
    unfold residualFits
    split
    all_goals first | rfl | exact absurd hc (by decide)
  have into : c.into ∈ successors := mem_map_of_mem mem
  unfold replace? at run
  rw [bind_run (tensor_run t), source] at run
  dsimp only at run
  rw [bind_run found] at run
  dsimp only at run
  rw [bind_run (inputs_ok.2 ⟨reads, rfl⟩), bind_run along, bind_ok] at run
  obtain ⟨suit, _, suited, run⟩ := run
  obtain rfl := ReadOnly.keeps suited
  cases suit with
  | false =>
    obtain ⟨rfl, -⟩ := pure_ok.1 run
    exact ⟨fun _ => suited, by simp⟩
  | true =>
    simp only [fits _ into, pure_bind, Bool.not_true, Bool.false_eq_true, if_false, bind_ok, op_ok,
      pure_ok, forIn_eq_forM] at run
    obtain ⟨_, _, ⟨rfl, rfl⟩, y, g₁, made, _, g₂, marked, _, g₃, moved, _, g₄, forgot, _, g₅,
      removed, rfl, rfl⟩ := run
    obtain ⟨⟨f, known, product⟩, built⟩ := build_shape into made
    have new := (build_run (.inr (by revert into; generalize c.into = d; revert d; decide)) made).1
    refine ⟨by simp, fun y' _ same => ?_⟩
    obtain ⟨rfl, -⟩ := Prod.mk.inj (Option.some.inj same)
    refine ⟨(forgetUse_nodup forgot).1, fun p hp old old' => ?_, f, (family c mem).trans known, ?_⟩
    · -- an operand that does not know its user never will, and the last loop fails on it
      by_contra unknown
      have ne : Fact (y ≠ p.2) := ⟨by rintro rfl; omega⟩
      have start : UsedBy (· ≠ p.1) p.2 g₁ := fun q hq same =>
        unknown ((built.dst p.2 p.1 old).1 (same ▸ hq))
      let R := Frame.usedBy (· ≠ p.1) p.2
      have after : UsedBy (· ≠ p.1) p.2 g₄ := R.trans (R.trans (R.keeps marked) (R.keeps moved))
        (R.keeps forgot) start
      refine (forM_walks (fun done k => UsedBy (· ≠ p.1) p.2 k ∧ p ∉ done)
        (fun done q _ _ k k' _ before turn => ?_)
        ⟨after, by simp⟩ removed).2 hp
      refine ⟨(R.keeps turn) before.1, fun again => ?_⟩
      rcases mem_append.1 again with hp | hp
      · exact before.2 hp
      · obtain rfl := mem_singleton.1 hp
        exact before.1 _ (removeDst_ok.1 turn).1 rfl
    · rw [Frame.shapes.keeps removed, Frame.shapes.keeps forgot, Frame.shapes.keeps moved,
        Frame.shapes.keeps marked]
      exact product

def numberAdded : Arena :=
  .ofNodes [2, 8, 4] [([0, 1, 2], [], [0]),
    ([0, 1, 1], [], [0]), ([0, 2, 1], [0], [1]), ([0, 2, 1], [1], []), ([], [], [])]
    #[.between .bmmCcr [0, 1] [2],
      { Operator.between .elementwise [2] [3] with args := some [⟨2⟩, ⟨4⟩], params :=
        [("func", .func .add)] }]

theorem replace?_shape_number : Graph.Valid numberAdded ((range 4).map .mk) ∧
    ¬∃ r h, replace? productActivation ⟨2⟩ numberAdded = .ok r h := by
  refine ⟨(Graph.check_ok.1 rfl).1, ?_⟩
  rintro ⟨r, h, run⟩
  have found : findAny? ⟨2⟩ ⟨0⟩ productActivation numberAdded =
      .ok (some (⟨.bmmCcr, [.add], .bmmCcrAdd⟩, [(⟨1⟩, ⟨3⟩)])) numberAdded := rfl
  have along : otherOperands ⟨2⟩ [(⟨1⟩, ⟨3⟩)] numberAdded = .ok [(⟨1⟩, ⟨4⟩)] numberAdded := rfl
  obtain ⟨left, replaced⟩ := replace?_shape (subset_append_right _ _) rfl found along rfl run
  cases r with
  | none => exact absurd (left rfl) (by rintro ⟨⟩)
  | some found =>
    have uses := (replaced found.1 found.2 rfl).2.1 _ mem_cons_self (by decide) (by decide)
    exact absurd uses (by decide)

end Chain

end TensorGraph

import Mathlib
import TensorGraph.Proofs.Bypassing
import TensorGraph.Proofs.FailingSteps
import TensorGraph.Proofs.MovedMarks
import TensorGraph.Proofs.ValidGraph

/-!
# Products with what follows them

A product takes over what its only users compute.
-/

namespace TensorGraph

open Build List

variable {g h : Arena} {t x y z : TensorId} {a b o p s m : OpId}

theorem Chain.applies_iff {f : ScalarFn} {q : Operator} :
    applies q f = true ↔ q.kind = "elementwise" ∧ q.param? "func" = some (.func f) := by
  unfold applies
  split <;> simp_all

namespace Product

open Chain

/-! ## Factors -/

section Factors

variable {K : Type} [Field K] (num : Float → K)

def scaledBy (q : Operator) (c : Float) (e : K) : K :=
  if applies q .div then e / num c else e * num c

def scaledSum (p : Operator) (product added : K) : K :=
  (((p.param? "alpha").bind Number.ofValue?).map fun n => num n.toFloat).getD 1 * product + added

variable {q : TensorId} {n : Number} {v w : Float} (inputs : (g.op o).inputs = some [t])
  (args : (g.op o).args = some [x, q])
  (other : q ≠ t) (number : (g.tensor q).isNumber = true)
    (value : Number.ofValue? (g.tensor q).value = some n)

include inputs args other number value

theorem scale?_run : scale? o t g = if applies (g.op o) .div then
      if (Number.float n.toFloat).same 0 then .error .zeroDivision g else .ok
        (some (1.0 / n.toFloat)) g
    else .ok (if applies (g.op o) .mul then some n.toFloat else none) g := by
  unfold scale?
  by_cases some? : applies (g.op o) .div = true ∨ applies (g.op o) .mul = true
  · rw [bind_run (op_run o), if_neg (by grind), bind_run (inputs_ok.2 ⟨inputs, rfl⟩),
      if_neg (by simp), bind_run (expect_ok.2 ⟨args, rfl⟩)]
    dsimp only
    rw [if_neg (by simp [other]), bind_run (tensor_run q), if_neg (by simp [number]), value]
    dsimp only
    split
    · unfold Number.div?
      split <;> rfl
    · next no => simp [some?.resolve_left no]
  · simp [not_or.1 some?]

theorem scaledBy_eq (found : scale? o t g = .ok (some v) h)
    (exact : applies (g.op o) .div = true → num (1.0 / n.toFloat) = (num n.toFloat)⁻¹) (e : K) :
    scaledBy num (g.op o) n.toFloat e = e * num v := by
  rw [scale?_run inputs args other number value] at found
  unfold scaledBy
  split at found
  · next divides =>
    grind
  · next keeps => grind

/-- The search for a factor fails exactly if it would divide by zero.  Moving a factor into the
scale of a product replaces the scale that it had, so it keeps what is computed exactly if that
scale was one, and if nothing is added to the product. -/
theorem takeScale_iff (exact : applies (g.op o) .div = true →
    num (1.0 / n.toFloat) = (num n.toFloat)⁻¹) (known : p.idx < g.ops.size) :
    ((∃ r, scale? o t g = .ok r g) ↔ (applies (g.op o) .div = true →
      (Number.float n.toFloat).same 0 = false)) ∧
    ∀ v h, scale? o t g = .ok (some v) g → (setParam p "alpha" (.float v) >>= fun _ => bypass o) g =
    .ok () h → ∀ added : K,
      (∀ product, scaledSum num (h.op p) product added = scaledBy num (g.op o) n.toFloat
        (scaledSum num (g.op p) product added)) ↔ (num v = 0 ∨ scaledSum num (g.op p) 1 0 = 1) ∧
        (added = 0 ∨ num v = 1) := by
  refine ⟨?_, fun v h found turn added => ?_⟩
  · rw [scale?_run inputs args other number value]
    split
    · split <;> simp_all
    · simp_all
  · obtain ⟨_, k, set, rest⟩ := bind_ok.1 turn
    have scale : (h.op p).param? "alpha" = some (.float v) := by
      rw [Operator.param?, ((Frame.ofOps Operator.params).keeps rest) p, modifyOp_ok.1 set,
        Arena.op_modifyOp_self known, ← Operator.param?, Operator.param?_setParam]
      rfl
    have scaled := scaledBy_eq num inputs args other number value found exact
    have now (product : K) : scaledSum num (h.op p) product added = num v * product + added := by
      simp [scaledSum, scale, Number.ofValue?, Number.toFloat]
    simp only [scaled, now]
    unfold scaledSum
    constructor
    · intro same
      have none := same 0
      have one := same 1
      grind
    · grind

omit inputs args other number value

def doubledSum : Arena :=
  let nodes := Arena.ofNodes [2, 8, 4] [([0, 1, 2], [], [0]), ([0, 1, 1], [], [0]),
    ([0, 2, 1], [], [0]), ([0, 2, 1], [0], [1]),
      ([0, 2, 1], [1], []), ([], [], [])]
    #[{ Operator.between .bmmCcrAdd [0, 1, 2] [3] with params := [("alpha", .float 1.0)] },
      { Operator.between .elementwise [3] [4] with args := some [⟨3⟩, ⟨5⟩], params :=
        [("func", .func .mul)] }]
  nodes.modifyTensor ⟨5⟩ fun x => { x with value := .float 2.0 }

def rational (c : Float) : ℚ := ((Number.quotient? c).map fun q => (q.1 / q.2 : ℚ)).getD 0

theorem takeScale_iff_doubled : Graph.Valid doubledSum ((range 5).map .mk) ∧
    ∃ h, scale? ⟨1⟩ ⟨3⟩ doubledSum = .ok (some 2.0) doubledSum ∧
      (setParam ⟨0⟩ "alpha" (.float 2.0) >>= fun _ => bypass ⟨1⟩) doubledSum = .ok () h ∧
      ¬∀ product, scaledSum rational (h.op ⟨0⟩) product 1 =
        scaledBy rational (doubledSum.op ⟨1⟩) 2.0
          (scaledSum rational (doubledSum.op ⟨0⟩) product 1) := by
  have step := (takeScale_iff (g := doubledSum) (o := ⟨1⟩) (p := ⟨0⟩)
    (t := ⟨3⟩) (n := .float 2.0) rational rfl rfl
    (by decide) rfl rfl (fun divides => absurd divides (by decide)) (by decide)).2
  have scale : scale? ⟨1⟩ ⟨3⟩ doubledSum = .ok (some 2.0) doubledSum := rfl
  obtain ⟨_, h, run, -⟩ := exists_ok (g := doubledSum)
    (x := setParam ⟨0⟩ "alpha" (.float 2.0) >>= fun _ => bypass ⟨1⟩)
    (P := fun _ _ => true) (by decide)
  have two : rational 2.0 = 2 := by
    have : Number.quotient? 2.0 = some (4503599627370496, 2251799813685248) := by decide
    norm_num [rational, this]
  refine ⟨(Graph.check_ok.1 rfl).1, h, scale, run, fun all => ?_⟩
  have := ((step 2.0 h scale run 1).1 all).2
  norm_num [two] at this

end Factors

/-! ## Sigmoids -/

def SigmoidAndProduct (g : Arena) (s m : OpId) : Prop :=
  applies (g.op s) .sigmoid = true ∧ applies (g.op m) .mul = true

/-- An operator multiplies a tensor with the first result of a sigmoid, in either order. -/
structure Swish (g : Arena) (t : TensorId) (s m : OpId) (z : TensorId) : Prop where
  functions : SigmoidAndProduct g s m
  operands : ∃ y rest, (g.op s).outputList.head? = some y ∧
    ((g.op m).inputList = y :: t :: rest ∨ (g.op m).inputList = t :: y :: rest)
  result : (g.op m).outputList.head? = some z

/-- An operator that reads something and writes something. -/
structure Applied (g : Arena) (o : OpId) : Prop where
  inputs : (g.op o).inputs.isSome
  reads : (g.op o).inputList ≠ []
  writes : (g.op o).outputList ≠ []

theorem outputAt_run (applied : Applied g o) : ∃ y, (g.op o).outputList.head? = some y ∧
    outputAt o 0 g = .ok y g := by
  obtain ⟨y, ys, list⟩ := exists_cons_of_ne_nil applied.writes
  have outs : (g.op o).outputs = some (y :: ys) := by
    unfold Operator.outputList at list
    cases known : (g.op o).outputs <;> simp_all
  refine ⟨y, by simp [list], ?_⟩
  rw [outputAt, bind_run (outputs_ok.2 ⟨outs, rfl⟩)]
  rfl

theorem sigmoidProduct?_run (left : Applied g s) (right : Applied g m) :
    ((∃ r, sigmoidProduct? t s m g = .ok r g) ↔
      (SigmoidAndProduct g s m → 2 ≤ (g.op m).inputList.length)) ∧ ∀ z, sigmoidProduct? t s m g =
      .ok (some z) g ↔ Swish g t s m z := by
  unfold sigmoidProduct?
  simp only [bind_run (op_run _)]
  by_cases both : SigmoidAndProduct g s m
  · obtain ⟨y, first, wrote⟩ := outputAt_run left
    obtain ⟨w, last, made⟩ := outputAt_run right
    obtain ⟨us, reads⟩ := Option.isSome_iff_exists.1 right.inputs
    have list : (g.op m).inputList = us := by simp [Operator.inputList, reads]
    have there (i : Int) : inputAt m i g = expect .badIndex (us.at? i) g := by
      rw [inputAt, bind_run (inputs_ok.2 ⟨reads, rfl⟩)]
    rw [if_neg (by simp [both.1, both.2]), bind_run wrote, list]
    rcases us with _ | ⟨u, _ | ⟨v, rest⟩⟩
    · exact absurd list right.reads
    · rw [bind_run (show inputAt m 0 g = .ok u g from there 0),
        bind_failed (show inputAt m 1 g = .error .badIndex g from there 1)]
      refine ⟨by simp [both], fun z => ⟨by simp, fun swish => ?_⟩⟩
      obtain ⟨_, _, -, both⟩ := swish.operands
      simp [list] at both
    · have second : inputAt m 1 g = .ok v g := there 1
      rw [bind_run (show inputAt m 0 g = .ok u g from there 0), bind_run second, bind_run second]
      have swish (z : TensorId) : Swish g t s m z ↔ (u = y ∧ v = t ∨ v = y ∧ u = t) ∧ w = z := by
        refine ⟨fun swish => ?_, fun found => ⟨both, ⟨y, rest, first, ?_⟩, found.2 ▸ last⟩⟩
        · have operands := swish.operands
          have result := swish.result
          grind
        · grind
      split <;> simp_all [bind_run made]
  · rw [if_pos (by simpa [SigmoidAndProduct, imp_iff_not_or] using both)]
    exact ⟨⟨fun _ h => absurd h both, fun _ => ⟨none, rfl⟩⟩, fun z =>
      ⟨by simp, fun swish => absurd swish.functions both⟩⟩

/-- With two users, the search for the product of a tensor with its sigmoid fails exactly if one of
them is the sigmoid and the other multiplies the tensor with a number.  It finds exactly the
products of the two, whatever else uses the sigmoid. -/
theorem swish?_iff {ts : Graph} (valid : Graph.Valid g ts) (ht : t ∈ ts)
    (users : (g.tensor t).dst.ops = [a, b]) (writes : ∀ o ∈ [a, b], (g.op o).outputList ≠ []) :
    ((∃ r, swish? t g = .ok r g) ↔
      ∀ p ∈ [(a, b), (b, a)], SigmoidAndProduct g p.1 p.2 → 2 ≤ (g.op p.2).inputList.length) ∧
      ∀ z, swish? t g = .ok (some z) g ↔ ∃ p ∈ [(a, b), (b, a)], Swish g t p.1 p.2 z := by
  have applied : ∀ o ∈ [a, b], Applied g o := fun o ho => by
    obtain ⟨⟨inputs, -⟩, reads, -⟩ := valid.uses ht (users ▸ ho)
    exact ⟨inputs, ne_nil_of_mem reads, writes o ho⟩
  obtain ⟨returns, finds⟩ := sigmoidProduct?_run (t := t) (applied a (by simp))
    (applied b (by simp))
  obtain ⟨returns', finds'⟩ := sigmoidProduct?_run (t := t) (applied b (by simp))
    (applied a (by simp))
  -- an operator does not apply two functions
  have apart : SigmoidAndProduct g a b → ¬SigmoidAndProduct g b a := by
    simp only [SigmoidAndProduct, applies_iff]
    rintro ⟨⟨-, f⟩, -⟩ ⟨-, -, f'⟩
    simp [f] at f'
  unfold swish?
  rw [bind_run (tensor_run t), users]
  simp only [forall_mem_cons, exists_mem_cons_iff, not_mem_nil, false_and, exists_false, or_false,
    ← returns, ← finds, ← finds', ← returns', false_implies, implies_true, and_true]
  cases first : sigmoidProduct? t a b g with
  | error e h =>
    rw [bind_failed first]
    refine ⟨by simp, fun z => ⟨by simp, fun found => ?_⟩⟩
    have functions := ((finds' z).1 (found.resolve_left (by simp))).functions
    have := returns.2 fun sp => absurd functions (apart sp)
    simp [first] at this
  | ok r h =>
    obtain rfl := ReadOnly.keeps first
    rw [bind_run first]
    cases r with
    | none => simp
    | some z =>
      have functions := ((finds z).1 first).functions
      have second := returns'.2 fun sp => absurd sp (apart functions)
      refine ⟨by simpa [pure, EStateM.pure] using second, fun z' =>
        ⟨Or.inl, fun found => found.elim id fun other => ?_⟩⟩
      exact absurd ((finds' z').1 other).functions (apart functions)

def doubledSigmoid : Arena :=
  .ofNodes [4, 8] [([0, 1], [], [0]), ([1, 1], [], [0]), ([1], [], [0]), ([0, 1], [0], [1, 2]),
    ([0, 1], [1], []), ([0, 1], [2], []),
      ([], [], [])]
    #[.between .gemmRcrBias [0, 1, 2] [3],
      { Operator.between .elementwise [3]
        [4] with args := some [⟨3⟩], params := [("func", .func .sigmoid)] },
      { Operator.between .elementwise [3] [5] with args := some [⟨3⟩, ⟨6⟩], params :=
        [("func", .func .mul)] }]

theorem swish?_iff_doubled : Graph.Valid doubledSigmoid ((range 6).map .mk) ∧
    ¬∃ r, swish? ⟨3⟩ doubledSigmoid = .ok r doubledSigmoid := by
  have valid : Graph.Valid doubledSigmoid ((range 6).map .mk) := (Graph.check_ok.1 rfl).1
  refine ⟨valid, fun returns => ?_⟩
  have := (swish?_iff (a := ⟨1⟩) (b := ⟨2⟩) valid (t := ⟨3⟩) (by decide) rfl (by decide)).1.1
    returns (⟨1⟩, ⟨2⟩) (by simp)
    ⟨rfl, rfl⟩
  revert this
  decide

end Product

end TensorGraph

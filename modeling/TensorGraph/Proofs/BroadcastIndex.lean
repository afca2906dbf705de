import Mathlib
import TensorGraph.Kernel.Broadcast
import TensorGraph.Proofs.FusedElementwise
import TensorGraph.Proofs.RowMajor

/-!
# The index into a broadcast operand

The generated index has one term for each run of axes on which operand and result agree.
-/

namespace TensorGraph.Kernel

open Code RowMajor List

variable {env : String → Int} {x y : Dim} {xs ys run operand result : List Dim} {i n : Nat}
  {ms ns : List Nat}

def sizeAt (env : String → Int) (d : Dim) : Nat := ((dimExpr d).eval .truncating env).toNat

/-- The number of the element of an operand that is repeated at an element of the result. -/
def repeated : List Nat → List Nat → Nat → Nat
  | m :: ms, _ :: ns, i => (if m = 1 then 0 else i / ns.prod) * ms.prod + repeated ms ns (i %
    ns.prod)
  | _, _, _ => 0

theorem repeated_eq (length : ms.length = ns.length) (i : Nat) :
    repeated ms ns i = flat ms (zipWith (fun m k => if m = 1 then 0 else k) ms (unflat ns i)) := by
  induction ms generalizing ns i with
  | nil => rfl
  | cons m ms ih =>
    cases ns with
    | nil => simp at length
    | cons n ns => rw [repeated, unflat, zipWith_cons_cons, flat, ih (by simpa using length)]

/-! ## Texts and values -/

theorem eval_foldl_mul (es : List IntExpr) (e : IntExpr) :
    (es.foldl .mul e).eval .truncating env = e.eval .truncating env *
    (es.map (·.eval .truncating env)).prod := by
  induction es generalizing e with
  | nil => simp
  | cons f es ih => rw [foldl_cons, ih, map_cons, prod_cons, IntExpr.eval, mul_assoc]

theorem eval_foldl_add (es : List IntExpr) (e : IntExpr) :
    (es.foldl .add e).eval .truncating env = e.eval .truncating env +
    (es.map (·.eval .truncating env)).sum := by
  induction es generalizing e with
  | nil => simp
  | cons f es ih => rw [foldl_cons, ih, map_cons, sum_cons, IntExpr.eval, add_assoc]

theorem isBracketed_foldl_mul {es : List IntExpr} {e : IntExpr} (first : e.isTerm ∧ e.isBracketed)
    (rest : ∀ f ∈ es, f.isAtom ∧ f.isBracketed) : (es.foldl .mul e).isBracketed := by
  induction es generalizing e with
  | nil => exact first.2
  | cons f es ih =>
    rw [forall_mem_cons] at rest
    exact ih ⟨rfl, by simp [IntExpr.isBracketed, first, rest.1]⟩ rest.2

theorem isBracketed_foldl_add {es : List IntExpr} {e : IntExpr} (first : e.isBracketed)
    (rest : ∀ f ∈ es, f.isTerm ∧ f.isBracketed) : (es.foldl .add e).isBracketed := by
  induction es generalizing e with
  | nil => exact first
  | cons f es ih =>
    rw [forall_mem_cons] at rest
    exact ih (by simp [IntExpr.isBracketed, first, rest.1]) rest.2

theorem dimExpr_atom (d : Dim) : (dimExpr d).isAtom ∧ (dimExpr d).isTerm ∧
    (dimExpr d).isBracketed := by
  unfold dimExpr
  split <;> simp [IntExpr.isAtom, IntExpr.isTerm, IntExpr.isBracketed]

theorem eval_dimExpr (size : 0 ≤ (dimExpr x).eval .truncating env) :
    (dimExpr x).eval .truncating env = sizeAt env x :=
  (Int.toNat_of_nonneg size).symm

def Sized (env : String → Int) (ds : List Dim) : Prop :=
  ∀ d ∈ ds, 0 ≤ (dimExpr d).eval .truncating env

theorem bracketed_spec (sized : Sized env run) : (IndexTerm.bracketed run).isBracketed ∧
    (IndexTerm.bracketed run).eval .truncating env = (run.map (sizeAt env)).prod := by
  cases run with
  | nil => exact ⟨rfl, rfl⟩
  | cons d ds =>
    constructor
    · exact isBracketed_foldl_mul (dimExpr_atom d).2 (by grind [dimExpr_atom])
    · have sizes : ((d :: ds).map (sizeAt env)).map Nat.cast = (d :: ds).map fun d =>
        (dimExpr d).eval .truncating env := by
        simpa using ⟨(eval_dimExpr (sized d (by simp))).symm, fun e he =>
          (eval_dimExpr (sized e (by simp [he]))).symm⟩
      show ((ds.map dimExpr).foldl .mul (dimExpr d)).eval .truncating env = _
      rw [eval_foldl_mul, Nat.cast_list_prod, sizes]
      simp [Function.comp_def]

namespace IndexTerm

def value (env : String → Int) (i : Nat) (t : IndexTerm) : Nat :=
  i % (t.extent.map (sizeAt env)).prod / (t.resultStep.map (sizeAt env)).prod *
    (t.operandStep.map (sizeAt env)).prod

protected def Sized (env : String → Int) (t : IndexTerm) : Prop :=
  Sized env t.extent ∧ Sized env t.resultStep ∧ Sized env t.operandStep

end IndexTerm

theorem expr_spec {t : IndexTerm} (sized : t.Sized env)
    (at_ : env "idx" * env "N_ELEMENTS_PER_THREAD" = i) :
    t.expr.isTerm ∧ t.expr.isBracketed ∧ t.expr.eval .truncating env = t.value env i := by
  obtain ⟨b₁, e₁⟩ := bracketed_spec sized.1
  obtain ⟨b₂, e₂⟩ := bracketed_spec sized.2.1
  obtain ⟨b₃, e₃⟩ := bracketed_spec sized.2.2
  refine ⟨rfl, ?_, ?_⟩
  · simp only [IndexTerm.expr, IntExpr.isBracketed, b₁, b₂, b₃]
    rfl
  · simp only [IndexTerm.expr, IntExpr.eval, e₁, e₂, e₃, firstElement, at_]
    simp only [Division.truncating]
    rw [← Int.ofNat_tmod, ← Int.ofNat_tdiv, ← Int.natCast_mul]
    rfl

theorem sum?_spec {ts : List IndexTerm} (ne : ts ≠ []) (sized : ∀ t ∈ ts, t.Sized env)
    (at_ : env "idx" * env "N_ELEMENTS_PER_THREAD" = i) :
    ∃ e, IntExpr.sum? (ts.map (·.expr)) = some e ∧ e.isBracketed ∧ e.eval .truncating env =
    (ts.map (·.value env i)).sum := by
  obtain ⟨t, ts, rfl⟩ := exists_cons_of_ne_nil ne
  have each := fun t ht => expr_spec (sized t ht) at_
  have values : ts.map (fun t => t.expr.eval .truncating env) = ts.map fun t =>
    (t.value env i : Int) :=
    map_congr_left fun u hu => (each u (mem_cons_of_mem _ hu)).2.2
  refine ⟨_, rfl, isBracketed_foldl_add (each t (by simp)).2.1 ?_, ?_⟩
  · simpa using fun u hu => ⟨(each u (by simp [hu])).1, (each u (by simp [hu])).2.1⟩
  · rw [eval_foldl_add, (each t (by simp)).2.2]
    simp [Function.comp_def, values]

/-! ## The walk over the axes -/

theorem dimExpr_same (same : x.same y) : dimExpr x = dimExpr y := by
  obtain ⟨static, values, name⟩ := Dim.same_iff.1 same
  unfold dimExpr Dim.value
  rw [← static, ← values]
  split
  · rfl
  · next dynamic => rw [name.resolve_left dynamic]

theorem eval_one (one : x.isFixed 1) : (dimExpr x).eval .truncating env = 1 := by
  simp only [Dim.isFixed, Bool.and_eq_true, beq_iff_eq] at one
  simp [dimExpr, one.1, Dim.value, one.2, IntExpr.eval]

theorem run_step {P Y : Nat} (divides : n * Y ∣ P) (i : Nat) :
    i % P / Y = i % P / (n * Y) * n + (if n = 1 then 0 else i % (n * Y) / Y) := by
  have inner : i % P / Y % n = i % (n * Y) / Y := by
    rw [← Nat.mod_mul_left_div_self, Nat.mod_mod_of_dvd _ divides]
  have zero : (if n = 1 then 0 else i % (n * Y) / Y) = i % (n * Y) / Y := by
    simp_all [Nat.mod_mul_left_div_self, Nat.mod_one]
  rw [zero, ← inner, Nat.mul_comm n Y, ← Nat.div_div_eq_div_mul, Nat.div_add_mod']

def Broadcasts (operand result : List Dim) : Prop :=
  Forall₂ (fun x y => x.same y ∨ x.isFixed 1) operand result

theorem Broadcasts.sized (fits : Broadcasts xs ys) (sized : Sized env ys) : Sized env xs := by
  induction fits with
  | nil => exact sized
  | @cons x y _ _ fit _ ih =>
    obtain ⟨first, rest⟩ := forall_mem_cons.1 sized
    refine forall_mem_cons.2 ⟨?_, ih rest⟩
    grind [dimExpr_same, eval_one]

theorem indexTermsFrom?_spec (fits : Broadcasts xs ys) (sized : Sized env ys) {p : List Dim}
    (before : Sized env p) (i : Nat) :
    ∃ ts, indexTermsFrom? (p ++ ys) xs ys = .ok ts ∧ (p ++ ys ≠ [] → ts ≠ []) ∧
    (∀ t ∈ ts, t.Sized env) ∧ (ts.map (·.value env i)).sum = i % ((p ++ ys).map (sizeAt env)).prod /
    (ys.map (sizeAt env)).prod * (xs.map (sizeAt env)).prod +
    repeated (xs.map (sizeAt env)) (ys.map (sizeAt env)) (i % (ys.map (sizeAt env)).prod) := by
  induction fits generalizing p with
  | nil =>
    cases p with
    | nil => exact ⟨[], rfl, by simp, by simp, by simp [repeated, Nat.mod_one]⟩
    | cons d p =>
      refine ⟨[⟨d :: p, [.static 1], [.static 1]⟩], by simp [indexTermsFrom?], by simp, ?_, ?_⟩
      · have unit : Sized env [.static 1] := by simp [Sized, dimExpr, Dim.static, Dim.value,
          IntExpr.eval]
        simpa [IndexTerm.Sized] using ⟨before, unit⟩
      · have unit : sizeAt env (.static 1) = 1 := rfl
        simp [IndexTerm.value, unit, repeated]
  | @cons x y xs ys fit fits ih =>
    obtain ⟨first, rest⟩ := forall_mem_cons.1 sized
    have all := Broadcasts.sized (.cons fit fits) sized
    unfold indexTermsFrom?
    by_cases same : x.same y
    · obtain ⟨ts, run, ne, good, value⟩ := ih rest (p := p ++ [y])
        (forall_mem_append.2 ⟨before, by simpa using first⟩)
      simp only [append_assoc, singleton_append] at run ne value
      refine ⟨ts, by simpa [same] using run, ne, good, ?_⟩
      rw [value, map_cons, map_cons, show sizeAt env x = sizeAt env
        y by rw [sizeAt, dimExpr_same same,
        sizeAt], prod_cons, prod_cons, repeated, Nat.mod_mul_left_mod,
        run_step (n := sizeAt env y) (by simp) i]
      ring
    · obtain ⟨ts, run, -, good, value⟩ := ih rest (p := []) (by simp [Sized])
      have one := fit.resolve_left same
      rw [nil_append] at run value
      refine ⟨_, by simp [same, one, run]; rfl, by simp, ?_, ?_⟩
      · exact forall_mem_cons.2 ⟨⟨forall_mem_append.2 ⟨before, sized⟩, sized, all⟩, good⟩
      · have unit : sizeAt env x = 1 := by simp [sizeAt, eval_one one]
        rw [map_cons, sum_cons, value, Nat.mod_div_self, map_cons, map_cons, unit, repeated,
          if_pos rfl, prod_cons, Nat.mod_mul_left_mod]
        simp [IndexTerm.value, unit]

/-- The generated index reads as it is meant, and its value is the number of the element of the
operand that is repeated at the element of the result. -/
theorem indexExpr?_eval (axes : result ≠ []) (fits : Broadcasts operand result)
    (sized : Sized env result) (at_ : env "idx" * env "N_ELEMENTS_PER_THREAD" = i)
    (low : i < (result.map (sizeAt env)).prod) :
    ∃ e, indexExpr? operand result = .ok (some e) ∧ e.isBracketed ∧ e.eval .truncating env =
      flat (operand.map (sizeAt env))
        (zipWith (fun m k => if m = 1 then 0 else k) (operand.map (sizeAt env))
        (unflat (result.map (sizeAt env)) i)) := by
  obtain ⟨ts, run, ne, good, value⟩ := indexTermsFrom?_spec fits sized (p := []) (by simp [Sized]) i
  obtain ⟨e, sum, reads, eval⟩ := sum?_spec (ne axes) good at_
  refine ⟨e, ?_, reads, ?_⟩
  · rw [indexExpr?, indexTerms?]
    rw [nil_append] at run
    rw [run]
    exact congrArg Except.ok sum
  · rw [eval, value, nil_append, Nat.mod_eq_of_lt low, Nat.div_eq_of_lt low, Nat.zero_mul,
      Nat.zero_add, repeated_eq (by simp [fits.length_eq])]

/-- The second element of the second of two rows, where one row is repeated. -/
theorem indexExpr?_eval_row :
    let env := fun s => if s = "n" then 2 else if s = "idx" then 5 else 1
    ∃ e, indexExpr? [.static 1, .static 4] [⟨false, [1, 8], some "n"⟩, .static 4] = .ok (some e) ∧
    e.isBracketed ∧
      e.eval .truncating env = 1 := by
  intro env
  have fits : Broadcasts [.static 1, .static 4] [⟨false, [1, 8], some "n"⟩, .static 4] :=
    .cons (.inr rfl) (.cons (.inl rfl) .nil)
  have sized : Sized env [⟨false, [1, 8], some "n"⟩, .static 4] := by simp [Sized, dimExpr,
    Dim.static, Dim.value, IntExpr.eval, env]
  obtain ⟨e, run, reads, eval⟩ := indexExpr?_eval (by simp) fits sized (i := 5) rfl (by decide)
  exact ⟨e, run, reads, eval.trans (by decide)⟩

end TensorGraph.Kernel

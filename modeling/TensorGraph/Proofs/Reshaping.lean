import Mathlib.Data.List.Permutation
import TensorGraph.Proofs.SolvedShapes

/-!
# Reshaping

What a run of a reshape has found out about the shapes that it tried (`inferReshape_ok`), and so
what its output is for all sizes that the input can have (`reshape_honours_iff`).
-/

namespace TensorGraph

open List

variable {g g' h : Arena} {x : TensorId} {o : OpId} {ds : List DimId} {shapes yss : List (List Int)}
  {i : Nat}

namespace View

open Build Arena

variable {pairs : List (List Int × List Int)} {rank : Nat} {v : Value} {u n : Int} {vs : List Int}
  {kept : Option DimId}
  {target : List DimId}

/-! ## The shapes that are tried -/

theorem pairTargets_ok {sources targets : List (List Int)}
    (run : pairTargets sources targets g = .ok pairs g') :
    g = g' ∧ (∀ s ∈ sources, ∃ t, (s, t) ∈ pairs) ∧ ∀ p ∈ pairs, p.1 ∈ sources ∧ p.2 ∈ targets := by
  unfold pairTargets at run
  split at run
  · simp only [bind_ok, require_ok, pure_ok, beq_iff_eq] at run
    obtain ⟨_, _, ⟨one, rfl⟩, rfl, rfl⟩ := run
    obtain ⟨t, rfl⟩ := length_eq_one_iff.1 one
    simp_all
  · next enough =>
    obtain ⟨rfl, rfl⟩ := pure_ok.1 run
    refine ⟨rfl, fun s hs => ?_, fun p hp => of_mem_zip hp⟩
    obtain ⟨i, lt, rfl⟩ := mem_iff_getElem.1 hs
    have lt' : i < (sources.zip targets).length := by rw [length_zip]; omega
    exact ⟨targets[i], by rw [← getElem_zip (h := lt')]; exact getElem_mem lt'⟩

theorem mapM_solve_ok
    (run : pairs.mapM (fun p => (ofExcept (solve? p.1 p.2) : Build (List Int))) g = .ok shapes g') :
    g = g' ∧ (∀ p ∈ pairs, ∃ r ∈ shapes, Solution p.1 p.2 r) ∧
    ∀ r ∈ shapes, ∃ p ∈ pairs, Solution p.1 p.2 r := by
  obtain ⟨same, each⟩ := mapM_each run
  simp only [ofExcept_ok] at each
  grind [solve?_solution]

theorem sizesByAxis_eq (some : shapes ≠ []) (ranks : ∀ r ∈ shapes, r.length = rank) :
    sizesByAxis shapes = (range rank).map fun i =>
    Dim.sortedValues (shapes.map fun r => r.getD i 0) := by
  have least : ∀ rs : List (List Int), (∀ r ∈ rs, r.length = rank) →
    rs.foldl (fun n t => min n t.length) rank = rank := by
    intro rs
    induction rs with
    | nil => exact fun _ => rfl
    | cons r rs ih => grind
  match shapes with
  | [] => exact absurd rfl some
  | s :: rest =>
    unfold sizesByAxis
    grind

/-! ## The new axes -/

theorem param_ok {key : String} : param o key g = .ok v g' ↔ (g.op o).param? key = some v ∧
    g = g' := by
  simp [param, and_assoc, and_comm]

/-- The axes `ds` that are made for the sizes `yss` from position `i` on. -/
structure NewAxes (o : OpId) (i : Nat) (u : Int) (yss : List (List Int)) (ds : List DimId)
    (g g' : Arena) : Prop where
  size : g.dims.size ≤ g'.dims.size
  old : ∀ d, d.idx < g.dims.size → g'.dim d = g.dim d
  tensors : g'.tensors = g.tensors
  fixed : Forall₂ (fun vs d => d.idx < g'.dims.size ∧ ∀ v, vs = [v] → (g'.dim d).lower = v) yss ds
  noted : ∃ u' : Int, (g'.op o).param? "unknown_idx" = some (.int u') ∧
    ((u' = u ∧ ∀ vs ∈ yss, vs.length = 1) ∨
      u = -1 ∧ ∃ j < yss.length, u' = (i + j : Nat) ∧ ∀ (k : Nat) (vs : List Int), yss[k]? =
        some vs → (vs.length = 1 ↔ k ≠ j))

theorem NewAxes.cons_fixed {v : Int}
    (rest : NewAxes o (i + 1) u yss ds { g with dims := g.dims.push (.static v) } g') :
    NewAxes o i u ([v] :: yss) (⟨g.dims.size⟩ :: ds) g g' := by
  obtain ⟨size, old, tensors, fixed, u', now, cases⟩ := rest
  have new : (⟨g.dims.size⟩ : DimId).idx < (g.dims.push (Dim.static v)).size := by simp
  refine ⟨?_, fun d hd => ?_, tensors, .cons ⟨Nat.lt_of_lt_of_le new size, ?_⟩ fixed, u', now, ?_⟩
  · simp only [Array.size_push] at size
    omega
  · rw [old d (by simp only [Array.size_push]; omega), Arena.dim_push, if_neg (Nat.ne_of_lt hd)]
  · rintro w same
    rw [old _ new, Arena.dim_push, if_pos rfl]
    exact head_eq_of_cons_eq same
  · rcases cases with ⟨rfl, single⟩ | ⟨rfl, j, lt, rfl, others⟩
    · grind
    · refine Or.inr ⟨rfl, j + 1, by simpa using lt, by omega, fun k vs at_k => ?_⟩
      grind

theorem NewAxes.cons_dynamic {d : DimId}
    (rest : NewAxes o (i + 1) i yss ds h g') (many : ∀ v, vs ≠ [v])
    (size : g.dims.size ≤ h.dims.size) (old : ∀ d, d.idx < g.dims.size → h.dim d = g.dim d)
    (tensors : h.tensors = g.tensors) (known : d.idx < h.dims.size) :
    NewAxes o i (-1) (vs :: yss) (d :: ds) g g' := by
  obtain ⟨size', old', tensors', fixed, u', now, cases⟩ := rest
  refine ⟨Nat.le_trans size size', fun e he => (old' e (Nat.lt_of_lt_of_le he size)).trans
    (old e he), tensors'.trans tensors, .cons ⟨Nat.lt_of_lt_of_le known size', fun v same =>
    absurd same (many v)⟩ fixed, u', now, Or.inr ⟨rfl, 0, by simp, ?_, ?_⟩⟩
  · grind
  · grind [Option.some.inj, length_eq_one_iff, mem_of_getElem?]

theorem eq_int_of_int?_neg (h : v.int? = some n) (neg : n < 0) : v = .int n := by
  cases v with
  | int m => rw [Option.some.inj h]
  | bool b =>
    have same : (if b then 1 else 0) = n := Option.some.inj h
    split at same <;> omega
  | _ => cases h

theorem makeShape_cons (run : makeShape o kept i (vs :: yss) g = .ok ds g') :
    ∃ d es, ds = d :: es ∧
      ((∃ v, vs = [v] ∧ d = ⟨g.dims.size⟩ ∧
          makeShape o kept (i + 1) yss { g with dims := g.dims.push (.static v) } = .ok es g') ∨
        (∀ v, vs ≠ [v]) ∧ (g.op o).param? "unknown_idx" = some (.int (-1)) ∧
          (kept = some d ∧ makeShape o kept (i + 1) yss
            (g.modifyOp o (·.setParam "unknown_idx" (.int i))) = .ok es g' ∨ ∃ x, kept = none ∧
            Dim.dynamic? vs none = .ok x ∧ d = ⟨g.dims.size⟩ ∧
              makeShape o kept (i + 1) yss
                { g.modifyOp o (·.setParam "unknown_idx" (.int i)) with dims := g.dims.push x } =
                  .ok es g')) := by
  by_cases single : ∃ v, vs = [v]
  · obtain ⟨v, rfl⟩ := single
    rw [makeShape] at run
    simp only [bind_ok, pure_ok] at run
    obtain ⟨d, g₁, first, es, _, rest, rfl, rfl⟩ := run
    obtain ⟨rfl, rfl⟩ := EStateM.Result.ok.inj (first : EStateM.Result.ok _ _ = _)
    grind
  · have many : ∀ v, vs ≠ [v] := fun v same => single ⟨v, same⟩
    rw [makeShape.eq_3 o kept i vs yss many] at run
    simp only [intParam, setParam, bind_ok, param_ok, expect_ok, op_ok, require_ok,
      modifyOp_ok] at run
    obtain ⟨w, _, ⟨u, _, ⟨now, rfl⟩, number, rfl⟩, _, _, ⟨rfl, rfl⟩, _, _, ⟨unset, rfl⟩, _, _, rfl,
      run⟩ := run
    obtain rfl := eq_of_beq unset
    rw [eq_int_of_int?_neg number (by decide)] at now
    cases kept with
    | some d =>
      simp only [bind_ok, pure_ok] at run
      grind
    | none =>
      simp only [bind_ok, pure_ok, ofExcept_ok] at run
      obtain ⟨x, _, ⟨made, rfl⟩, d, g₁, add, es, _, rest, rfl, rfl⟩ := run
      obtain ⟨rfl, rfl⟩ := EStateM.Result.ok.inj (add : EStateM.Result.ok _ _ = _)
      exact ⟨_, es, rfl, .inr ⟨many, now, .inr ⟨x, rfl, made, rfl, rest⟩⟩⟩

theorem makeShape_ok (known : ∀ d ∈ kept, d.idx < g.dims.size)
    (set : (g.op o).param? "unknown_idx" = some (.int u))
    (run : makeShape o kept i yss g = .ok ds g') : NewAxes o i u yss ds g g' := by
  induction yss generalizing i g u ds with
  | nil =>
    obtain ⟨rfl, rfl⟩ := pure_ok.1 run
    exact ⟨Nat.le_refl _, fun _ _ => rfl, rfl, .nil, u, set,
      Or.inl ⟨rfl, fun vs hvs => absurd hvs not_mem_nil⟩⟩
  | cons vs yss ih =>
    obtain ⟨d, es, rfl, ⟨v, rfl, rfl, rest⟩ | ⟨many, unset, made⟩⟩ := makeShape_cons run
    · have later := ih (g := { g with dims := g.dims.push (.static v) })
        (fun d hd => Nat.lt_of_lt_of_le (known d hd) (by simp)) set rest
      exact later.cons_fixed
    · obtain ⟨⟩ := Option.some.inj (set.symm.trans unset)
      have inside : o.idx < g.ops.size := Arena.lt_of_some (f := (·.param? "unknown_idx")) rfl set
      have set' : ((g.modifyOp o (·.setParam "unknown_idx" (.int i))).op o).param? "unknown_idx" =
        some (.int i) := by
        rw [Arena.op_modifyOp_self inside, Operator.param?_setParam, if_pos (by simp)]
      obtain ⟨rfl, rest⟩ | ⟨x, rfl, -, rfl, rest⟩ := made
      · have later := ih (g := g.modifyOp o _) known set' rest
        exact later.cons_dynamic many (Nat.le_refl _) (fun _ _ => rfl) rfl (known d rfl)
      · have later :=
          ih (g := { g.modifyOp o (·.setParam "unknown_idx" (.int i)) with dims := g.dims.push x })
          (by simp) set' rest
        refine later.cons_dynamic many (by simp) (fun e he => ?_) rfl (by simp)
        exact (Arena.dim_push (g := g) x e).trans (if_neg (Nat.ne_of_lt he))

theorem mem_sizes : n ∈ Dim.sortedValues (shapes.map fun r => r.getD i 0) ↔
    ∃ r ∈ shapes, r.getD i 0 = n := by
  rw [Dim.mem_sortedValues, mem_map]

theorem exists_ne_of_length_ne_one (some : shapes ≠ [])
    (many : (Dim.sortedValues (shapes.map fun r => r.getD i 0)).length ≠ 1) :
    ∃ r ∈ shapes, ∃ r' ∈ shapes, r.getD i 0 ≠ r'.getD i 0 := by
  match h : Dim.sortedValues (shapes.map fun r => r.getD i 0) with
  | [] =>
    obtain ⟨r, hr⟩ := exists_mem_of_ne_nil _ some
    have := mem_sizes (i := i).2 ⟨r, hr, rfl⟩
    rw [h] at this
    cases this
  | [n] => exact absurd (by rw [h]; rfl) many
  | m :: n :: ns =>
    have increasing := Dim.sortedValues_increasing (shapes.map fun r => r.getD i 0)
    rw [h] at increasing
    have less : m < n := (pairwise_cons.1 increasing).1 n mem_cons_self
    obtain ⟨r, hr, rm⟩ := mem_sizes.1 (show m ∈ Dim.sortedValues _ by rw [h]; simp)
    obtain ⟨r', hr', rn⟩ := mem_sizes.1 (show n ∈ Dim.sortedValues _ by rw [h]; simp)
    exact ⟨r, hr, r', hr', by omega⟩

theorem inferFrom_ok (wf : ∀ d ∈ (g.tensor x).shape, (g.dim d).WellFormed)
    (fresh : (g.op o).param? "unknown_idx" = some (.int (-1)))
    (some : shapes ≠ []) (ranks : ∀ r ∈ shapes, r.length = rank)
    (run : inferFrom o x shapes g = .ok ds g') :
    g'.tensors = g.tensors ∧ (∀ d ∈ ds, d.idx < g'.dims.size) ∧ ds.length = rank ∧
      ∃ u : Int, (g'.op o).param? "unknown_idx" = .some (.int u) ∧
      (∀ r ∈ shapes, ∀ i : Nat, (i : Int) ≠ u → r[i]? = (ds.map fun d => (g'.dim d).lower)[i]?) ∧
      (0 ≤ u → u < rank ∧ ∃ r ∈ shapes, ∃ r' ∈ shapes, r[u.toNat]? ≠ r'[u.toNat]?) := by
  unfold inferFrom at run
  simp only [bind_ok, Build.dims, Build.shape, pure_ok, tensor_ok, get_ok] at run
  obtain ⟨_, _, ⟨_, _, ⟨_, _, ⟨rfl, rfl⟩, rfl, rfl⟩, _, _, ⟨rfl, rfl⟩, rfl, rfl⟩, _, _,
    ⟨_, _, ⟨rfl, rfl⟩, rfl, rfl⟩, run⟩ := run
  obtain ⟨size, old, tensors, fixed, u, now, noted⟩ := makeShape_ok (fun d hd => by
    split at hd
    · obtain ⟨p, first, rfl⟩ := Option.map_eq_some_iff.1 hd
      exact Arena.lt_of_wellFormed (wf _ (of_mem_zip (mem_filter.1 (mem_of_head? first)).1).1)
    · cases hd) fresh run
  rw [sizesByAxis_eq some ranks] at fixed noted
  have length : ds.length = rank := by simpa using fixed.length_eq.symm
  -- an axis whose sizes are all the same has the size that all shapes have there
  have single : ∀ i < rank, (Dim.sortedValues (shapes.map fun r => r.getD i 0)).length = 1 →
      ∀ r ∈ shapes, r[i]? = (ds.map fun d => (g'.dim d).lower)[i]? := by
    intro i lt one r hr
    obtain ⟨v, only⟩ := length_eq_one_iff.1 one
    have here := (forall₂_iff_get.1 fixed).2 i (by simpa using lt) (by omega)
    have lower := here.2 v (by simpa using only)
    have mem : r.getD i 0 ∈ Dim.sortedValues (shapes.map fun r => r.getD i 0) :=
      mem_sizes.2 ⟨r, hr, rfl⟩
    have lt' : i < r.length := by rw [ranks r hr]; exact lt
    rw [only, mem_singleton, getD_eq_getElem?_getD, getElem?_eq_getElem lt',
      Option.getD_some] at mem
    grind
  have outside : ∀ i, rank ≤ i → ∀ r ∈ shapes, r[i]? = (ds.map fun d => (g'.dim d).lower)[i]? := by
    grind
  refine ⟨tensors, fun d hd => ?_, length, u, now, ?_, ?_⟩
  · grind [mem_iff_getElem, forall₂_iff_get]
  · intro r hr i other
    by_cases inside : i < rank
    · refine single i inside ?_ r hr
      rcases noted with ⟨-, all⟩ | ⟨-, j, -, rfl, all⟩
      · grind
      · exact (all i _ (by simp [inside])).2 (by omega)
    · exact outside i (Nat.le_of_not_lt inside) r hr
  · intro here
    rcases noted with ⟨rfl, -⟩ | ⟨-, j, lt, rfl, all⟩
    · omega
    have lt : j < rank := by simpa using lt
    refine ⟨by omega, ?_⟩
    obtain ⟨r, hr, r', hr', apart⟩ := exists_ne_of_length_ne_one (i := j) some fun one =>
      (all j _ (by simp [lt])).1 one rfl
    refine ⟨r, hr, r', hr', fun same => apart ?_⟩
    simp only [Int.toNat_natCast, Nat.zero_add] at same
    grind

/-- Each shape that is tried has a solution, and each solution is one of a shape that is tried. -/
theorem inferReshape_tries (run : inferReshape o x target g = .ok ds g') : ∃ shapes,
    (∀ s, Choice g (g.tensor x).shape s → ∃ t, Choice g target t ∧ ∃ r ∈ shapes, Solution s t r) ∧
      (∀ r ∈ shapes, ∃ s t, Choice g (g.tensor x).shape s ∧ Choice g target t ∧ Solution s t r) ∧
      inferFrom o x shapes g = .ok ds g' := by
  unfold inferReshape at run
  simp only [bind_ok, Build.dims, Build.shape, pure_ok, tensor_ok, get_ok] at run
  obtain ⟨_, _, ⟨rfl, rfl⟩, _, _, ⟨_, _, ⟨_, _, ⟨rfl, rfl⟩, rfl, rfl⟩, _, _, ⟨rfl, rfl⟩, rfl, rfl⟩,
    pairs, _, paired, shapes, _, solved, run⟩ := run
  obtain ⟨rfl, covered, taken⟩ := pairTargets_ok paired
  obtain ⟨rfl, each, all⟩ := mapM_solve_ok solved
  rw [map_map] at covered taken
  refine ⟨shapes, fun s choice => ?_, fun r hr => ?_, run⟩
  · obtain ⟨t, pair⟩ := covered s (mem_choices.2 choice)
    grind [mem_choices]
  · obtain ⟨p, hp, solution⟩ := all r hr
    obtain ⟨source, aim⟩ := taken p hp
    exact ⟨p.1, p.2, mem_choices.1 source, mem_choices.1 aim, solution⟩

theorem inferReshape_ok (sizes : ∀ d ∈ (g.tensor x).shape, (g.dim d).WellFormed)
    (fresh : (g.op o).param? "unknown_idx" = some (.int (-1)))
    (run : inferReshape o x target g = .ok ds g') :
    g'.tensors = g.tensors ∧ (∀ d ∈ ds, d.idx < g'.dims.size) ∧
    ∃ (u : Int) (shapes : List (List Int)),
      (g'.op o).param? "unknown_idx" = some (.int u) ∧
        Reshaped g (g.tensor x).shape target u (ds.map fun d => (g'.dim d).lower) shapes := by
  obtain ⟨shapes, tried, solved, run⟩ := inferReshape_tries run
  have some : shapes ≠ [] := by
    obtain ⟨t, -, r, hr, -⟩ := tried _ (choice_lowest sizes)
    exact ne_nil_of_mem hr
  have ranks : ∀ r ∈ shapes, r.length = target.length := by
    intro r hr
    obtain ⟨s, t, -, choice, solution⟩ := solved r hr
    rw [solution.rank, choice.length_eq]
  obtain ⟨tensors, known, length, u, now, agree, differ⟩ := inferFrom_ok sizes fresh some ranks run
  exact ⟨tensors, known, u, shapes, now, tried, solved, by simpa using length, agree, differ⟩

theorem Choice.congr (dims : h.dims = g.dims) (ds : List DimId) (s : List Int) : Choice h ds s ↔
    Choice g ds s := by
  unfold Choice Arena.dim
  rw [dims]

theorem Reshaped.congr (dims : h.dims = g.dims) {shape : List DimId} {unknown : Int}
    {outs : List Int} (r : Reshaped h shape target unknown outs shapes) :
    Reshaped g shape target unknown outs shapes := by
  obtain ⟨tried, solved, rank, agree, differ⟩ := r
  simp only [Choice.congr dims] at tried solved
  exact ⟨tried, solved, rank, agree, differ⟩

theorem viewOutput_ok {y : TensorId} (run : viewOutput o ds x g = .ok y g') :
    (g'.tensor y).shape = ds ∧ g'.dims = g.dims ∧ (g'.op o).param? "unknown_idx" =
    (g.op o).param? "unknown_idx" := by
  simp only [viewOutput, output, bind_ok, tensor_ok, op_ok, modifyTensor_ok, pure_ok] at run
  obtain ⟨_, _, ⟨rfl, rfl⟩, z, g₁, ⟨_, _, ⟨rfl, rfl⟩, add⟩, _, _, rfl, _, _, set, rfl, rfl⟩ := run
  obtain ⟨rfl, rfl⟩ := EStateM.Result.ok.inj (add : EStateM.Result.ok _ _ = _)
  obtain ⟨dims, shapes, settings⟩ := Frame.layout.keeps set
  refine ⟨?_, dims, settings o⟩
  rw [shapes, Arena.tensor_modifyTensor_self (by simp)]
  exact congrArg Tensor.shape (Arena.tensor_push_new _)

/-- A reshape that is accepted does what it was asked for, whatever the sizes, just if it is sound. 
The operator has not been applied before. -/
theorem reshape_honours_iff {g g' : Arena} {o : OpId} {x y : TensorId} {target : List DimId}
    {sizeTensors : List TensorId} (sizes : ∀ d ∈ (g.tensor x).shape, (g.dim d).WellFormed ∧
    0 ≤ (g.dim d).lower) (asked : ∀ d ∈ target, (g.dim d).WellFormed)
    (fresh : (g.op o).param? "unknown_idx" = some (.int (-1)))
    (run : applyReshape o x target sizeTensors g = .ok y g') :
    ∃ u : Int, (g'.op o).param? "unknown_idx" = some (.int u) ∧
      (Honours g (g.tensor x).shape target u ((g'.tensor y).shape.map fun d => (g'.dim d).lower) ↔
        Sound g (g.tensor x).shape target u ((g'.tensor y).shape.map fun d =>
          (g'.dim d).lower)) := by
  unfold applyReshape at run
  simp only [bind_ok] at run
  obtain ⟨_, g₁, set, _, g₂, apply, _, g₃, link, ds, g₄, infer, view⟩ := run
  have before := Frame.layout.trans ((setParam_layout (by decide)).keeps set)
    (Frame.layout.trans (Frame.layout.keeps apply) (Frame.layout.keeps link))
  obtain ⟨dims, shapes, settings⟩ := before
  have dim : ∀ d, g₃.dim d = g.dim d := fun d => congrArg (·.getD d.idx default) dims
  obtain ⟨-, -, u, found, now, reshaped⟩ := inferReshape_ok (fun d hd => by
    rw [shapes] at hd
    rw [dim]
    exact (sizes d hd).1) ((settings o).trans fresh) infer
  obtain ⟨shape, dims', settings'⟩ := viewOutput_ok view
  have lower : ((g'.tensor y).shape.map fun d => (g'.dim d).lower) = ds.map fun d =>
    (g₄.dim d).lower := by
    rw [shape]
    exact congrArg (fun a : Array Dim => ds.map fun d => (a.getD d.idx default).lower) dims'
  rw [shapes] at reshaped
  have reshaped := reshaped.congr dims
  rw [lower]
  exact ⟨u, settings'.trans now, reshaped.sound_of_honours sizes asked,
    reshaped.honours_of_sound sizes asked⟩

/-- Two tensors, one with `n` elements and one with `n` rows of 6, and a reshape for each; `n` is 2,
3 or 4, and 2 and 4 are listed. -/
def reshapedArena : Arena where
  dims := #[⟨false, [2, 4], some "n"⟩, .static 6, .static 2, .static (-1), .static 3]
  tensors := #[.ofShape [⟨0⟩], .ofShape [⟨0⟩, ⟨1⟩]]
  ops := #[(Operator.ofClass .reshape "reshape").setParam "unknown_idx" (.int (-1)),
    (Operator.ofClass .reshape "reshape").setParam "unknown_idx" (.int (-1))]
  namer := ⟨0, 0, [], []⟩
  target := none

/-- Two rows of the `n` elements are accepted, since 2 and 4 are even, but `n` may be 3.  The rows
of 6 as two times `n` rows of 3 are accepted too, and always right. -/
theorem reshape_honours_iff_rows :
    (∃ y g', applyReshape ⟨0⟩ ⟨0⟩ [⟨2⟩, ⟨3⟩] [] reshapedArena = .ok y g' ∧
      ¬ Honours reshapedArena [⟨0⟩] [⟨2⟩, ⟨3⟩] 1
        ((g'.tensor y).shape.map fun d => (g'.dim d).lower)) ∧
    ∃ y g', applyReshape ⟨1⟩ ⟨1⟩ [⟨2⟩, ⟨0⟩, ⟨4⟩] [] reshapedArena = .ok y g' ∧
      Honours reshapedArena [⟨0⟩, ⟨1⟩] [⟨2⟩, ⟨0⟩, ⟨4⟩] 1
        ((g'.tensor y).shape.map fun d => (g'.dim d).lower) := by
  constructor
  · obtain ⟨y, g', run, now, outs⟩ : ∃ y g', applyReshape ⟨0⟩ ⟨0⟩ [⟨2⟩, ⟨3⟩] [] reshapedArena =
      .ok y g' ∧
        (g'.op ⟨0⟩).param? "unknown_idx" = some (.int 1) ∧ (g'.tensor y).shape.map
          (fun d => (g'.dim d).lower) = [2, 1] :=
      ⟨_, _, rfl, rfl, rfl⟩
    obtain ⟨u, now', honours⟩ := reshape_honours_iff (by decide) (by decide) rfl run
    obtain ⟨⟩ := Option.some.inj (now.symm.trans now')
    refine ⟨y, g', run, fun all => ?_⟩
    have two := (honours.1 all).rest ⟨3⟩ (by decide) rfl
    rw [outs] at two
    exact absurd two (by decide)
  · obtain ⟨y, g', run, now, outs⟩ : ∃ y g', applyReshape ⟨1⟩ ⟨1⟩ [⟨2⟩, ⟨0⟩, ⟨4⟩] [] reshapedArena =
      .ok y g' ∧
        (g'.op ⟨1⟩).param? "unknown_idx" = some (.int 1) ∧ (g'.tensor y).shape.map
          (fun d => (g'.dim d).lower) = [2, 2, 3] :=
      ⟨_, _, rfl, rfl, rfl⟩
    obtain ⟨u, now', honours⟩ := reshape_honours_iff (by decide) (by decide) rfl run
    obtain ⟨⟩ := Option.some.inj (now.symm.trans now')
    refine ⟨y, g', run, honours.2 ⟨by decide, fun i d hd other => ?_, fun d _ hd => ?_⟩⟩
    · match i, hd with
      | 0, hd =>
        obtain rfl := Option.some.inj hd
        decide
      | 1, _ => exact absurd rfl other
      | 2, hd =>
        obtain rfl := Option.some.inj hd
        decide
    · obtain rfl := Option.some.inj hd
      rw [outs]
      decide

end View

end TensorGraph

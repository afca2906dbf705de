import TensorGraph.Proofs.Extensions
import TensorGraph.Proofs.Reshaping

/-!
# The bytes of a view

A view is stored where its input is, so both need equally many bytes in the worst case: the product
of the largest sizes of the axes, times the size of an element (`view_keeps_bytes`).
-/

namespace TensorGraph

open List

variable {g g' : Arena} {o : OpId} {ds : List DimId} {kept : Option DimId} {i : Nat}
  {shapes : List (List Int)}

theorem Shape.maxElements_eq (look : DimTable) (s : List DimId) :
    Shape.maxElements look s = (s.map fun d => (look d).upper).prod := by
  unfold Shape.maxElements
  rw [prod_eq_foldl, foldl_map]

namespace View

open Build Arena

variable {yss : List (List Int)} {ns r ls rs vs s : List Int} {rank : Nat} {target : List DimId}

/-! ## The largest sizes of new axes -/

instance makeShape_extends (o : OpId) (kept : Option DimId) (i : Nat) (yss : List (List Int)) :
    Within .extends (makeShape o kept i yss) where
  keeps {g g' ds} run := by
    induction yss generalizing i g ds with
    | nil =>
      obtain ⟨-, rfl⟩ := pure_ok.1 run
      exact .refl g
    | cons vs yss ih =>
      have noted := Frame.extends.keeps
        (modifyOp_run (g := g) o (·.setParam "unknown_idx" (.int i)))
      obtain ⟨d, es, rfl, ⟨v, -, -, rest⟩ | ⟨-, -, ⟨-, rest⟩ | ⟨x, -, -, -, rest⟩⟩⟩ :=
        makeShape_cons run
      · exact (Extends.pushDim g _).trans (ih _ rest)
      · exact noted.trans (ih _ rest)
      · exact (noted.trans (Extends.pushDim _ x)).trans (ih _ rest)

theorem makeShape_unset (run : makeShape o kept i yss g = .ok ds g') :
    (∃ ns : List Int, yss = ns.map ([·])) ∨ (g.op o).param? "unknown_idx" = some (.int (-1)) := by
  induction yss generalizing i g ds with
  | nil => exact .inl ⟨[], rfl⟩
  | cons vs yss ih =>
    obtain ⟨d, es, rfl, ⟨v, rfl, rfl, rest⟩ | ⟨-, unset, -⟩⟩ := makeShape_cons run
    · rcases ih rest with ⟨ns, rfl⟩ | unset
      · exact .inl ⟨v :: ns, rfl⟩
      · exact .inr unset
    · exact .inr unset

theorem makeShape_fixed (run : makeShape o kept i (ns.map ([·])) g = .ok ds g') :
    (ds.map fun d => (g'.dim d).upper) = ns := by
  induction ns generalizing i g ds with
  | nil =>
    obtain ⟨rfl, -⟩ := pure_ok.1 run
    rfl
  | cons n ns ih =>
    obtain ⟨d, es, rfl, ⟨v, same, rfl, rest⟩ | ⟨many, -⟩⟩ := makeShape_cons run
    · obtain rfl := head_eq_of_cons_eq same
      have old := (Frame.extends.keeps rest).dim ⟨g.dims.size⟩ (by simp)
      rw [map_cons, ih rest, old, Arena.dim_push, if_pos rfl]
      rfl
    · exact absurd rfl (many n)

/-- The largest sizes of new axes: the sizes of the fixed ones, and perhaps one dimension among them
that is kept or has the sizes listed. -/
theorem makeShape_uppers (known : ∀ d ∈ kept, d.idx < g.dims.size)
    (run : makeShape o kept i yss g = .ok ds g') :
    (∃ ns : List Int, yss = ns.map ([·]) ∧ (ds.map fun d => (g'.dim d).upper) = ns) ∨
      ∃ (ls rs vs : List Int) (x : Dim), yss = ls.map ([·]) ++ vs :: rs.map ([·]) ∧
        (∀ v, vs ≠ [v]) ∧ (ds.map fun d => (g'.dim d).upper) = ls ++ x.upper :: rs ∧
        ((∃ d, kept = some d ∧ x = g.dim d) ∨ kept = none ∧ Dim.dynamic? vs none = .ok x) := by
  induction yss generalizing i g ds with
  | nil =>
    obtain ⟨rfl, -⟩ := pure_ok.1 run
    exact .inl ⟨[], rfl, rfl⟩
  | cons vs yss ih =>
    obtain ⟨d, es, rfl, ⟨v, rfl, rfl, rest⟩ | ⟨many, unset, made⟩⟩ := makeShape_cons run
    · have old := (Frame.extends.keeps rest).dim ⟨g.dims.size⟩ (by simp)
      rw [Arena.dim_push, if_pos rfl] at old
      have known' : ∀ d ∈ kept, d.idx < (g.dims.push (.static v)).size := fun d hd =>
        Nat.lt_of_lt_of_le (known d hd) (by simp)
      rcases ih known' rest with ⟨ns, rfl, uppers⟩ | ⟨ls, rs, vs, x, rfl, many, uppers, made⟩
      · exact .inl ⟨v :: ns, rfl, by rw [map_cons, uppers, old]; rfl⟩
      · refine .inr ⟨v :: ls, rs, vs, x, rfl, many, by rw [map_cons, uppers, old]; rfl, ?_⟩
        rcases made with ⟨d, kept, rfl⟩ | made
        · refine .inl ⟨d, kept, ?_⟩
          rw [Arena.dim_push, if_neg (Nat.ne_of_lt (known d kept))]
        · exact .inr made
    · -- the position is noted now, so all later axes are fixed
      have inside : o.idx < g.ops.size := Arena.lt_of_some (f := (·.param? "unknown_idx")) rfl unset
      have noted : ((g.modifyOp o (·.setParam "unknown_idx" (.int i))).op o).param? "unknown_idx" ≠
        some (.int (-1)) := by
        rw [Arena.op_modifyOp_self inside, Operator.param?_setParam]
        grind
      obtain ⟨kept, rest⟩ | ⟨x, none, made, rfl, rest⟩ := made
      · obtain ⟨ns, rfl⟩ := (makeShape_unset rest).resolve_right noted
        have old := (Frame.extends.keeps rest).dim d (known d kept)
        refine .inr ⟨[], ns, vs, g.dim d, rfl, many, ?_, .inl ⟨d, kept, rfl⟩⟩
        rw [map_cons, makeShape_fixed rest, old]
        rfl
      · obtain ⟨ns, rfl⟩ := (makeShape_unset rest).resolve_right noted
        have old := (Frame.extends.keeps rest).dim ⟨g.dims.size⟩ (by simp)
        rw [show Arena.dim { g.modifyOp o
          (·.setParam "unknown_idx" (.int i)) with dims := g.dims.push x } ⟨g.dims.size⟩ = x from
          (Arena.dim_push (g := g) x _).trans (if_pos rfl)] at old
        refine .inr ⟨[], ns, vs, x, rfl, many, ?_, .inr ⟨none, made⟩⟩
        rw [map_cons, makeShape_fixed rest, old]
        rfl

/-! ## The shapes that are tried -/

theorem forall₂_sizesByAxis (ranks : ∀ r ∈ shapes, r.length = rank)
    (hr : r ∈ shapes) : Forall₂ (· ∈ ·) r (sizesByAxis shapes) := by
  rw [sizesByAxis_eq (ne_nil_of_mem hr) ranks]
  refine forall₂_iff_get.2 ⟨by simp [ranks r hr], fun i lt _ => ?_⟩
  rw [get_eq_getElem, get_eq_getElem, getElem_map, getElem_range, mem_sizes]
  grind

theorem eq_of_forall₂_single (h : Forall₂ (· ∈ ·) r (ns.map ([·]))) : r = ns := by
  simpa [forall₂_eq_eq_eq] using h

theorem mem_of_sizesByAxis (some : shapes ≠ []) (ranks : ∀ r ∈ shapes, r.length = rank)
    (found : sizesByAxis shapes = ls.map ([·]) ++ vs :: rs.map ([·])) :
    (∀ r ∈ shapes, ∃ v ∈ vs, r = ls ++ v :: rs) ∧ ∀ v ∈ vs, ls ++ v :: rs ∈ shapes := by
  have form : ∀ r ∈ shapes, ∃ v ∈ vs, r = ls ++ v :: rs := by
    intro r hr
    have each := forall₂_sizesByAxis ranks hr
    rw [found] at each
    have left := eq_of_forall₂_single (List.forall₂_take_append _ _ _ each)
    obtain ⟨v, n, hv, right, behind⟩ := List.forall₂_cons_right_iff.1
      (List.forall₂_drop_append _ _ _ each)
    grind [List.take_append_drop, eq_of_forall₂_single]
  refine ⟨form, fun v hv => ?_⟩
  -- the size was found in some shape, and its position is behind `ls`
  have here : (sizesByAxis shapes)[ls.length]? = .some vs := by
    rw [found]
    simp
  rw [sizesByAxis_eq some ranks, List.getElem?_map] at here
  obtain ⟨i, at_i, rfl⟩ := Option.map_eq_some_iff.1 here
  obtain ⟨_, rfl⟩ := List.getElem?_eq_some_iff.1 at_i
  obtain ⟨r, hr, rfl⟩ := mem_sizes.1 hv
  grind

/-! ## The largest number of elements -/

def single (g : Arena) (ds : List DimId) : Int :=
  ((ds.filter fun d => (g.dim d).values.length == 1).map fun d => (g.dim d).lower).prod

def several (g : Arena) (ds : List DimId) : Int :=
  ((ds.filter fun d => 1 < (g.dim d).values.length).map fun d => (g.dim d).upper).prod

section Largest

variable {g : Arena} {ds : List DimId}

theorem Choice.prod_eq (wf : ∀ d ∈ ds, (g.dim d).WellFormed) (choice : Choice g ds s) :
    ∃ n, s.prod = single g ds * n ∧ 0 ≤ n ∧ n ≤ several g ds := by
  unfold single several
  induction choice with
  | nil => exact ⟨1, by simp⟩
  | @cons v d s ds hv _ ih =>
    obtain ⟨n, count, nonneg, le⟩ := ih fun e he => wf e (mem_cons_of_mem _ he)
    have wfd := wf d mem_cons_self
    by_cases one : (g.dim d).values.length = 1
    · obtain ⟨m, only⟩ := length_eq_one_iff.1 one
      have lower : (g.dim d).lower = v := by grind [mem_singleton, Dim.lower]
      refine ⟨n, ?_, nonneg, by rwa [filter_cons_of_neg (by simp [one])]⟩
      grind
    · have dynamic : (g.dim d).isStatic = false := by
        by_contra static
        exact one (wfd.fixed (by simpa using static))
      have many : 1 < (g.dim d).values.length := by grind
      have low := wfd.nonneg dynamic v hv
      have high := wfd.le_upper hv
      refine ⟨v * n, ?_, Int.mul_nonneg low nonneg, ?_⟩
      · grind
      · rw [filter_cons_of_pos (by simpa using many), map_cons]
        exact Int.mul_le_mul high le nonneg (Int.le_trans low high)

theorem prod_upper (wf : ∀ d ∈ ds, (g.dim d).WellFormed) :
    (ds.map fun d => (g.dim d).upper).prod = single g ds * several g ds := by
  unfold single several
  induction ds with
  | nil => rfl
  | cons d ds ih =>
    have rest := ih fun e he => wf e (mem_cons_of_mem _ he)
    have wfd := wf d mem_cons_self
    rw [map_cons, prod_cons, rest]
    by_cases one : (g.dim d).values.length = 1
    · grind [length_eq_one_iff, Dim.upper, Dim.lower]
    · have many : 1 < (g.dim d).values.length := by
        have := length_pos_iff.2 wfd.listed
        omega
      grind

theorem mul_eq_of_reached {a c n u v m : Int} (low : 0 ≤ n) (high : n ≤ u) (low' : 0 ≤ v)
    (high' : v ≤ m) (reached : c * v = a * u) (reaches : c * m = a * n) : c * m = a * u := by
  rcases lt_trichotomy a 0 with neg | rfl | pos
  · have down : a * u ≤ a * n := Int.mul_le_mul_of_nonpos_left (Int.le_of_lt neg) high
    rcases Int.le_total 0 c with up | down'
    · have : 0 ≤ c * v := Int.mul_nonneg up low'
      have : a * n ≤ 0 := Int.mul_nonpos_of_nonpos_of_nonneg (Int.le_of_lt neg) low
      have : c * v ≤ c * m := Int.mul_le_mul_of_nonneg_left high' up
      omega
    · have : c * m ≤ c * v := Int.mul_le_mul_of_nonpos_left down' high'
      omega
  · rw [reaches, Int.zero_mul, Int.zero_mul]
  · have up : a * n ≤ a * u := Int.mul_le_mul_of_nonneg_left high (Int.le_of_lt pos)
    rcases Int.le_total 0 c with up' | down'
    · have : c * v ≤ c * m := Int.mul_le_mul_of_nonneg_left high' up'
      omega
    · have : c * v ≤ 0 := Int.mul_nonpos_of_nonpos_of_nonneg down' low'
      have : 0 ≤ a * n := Int.mul_nonneg (Int.le_of_lt pos) low
      have : c * m ≤ c * v := Int.mul_le_mul_of_nonpos_left down' high'
      omega

end Largest

/-! ## What is found from the shapes -/

theorem head?_dynamic (g : Arena) (ds : List DimId) :
    ((ds.zip (ds.map g.dim)).filter fun p => 1 < p.2.values.length).head?.map (·.1) =
      (ds.filter fun d => 1 < (g.dim d).values.length).head? := by
  induction ds with
  | nil => rfl
  | cons d ds ih =>
    rw [map_cons, zip_cons_cons]
    by_cases many : 1 < (g.dim d).values.length
    · grind
    · grind

theorem inferFrom_run (g : Arena) (o : OpId) (x : TensorId) (shapes : List (List Int)) :
    inferFrom o x shapes g =
      makeShape o (if keepsDynamic ((g.tensor x).shape.map fun d => (g.dim d).values)
        (sizesByAxis shapes) then ((g.tensor x).shape.filter fun d =>
        1 < (g.dim d).values.length).head? else none) 0 (sizesByAxis shapes) g := by
  rw [← head?_dynamic, show ((g.tensor x).shape.map fun d => (g.dim d).values) =
    ((g.tensor x).shape.map g.dim).map (·.values) by
    rw [map_map]; rfl]
  rfl

theorem eq_of_keepsDynamic (many : ∀ v, vs ≠ [v])
    (keeps : keepsDynamic (ds.map fun d => (g.dim d).values) (ls.map ([·]) ++ vs :: rs.map ([·])) =
      true) {d : DimId}
    (first : (ds.filter fun d => 1 < (g.dim d).values.length).head? = some d) :
    ls.prod * rs.prod = single g ds ∧ (g.dim d).upper = several g ds := by
  unfold keepsDynamic at keeps
  simp only [filter_map, length_map, prodInt_eq, map_map, Bool.and_eq_true, beq_iff_eq] at keeps
  obtain ⟨⟨-, fixed⟩, one⟩ := keeps
  constructor
  · have not_one : ¬ vs.length = 1 := fun one => by grind [length_eq_one_iff]
    refine Eq.symm (Eq.trans fixed ?_)
    rw [filter_append, filter_cons_of_neg (by simpa using not_one),
      filter_eq_self.2 (by simp), filter_eq_self.2 (by simp), map_append, prod_append, map_map,
      map_map, show ((fun vs : List Int => vs.headD 0) ∘ fun n => [n]) = id from rfl,
        map_id, map_id]
  · obtain ⟨e, only⟩ := length_eq_one_iff.1 one
    have only : (ds.filter fun d => 1 < (g.dim d).values.length) = [e] := only
    grind [head?_cons, Option.some.injEq, several]

/-- If all listed shapes are tried, and each gives as many elements, the largest shape that is found
has as many elements as the largest of the input. -/
theorem inferFrom_largest {x : TensorId} (rank : Nat)
    (wf : ∀ d ∈ (g.tensor x).shape, (g.dim d).WellFormed) (ranks : ∀ r ∈ shapes, r.length = rank)
    (tried : ∀ s, Choice g (g.tensor x).shape s → ∃ r ∈ shapes, r.prod = s.prod)
    (solved : ∀ r ∈ shapes, ∃ s, Choice g (g.tensor x).shape s ∧ r.prod = s.prod)
    (run : inferFrom o x shapes g = .ok ds g') :
    (ds.map fun d => (g'.dim d).upper).prod =
    ((g.tensor x).shape.map fun d => (g.dim d).upper).prod := by
  rw [inferFrom_run] at run
  obtain ⟨r, hr, largest⟩ := tried _ (choice_highest wf)
  have largest : r.prod = ((g.tensor x).shape.map fun d => (g.dim d).upper).prod := largest
  rw [prod_upper wf] at largest ⊢
  obtain ⟨ns, found, uppers⟩ | ⟨ls, rs, vs, e, found, many, uppers, made⟩ :=
    makeShape_uppers (fun d hd => by
    split at hd
    · exact Arena.lt_of_wellFormed (wf d (mem_filter.1 (mem_of_head? hd)).1)
    · cases hd) run
  · have only := forall₂_sizesByAxis ranks hr
    simp_all
  · rw [uppers, prod_append, prod_cons, mul_left_comm, mul_comm]
    rcases made with ⟨d, kept, rfl⟩ | ⟨-, made⟩
    · grind [eq_of_keepsDynamic]
    · obtain ⟨form, mem⟩ := mem_of_sizesByAxis (ne_nil_of_mem hr) ranks found
      obtain ⟨wfe, dynamic, -, values⟩ := Dim.dynamic?_ok made
      -- the largest size is that of a listed shape, and the largest listed shape has one of the
      -- sizes
      obtain ⟨v, hv, rfl⟩ := form r hr
      obtain ⟨s, choice, count⟩ := solved _ (mem _ ((values _).1 wfe.upper_mem))
      obtain ⟨n, elements, low, high⟩ := choice.prod_eq wf
      have hv := (values v).2 hv
      rw [prod_append, prod_cons, mul_left_comm, mul_comm] at largest count
      exact mul_eq_of_reached low high (wfe.nonneg dynamic v hv) (wfe.le_upper hv) largest
        (count.trans elements)

/-! ## The views -/

theorem inferReshape_largest {x : TensorId}
    (wf : ∀ d ∈ (g.tensor x).shape, (g.dim d).WellFormed)
    (run : inferReshape o x target g = .ok ds g') :
    (ds.map fun d => (g'.dim d).upper).prod =
    ((g.tensor x).shape.map fun d => (g.dim d).upper).prod := by
  obtain ⟨shapes, tried, solved, run⟩ := inferReshape_tries run
  refine inferFrom_largest target.length wf (fun r hr => ?_) (fun s choice => ?_)
    (fun r hr => ?_) run
  · obtain ⟨s, t, -, choice, solution⟩ := solved r hr
    rw [solution.rank, choice.length_eq]
  · obtain ⟨t, -, r, hr, solution⟩ := tried s choice
    exact ⟨r, hr, solution.elements⟩
  · obtain ⟨s, t, choice, -, solution⟩ := solved r hr
    exact ⟨s, choice, solution.elements⟩

theorem flattenSizes_ok {start last : Int} (low : 0 ≤ start) (order : start ≤ last)
    (high : last < s.length) :
    (flattenSizes start last s).prod = s.prod ∧
      (flattenSizes start last s).length = start.toNat + 1 + (s.length - (last + 1).toNat) := by
  have at_start : s.clipIdx start = start.toNat := by
    unfold clipIdx
    rw [if_neg (by omega)]
  have behind : s.clipIdx (last + 1) = (last + 1).toNat := by
    unfold clipIdx
    rw [if_neg (by omega)]
  unfold flattenSizes between fromIdx
  rw [at_start, behind, prodInt_eq]
  constructor
  · have parts : s.take start.toNat ++ (s.take (last + 1).toNat).drop start.toNat ++
      s.drop (last + 1).toNat = s := by
      rw [show s.take start.toNat = (s.take (last + 1).toNat).take
        start.toNat by rw [take_take, Nat.min_eq_left
        (by omega)], take_append_drop, take_append_drop]
    grind
  · grind

theorem prod_filter_upper {look : DimTable} {p : DimId × Nat → Bool} {l : List (DimId × Nat)}
    (one : ∀ q ∈ l, p q = false → (look q.1).upper = 1) :
    ((l.filter p).map fun q => (look q.1).upper).prod = (l.map fun q => (look q.1).upper).prod := by
  induction l with
  | nil => rfl
  | cons q l ih => grind [mem_cons_of_mem]

theorem squeezeShape_largest (look : DimTable) (dim : Option Int) (s : List DimId) :
    (((squeezeShape look dim s).map (·.2)).map fun d => (look d).upper).prod =
    (s.map fun d => (look d).upper).prod := by
  have upper : ∀ q : DimId × Nat, (!((dim.all fun k => k == (q.2 : Int)) && (look q.1).isFixed 1)) =
    false →
      (look q.1).upper = 1 := by
    intro q dropped
    have fixed : (look q.1).isFixed 1 = true := by grind
    have only : (look q.1).values = [1] := by
      simpa using (Bool.and_eq_true_iff.1 fixed).2
    rw [Dim.upper, only]
    rfl
  have axes : s.zipIdx.map (fun q => (look q.1).upper) = s.map fun d => (look d).upper := by
    rw [show (fun q : DimId × Nat => (look q.1).upper) = (fun d => (look d).upper) ∘
      Prod.fst from rfl, ← map_map, zipIdx_map_fst]
  unfold squeezeShape
  rw [map_map, map_map, ← axes]
  exact prod_filter_upper fun q _ => upper q

/-- The steps that give a tensor another shape: reshaping, flattening, and dropping or adding axes
of size 1. -/
inductive IsView (o : OpId) (x : TensorId) : Build TensorId → Prop
  | reshape (target : List DimId) (sizeTensors : List TensorId) :
    IsView o x (applyReshape o x target sizeTensors)
  | flatten : IsView o x (applyFlatten o x)
  | squeeze : IsView o x (applySqueeze o x)
  | unsqueeze : IsView o x (applyUnsqueeze o x)

section Views

variable {g h g' : Arena} {o : OpId} {x y : TensorId}

theorem kept_of_extends (known : x.idx < g.tensors.size)
    (wf : ∀ d ∈ (g.tensor x).shape, (g.dim d).WellFormed) (more : g.Extends h) :
    (∀ d ∈ (h.tensor x).shape, (h.dim d).WellFormed) ∧
      ((h.tensor x).shape.map fun d => (h.dim d).upper) = (g.tensor x).shape.map fun d =>
        (g.dim d).upper := by
  rw [(more.tensor x known).1]
  refine ⟨fun d hd => ?_, more.map_dim (fun d hd => lt_of_wellFormed (wf d hd)) Dim.upper⟩
  rw [more.dim d (lt_of_wellFormed (wf d hd))]
  exact wf d hd

instance inferReshape_extends (o : OpId) (x : TensorId) (target : List DimId) :
    Within .extends (inferReshape o x target) := by
  unfold inferReshape pairTargets
  exact .of_parts

/-- The output is made with the largest sizes of the input, or with others that have the same
product. -/
def SameLargest (g : Arena) (o : OpId) (x y : TensorId) (g' : Arena) : Prop :=
  ∃ h ds, g.Extends h ∧ viewOutput o ds x h = .ok y g' ∧
    (ds.map fun d => (h.dim d).upper).prod = ((g.tensor x).shape.map fun d => (g.dim d).upper).prod

section

variable (known : x.idx < g.tensors.size) (wf : ∀ d ∈ (g.tensor x).shape, (g.dim d).WellFormed)
include known wf

theorem applyReshape_ok {sizeTensors : List TensorId}
    (run : applyReshape o x target sizeTensors g = .ok y g') : SameLargest g o x y g' := by
  simp only [applyReshape, bind_ok] at run
  obtain ⟨_, g₁, set, _, g₂, apply, _, g₃, link, ds, h, infer, view⟩ := run
  have before := (Frame.extends.keeps set).trans
    ((Frame.extends.keeps apply).trans (Frame.extends.keeps link))
  obtain ⟨wf, same⟩ := kept_of_extends known wf before
  exact ⟨h, ds, before.trans (Frame.extends.keeps infer),
    view, by rw [inferReshape_largest wf infer, same]⟩

theorem applyFlatten_ok (run : applyFlatten o x g = .ok y g') : SameLargest g o x y g' := by
  simp only [applyFlatten, Build.shape, Build.dims, bind_ok, pure_ok, tensor_ok, get_ok, param_ok,
    require_ok, Bool.and_eq_true, decide_eq_true_eq] at run
  obtain ⟨_, _, ⟨_, _, ⟨rfl, rfl⟩, rfl, rfl⟩, start, g₁, ⟨v, _, ⟨-, rfl⟩, first⟩, last, g₂,
    ⟨w, _, ⟨-, rfl⟩, second⟩, _, _, ⟨⟨low, -⟩, rfl⟩, _, _, ⟨⟨-, high⟩, rfl⟩, _, _, ⟨order, rfl⟩, _,
    g₃, apply, _, g₄, link, _, _,
    ⟨_, _, ⟨_, _, ⟨rfl, rfl⟩, rfl, rfl⟩, _, _, ⟨rfl, rfl⟩, rfl, rfl⟩, ds, h, infer, view⟩ := run
  obtain rfl : g = g₁ := by
    generalize v.int? = i at first
    cases i with
    | none => cases first
    | some i => exact (ofExcept_ok.1 first).2
  obtain rfl : g = g₂ := by
    generalize w.int? = i at second
    cases i with
    | none => cases second
    | some i => exact (ofExcept_ok.1 second).2
  have before := (Frame.extends.keeps apply).trans (Frame.extends.keeps link)
  have rank := congrArg length (before.tensor x known).1
  obtain ⟨wf, same⟩ := kept_of_extends known wf before
  refine ⟨h, ds, before.trans (Frame.extends.keeps infer), view, ?_⟩
  rw [map_map] at infer
  have joined : ∀ s, Choice g₄ (g₄.tensor x).shape s → (flattenSizes start last s).prod = s.prod ∧
      (flattenSizes start last s).length = start.toNat + 1 +
        ((g₄.tensor x).shape.length - (last + 1).toNat) := by
    intro s choice
    rw [← choice.length_eq]
    exact flattenSizes_ok low order (by rw [choice.length_eq, rank]; exact high)
  rw [← same]
  refine inferFrom_largest (start.toNat + 1 + ((g₄.tensor x).shape.length - (last + 1).toNat)) wf
    (fun r hr => ?_)
    (fun s choice => ?_) (fun r hr => ?_) infer
  · obtain ⟨s, choice, rfl⟩ := mem_map.1 hr
    exact (joined s (mem_choices.1 choice)).2
  · exact ⟨_, mem_map.2 ⟨s, mem_choices.2 choice, rfl⟩, (joined s choice).1⟩
  · obtain ⟨s, choice, rfl⟩ := mem_map.1 hr
    exact ⟨s, mem_choices.1 choice, (joined s (mem_choices.1 choice)).1⟩

theorem applySqueeze_ok (run : applySqueeze o x g = .ok y g') : SameLargest g o x y g' := by
  simp only [applySqueeze, Build.shape, look, bind_ok, pure_ok, tensor_ok, param_ok] at run
  obtain ⟨_, g₁, apply, _, g₂, link, _, _, ⟨_, _, ⟨rfl, rfl⟩, rfl, rfl⟩, v, _, ⟨-, rfl⟩, run⟩ := run
  have before := (Frame.extends.keeps apply).trans (Frame.extends.keeps link)
  obtain ⟨-, same⟩ := kept_of_extends known wf before
  have rest : ∀ (dim : Option Int) (axes : Value), (setParam o "out_dim_to_in" axes >>= fun _ =>
      viewOutput o ((squeezeShape g₂.dim dim (g₂.tensor x).shape).map (·.2)) x) g₂ = .ok y g' →
        SameLargest g o x y g' := by
    intro dim axes run
    obtain ⟨_, h, set, view⟩ := bind_ok.1 run
    refine ⟨h, _, before.trans (Frame.extends.keeps set), view, ?_⟩
    obtain rfl := modifyOp_ok.1 set
    rw [← same, ← squeezeShape_largest g₂.dim dim]
    rfl
  split at run
  · obtain ⟨_, _, made, run⟩ := bind_ok.1 run
    obtain ⟨rfl, rfl⟩ := pure_ok.1 made
    exact rest _ _ run
  · generalize v.int? = i at run
    cases i with
    | none => simp_all
    | some i =>
      obtain ⟨_, _, made, run⟩ := bind_ok.1 run
      obtain ⟨_, wrapped, rfl⟩ := map_ok.1 made
      obtain ⟨-, rfl⟩ := ofExcept_ok.1 wrapped
      exact rest _ _ run

theorem applyUnsqueeze_ok (run : applyUnsqueeze o x g = .ok y g') : SameLargest g o x y g' := by
  simp only [applyUnsqueeze, Build.shape, bind_ok, pure_ok, tensor_ok, param_ok] at run
  obtain ⟨_, g₁, apply, _, g₂, link, _, _, ⟨_, _, ⟨rfl, rfl⟩, rfl, rfl⟩, v, _, ⟨-, rfl⟩, run⟩ := run
  have before := (Frame.extends.keeps apply).trans (Frame.extends.keeps link)
  obtain ⟨wf, same⟩ := kept_of_extends known wf before
  generalize v.int? = i at run
  cases i with
  | none => cases run
  | some i =>
    simp only [bind_ok] at run
    obtain ⟨dim, _, wrapped, one, g₃, add, _, h, set, view⟩ := run
    obtain ⟨-, rfl⟩ := ofExcept_ok.1 wrapped
    have after := (Frame.extends.keeps add).trans (Frame.extends.keeps set)
    refine ⟨h, _, before.trans after, view, ?_⟩
    obtain ⟨rfl, rfl⟩ := EStateM.Result.ok.inj (add : EStateM.Result.ok _ _ = _)
    have new : (h.dim ⟨g₂.dims.size⟩).upper = 1 := by
      rw [(Frame.extends.keeps set).dim _ (by simp), Arena.dim_push, if_pos rfl]
      rfl
    have old := after.map_dim (fun d hd => lt_of_wellFormed (wf d hd)) Dim.upper
    simp_all

end

theorem viewOutput_dtype (run : viewOutput o ds x g = .ok y g') :
    (g'.tensor y).dtype = (g.tensor x).dtype := by
  simp only [viewOutput, output, bind_ok, tensor_ok, op_ok, modifyTensor_ok, pure_ok] at run
  obtain ⟨_, _, ⟨rfl, rfl⟩, z, g₁, ⟨_, _, ⟨rfl, rfl⟩, add⟩, _, _, rfl, _, _, set, rfl, rfl⟩ := run
  obtain ⟨rfl, rfl⟩ := EStateM.Result.ok.inj (add : EStateM.Result.ok _ _ = _)
  rw [((Frame.extends.keeps set).tensor _ (by simp)).2, Arena.tensor_modifyTensor_self (by simp)]
  exact (congrArg Tensor.dtype (Arena.tensor_push_new _)).trans rfl

/-- The largest view needs as many bytes as the largest input, whatever the alignment: it has as
many elements, and they are of the same type. -/
theorem view_keeps_bytes {step : Build TensorId} (view : IsView o x step)
    (known : x.idx < g.tensors.size) (wf : ∀ d ∈ (g.tensor x).shape, (g.dim d).WellFormed)
    (run : step g = .ok y g') :
    Shape.maxElements g'.dim (g'.tensor y).shape = Shape.maxElements g.dim (g.tensor x).shape ∧
      ∀ alignment, Dtype.alignedSize? g'.dim (g'.tensor y).shape (g'.tensor y).dtype alignment =
        Dtype.alignedSize? g.dim (g.tensor x).shape (g.tensor x).dtype alignment := by
  obtain ⟨h, ds, more, made, largest⟩ : SameLargest g o x y g' := by
    cases view with
    | reshape => exact applyReshape_ok known wf run
    | flatten => exact applyFlatten_ok known wf run
    | squeeze => exact applySqueeze_ok known wf run
    | unsqueeze => exact applyUnsqueeze_ok known wf run
  obtain ⟨shape, dims, -⟩ := viewOutput_ok made
  have elements : Shape.maxElements g'.dim (g'.tensor y).shape = Shape.maxElements g.dim
    (g.tensor x).shape := by
    rw [Shape.maxElements_eq, Shape.maxElements_eq, shape, ← largest]
    exact congrArg (fun a : Array Dim => (ds.map fun d => (a.getD d.idx default).upper).prod) dims
  refine ⟨elements, fun alignment => ?_⟩
  unfold Dtype.alignedSize?
  rw [elements, viewOutput_dtype made, (more.tensor x known).2]

end Views

/-- A tensor of up to 4 times up to 5 rows of 6, and a flattening of all its axes but the last. -/
def viewedArena : Arena where
  dims := #[⟨false, [2, 4], some "n"⟩, ⟨false, [0, 3, 5], some "m"⟩, .static 6]
  tensors := #[.ofShape [⟨0⟩, ⟨1⟩, ⟨2⟩]]
  ops := #[(((Operator.ofClass .flatten "flatten").setParam "unknown_idx" (.int (-1))).setParam
    "start" (.int 0)).setParam "end"
    (.int (-2))]
  namer := ⟨0, 0, [], []⟩
  target := none

/-- There are five numbers of rows, up to 20, and so up to 240 bytes. -/
theorem view_keeps_bytes_rows : ∃ y g', applyFlatten ⟨0⟩ ⟨0⟩ viewedArena = .ok y g' ∧
    (g'.tensor y).shape.map (fun d => (g'.dim d).values) = [[0, 6, 10, 12, 20], [6]] ∧
      Dtype.alignedSize? g'.dim (g'.tensor y).shape (g'.tensor y).dtype 1 = .ok 240 := by
  obtain ⟨y, g', run, values⟩ : ∃ y g', applyFlatten ⟨0⟩ ⟨0⟩ viewedArena = .ok y g' ∧
      (g'.tensor y).shape.map (fun d => (g'.dim d).values) = [[0, 6, 10, 12, 20], [6]] :=
        ⟨_, _, rfl, rfl⟩
  exact ⟨y, g', run, values, (view_keeps_bytes .flatten (by decide) (by decide) run).2 1⟩

end View

end TensorGraph

import TensorGraph.Proofs.Addresses
import TensorGraph.Proofs.Bypassing
import TensorGraph.Proofs.Extensions
import TensorGraph.Proofs.FailingSteps
import TensorGraph.Proofs.RuntimeSizes
import TensorGraph.Proofs.Slices

/-!
# Reading out of a sliced tensor

An operator that uses a slice may be made to read the sliced tensor itself.
-/

namespace TensorGraph

open Build

variable {g g' : Arena} {x y : TensorId} {o : OpId} {es : List DimId} {n : Int}
  {starts stops : List Int} {k : Nat}
  {is : List Nat}

variable {cuts' : List Cut}

/-! ## Slices of an axis -/

namespace Slice

theorem normalize_bounds (h : 0 ≤ n) (start stop : Int) :
    0 ≤ (normalize n start stop).1 ∧ (normalize n start stop).1 ≤ (normalize n start stop).2 ∧
      (normalize n start stop).2 ≤ n := by
  unfold normalize
  dsimp only
  omega

theorem start_eq_zero {start stop : Int} (h : 0 ≤ n) (whole : n ≤ length n start stop) :
    (normalize n start stop).1 = 0 := by
  obtain ⟨low, -, high⟩ := normalize_bounds h start stop
  unfold length at whole
  dsimp only at whole
  omega

theorem normalize_open (h : 0 ≤ n) : (normalize n 0 openEnd).1 = 0 := by
  unfold normalize openEnd
  dsimp only
  omega

def source (sizes starts stops : List Int) (is : List Nat) : List Nat :=
  List.zipWith (· + ·) is ((sizes.zip (starts.zip stops)).map fun p =>
    (normalize p.1 p.2.1 p.2.2).1.toNat)

/-- An axis and its slice, which is the axis itself if nothing is cut off. -/
structure Axis (g : Arena) (d : DimId) (start stop : Int) (e : DimId) : Prop where
  itself : start = 0 ∧ stop = openEnd → e = d
  sliced : Sliced (g.dim d) start stop (g.dim e)

/-- A tensor is the slice of another one by an operator. -/
structure IsSlice (g : Arena) (o : OpId) (x y : TensorId) (starts stops : List Int) : Prop where
  input : (g.op o).inputs = some [x]
  start_indices : (g.op o).param? "start_indices" = some (.ints starts)
  end_indices : (g.op o).param? "end_indices" = some (.ints stops)
  axes : List.Forall₂ (fun p e => Axis g p.1 p.2.1 p.2.2 e)
    ((g.tensor x).shape.zip (starts.zip stops)) (g.tensor y).shape

end Slice

/-! ## Sizes of a sliced axis -/

def Sizes.extents {g : Arena} (σ : Sizes g) (ds : List DimId) : List Nat := ds.map fun d =>
    (σ.size d).toNat

section Axes

variable {g : Arena} (σ : Sizes g) {d e : DimId} {start stop : Int}

theorem Sizes.size_of_static (wf : (g.dim d).WellFormed) (static : (g.dim d).isStatic = true) :
    σ.size d = (g.dim d).value := by
  obtain ⟨n, only⟩ := List.length_eq_one_iff.1 (wf.fixed static)
  have fixed : g.IsFixed d := by
    unfold Arena.IsFixed Dim.lower Dim.upper
    rw [only]
    rfl
  exact σ.size_of_isFixed wf fixed

theorem Sizes.prod_values {ds : List DimId}
    (h : ∀ d ∈ ds, (g.dim d).WellFormed ∧ 0 ≤ (g.dim d).lower ∧ (g.dim d).isStatic = true) :
    (ds.map fun d => (g.dim d).value).prod = ((σ.extents ds).prod : Nat) := by
  unfold Sizes.extents
  rw [Nat.cast_list_prod, List.map_map]
  refine congrArg List.prod (List.map_congr_left fun d hd => ?_)
  obtain ⟨wf, nonneg, static⟩ := h d hd
  rw [← σ.size_of_static wf static]
  exact (Int.toNat_of_nonneg (σ.size_nonneg wf nonneg)).symm

theorem Slice.Axis.wellFormed (axis : Slice.Axis g d start stop e) (wf : (g.dim d).WellFormed) :
    (g.dim e).WellFormed := by
  have sliced := axis.sliced
  unfold Slice.Sliced at sliced
  grind

theorem Slice.Axis.size_eq (axis : Slice.Axis g d start stop e) (wf : (g.dim d).WellFormed)
    (static : (g.dim d).isStatic = true) :
    start = 0 ∧ stop = Slice.openEnd ∧ e = d ∨ σ.size e = Slice.length (σ.size d) start stop := by
  have sliced := axis.sliced
  unfold Slice.Sliced at sliced
  split at sliced
  · next all => exact .inl ⟨all.1, all.2, axis.itself all⟩
  · obtain ⟨wf', members⟩ := sliced
    obtain ⟨n, only⟩ := List.length_eq_one_iff.1 (wf.fixed static)
    have member : ∀ m ∈ (g.dim e).values, m = Slice.length (σ.size d) start stop := by
      intro m hm
      have := (members m).1 hm
      rw [only, List.map_singleton, List.mem_singleton] at this
      rw [this, σ.size_of_static wf static, Dim.value, only]
      rfl
    obtain ⟨low, high⟩ := σ.admits e wf'
    have lower := member _ wf'.lower_mem
    have upper := member _ wf'.upper_mem
    exact .inr (by omega)

theorem Slice.Axis.whole (axis : Slice.Axis g d start stop e) (wf : (g.dim d).WellFormed)
    (nonneg : 0 ≤ (g.dim d).lower) (whole : Slice.coversAll (g.dim d) start stop = true) :
    σ.size e = σ.size d ∧ (Slice.normalize (σ.size d) start stop).1 = 0 := by
  have size := σ.size_nonneg wf nonneg
  unfold Slice.coversAll at whole
  rw [Bool.or_eq_true] at whole
  rcases whole with all | part
  · have all : start = 0 ∧ stop = Slice.openEnd := by simpa using all
    refine ⟨by rw [axis.itself all], ?_⟩
    rw [all.1, all.2]
    exact Slice.normalize_open size
  · have part : (g.dim d).isStatic = true ∧ (g.dim d).value ≤ Slice.length (g.dim d).value start
      stop := by simpa using part
    rw [← σ.size_of_static wf part.1] at part
    have zero := Slice.start_eq_zero size part.2
    refine ⟨?_, zero⟩
    obtain ⟨-, -, same⟩ | same := axis.size_eq σ wf part.1
    · rw [same]
    · grind [Slice.normalize_bounds, Slice.length, Slice.normalize]

theorem Slice.Axis.inside (axis : Slice.Axis g d start stop e) (wf : (g.dim d).WellFormed)
    (nonneg : 0 ≤ (g.dim d).lower) (static : (g.dim d).isStatic = true) :
    0 ≤ (Slice.normalize (σ.size d) start stop).1 ∧
      (Slice.normalize (σ.size d) start stop).1 + σ.size e ≤ σ.size d ∧ 0 ≤ σ.size e := by
  have size := σ.size_nonneg wf nonneg
  obtain ⟨low, order, high⟩ := Slice.normalize_bounds size start stop
  obtain ⟨rfl, rfl, rfl⟩ | same := axis.size_eq σ wf static
  · rw [Slice.normalize_open size]
    omega
  · grind [Slice.length]

end Axes

/-! ## The axis that is cut -/

namespace Strided

variable {cuts : List Cut} {f : DimTable → Accessor → Accessor × Option Fault} {u : Unit}
  {as : List Accessor}

theorem cutFrom_eq (cs : List Cut) : cutFrom cs = [] ∨ ∃ l c r, cs = l ++ c :: r ∧
    cutFrom cs = l.map Cut.normal ++ [c.normal] ∧ c.dim.isStatic = true ∧
    ∀ e ∈ l, e.dim.isStatic = true ∧ e.normal.isWhole = true := by
  induction cs with
  | nil => exact .inl rfl
  | cons c cs ih =>
    rw [cutFrom]
    split
    · exact .inl rfl
    next fixed =>
    have fixed : c.dim.isStatic = true := by simpa using fixed
    split
    · next whole =>
      right
      obtain none | ⟨l, c', r, rfl, found, fixed', all⟩ := ih
      · exact ⟨[], c, cs, rfl, by rw [none]; rfl, fixed, by simp⟩
      · refine ⟨c :: l, c', r, rfl, by rw [found]; rfl, fixed', fun e he => ?_⟩
        grind
    · exact .inr ⟨[], c, cs, rfl, rfl, fixed, by simp⟩

theorem soleCut?_ok (h : soleCut? cuts = some (k, cuts')) :
    ∃ front c back, cuts = front ++ c :: back ∧ front.length = k ∧ (cuts'.getD k default).start =
    c.normal.start ∧
      c.dim.isStatic = true ∧ (∀ e ∈ front, e.isWhole = true) ∧ ∀ e ∈ back, e.dim.isStatic = true ∧
        e.normal.isWhole = true := by
  unfold soleCut? at h
  dsimp only at h
  obtain none | ⟨l, c, r, split, found, fixed, all⟩ := cutFrom_eq cuts.reverse
  · rw [none] at h
    cases h
  have parts : cuts = r.reverse ++ c :: l.reverse := by grind
  have before : cuts.take (cuts.length - (cutFrom cuts.reverse).length) = r.reverse := by
    rw [found, parts]
    have rest : (r.reverse ++ c :: l.reverse).length - (l.map Cut.normal ++ [c.normal]).length =
      r.reverse.length := by
      simp only [List.length_append, List.length_cons, List.length_reverse, List.length_map,
        List.length_nil]
      omega
    rw [rest, List.take_left]
  rw [before] at h
  split at h
  · cases h
  next whole =>
  obtain ⟨rfl, rfl⟩ := Prod.mk.inj (Option.some.inj h)
  refine ⟨r.reverse, c, l.reverse, parts, rfl, ?_, fixed, ?_, fun e he =>
    all e (List.mem_reverse.1 he)⟩
  · rw [found]
    simp
  · grind

theorem indices_run {key : String} {ns : List Int} (set : (g.op o).param? key = some (.ints ns)) :
    indices o key g = .ok ns g := by
  have members : ∀ ns : List Int, ((ns.map Value.int).mapM fun v =>
    (expect .badType v.int? : Build Int)) g = .ok ns g := by
    intro ns
    rw [← List.mapM'_eq_mapM]
    induction ns with
    | nil => rfl
    | cons n ns ih =>
      exact (bind_run rfl).trans ((bind_run ih).trans rfl)
  have read : param o key g = .ok (.ints ns) g := (bind_run (op_run o)).trans
    (expect_ok.2 ⟨set, rfl⟩)
  unfold indices
  rw [bind_run read]
  exact members ns

theorem mapM_cuts {ds : List Dim} (run : ((ds.zipIdx k).mapM fun p => do
      return ⟨p.1, ← expect .badIndex starts[p.2]?, ← expect .badIndex stops[p.2]?⟩ :
        Build (List Cut)) g = .ok cuts g') :
    cuts = (ds.zip ((starts.drop k).zip (stops.drop k))).map (fun p => ⟨p.1, p.2.1, p.2.2⟩) ∧
      ds.length ≤ ((starts.drop k).zip (stops.drop k)).length := by
  rw [← List.mapM'_eq_mapM] at run
  induction ds generalizing k cuts g with
  | nil => simp_all
  | cons d ds ih =>
    rw [List.zipIdx_cons, List.mapM'_cons] at run
    simp only [bind_ok, expect_ok, pure_ok] at run
    grind [List.getElem?_eq_some_iff, List.drop_eq_getElem_cons, Nat.succ_le_succ]

theorem cutsOf_ok (made : Slice.IsSlice g o x y starts stops) (run : cutsOf o x g = .ok cuts g') :
    cuts = ((g.tensor x).shape.zip (starts.zip stops)).map (fun p => ⟨g.dim p.1, p.2.1, p.2.2⟩) ∧
      (g.tensor x).shape.length ≤ (starts.zip stops).length := by
  have read : dims x g = .ok ((g.tensor x).shape.map g.dim) g := rfl
  unfold cutsOf at run
  rw [bind_run read, bind_run (indices_run made.start_indices),
    bind_run (indices_run made.end_indices)] at run
  obtain ⟨rfl, long⟩ := mapM_cuts run
  simp_all [List.zip_map_left, List.map_map]

/-! ## The uses of the slice -/

theorem foldlM_gathers {α β : Type} {step : Option (List β) → α → Build (Option (List β))}
    {f : α → Option β} (given_up : ∀ {a g g' r}, step none a g = .ok r g' → r = none)
    (adds : ∀ {bs a g g' cs}, step (some bs) a g = .ok (some cs) g' → cs = bs ++ (f a).toList)
    {l : List α} {found : Option (List β)} {cs : List β}
    (run : l.foldlM step found g = .ok (some cs) g') :
    ∃ bs, found = some bs ∧ cs = bs ++ l.filterMap f := by
  induction l generalizing found g with
  | nil => simp_all
  | cons a l ih =>
    rw [List.foldlM_cons, bind_ok] at run
    obtain ⟨found', _, first, run⟩ := run
    obtain ⟨bs', rfl, rfl⟩ := ih run
    cases found with
    | none => cases given_up first
    | some bs => grind

theorem sliceUses?_ok {uses : List Nat}
    (run : sliceUses? o y k g = .ok (some uses) g') : uses.Nodup ∧ ∀ i, i ∈ uses ↔
    (g.op o).inputList[i]? = some y := by
  unfold sliceUses? at run
  simp only [bind_ok, op_ok, inputs_ok] at run
  obtain ⟨_, _, ⟨rfl, rfl⟩, ts, _, ⟨read, rfl⟩, run⟩ := run
  obtain ⟨_, start, rfl⟩ := foldlM_gathers
    (f := fun p : TensorId × Nat => if p.1 = y then some p.2 else none)
    (fun step => (pure_ok.1 step).1.symm)
    (by
      intro is p h h' js step
      dsimp only at step
      by_cases other : p.1 = y
      · rw [if_neg (by simpa using other)] at step
        simp only [bind_ok] at step
        obtain ⟨_, _, -, _, _, -, step⟩ := step
        rw [if_pos other]
        split at step
        · simp_all
        · exact (Option.some.inj (pure_ok.1 step).1).symm
      · simp_all) run
  obtain rfl := Option.some.inj start
  have list : (g.op o).inputList = ts := by simp [Operator.inputList, read]
  rw [List.nil_append, list]
  refine ⟨?_, fun i => ?_⟩
  · refine List.Nodup.filterMap ?_ (List.Nodup.of_map _ (List.nodup_zipIdx_map_snd ts))
    grind
  · simp_all [List.mem_filterMap, List.mem_zipIdx_iff_getElem?]

/-! ## New accessors -/

theorem updateInputAccessor_ok {i : Nat}
    (run : updateInputAccessor o i f g = .ok u g') :
    ∃ as a b, (g.op o).inputAccessors = some as ∧ as[i]? = some a ∧ f g.dim a = (b, none) ∧
      g' = g.modifyOp o fun x => { x with inputAccessors := some (as.set i b) } := by
  unfold updateInputAccessor at run
  simp only [bind_ok, op_ok, expect_ok, modifyOp_ok] at run
  obtain ⟨_, _, ⟨rfl, rfl⟩, as, _, ⟨known, rfl⟩, a, _, ⟨here, rfl⟩, _, _, table, _, _, rfl,
    checked⟩ := run
  obtain ⟨rfl, rfl⟩ := EStateM.Result.ok.inj (table : EStateM.Result.ok _ _ = _)
  cases fault : (f g.dim a).2 with
  | some e => simp_all
  | none =>
    simp only [fault] at checked
    exact ⟨as, a, (f g.dim a).1, known, here, Prod.ext rfl fault, (pure_ok.1 checked).2.symm⟩

theorem updateInputAccessors_ok (distinct : is.Nodup)
    (run : is.forM (fun i => updateInputAccessor o i f) g = .ok u g')
    (known : (g.op o).inputAccessors = some as) :
    ∃ bs, (g'.op o).inputAccessors = some bs ∧
      ∀ i, (i ∉ is → bs[i]? = as[i]?) ∧ (i ∈ is → ∃ a b, as[i]? = some a ∧ bs[i]? = some b ∧
        f g.dim a = (b, none)) := by
  induction is generalizing g as with
  | nil => simp_all
  | cons j is ih =>
    obtain ⟨_, _, first, run⟩ := bind_ok.1 run
    obtain ⟨as', a, b, known', here, changed, rfl⟩ := updateInputAccessor_ok first
    obtain rfl := Option.some.inj (known.symm.trans known')
    have inside : o.idx < g.ops.size := Arena.lt_of_some rfl known
    obtain ⟨new, rest⟩ := List.nodup_cons.1 distinct
    obtain ⟨bs, after, members⟩ := ih rest run (by rw [Arena.op_modifyOp_self inside])
    refine ⟨bs, after, fun i => ?_⟩
    obtain ⟨kept, later⟩ := members i
    rw [List.mem_cons]
    by_cases same : i = j
    · grind
    · rw [List.getElem?_set_ne (Ne.symm same)] at kept later
      simp only [same, false_or]
      exact ⟨kept, later⟩

theorem replaceTensorFor_keeps_accessors {old new : TensorId}
    (run : replaceTensorFor o old new g = .ok u g') : (g'.op o).inputAccessors =
    (g.op o).inputAccessors := by
  unfold replaceTensorFor at run
  rw [bind_run (tensor_run _)] at run
  split at run
  · unfold moveUse at run
    simp only [bind_ok, addDst_ok, removeDst_ok] at run
    obtain ⟨_, h, swapped, _, _, ⟨-, rfl⟩, -, rfl⟩ := run
    have same := (replaceInput_ok swapped).op o
    show (h.op o).inputAccessors = _
    rw [same]
  · obtain ⟨-, rfl⟩ := pure_ok.1 run
    rfl

theorem readSlice_ok {slice : OpId}
    (input : (g.op slice).inputs = some [x]) (known : (g.op o).inputAccessors = some as)
    (run : readSlice slice y o g = .ok true g') :
    ∃ cuts k cuts' bs, cutsOf slice x g = .ok cuts g ∧ soleCut? cuts = some (k, cuts') ∧
      (g'.op o).inputAccessors = some bs ∧ ∀ i : Nat, (g.op o).inputList[i]? = some y →
        ∃ a b, as[i]? = some a ∧ bs[i]? = some b ∧
          Accessor.rebase g.dim a (g.tensor x).shape k (cuts'.getD k default).start =
            (b, none) := by
  have first : inputAt slice 0 g = .ok x g := by
    exact (bind_run (inputs_ok.2 ⟨input, rfl⟩)).trans (expect_ok.2 ⟨rfl, rfl⟩)
  unfold readSlice at run
  simp only [bind_ok, forIn_eq_forM] at run
  obtain ⟨can, _, checked, run⟩ := run
  obtain rfl := ReadOnly.keeps checked
  cases can with
  | false => cases (pure_ok.1 run).1
  | true =>
    simp only [Bool.not_true, Bool.false_eq_true, if_false] at run
    rw [bind_run first] at run
    obtain ⟨cuts, _, cut, run⟩ := bind_ok.1 run
    obtain rfl := ReadOnly.keeps cut
    cases sole : soleCut? cuts with
    | none =>
      simp only [sole] at run
      cases (pure_ok.1 run).1
    | some found =>
      simp only [sole, bind_ok] at run
      obtain ⟨aligned, _, checked, run⟩ := run
      obtain rfl := ReadOnly.keeps checked
      cases aligned with
      | false => cases (pure_ok.1 run).1
      | true =>
        simp only [Bool.not_true, Bool.false_eq_true, if_false, bind_ok] at run
        obtain ⟨uses, _, listed, run⟩ := run
        obtain rfl := ReadOnly.keeps listed
        cases uses with
        | none => cases (pure_ok.1 run).1
        | some uses =>
          simp only [bind_ok, pure_ok] at run
          obtain ⟨s, _, shown, _, h, changed, _, _, replaced, -, rfl⟩ := run
          obtain ⟨rfl, rfl⟩ := EStateM.Result.ok.inj (shown : EStateM.Result.ok _ _ = _)
          obtain ⟨distinct, members⟩ := sliceUses?_ok listed
          obtain ⟨bs, after, all⟩ := updateInputAccessors_ok distinct changed known
          grind [replaceTensorFor_keeps_accessors, after]

end Strided

/-! ## Where the elements of a slice are -/

section SignedIndex

variable {α : Type} (l : List α) (a : α) (r : List α)

theorem at?_append_cons : (l ++ a :: r).at? l.length = some a := by rw [List.at?_natCast]; simp

theorem fromIdx_append_cons : (l ++ a :: r).fromIdx (l.length + 1) = r := by
  have behind : (l ++ a :: r).clipIdx (l.length + 1) = l.length + 1 := by
    unfold List.clipIdx
    split <;> omega
  rw [List.fromIdx, behind]
  simp

end SignedIndex

namespace RowMajor

variable {front back is js : List Nat} {p q i s : Nat}

theorem flat_shift (length : is.length = front.length) (inside : i < p) (rest : InShape back js) :
    flat (front ++ q :: back) (is ++ (i + s) :: js) =
      rowAddress (p * back.prod) (q * back.prod) (flat (front ++ p :: back) (is ++ i :: js)) + s *
        back.prod := by
  have last := flat_lt rest
  have row : i * back.prod + flat back js < p * back.prod := by
    calc i * back.prod + flat back js < (i + 1) * back.prod := by rw [Nat.add_mul]; omega
      _ ≤ p * back.prod := Nat.mul_le_mul_right _ inside
  rw [flat_append length, flat_append length, rowAddress, List.prod_cons, List.prod_cons,
    flat, flat, Nat.mul_comm (flat front is) (p * back.prod), Nat.mul_add_div (by omega),
    Nat.mul_add_mod, Nat.div_eq_of_lt row,
    Nat.mod_eq_of_lt row]
  ring

theorem inShape_append_cons {ss ts : List Nat} {t : Nat} :
    InShape (ss ++ t :: ts) is ↔ ∃ js i ks, is = js ++ i :: ks ∧ InShape ss js ∧ i < t ∧
    InShape ts ks := by
  constructor
  · intro h
    have before := List.forall₂_take_append _ _ _ h
    obtain ⟨i, ks, lt, after, rest⟩ := List.forall₂_cons_right_iff.1
      (List.forall₂_drop_append _ _ _ h)
    exact ⟨_, i, ks, by rw [← rest, List.take_append_drop], before, lt, after⟩
  · rintro ⟨js, i, ks, rfl, before, lt, after⟩
    exact List.rel_append before (.cons lt after)

theorem flat_of_part (before : InShape front is) (inside : i < p) (after : InShape back js)
    (le : p ≤ q) :
    (if 0 < (front.length : Int) ∧ p * back.prod < q * back.prod then
        rowAddress (p * back.prod) (q * back.prod) (flat (front ++ p :: back) (is ++ i :: js))
      else flat (front ++ p :: back) (is ++ i :: js)) + s * back.prod =
      flat (front ++ q :: back) (is ++ (i + s) :: js) := by
  have bound := flat_lt (inShape_append_cons.2 ⟨is, i, js, rfl, before, inside, after⟩)
  rw [List.prod_append, List.prod_cons] at bound
  have first : (front.length : Int) = 0 → front.prod = 1 := by simp_all
  have right := (rows_right_iff (by omega) first).2 (.inr (.inr ⟨by omega, le⟩)) _ bound
  rw [right, flat_shift before.length_eq inside after]

end RowMajor

namespace Strided

open RowMajor

variable {g : Arena} (σ : Sizes g)

variable {ps : List (DimId × Int × Int)} {b : Accessor}

def shift (p : DimId × Int × Int) : Nat := (Slice.normalize (σ.size p.1) p.2.1 p.2.2).1.toNat

def Unshifted (p : DimId × Int × Int) (e : DimId) : Prop := σ.size e = σ.size p.1 ∧ shift σ p = 0

theorem extents_of_unshifted (h : List.Forall₂ (Unshifted σ) ps es) :
    σ.extents es = σ.extents (ps.map (·.1)) := by
  induction h with
  | nil => rfl
  | cons same _ ih =>
    unfold Sizes.extents at ih ⊢
    rw [List.map_cons, List.map_cons, List.map_cons, ih, same.1]

theorem zipWith_shift (h : List.Forall₂ (Unshifted σ) ps es)
    (length : is.length = es.length) : List.zipWith (· + ·) is (ps.map (shift σ)) = is := by
  induction h generalizing is with
  | nil => rw [List.length_eq_zero_iff.1 length]; rfl
  | cons same _ ih =>
    cases is with
    | nil => simp at length
    | cons i is =>
      rw [List.map_cons, List.zipWith_cons_cons, same.2, ih (by simpa using length)]
      rfl

theorem shift_of_normal {p : DimId × Int × Int} (wf : (g.dim p.1).WellFormed)
    (nonneg : 0 ≤ (g.dim p.1).lower) (static : (g.dim p.1).isStatic = true)
    (whole : (Cut.normal ⟨g.dim p.1, p.2.1, p.2.2⟩).isWhole = true) : shift σ p = 0 := by
  have size := σ.size_nonneg wf nonneg
  have value := σ.size_of_static wf static
  have bounds := Slice.normalize_bounds size p.2.1 p.2.2
  unfold Cut.normal Cut.isWhole Slice.coversAll at whole
  rw [if_pos static] at whole
  unfold shift
  rw [value] at size bounds ⊢
  generalize Slice.normalize (g.dim p.1).value p.2.1 p.2.2 = range at whole bounds ⊢
  simp only [Bool.or_eq_true, Bool.and_eq_true, beq_iff_eq, decide_eq_true_eq] at whole
  rcases whole with ⟨zero, -⟩ | ⟨-, whole⟩
  · rw [zero]
    rfl
  · have zero := Slice.start_eq_zero size whole
    grind [Slice.normalize]

theorem soleCut?_parts (axes : List.Forall₂ (fun p e => Slice.Axis g p.1 p.2.1 p.2.2 e) ps es)
    (sized : ∀ p ∈ ps, (g.dim p.1).WellFormed ∧ 0 ≤ (g.dim p.1).lower)
    (sole : soleCut? (ps.map fun p => ⟨g.dim p.1, p.2.1, p.2.2⟩) = some (k, cuts')) :
    ∃ front p back front' e back', ps = front ++ p :: back ∧ es = front' ++ e :: back' ∧
    front.length = k ∧
      (cuts'.getD k default).start = shift σ p ∧ (g.dim p.1).isStatic = true ∧
        Slice.Axis g p.1 p.2.1 p.2.2 e ∧
      List.Forall₂ (Unshifted σ) front front' ∧ (∀ q ∈ back, (g.dim q.1).isStatic = true) ∧
      List.Forall₂ (fun p e => (g.dim p.1).WellFormed ∧ (g.dim e).WellFormed ∧ shift σ p = 0) back
        back' := by
  obtain ⟨_, c, _, parts, length, start, static, whole, behind⟩ := soleCut?_ok sole
  obtain ⟨front, _, rfl, rfl, last⟩ := List.map_eq_append_iff.1 parts
  obtain ⟨p, back, rfl, rfl, rfl⟩ := List.map_eq_cons_iff.1 last
  have before := List.forall₂_take front.length axes
  have from_here := List.forall₂_drop front.length axes
  rw [List.take_left] at before
  rw [List.drop_left] at from_here
  obtain ⟨e, back', axis, after, rest⟩ := List.forall₂_cons_left_iff.1 from_here
  obtain ⟨wf, nonneg⟩ := sized p (by simp)
  refine ⟨front, p, back, es.take front.length, e, back', rfl,
    ?_, by simpa using length, ?_, static, axis, ?_, fun q hq => (behind _
    (List.mem_map_of_mem hq)).1, ?_⟩
  · rw [← rest, List.take_append_drop]
  · rw [start, Cut.normal, if_pos static, shift, σ.size_of_static wf static]
    obtain ⟨low, -, -⟩ := axis.inside σ wf nonneg static
    rw [σ.size_of_static wf static] at low
    exact (Int.toNat_of_nonneg low).symm
  · have all : ∀ q ∈ front, ((g.dim q.1).WellFormed ∧ 0 ≤ (g.dim q.1).lower) ∧ Slice.coversAll
      (g.dim q.1) q.2.1 q.2.2 = true :=
      fun q hq => ⟨sized q (by simp [hq]), whole _ (List.mem_map_of_mem hq)⟩
    refine ((List.forall₂_and_left _ _).2 ⟨all, before⟩).imp fun q e both => ?_
    obtain ⟨⟨⟨wf, nonneg⟩, whole⟩, axis⟩ := both
    obtain ⟨same, zero⟩ := axis.whole σ wf nonneg whole
    exact ⟨same, by rw [shift, zero]; rfl⟩
  · have all : ∀ q ∈ back, (g.dim q.1).WellFormed ∧ shift σ q = 0 := by
      intro q hq
      obtain ⟨wf, nonneg⟩ := sized q (by simp [hq])
      obtain ⟨static, whole⟩ := behind _ (List.mem_map_of_mem hq)
      exact ⟨wf, shift_of_normal σ wf nonneg static whole⟩
    refine ((List.forall₂_and_left _ _).2 ⟨all, after⟩).imp fun q e both => ?_
    obtain ⟨⟨wf, zero⟩, axis⟩ := both
    exact ⟨wf, axis.wellFormed wf, zero⟩

theorem unshifted_of_sameFixed (h : List.Forall₂
    (fun p e => (g.dim p.1).WellFormed ∧ (g.dim e).WellFormed ∧ shift σ p = 0) ps es)
    (same : List.Forall₂ (Accessor.SameFixed g.dim) es (ps.map (·.1))) :
    List.Forall₂ (Unshifted σ) ps es := by
  induction h with
  | nil => exact .nil
  | cons here _ ih =>
    obtain ⟨wf, wf', zero⟩ := here
    cases same with
    | cons alike same =>
      obtain ⟨static', static, values⟩ := alike
      refine .cons ⟨?_, zero⟩ (ih same)
      rw [σ.size_of_static wf static, σ.size_of_static wf' static', Dim.value, Dim.value, values]

theorem rebase_append_cons {look : DimTable} {front front' back back' : List DimId} {d e : DimId}
    {offset : Int} {a : Accessor} (piece : a.InOnePiece (front' ++ e :: back'))
    (rank : front.length = front'.length) (rebased : a.rebase look (front ++ d :: back) front.length
    offset = (b, none)) :
    (look e).isStatic = true ∧ List.Forall₂ (Accessor.SameFixed look) back' back ∧
      ∀ p q w : Nat, (look e).value = p → (look d).value = q →
        (back.map fun d => (look d).value).prod = w → ∀ n : Nat, b.address? 1 n = some
        (((if 0 < (front.length : Int) ∧ p * w < q * w then rowAddress (p * w) (q * w) n else n)
        : Nat) +
          offset * w) := by
  have at_axis : (front' ++ e :: back').at? front.length = some e := by rw [rank, at?_append_cons]
  obtain ⟨-, x, _, here, -, static, -, fixed, -⟩ := Accessor.rebase_eq rebased
  rw [piece.stored, at_axis] at here
  obtain rfl := Option.some.inj here
  rw [fromIdx_append_cons, piece.stored, rank, fromIdx_append_cons] at fixed
  refine ⟨static, fixed, fun p q w hp hq hw n => ?_⟩
  refine Accessor.address_of_rebase piece.contiguous rebased ?_ ?_ ?_ n
  · rw [piece.stored, at_axis, Option.map_some, hp]
  · rw [at?_append_cons, Option.map_some, hq]
  · rw [Accessor.width, fromIdx_append_cons, hw]

theorem address_of_slice (axes : List.Forall₂ (fun p e => Slice.Axis g p.1 p.2.1 p.2.2 e) ps es)
    (sized : ∀ p ∈ ps, (g.dim p.1).WellFormed ∧ 0 ≤ (g.dim p.1).lower)
    (sole : soleCut? (ps.map fun p => ⟨g.dim p.1, p.2.1, p.2.2⟩) = some (k, cuts'))
    (rebased : (Accessor.ofShape es).rebase g.dim (ps.map (·.1)) k (cuts'.getD k default).start =
      (b, none))
    (inside : InShape (σ.extents es) is) :
    InShape (σ.extents (ps.map (·.1))) (List.zipWith (· + ·) is (ps.map (shift σ))) ∧
      b.address? 1 (flat (σ.extents es) is) =
        some (flat (σ.extents (ps.map (·.1))) (List.zipWith (· + ·) is (ps.map (shift σ)))
          : Int) := by
  obtain ⟨front, p, back, front', e, back', rfl, rfl, rfl, start, static, axis, before, statics,
    after⟩ :=
    soleCut?_parts σ axes sized sole
  obtain ⟨wf, nonneg⟩ := sized p (by simp)
  obtain ⟨low, room, short⟩ := axis.inside σ wf nonneg static
  have rank : (front.map (·.1)).length = front'.length := by rw [List.length_map, before.length_eq]
  rw [start, List.map_append, ← List.length_map (f := (·.1))] at rebased
  obtain ⟨static', fixed, address⟩ := rebase_append_cons (Accessor.inOnePiece_ofShape _)
    rank rebased
  have unshifted := unshifted_of_sameFixed σ after fixed
  have extents : σ.extents (front' ++ e :: back') =
      σ.extents (front.map (·.1)) ++ (σ.size e).toNat :: σ.extents (back.map (·.1)) := by
    rw [← extents_of_unshifted σ before, ← extents_of_unshifted σ unshifted]
    simp [Sizes.extents]
  have extents' : σ.extents ((front ++ p :: back).map (·.1)) =
      σ.extents (front.map (·.1)) ++ (σ.size p.1).toNat :: σ.extents (back.map (·.1)) := by
    simp [Sizes.extents]
  rw [extents] at inside ⊢
  rw [extents']
  obtain ⟨js, i, ks, rfl, hjs, hi, hks⟩ := inShape_append_cons.1 inside
  have fits : shift σ p + (σ.size e).toNat ≤ (σ.size p.1).toNat := by
    unfold shift
    omega
  have index : List.zipWith (· + ·) (js ++ i :: ks) ((front ++ p :: back).map (shift σ)) = js ++
    (i + shift σ p) :: ks := by
    have js_length : js.length = front'.length := by rw [hjs.length_eq, Sizes.extents,
      List.length_map, rank]
    have ks_length : ks.length = back'.length := by
      rw [hks.length_eq, Sizes.extents, List.length_map, List.length_map, unshifted.length_eq]
    rw [List.map_append, List.map_cons, List.zipWith_append (by simpa [js_length] using rank.symm),
      List.zipWith_cons_cons, zipWith_shift σ before js_length, zipWith_shift σ unshifted ks_length]
  rw [index]
  refine ⟨inShape_append_cons.2 ⟨js, _, ks, rfl, hjs, by omega, hks⟩, ?_⟩
  have size : (g.dim e).value = ((σ.size e).toNat : Nat) := by
    rw [Int.toNat_of_nonneg short, σ.size_of_static (axis.wellFormed wf) static']
  have size' : (g.dim p.1).value = ((σ.size p.1).toNat : Nat) := by
    rw [Int.toNat_of_nonneg (σ.size_nonneg wf nonneg), σ.size_of_static wf static]
  have sizes : ((back.map (·.1)).map fun d => (g.dim d).value).prod =
    ((σ.extents (back.map (·.1))).prod : Nat) := by
    refine σ.prod_values fun d hd => ?_
    obtain ⟨q, hq, rfl⟩ := List.mem_map.1 hd
    exact ⟨(sized q (by simp [hq])).1, (sized q (by simp [hq])).2, statics q hq⟩
  have rank' : (σ.extents (front.map (·.1))).length = (front.map (·.1)).length := List.length_map _
  have longer : (σ.size e).toNat ≤ (σ.size p.1).toNat := by omega
  rw [address _ _ _ size size' sizes, ← flat_of_part hjs hi hks longer, rank']
  push_cast
  rfl

/-- **Reading out of a slice.**  If an operator that used a slice, with accessors that knew nothing
but its shape, has been made to read the sliced tensor, then each of these accessors finds every
element of the slice at its place in the sliced tensor, whatever the sizes of the dynamic axes. -/
theorem readSlice_addresses {g g' : Arena} {slice o : OpId} {x y : TensorId}
    {starts stops : List Int} {as : List Accessor} (made : Slice.IsSlice g slice x y starts stops)
    (sized : ∀ d ∈ (g.tensor x).shape, (g.dim d).WellFormed ∧ 0 ≤ (g.dim d).lower)
    (accessors : (g.op o).inputAccessors = some as)
    (fresh : ∀ i : Nat, (g.op o).inputList[i]? = some y →
      as[i]? = some (.ofShape (g.tensor y).shape))
    (run : readSlice slice y o g = .ok true g') :
    ∃ bs, (g'.op o).inputAccessors = some bs ∧ ∀ i : Nat, (g.op o).inputList[i]? = some y →
    ∃ b, bs[i]? = some b ∧
      ∀ (σ : Sizes g) (is : List Nat), InShape (σ.extents (g.tensor y).shape) is →
        InShape (σ.extents (g.tensor x).shape)
          (Slice.source ((g.tensor x).shape.map σ.size) starts stops is) ∧ b.address? 1
          (flat (σ.extents (g.tensor y).shape) is) = some (flat (σ.extents (g.tensor x).shape)
            (Slice.source ((g.tensor x).shape.map σ.size) starts stops is) : Int) := by
  obtain ⟨_, k, cuts', bs, cut, sole, after, all⟩ := readSlice_ok made.input accessors run
  obtain ⟨rfl, long⟩ := cutsOf_ok made cut
  refine ⟨bs, after, fun i here => ?_⟩
  obtain ⟨a, b, old, new, rebased⟩ := all i here
  obtain rfl := Option.some.inj ((fresh i here).symm.trans old)
  refine ⟨b, new, fun σ is inside => ?_⟩
  have shape : ((g.tensor x).shape.zip (starts.zip stops)).map (·.1) = (g.tensor x).shape :=
    List.map_fst_zip long
  have index : Slice.source ((g.tensor x).shape.map σ.size) starts stops is =
      List.zipWith (· + ·) is (((g.tensor x).shape.zip (starts.zip stops)).map (shift σ)) := by
    rw [Slice.source, List.zip_map_left, List.map_map]
    rfl
  have found := address_of_slice σ made.axes (fun p hp => sized p.1 (List.of_mem_zip hp).1) sole
    (by rw [shape]; exact rebased) inside
  rw [shape, ← index] at found
  exact found

/-- A tensor with an axis of 1 to 6 elements and one of 4, of which a slice keeps two, and an
operator that uses the slice. -/
def readingArena : Arena where
  dims := #[⟨false, [1, 6], some "n"⟩, .static 4, .static 2]
  tensors := #[.ofShape [⟨0⟩, ⟨1⟩],
    { Tensor.ofShape [⟨0⟩, ⟨2⟩] with src := .ofList [⟨0⟩], dst := .ofList [⟨1⟩] }]
  ops := #[{ Operator.ofClass .dynamicSlice "dynamic_slice" with
      inputs := some [⟨0⟩]
      outputs := some [⟨1⟩]
      params := [("start_indices", .ints [0, 1]), ("end_indices", .ints [Slice.openEnd, -1])] },
    { Operator.ofClass .fusedElementwise "fused_elementwise" with
      inputs := some [⟨1⟩]
      inputAccessors := some [.ofShape [⟨0⟩, ⟨2⟩]] }]
  namer := ⟨0, 0, [], []⟩
  target := none

/-- The two elements of each row that are kept are found behind the first one, however many rows
there are. -/
theorem readSlice_addresses_rows : ∃ g' bs b, readSlice ⟨0⟩ ⟨1⟩ ⟨1⟩ readingArena = .ok true g' ∧
    (g'.op ⟨1⟩).inputAccessors = some bs ∧ bs[0]? = some b ∧
      ∀ (σ : Sizes readingArena) (i j : Nat), (i : Int) < σ.size ⟨0⟩ → j < 2 →
        b.address? 1 ((i * 2 + j : Nat) : Int) = some ((i * 4 + (j + 1) : Nat) : Int) := by
  have made : Slice.IsSlice readingArena ⟨0⟩ ⟨0⟩ ⟨1⟩ [0, 1] [Slice.openEnd, -1] := by
    refine ⟨rfl, rfl, rfl, .cons ⟨fun _ => rfl, by simp [Slice.Sliced]⟩ (.cons
      ⟨by decide, ?_⟩ .nil)⟩
    unfold Slice.Sliced
    rw [if_neg (by decide)]
    exact ⟨by decide, fun n => Iff.rfl⟩
  have fresh : ∀ i : Nat, (readingArena.op ⟨1⟩).inputList[i]? = some ⟨1⟩ →
      [Accessor.ofShape [⟨0⟩, ⟨2⟩]][i]? = some (.ofShape (readingArena.tensor ⟨1⟩).shape) := by
    intro i here
    cases i with
    | zero => rfl
    | succ i => cases here
  obtain ⟨_, g', run, rfl⟩ := exists_ok (g := readingArena)
    (x := readSlice ⟨0⟩ ⟨1⟩ ⟨1⟩) (P := fun answer _ => answer)
    (by decide +kernel)
  obtain ⟨bs, after, all⟩ := readSlice_addresses made (by decide) rfl fresh run
  obtain ⟨b, new, places⟩ := all 0 rfl
  refine ⟨g', bs, b, run, after, new, fun σ i j hi hj => ?_⟩
  have four : σ.size ⟨1⟩ = 4 := σ.size_of_static (by decide) rfl
  have two : σ.size ⟨2⟩ = 2 := σ.size_of_static (by decide) rfl
  have shape : σ.extents (readingArena.tensor ⟨1⟩).shape = [(σ.size ⟨0⟩).toNat, 2] := by
    rw [← show (σ.size ⟨2⟩).toNat = 2 by rw [two]; rfl]
    rfl
  have shape' : σ.extents (readingArena.tensor ⟨0⟩).shape = [(σ.size ⟨0⟩).toNat, 4] := by
    rw [← show (σ.size ⟨1⟩).toNat = 4 by rw [four]; rfl]
    rfl
  have index : Slice.source ((readingArena.tensor ⟨0⟩).shape.map σ.size) [0, 1] [Slice.openEnd, -1]
    [i, j] = [i, j + 1] := by
    have sizes : (readingArena.tensor ⟨0⟩).shape.map σ.size = [σ.size ⟨0⟩, 4] := by
      rw [← four]
      rfl
    have whole := Slice.normalize_open (n := σ.size ⟨0⟩) (by omega)
    have cut : (Slice.normalize 4 1 (-1)).1 = 1 := by decide
    rw [sizes]
    simp [Slice.source, whole, cut]
  have found := (places σ [i, j] (by rw [shape]; exact .cons (by omega) (.cons hj .nil))).2
  rw [shape, shape', index] at found
  simpa [flat] using found

end Strided

end TensorGraph

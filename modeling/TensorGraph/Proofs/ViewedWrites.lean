import TensorGraph.Proofs.SlicedReads
import TensorGraph.Proofs.WrittenParts

/-!
# Results that are written through a view

A result of a group of products that is viewed in another shape and joined is written straight into
the join.
-/

namespace TensorGraph

open Build RowMajor List

variable {g h : Arena} {t y whole : TensorId} {given : List TensorId} {o cat view : OpId}
  {ms : List Bool} {dim i : Nat}

abbrev Build.Frame.written : Frame := .ofOps fun q => (q.outputs, q.outputAccessors)

/-! ## Rows -/

/-- Rows of `r` elements, taken for rows that are shifted apart, lie where rows of `w` elements do
only if they are as long, or if nothing is shifted apart. -/
theorem RowMajor.rows_agree_iff {m r f w w' dim : Nat} (total : m * r = f * w) (le : w ≤ w')
    (first : dim = 0 → m = 1 ∧ f = 1) :
    (∀ n < f * w, (if 0 < dim ∧ r < w' then rowAddress r w' n else n) = rowAddress w w' n) ↔
      f * w = 0 ∨ r = w ∨ w = w' ∧ w' ≤ r := by
  by_cases none : f * w = 0
  · grind
  have pos : 0 < m ∧ 0 < r ∧ 0 < f ∧ 0 < w := by grind
  have low : r ≤ f * w := total ▸ Nat.le_mul_of_pos_left r pos.1
  have low' : w ≤ f * w := Nat.le_mul_of_pos_left w pos.2.2.1
  have start : ∀ l, 0 < l → rowAddress l w' l = w' :=
    fun l hl => by simp [rowAddress, Nat.div_self hl]
  by_cases apart : 0 < dim ∧ r < w'
  · simp only [apart, and_self, if_true]
    grind [Nat.lt_trichotomy, rowAddress_of_lt]
  · simp only [if_neg apart, eq_comm (b := rowAddress _ _ _)]
    rw [rowAddress_eq_self_iff]
    grind [dim]

namespace Strided

open Concat

/-! ## The step -/

theorem exists_of_getElem?_kept {α : Type} {ms : List Bool} {xs : List α} {k : Nat} {x : α}
    (h : (kept ms xs)[k]? = some x) :
    ∃ j : Nat, ms[j]? = some true ∧ rank ms j = k ∧ xs[j]? = some x := by
  fun_induction kept ms xs generalizing k with
  | case1 ms x' xs ih =>
    cases k with
    | zero => exact ⟨0, rfl, rfl, h⟩
    | succ k =>
      obtain ⟨j, mask, rfl, here⟩ := ih h
      exact ⟨j + 1, mask, by simp [rank], here⟩
  | case2 ms x' xs ih =>
    obtain ⟨j, mask, rfl, here⟩ := ih h
    exact ⟨j + 1, mask, by simp, here⟩
  | case3 => cases h

theorem isFixedFrom_ok (joining : Joining g cat dim whole given ms)
    (run : isFixedFrom cat dim g = .ok true h) :
    Shape.allStatic g.dim (g.tensor whole).shape dim = true := by
  unfold isFixedFrom at run
  rw [bind_run (op_run cat), joining.kind, if_neg (by decide), if_pos (by decide),
    bind_run joining.whole_run] at run
  simp only [shape, bind_ok, tensor_ok, pure_ok, get_ok] at run
  obtain ⟨_, _, ⟨_, _, ⟨rfl, rfl⟩, rfl, rfl⟩, _, _, ⟨rfl, rfl⟩, axes, g₁, found, static, rfl⟩ := run
  generalize (g.tensor whole).shape = s at found
  have axes_eq : axes = s.drop dim := by
    have each : axes = (range (s.length - dim)).map fun k => (s[dim + k]?).getD default := by
      rw [show ((s.length : Int) - dim).toNat = s.length - dim by omega] at found
      refine (mapM_reads (fun k d g' run => ?_) found).2
      simp only [axis, expect_ok] at run
      obtain ⟨here, rfl⟩ := run
      rw [← Int.natCast_add, at?_natCast] at here
      exact ⟨rfl, by rw [here]; rfl⟩
    rw [each]
    refine ext_getElem (by simp) fun k hk _ => ?_
    grind
  unfold Shape.allStatic fromIdx clipIdx
  grind

theorem redirect_ok {f : DimTable → Accessor → Accessor × Option Fault} {u : Unit} (run : (do
      updateOutputAccessor o i f
      addSrc whole o
      bypassView view
      let t ← outputAt o i
      setOutput o i whole
      detach t : Build Unit) g = .ok u h) :
    ∃ as a b, (g.op o).outputAccessors = some as ∧ as[i]? = some a ∧ f g.dim a = (b, none) ∧
      (h.op o).outputList[i]? = some whole ∧ (h.op o).outputAccessors = some (as.set i b) := by
  simp only [outputAt, bind_ok, outputs_ok, expect_ok, setOutput, modifyOp_ok, detach,
    modifyTensor_ok] at run
  obtain ⟨_, _, updated, _, g₁, linked, _, g₂, bypassed, z, _, ⟨zs, _, ⟨writes, rfl⟩, last, rfl⟩, _,
    _, rfl, rfl⟩ := run
  obtain ⟨as, a, b, accessors, accessor, changed, rfl⟩ := updateOutputAccessor_ok updated
  have later := Prod.mk.inj (Frame.written.trans (Frame.written.keeps linked)
    (Frame.written.keeps bypassed) o)
  rw [Arena.op_modifyOp_self (Arena.lt_of_some rfl accessors)] at later
  rw [at?_natCast] at last
  refine ⟨as, a, b, accessors, accessor, changed, ?_⟩
  rw [Arena.op_modifyTensor, Arena.op_modifyOp_self (Arena.lt_of_some rfl writes)]
  grind [Operator.outputList, writes, List.getElem?_set_self, List.getElem?_eq_some_iff]

/-- What a step does that changes something: the accessor of the result is put into rows of the
join, behind all inputs that were given before the view. -/
theorem writeThroughView_ok (joining : Joining g cat dim whole given ms)
    (found : viewThenConcat? t g = .ok (some (view, y, cat)) g) {u : Unit}
    (run : writeThroughView o i t g = .ok u h) :
    h = g ∨ ∃ (j : Nat) (as : List Accessor) (a b : Accessor) (w : DimId) (look : DimTable)
    (n : Int), given[j]? = some y ∧
      (g.op o).outputAccessors = some as ∧ as[i]? = some a ∧ Shape.allStatic g.dim
        (g.tensor whole).shape dim = true ∧
      look w = .static (elements g dim whole) ∧ (∀ d, (g.dim d).WellFormed → look d = g.dim d) ∧
      (∀ v : TensorId → Int, (∀ t ∈ given, Shape.allStatic g.dim (g.tensor t).shape dim = true →
        elements g dim t = v t) → n = Concat.place (given.map v) j) ∧
      a.rebase look ((g.tensor whole).shape.take dim ++ [w]) dim n = (b, none) ∧
      (h.op o).outputList[i]? = some whole ∧ (h.op o).outputAccessors = some (as.set i b) := by
  unfold writeThroughView at run
  rw [bind_run found] at run
  obtain ⟨fits, g₁, asked, run⟩ := bind_ok.1 run
  obtain rfl := ReadOnly.keeps asked
  cases fits with
  | false => exact .inl (pure_ok.1 run).2.symm
  | true =>
    rw [if_neg (by decide), bind_run joining.axis_run] at run
    obtain ⟨fixed, g₁, asked, run⟩ := bind_ok.1 run
    obtain rfl := ReadOnly.keeps asked
    cases fixed with
    | false => exact .inl (pure_ok.1 run).2.symm
    | true =>
      have static := isFixedFrom_ok joining asked
      rw [if_neg (by decide)] at run
      simp only [shape, bind_ok, tensor_ok, pure_ok] at run
      obtain ⟨_, _, ⟨_, _, ⟨rfl, rfl⟩, rfl, rfl⟩, run⟩ := run
      split at run
      · exact .inl (pure_ok.1 run).2.symm
      -- the view is found among the inputs that are still copied
      simp only [tensorIndex, bind_ok, expect_ok, inputs_ok, joining.inputs,
        Option.some.injEq] at run
      obtain ⟨k, _, ⟨_, _, ⟨rfl, rfl⟩, at_, rfl⟩, j, g₁, placed, n, g₂, measured, _, g₃, removed,
        run⟩ := run
      obtain rfl := ReadOnly.keeps measured
      obtain rfl := ReadOnly.keeps placed
      obtain ⟨bound, same, -⟩ := findIdx?_eq_some_iff_getElem.1 at_
      obtain ⟨j', mask, rfl, here⟩ := exists_of_getElem?_kept
        ((getElem?_eq_getElem bound).trans (congrArg some (eq_of_beq same)))
      obtain rfl : j' = j := (EStateM.Result.ok.inj
        ((givenIndex_run joining.givens joining.masks joining.length mask).symm.trans placed)).1
      obtain ⟨tensors, dims, others, ms', closed, -⟩ :=
        removeInputs_ok joining.inputs joining.givens joining.masks
        (show removeInputs cat ([rank ms j'].map Int.ofNat) _ = _ from removed)
      have kept : Frame.written.rel g g₃ := fun p => by
        by_cases e : p = cat
        · rw [e, closed]
        · rw [others p e]
      have kept (p : OpId) := Prod.mk.inj (kept p)
      obtain ⟨_, _, first, run⟩ := run
      simp only [outputAt, bind_ok, outputs_ok, expect_ok, (kept cat).1, joining.output,
        Option.some.injEq] at first
      obtain ⟨_, _, ⟨rfl, rfl⟩, first, rfl⟩ := first
      obtain rfl := Option.some.inj first
      obtain ⟨_, _, ⟨_, _, ⟨rfl, rfl⟩, rfl, rfl⟩, _, _, counted, w, g₄, added, run⟩ := run
      obtain ⟨rfl, rfl⟩ := elementsFrom_ok counted
      obtain ⟨rfl, rfl⟩ := EStateM.Result.ok.inj (added : EStateM.Result.ok _ _ = _)
      obtain ⟨as, a, b, accessors, accessor, rebased, output, after⟩ :=
        redirect_ok (by simpa only [bind_ok] using run)
      have shape_eq : (g₃.tensor whole).shape = (g.tensor whole).shape := by
        unfold Arena.tensor; rw [tensors]
      have dim_eq : ∀ d, g₃.dim d = g.dim d := fun d => congrArg (·.getD d.idx default) dims
      rw [shape_eq, toIdx, clipIdx, if_neg (by omega)] at rebased
      refine .inr ⟨j', as, a, b, _, _, n, here, (kept o).2.symm.trans accessors, accessor, static,
        ?_, fun d wf => ?_, fun v sizes => offsetBefore_ok sizes joining.givens measured, rebased,
        output, after⟩
      · refine (Arena.dim_push _ _).trans ((if_pos rfl).trans (congrArg Dim.static ?_))
        simp only [dim_eq]
        rfl
      · refine (Arena.dim_push _ _).trans ((if_neg ?_).trans (dim_eq d))
        rw [dims]
        exact (Arena.lt_of_wellFormed wf).ne

/-! ## Sizes -/

section Sizes

variable (σ : Sizes g)

def along (dim : Nat) (t : TensorId) : Nat := (σ.extents (g.tensor t).shape).getD dim 0

def behind (dim : Nat) (t : TensorId) : Nat := ((σ.extents (g.tensor t).shape).drop dim).prod

/-- Tensors that differ along one axis only, and are joined there. -/
structure Lined (dim : Nat) (whole : TensorId) (given : List TensorId) (front back : List Nat) :
    Prop where
  rank : front.length = dim
  part : ∀ z ∈ given, ∃ e, σ.extents (g.tensor z).shape = front ++ e :: back
  whole : σ.extents (g.tensor whole).shape = front ++ (given.map (along σ dim)).sum :: back

def Sized (g : Arena) (t : TensorId) : Prop := ∀ d ∈ (g.tensor t).shape, (g.dim d).WellFormed ∧
    0 ≤ (g.dim d).lower

instance (g : Arena) (t : TensorId) : Decidable (Sized g t) :=
  inferInstanceAs (Decidable (∀ _ ∈ _, _))

variable {σ} {front back : List Nat}

theorem elements_eq (sized : Sized g t)
    (static : Shape.allStatic g.dim (g.tensor t).shape dim = true) :
    elements g dim t = behind σ dim t := by
  unfold elements behind Shape.allStatic at *
  unfold fromIdx clipIdx at static ⊢
  rw [prodInt_eq, Sizes.extents, ← map_drop, ← Sizes.extents, ← σ.prod_values fun d hd => ?_]
  · rfl
  · obtain ⟨wf, nonneg⟩ := sized d (mem_of_mem_drop hd)
    grind

theorem along_eq {e : Nat} (rank : front.length = dim)
    (h : σ.extents (g.tensor t).shape = front ++ e :: back) :
    along σ dim t = e ∧ behind σ dim t = e * back.prod := by
  unfold along behind
  rw [h, ← rank]
  simp

theorem Lined.place_eq (lined : Lined σ dim whole given front back) (j : Nat) :
    Concat.place (given.map fun z => (behind σ dim z : Int)) j =
    ((given.take j).map (along σ dim)).sum * back.prod := by
  unfold Concat.place
  rw [← map_take, Nat.cast_list_sum, ← sum_map_mul_right, map_map]
  refine congrArg sum (map_congr_left fun z hz => ?_)
  obtain ⟨e, he⟩ := lined.part z (mem_of_mem_take hz)
  obtain ⟨h, h'⟩ := along_eq lined.rank he
  simp [h, h']

theorem Lined.place_row {e : Nat} (lined : Lined σ dim whole given front back)
    (part : σ.extents (g.tensor y).shape = front ++ e :: back) (start : Nat) {n : Nat}
    (hn : n < (σ.extents (g.tensor y).shape).prod) :
    RowMajor.place (σ.extents (g.tensor y).shape) (σ.extents (g.tensor whole).shape) dim start n =
      (rowAddress (behind σ dim y) (behind σ dim whole) n + start * back.prod : Nat) := by
  rw [(along_eq lined.rank part).2, (along_eq lined.rank lined.whole).2, part, lined.whole]
  rw [part] at hn
  obtain rfl := lined.rank
  exact_mod_cast RowMajor.place_eq hn start

theorem sum_along_le {j : Nat} (here : given[j]? = some y) :
    ((given.take j).map (along σ dim)).sum + along σ dim y ≤ (given.map (along σ dim)).sum := by
  obtain ⟨hj, rfl⟩ := List.getElem?_eq_some_iff.1 here
  conv_rhs => rw [← List.take_append_drop j given, List.drop_eq_getElem_cons hj]
  grind

end Sizes

/-- **Writing through a view.**  If a result of a group of products has become a part of a join in
place of a view of it, then each of its elements is written to the place of that element of the view
exactly if the rows of the result are what the view has from the joined axis on, or if the view is
all of the join there and the rows are longer still.  It is inside of the join then. -/
theorem writeThroughView_addresses_iff (joining : Joining g cat dim whole given ms)
    (lined : ∀ σ : Sizes g, ∃ front back, Lined σ dim whole given front back)
    (sized : ∀ z ∈ t :: whole :: given, Sized g z)
    (found : viewThenConcat? t g = .ok (some (view, y, cat)) g)
    (elements : ∀ σ : Sizes g, (σ.extents (g.tensor y).shape).prod =
    (σ.extents (g.tensor t).shape).prod) (piece : ∀ as a, (g.op o).outputAccessors = some as →
    as[i]? = some a → a.InOnePiece (g.tensor t).shape) {u : Unit}
    (run : writeThroughView o i t g = .ok u h) :
    h = g ∨ ∃ (j : Nat) (bs : List Accessor) (b : Accessor), given[j]? = some y ∧
    (h.op o).outputList[i]? = some whole ∧
      (h.op o).outputAccessors = some bs ∧ bs[i]? = some b ∧ ∀ σ : Sizes g,
        ((∀ n < (σ.extents (g.tensor t).shape).prod, ∃ p : Nat, b.address? 1 n = some (p : Int) ∧
          p < (σ.extents (g.tensor whole).shape).prod ∧ (p : Int) = RowMajor.place
            (σ.extents (g.tensor y).shape) (σ.extents (g.tensor whole).shape) dim
            ((given.take j).map (along σ dim)).sum n) ↔
          (σ.extents (g.tensor t).shape).prod = 0 ∨ along σ dim t = behind σ dim y ∨
            behind σ dim y = behind σ dim whole ∧ behind σ dim whole ≤ along σ dim t) := by
  obtain rfl | ⟨j, as, a, b, w, look, n, here, accessors, accessor, static, width, kept, start,
    rebased, output, after⟩ :=
    writeThroughView_ok joining found run
  · exact .inl rfl
  have bound : i < as.length := (List.getElem?_eq_some_iff.1 accessor).1
  refine .inr ⟨j, _, b, here, output, after, getElem?_set_self bound, fun σ => ?_⟩
  obtain ⟨front, back, lined⟩ := lined σ
  obtain ⟨e, part⟩ := lined.part y (mem_of_getElem? here)
  obtain ⟨long, rows⟩ := along_eq lined.rank part
  obtain ⟨-, rows'⟩ := along_eq lined.rank lined.whole
  have piece := piece as a accessors accessor
  -- the result has one axis more than there are before the joined one
  have before : ((g.tensor whole).shape.take dim).length = dim := by
    have rank := congrArg length lined.whole
    have := lined.rank
    simp only [Sizes.extents, length_map, length_append, length_cons] at rank
    rw [length_take]
    omega
  obtain ⟨l, x, hl, shape⟩ : ∃ l x, l.length = dim ∧ (g.tensor t).shape = l ++ [x] := by
    have same := (Accessor.rebase_eq rebased).1
    rw [piece.stored, length_append, before] at same
    refine ⟨_, _, ?_, (dropLast_append_getLast (ne_nil_of_length_eq_add_one same.symm)).symm⟩
    rw [length_dropLast, ← same]
    simp
  obtain ⟨wf, nonneg⟩ := sized t (by simp) x (by simp [shape])
  rw [shape] at piece
  have rebased' : a.rebase look ((g.tensor whole).shape.take dim ++ [w])
    ((g.tensor whole).shape.take dim).length n = (b, none) := by
    rw [before]
    exact rebased
  obtain ⟨fixed, -, address⟩ := rebase_append_cons piece (before.trans hl.symm) rebased'
  rw [kept x wf] at fixed
  have extents : σ.extents (g.tensor t).shape = σ.extents l ++ [(σ.size x).toNat] := by
    simp [shape, Sizes.extents]
  have row : along σ dim t = (σ.size x).toNat := by
    unfold along
    rw [extents, ← hl]
    simp [Sizes.extents]
  have address := address (along σ dim t) (behind σ dim whole) 1
    (by rw [kept x wf, row, Int.toNat_of_nonneg (σ.size_nonneg wf nonneg),
      σ.size_of_static wf fixed])
    (by rw [width, elements_eq (sized whole (by simp)) static]; rfl) rfl
  have offset : n = ((given.take j).map (along σ dim)).sum * back.prod := by
    rw [start _ fun z hz => elements_eq (sized z (by simp [hz])), lined.place_eq]
  have total : (σ.extents l).prod * along σ dim t = front.prod * behind σ dim y := by
    rw [row, rows, ← prod_cons, ← prod_append, ← part, elements, extents, prod_append,
      prod_singleton]
  have room :
      ((given.take j).map (along σ dim)).sum * back.prod + behind σ dim y ≤ behind σ dim whole := by
    rw [rows, rows', ← Nat.add_mul, ← long]
    exact Nat.mul_le_mul_right _ (sum_along_le here)
  have count : (σ.extents (g.tensor t).shape).prod = front.prod * behind σ dim y := by
    rw [← elements, part, prod_append, prod_cons, rows]
  have first : dim = 0 → (σ.extents l).prod = 1 ∧ front.prod = 1 := by
    rintro rfl
    obtain rfl := length_eq_zero_iff.1 hl
    obtain rfl := length_eq_zero_iff.1 lined.rank
    exact ⟨rfl, rfl⟩
  rw [count, ← rows_agree_iff total (Nat.le_of_add_left_le room) first]
  refine forall₂_congr fun k hk => ?_
  have there := lined.place_row part ((given.take j).map (along σ dim)).sum
    (by rwa [part, prod_append, prod_cons, ← rows] : k < (σ.extents (g.tensor y).shape).prod)
  have size : (σ.extents (g.tensor whole).shape).prod = front.prod * behind σ dim whole := by
    rw [rows', lined.whole, prod_append, prod_cons]
  have inside := rowAddress_add_lt room hk
  rw [address k, there, size, before, offset]
  simp only [Int.natCast_pos, Nat.cast_one, mul_one]
  constructor
  · rintro ⟨p, at_, -, right⟩
    have sum := (Option.some.inj at_).trans right
    rw [Nat.cast_add, Nat.cast_mul] at sum
    exact_mod_cast add_right_cancel sum
  · intro same
    refine ⟨_, ?_, inside, rfl⟩
    rw [same]
    push_cast
    rfl

/-- The shapes of a result, a view of it, another tensor, and the two joined along the second
axis. -/
def throughShapes : Bool → List (List Nat)
  | true => [[4, 6], [2, 12], [2, 8], [2, 20]]
  | false => [[2, 12], [2, 3, 4], [2, 2, 4], [2, 5, 4]]

/-- The result is made by a product, and the dimension with number `n` has the size `n`. -/
def throughArena (split : Bool) : Arena :=
  let shape (i : Nat) : List DimId := ((throughShapes split).getD i []).map DimId.mk
  let made (i : Nat) (sources users : List OpId) : Tensor :=
    { Tensor.ofShape (shape i) with src := ⟨sources, false⟩, dst := ⟨users, false⟩ }
  { dims := ((range 21).map fun n : Nat => Dim.static n).toArray
    tensors := #[made 0 [⟨0⟩] [⟨1⟩], made 1 [⟨1⟩] [⟨2⟩], made 2 [] [⟨2⟩], made 3 [⟨2⟩] []]
    ops := #[{ Operator.ofClass .groupGemmRcr "group_gemm_rcr" with
        outputs := some [⟨0⟩]
        outputAccessors := some [.ofShape (shape 0)] },
      { Operator.ofClass .reshape "reshape" with inputs := some [⟨0⟩], outputs := some [⟨1⟩] },
      { Operator.ofClass .concatenate "concatenate" with
        inputs := some [⟨1⟩, ⟨2⟩]
        outputs := some [⟨3⟩]
        givenInputs := some [⟨1⟩, ⟨2⟩]
        inputMasks := some [true, true]
        inputAccessors := some [.ofShape (shape 1), .ofShape (shape 2)]
        params := [("concat_dim", .int 1)] }]
    namer := ⟨0, 0, [], []⟩
    target := none }

/-- Rows that are viewed as matrices are written to their places; rows that the view puts together
are not. -/
theorem writeThroughView_addresses_iff_rows :
    (∃ h bs b, writeThroughView ⟨0⟩ 0 ⟨0⟩ (throughArena false) = .ok () h ∧
      (h.op ⟨0⟩).outputAccessors = some bs ∧ bs[0]? = some b ∧ ∀ n < 24, ∃ p :
      Nat, b.address? 1 n = some (p : Int) ∧ p < 40 ∧
        (p : Int) = RowMajor.place [2, 3, 4] [2, 5, 4] 1 0 n) ∧
    ∃ h bs b, writeThroughView ⟨0⟩ 0 ⟨0⟩ (throughArena true) = .ok () h ∧
    (h.op ⟨0⟩).outputAccessors = some bs ∧
      bs[0]? = some b ∧ ¬∀ n < 24, ∃ p : Nat, b.address? 1 n = some (p : Int) ∧ p < 40 ∧
        (p : Int) = RowMajor.place [2, 12] [2, 20] 1 0 n := by
  have each : ∀ split : Bool, ∃ h bs b, writeThroughView ⟨0⟩ 0 ⟨0⟩ (throughArena split) = .ok () h ∧
      (h.op ⟨0⟩).outputAccessors = some bs ∧ bs[0]? = some b ∧
        ((∀ n < 24, ∃ p : Nat, b.address? 1 n = some (p : Int) ∧ p < 40 ∧
        (p : Int) = RowMajor.place ((throughShapes split).getD 1 [])
          ((throughShapes split).getD 3 []) 1 0 n) ↔
          split = false) := by
    intro split
    have computed : (match writeThroughView ⟨0⟩ 0 ⟨0⟩ (throughArena split) with
        | .ok _ h => decide ((h.op ⟨0⟩).outputs = some [⟨3⟩])
        | .error _ _ => false) = true := by cases split <;> decide +kernel
    cases run : writeThroughView ⟨0⟩ 0 ⟨0⟩ (throughArena split) with
    | error => simp [run] at computed
    | ok u h =>
      rw [run] at computed
      have extents : ∀ (σ : Sizes (throughArena split)) (i : Nat), i < 4 →
          σ.extents ((throughArena split).tensor ⟨i⟩).shape = (throughShapes split).getD i [] := by
        intro σ i hi
        have dims : ∀ n < 21, (throughArena split).dim ⟨n⟩ = .static n := by cases split <;> decide
        have size : ∀ n < 21, (σ.size ⟨n⟩).toNat = n := fun n hn => by
          rw [σ.size_of_static (dims n hn ▸ Dim.static_wellFormed n none) (dims n hn ▸ rfl),
            dims n hn]
          rfl
        have known : ∀ i < 4, ∀ n ∈ (throughShapes split).getD i [], n < 21 := by
          cases split <;> decide
        have shape : ((throughArena split).tensor ⟨i⟩).shape =
            ((throughShapes split).getD i []).map DimId.mk := by
          cases split <;> interval_cases i <;> rfl
        rw [shape, Sizes.extents, map_map]
        exact (map_congr_left fun n hn => size n (known i hi n hn)).trans (map_id _)
      have joining : Joining (throughArena split) ⟨2⟩ (1 : Nat) ⟨3⟩ [⟨1⟩, ⟨2⟩] [true, true] := by
        cases split <;> exact ⟨rfl, rfl, rfl, by decide, rfl, rfl, rfl, rfl⟩
      have lined :
          ∀ σ : Sizes (throughArena split), ∃ front back, Lined σ 1 ⟨3⟩ [⟨1⟩, ⟨2⟩] front back := by
        intro σ
        have parts : [⟨1⟩, ⟨2⟩].map (along σ 1) = [1, 2].map fun i =>
          ((throughShapes split).getD i []).getD 1 0 := by
          simp only [map_cons, map_nil, along, extents σ 1 (by decide), extents σ 2 (by decide)]
        refine ⟨[2], ((throughShapes split).getD 1 []).drop 2, rfl, ?_, ?_⟩
        · rw [forall_mem_cons, forall_mem_singleton, extents σ 1 (by decide),
            extents σ 2 (by decide)]
          cases split <;> exact ⟨⟨_, rfl⟩, _, rfl⟩
        · rw [parts, extents σ 3 (by decide)]
          cases split <;> rfl
      have found : viewThenConcat? ⟨0⟩ (throughArena split) = .ok (some (⟨1⟩, ⟨1⟩, ⟨2⟩))
        (throughArena split) := by
        cases split <;> rfl
      have elements : ∀ σ : Sizes (throughArena split),
        (σ.extents ((throughArena split).tensor ⟨1⟩).shape).prod =
          (σ.extents ((throughArena split).tensor ⟨0⟩).shape).prod := by
        intro σ
        rw [extents σ 1 (by decide), extents σ 0 (by decide)]
        cases split <;> rfl
      have piece : ∀ as a, ((throughArena split).op ⟨0⟩).outputAccessors = some as →
        as[0]? = some a →
          a.InOnePiece ((throughArena split).tensor ⟨0⟩).shape := by
        intro as a accessors accessor
        obtain rfl := Option.some.inj accessors
        obtain rfl := Option.some.inj accessor
        exact Accessor.inOnePiece_ofShape _
      obtain rfl | ⟨j, bs, b, here, -, after, new, right⟩ :=
        writeThroughView_addresses_iff joining lined (by cases split <;> decide) found elements
          piece run
      · cases split <;> cases of_decide_eq_true computed
      · obtain rfl : 0 = j := by
          have bound : j < 2 := (List.getElem?_eq_some_iff.1 here).1
          interval_cases j
          · rfl
          · cases here
        have right := right (Sizes.lowest _)
        simp only [along, behind, extents _ 0 (by decide), extents _ 1 (by decide),
          extents _ 3 (by decide)] at right
        refine ⟨h, bs, b, rfl, after, new, ?_⟩
        cases split
        · exact ⟨fun _ => rfl, fun _ => right.2 (.inr (.inl rfl))⟩
        · exact ⟨fun all => absurd (right.1 all) (by decide), fun no => by cases no⟩
  obtain ⟨h, bs, b, run, after, new, right⟩ := each false
  obtain ⟨h', bs', b', run', after', new', right'⟩ := each true
  exact ⟨⟨h, bs, b, run, after, new, right.2 rfl⟩, h', bs', b', run', after', new', fun all =>
    absurd (right'.1 all) (by decide)⟩

end Strided

end TensorGraph

import Mathlib
import TensorGraph.Code.ConvSizes
import TensorGraph.Op.Conv
import TensorGraph.Proofs.Extensions

/-!
# Sizes of convolved images

The bounds of a convolved image are computed for the sizes that are listed, with a division that
rounds down; at run time the division cuts off:

    listed: ⌊(n + 2p - ((k - 1)d + 1)) / s⌋ + 1        (listedSize, runningSize)
-/

namespace TensorGraph.Conv

open List Build Code

variable {s p d k m n a b : Int}

/-! ## The two divisions -/

def room (p d k n : Int) : Int := n + p + p - ((k - 1) * d + 1)

def listedSize (s p d k n : Int) : Int := (room p d k n).fdiv s + 1

def runningSize (s p d k n : Int) : Int := (room p d k n).tdiv s + 1

theorem runTimeSizes_eq (n h w c co kh kw : Int) :
    runTimeSizes false (.ofSizes n h w c co kh kw s d p) =
    (runningSize s p d kh h, runningSize s p d kw w) := by
  rfl

theorem outSize_eq (pos : 0 < s) : outSize false ⟨.int s, .int p, .int d⟩ n k =
    .ok (listedSize s p d k n) := by
  have nonzero : (Number.int s).same 0 = false := decide_eq_false fun zero =>
    pos.ne' (by simpa using zero)
  unfold outSize Number.floorDiv?
  rw [nonzero]
  rfl

theorem runningSize_eq (pos : 0 < s) (n : Int) : runningSize s p d k n =
    listedSize s p d k n + if 0 ≤ room p d k n ∨ s ∣ room p d k n then 0 else 1 := by
  rw [runningSize, listedSize, Int.tdiv_eq_ediv, Int.fdiv_eq_ediv_of_nonneg _ pos.le,
    Int.sign_eq_one_of_pos pos]
  omega

theorem runningSize_nonneg_iff (pos : 0 < s) : 0 ≤ runningSize s p d k n ↔
    -2 * s < room p d k n := by
  by_cases fits : 0 ≤ room p d k n
  · have quotient := Int.tdiv_nonneg fits pos.le
    unfold runningSize
    omega
  · have opposite : (room p d k n).tdiv s = -(-room p d k n / s) := by
      rw [← Int.tdiv_eq_ediv_of_nonneg (by omega), Int.neg_tdiv, Int.neg_neg]
    have less := Int.ediv_lt_iff_lt_mul (a := -room p d k n) (b := 2) pos
    unfold runningSize
    omega

theorem listedSize_mono (pos : 0 < s) : Monotone (listedSize s p d k) := fun a b le => by
  have more : room p d k a ≤ room p d k b := by unfold room; omega
  rw [listedSize, listedSize, Int.fdiv_eq_ediv_of_nonneg _ pos.le,
    Int.fdiv_eq_ediv_of_nonneg _ pos.le]
  exact Int.add_le_add_right (Int.ediv_le_ediv pos more) 1

theorem runningSize_mono (pos : 0 < s) : Monotone (runningSize s p d k) := fun a b le => by
  have more : room p d k a ≤ room p d k b := by unfold room; omega
  exact Int.add_le_add_right (Int.tdiv_le_tdiv pos more) 1

/-- The kernel reaches less than two strides over the edges of the smallest image, and it fits into
the largest image or reaches over its edges by whole strides. -/
def Fits (s p d k : Int) (D : Dim) : Prop :=
  -2 * s < room p d k D.lower ∧ (0 ≤ room p d k D.upper ∨ s ∣ room p d k D.upper)

theorem fits_iff (pos : 0 < s) {D E : Dim} (wf : D.WellFormed)
    (lower : E.lower = listedSize s p d k D.lower) (upper : E.upper = listedSize s p d k D.upper) :
    (∀ n, D.Admits n → 0 ≤ runningSize s p d k n ∧ E.Admits (runningSize s p d k n)) ↔
    Fits s p d k D := by
  have last := runningSize_eq (p := p) (d := d) (k := k) pos D.upper
  constructor
  · intro all
    refine ⟨(runningSize_nonneg_iff pos).1 (all _ wf.admits_lower).1, ?_⟩
    have most := (all _ wf.admits_upper).2.2
    rw [upper] at most
    split at last <;> [assumption; omega]
  · rintro ⟨small, large⟩ n ⟨above, below⟩
    rw [if_pos large] at last
    have first := runningSize_eq (p := p) (d := d) (k := k) pos n
    have low := listedSize_mono (p := p) (d := d) (k := k) pos above
    have high := runningSize_mono (p := p) (d := d) (k := k) pos below
    refine ⟨((runningSize_nonneg_iff pos).2 small).trans (runningSize_mono pos above), ?_, ?_⟩
    · rw [lower]
      split at first <;> omega
    · omega

theorem ends_eq {D E : Dim} (wf : D.WellFormed) (wf' : E.WellFormed) {f : Int → Int}
    (mono : Monotone f) (values : ∀ n, n ∈ E.values ↔ ∃ m ∈ D.values, f m = n) :
    E.lower = f D.lower ∧ E.upper = f D.upper := by
  obtain ⟨m, hm, low⟩ := (values _).1 wf'.lower_mem
  obtain ⟨m', hm', high⟩ := (values _).1 wf'.upper_mem
  have below := wf'.lower_le ((values _).2 ⟨_, wf.lower_mem, rfl⟩)
  have above := wf'.le_upper ((values _).2 ⟨_, wf.upper_mem, rfl⟩)
  have first := mono (wf.lower_le hm)
  have last := mono (wf.le_upper hm')
  omega

/-! ## The inferred shape -/

variable {g g' : Arena} {o : OpId} {x w : TensorId} {shape : List DimId} {co kh kw cw : Int}

/-- Each inferred axis lists what `f`, which is `r` where it returns, makes of the sizes that an
image may be listed with. -/
theorem infer_ok {rank : Nat} {f : List Int → Except Fault (List Int)} {r : List Int → List Int}
    (value : ∀ l y, f l = .ok y → y = r l) (run : Spatial.infer rank x f g = .ok shape g') :
    Forall₂ (fun i e => (g'.dim e).WellFormed ∧ ∀ n, n ∈ (g'.dim e).values ↔
      ∃ l ∈ Shape.choices (((g.tensor x).shape.map g.dim).map (·.values)), (r l).getD i 0 = n)
        (range rank) shape := by
  unfold Spatial.infer Spatial.sizesOf dims Build.shape at run
  simp only [bind_ok, tensor_ok, get_ok, pure_ok] at run
  obtain ⟨_, _, ⟨_, _, ⟨_, _, ⟨_, _, ⟨rfl, rfl⟩, rfl, rfl⟩, _, _, ⟨rfl, rfl⟩, rfl, rfl⟩, rfl, rfl⟩,
    rs, g₁, tried, made⟩ := run
  obtain ⟨rfl, each⟩ := mapM_each tried
  simp only [ofExcept_ok, and_true] at each
  unfold Spatial.shapeOf at made
  have dims := mapM_extends (Q := fun h i e => e.idx < h.dims.size ∧
    Dim.ofValues? (Dim.sortedValues (rs.map fun r => r.getD i 0)) none = .ok (h.dim e))
    (fun more known => ⟨known.1.trans_le more.dims, by rw [more.dim _ known.1]; exact known.2⟩)
    (fun _ _ _ _ _ _ run => dimOfValues_ok run) made
  refine dims.imp fun i e known => ?_
  obtain ⟨wf, values⟩ := Dim.ofValues?_ok known.2
  refine ⟨wf, fun n => ?_⟩
  rw [values, Dim.mem_sortedValues, mem_map]
  grind

/-- An operator that is set up to convolve an image with weights, in whole steps. -/
structure Convolves (g : Arena) (o : OpId) (x w : TensorId) (image : List DimId)
    (weights : List Int) (s p d : Int) : Prop where
  direct : isTransposed (g.op o).cls = false
  stride : (g.op o).param? "stride" = some (.int s)
  pad : (g.op o).param? "pad" = some (.int p)
  dilate : (g.op o).param? "dilate" = some (.int d)
  image : (g.tensor x).shape = image
  weights : (g.tensor w).shape.map (fun e => (g.dim e).lower) = weights

/-- The inferred bounds are those of the listed sizes. -/
theorem resultShape_ok (pos : 0 < s) {N H W C : DimId}
    (op : Convolves g o x w [N, H, W, C] [co, kh, kw, cw] s p d)
    (wf : ∀ e ∈ [N, H, W, C], (g.dim e).WellFormed) (run : resultShape o x w g = .ok shape g') :
    ∃ N' H' W' C', shape = [N', H', W', C'] ∧
    ((g'.dim H').lower = listedSize s p d kh (g.dim H).lower ∧
      (g'.dim H').upper = listedSize s p d kh (g.dim H).upper) ∧
    (g'.dim W').lower = listedSize s p d kw (g.dim W).lower ∧
    (g'.dim W').upper = listedSize s p d kw (g.dim W).upper := by
  unfold resultShape dims Build.shape setParam at run
  simp only [bind_ok, tensor_ok, get_ok, pure_ok, ofExcept_ok, modifyOp_ok, op_ok] at run
  obtain ⟨_, _, ⟨_, _, ⟨_, _, ⟨rfl, rfl⟩, rfl, rfl⟩, _, _, ⟨rfl, rfl⟩, rfl, rfl⟩, run⟩ := run
  have sizes : ((g.tensor w).shape.map g.dim).map (·.lower) = [co, kh, kw, cw] := by
    rw [map_map]
    exact op.weights
  simp only [sizes, Spatial.size?, getElem?_cons_zero, getElem?_cons_succ, Except.ok.injEq] at run
  obtain ⟨_, _, ⟨rfl, rfl⟩, _, _, rfl, _, _, ⟨rfl, rfl⟩, _, _, rfl, _, _, ⟨rfl, rfl⟩, _, _, rfl, _,
    _, ⟨rfl, rfl⟩, run⟩ := run
  generalize reached : ((g.modifyOp o _).modifyOp o _).modifyOp o _ = g₁ at run
  have same : g₁.dims = g.dims ∧ (g₁.tensor x).shape = (g.tensor x).shape ∧ (g₁.op o).cls =
    (g.op o).cls ∧
      ∀ key ∉ ["CO", "KH", "KW"], (g₁.op o).param? key = (g.op o).param? key := by
    subst reached
    refine ⟨rfl, rfl, ?_, fun key other => ?_⟩
    · grind [Arena.op_modifyOp_ite, Operator.setParam]
    · grind [Arena.op_modifyOp_ite, Operator.param?_setParam]
  obtain ⟨dims, image, cls, kept⟩ := same
  have look : ∀ e, g₁.dim e = g.dim e := fun e => by unfold Arena.dim; rw [dims]
  rw [cls, op.direct, kept "stride" (by decide), op.stride, kept "pad" (by decide), op.pad,
    kept "dilate" (by decide), op.dilate] at run
  have axes := infer_ok
    (r := fun l => [l.getD 0 0, listedSize s p d kh (l.getD 1 0), listedSize s p d kw (l.getD 2 0),
      co]) (fun l y answer => ?_) run
  · have choice : ∀ l, l ∈ Shape.choices (((g₁.tensor x).shape.map g₁.dim).map (·.values)) ↔
      ∃ a ∈ (g.dim N).values,
        ∃ h ∈ (g.dim H).values, ∃ b ∈ (g.dim W).values, ∃ c ∈ (g.dim C).values, l =
          [a, h, b, c] := by
      intro l
      simp only [image, op.image, map_cons, map_nil, look, Shape.choices, mem_flatMap, mem_map,
        mem_singleton]
      grind
    simp only [choice, range_succ, range_zero, nil_append, cons_append, forall₂_cons_left_iff,
      forall₂_nil_left_iff] at axes
    obtain ⟨N', _, -, ⟨H', _, ⟨wfH, height⟩, ⟨W', _, ⟨wfW, width⟩, ⟨C', _, -, rfl, rfl⟩, rfl⟩, rfl⟩,
      rfl⟩ := axes
    have some (e : DimId) (he : e ∈ [N, H, W, C]) := (wf e he).lower_mem
    refine ⟨N', H', W', C', rfl, ends_eq (wf H (by simp)) wfH (listedSize_mono pos) fun n =>
      (height n).trans ⟨?_, ?_⟩, ends_eq (wf W (by simp)) wfW (listedSize_mono pos) fun n =>
      (width n).trans ⟨?_, ?_⟩⟩
    · rintro ⟨_, ⟨a, -, h, hh, b, -, c, -, rfl⟩, rfl⟩
      exact ⟨h, hh, rfl⟩
    · rintro ⟨h, hh, rfl⟩
      exact ⟨_, ⟨_, some N (by simp), h, hh, _, some W (by simp), _, some C (by simp), rfl⟩, rfl⟩
    · rintro ⟨_, ⟨a, -, h, -, b, hb, c, -, rfl⟩, rfl⟩
      exact ⟨b, hb, rfl⟩
    · rintro ⟨b, hb, rfl⟩
      exact ⟨_, ⟨_, some N (by simp), _, some H (by simp), b, hb, _, some C (by simp), rfl⟩, rfl⟩
  · obtain _ | ⟨n, _ | ⟨h, _ | ⟨b, _ | ⟨c, l⟩⟩⟩⟩ := l
    iterate 4 cases answer
    change (channelsFit c cw (((g₁.op o).param? "group").getD .none) >>= fun fits =>
      if (!fits) = true then .error .convChannels
      else outSize false ⟨.int s, .int p, .int d⟩ h kh >>= fun height =>
        outSize false ⟨.int s, .int p, .int d⟩ b kw >>= fun width => .ok [n, height, width, co]) =
          .ok y at answer
    rw [outSize_eq pos, outSize_eq pos] at answer
    generalize channelsFit c cw _ = fits at answer
    obtain _ | _ | _ := fits
    · cases answer
    · cases answer
    · exact (Except.ok.inj answer).symm

/-- At run time the sizes of the result are no less than zero and within the bounds of the inferred
shape, for all sizes that the image may have, exactly if the kernel fits. -/
theorem runTimeSizes_fit_iff (pos : 0 < s) {N H W C : DimId}
    (op : Convolves g o x w [N, H, W, C] [co, kh, kw, cw] s p d)
    (wf : ∀ e ∈ [N, H, W, C], (g.dim e).WellFormed) (run : resultShape o x w g = .ok shape g') :
    ∃ N' H' W' C', shape = [N', H', W', C'] ∧
    ((∀ n h b c co, (g.dim H).Admits h → (g.dim W).Admits b →
      let sizes := runTimeSizes false (.ofSizes n h b c co kh kw s d p)
      0 ≤ sizes.1 ∧ (g'.dim H').Admits sizes.1 ∧ 0 ≤ sizes.2 ∧ (g'.dim W').Admits sizes.2) ↔
        Fits s p d kh (g.dim H) ∧ Fits s p d kw (g.dim W)) := by
  obtain ⟨N', H', W', C', rfl, ⟨low, high⟩, low', high'⟩ := resultShape_ok pos op wf run
  have wfH := wf H (by simp)
  have wfW := wf W (by simp)
  refine ⟨N', H', W', C', rfl, ?_⟩
  rw [← fits_iff pos wfH low high, ← fits_iff pos wfW low' high']
  simp only [runTimeSizes_eq]
  refine ⟨fun all => ⟨fun h hh => ?_, fun b hb => ?_⟩, fun both n h b c co hh hb => ?_⟩
  · have here := all 0 h _ 0 0 hh wfW.admits_lower
    exact ⟨here.1, here.2.1⟩
  · exact (all 0 _ b 0 0 wfH.admits_lower hb).2.2
  · exact ⟨(both.1 h hh).1, (both.1 h hh).2, both.2 b hb⟩

/-- A kernel of three by three places on an image of two by two places, in steps of two places. -/
def smallImage : Arena where
  dims := #[.static 1, .static 2, .static 8, .static 3]
  tensors := #[.ofShape [⟨0⟩, ⟨1⟩, ⟨1⟩, ⟨2⟩], .ofShape [⟨2⟩, ⟨3⟩, ⟨3⟩, ⟨2⟩]]
  ops := #[{ Operator.ofClass .conv2d "conv2d" with
    params := [("stride", .int 2), ("pad", .int 0), ("dilate", .int 1), ("group", .int 1)] }]
  namer := ⟨0, 0, [], []⟩
  target := none

theorem runTimeSizes_fit_iff_smallImage : ∃ N' H' W' C' g', resultShape ⟨0⟩ ⟨0⟩ ⟨1⟩ smallImage =
    .ok [N', H', W', C'] g' ∧ ¬∀ n h b c co, (Dim.static 2).Admits h → (Dim.static 2).Admits b →
      let sizes := runTimeSizes false (.ofSizes n h b c co 3 3 2 1 0)
      0 ≤ sizes.1 ∧ (g'.dim H').Admits sizes.1 ∧ 0 ≤ sizes.2 ∧ (g'.dim W').Admits sizes.2 := by
  have op : Convolves smallImage ⟨0⟩ ⟨0⟩ ⟨1⟩ [⟨0⟩, ⟨1⟩, ⟨1⟩, ⟨2⟩] [8, 3, 3, 8] 2 0 1 :=
    ⟨rfl, rfl, rfl, rfl, rfl, rfl⟩
  obtain ⟨shape, g', run⟩ : ∃ shape g', resultShape ⟨0⟩ ⟨0⟩ ⟨1⟩ smallImage = .ok shape g' :=
    ⟨_, _, rfl⟩
  obtain ⟨N', H', W', C', rfl, fits⟩ := runTimeSizes_fit_iff (by decide) op (by decide) run
  exact ⟨N', H', W', C', g', run, fun all => absurd (fits.1 all).1.2 (by decide)⟩

end TensorGraph.Conv

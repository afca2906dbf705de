import TensorGraph.Proofs.Addresses
import TensorGraph.Proofs.Extensions
import TensorGraph.Proofs.Redirecting

/-!
# Splitting and joining

A split cuts an axis into parts of fixed sizes.
-/

namespace TensorGraph

open Build List

variable {g g' h : Arena} {x : TensorId} {ys : List TensorId} {o : OpId} {es s : List DimId}
  {dim n part size : Int}
  {ns : List Int} {d : Dim} {v : Value} {i k : Nat} {shapes : List (List DimId)} {dtype : String}

variable {ds : List Dim} {e : DimId} {y : TensorId}

/-! ## Rounded quotients -/

namespace Number

variable {a b : Nat}

theorem roundDiv_bounds (a b : Nat) : a / b ≤ Decimal.roundDiv a b ∧
    2 * (Decimal.roundDiv a b * b) ≤ 2 * a + b := by
  have split := Nat.div_add_mod a b
  unfold Decimal.roundDiv
  dsimp only
  generalize a / b = k at split ⊢
  generalize a % b = r at split ⊢
  have even : k % 2 ≤ 1 := by omega
  split_ifs with less more
  · exact ⟨Nat.le_refl k, by nlinarith⟩
  · exact ⟨Nat.le_succ k, by nlinarith⟩
  · exact ⟨Nat.le_add_right k _, by nlinarith⟩

theorem roundDiv_lt {m : Nat} (h : 2 * a + b < 2 * (m * b)) : Decimal.roundDiv a b < m := by
  obtain ⟨-, near⟩ := roundDiv_bounds a b
  have : Decimal.roundDiv a b * b < m * b := by omega
  exact Nat.lt_of_mul_lt_mul_right this

theorem roundedDiv_eq {digits up : Nat} (small : a / b < 2 ^ 53) (hd : Nat.log2 (a / b) = digits)
    (hu : (if a < b then 53 else 52 - digits) = up) : roundedDiv a b = Decimal.roundDiv
    (a * 2 ^ up) b / 2 ^ up := by
  have few : digits ≤ 52 := by
    rw [← hd]
    by_cases zero : a / b = 0
    · rw [zero]
      decide
    · have := (Nat.log2_lt zero).2 small
      omega
  unfold roundedDiv
  simp_all

theorem roundedDiv_exact (pos : 0 < b) (h : a < 2 ^ 53) : roundedDiv a b = a / b := by
  have small : a / b < 2 ^ 53 := Nat.lt_of_le_of_lt (Nat.div_le_self a b) h
  rw [roundedDiv_eq small rfl rfl]
  generalize hu : 2 ^ (if a < b then 53 else 52 - Nat.log2 (a / b)) = up
  have up_pos : 0 < up := by
    rw [← hu]
    positivity
  have below : a < (a / b + 1) * b := by
    rw [Nat.mul_comm]
    exact Nat.lt_mul_div_succ a pos
  -- the next whole number is further away than rounding goes
  have room : 2 * (a * up) + b < 2 * ((a / b + 1) * up * b) := by
    by_cases less : a < b
    · grind
    · rw [if_neg less] at hu
      have some : a / b ≠ 0 := (Nat.div_pos (by omega) pos).ne'
      have digits : Nat.log2 (a / b) ≤ 52 := by
        have := (Nat.log2_lt some).2 small
        omega
      have short : b < 2 * up := by
        have whole : 2 ^ Nat.log2 (a / b) * (2 * up) = 2 ^ 53 := by
          rw [← hu, ← pow_succ', ← pow_add]
          congr 1
          omega
        refine Nat.lt_of_mul_lt_mul_left (a := 2 ^ Nat.log2 (a / b)) ?_
        calc 2 ^ Nat.log2 (a / b) * b ≤ a / b * b := Nat.mul_le_mul_right b (Nat.log2_self_le some)
          _ ≤ a := Nat.div_mul_le_self a b
          _ < 2 ^ Nat.log2 (a / b) * (2 * up) := by rw [whole]; exact h
      calc 2 * (a * up) + b < 2 * ((a + 1) * up) := by rw [Nat.add_mul]; omega
        _ ≤ 2 * ((a / b + 1) * b * up) := Nat.mul_le_mul_left 2 (Nat.mul_le_mul_right up below)
        _ = 2 * ((a / b + 1) * up * b) := by ring
  refine Nat.div_eq_of_lt_le ?_ (roundDiv_lt room)
  refine Nat.le_trans ?_ (roundDiv_bounds (a * up) b).1
  rw [Nat.le_div_iff_mul_le pos]
  calc a / b * up * b = a / b * b * up := by ring
    _ ≤ a * up := Nat.mul_le_mul_right up (Nat.div_mul_le_self a b)

theorem roundedDiv_le_one (pos : 0 < b) (h : a ≤ b) : roundedDiv a b ≤ 1 := by
  have one : a / b ≤ 1 := Nat.div_le_of_le_mul (by omega)
  rw [roundedDiv_eq (Nat.lt_of_le_of_lt one (by decide)) rfl rfl]
  generalize (if a < b then 53 else 52 - Nat.log2 (a / b)) = up
  have up_pos : 0 < 2 ^ up := by positivity
  have room : 2 * (a * 2 ^ up) + b < 2 * ((2 ^ up + 1) * b) := by
    nlinarith [Nat.mul_le_mul_right (2 ^ up) h]
  have := roundDiv_lt room
  refine Nat.div_le_of_le_mul ?_
  omega

end Number

namespace Split

variable {r : Request} {vs : List Value} {h' : Arena} {α β : Type}

/-! ## Equal parts -/

theorem partCount_exact (pos : 0 < part) (some : 0 < size) (h : size + part ≤ 2 ^ 53) :
    partCount size part = (size + part - 1) / part := by
  obtain ⟨a, ha⟩ := Int.eq_ofNat_of_zero_le (show 0 ≤ size + part - 1 by omega)
  obtain ⟨b, rfl⟩ := Int.eq_ofNat_of_zero_le (show 0 ≤ part by omega)
  unfold partCount Number.truncDiv
  rw [ha, Int.sign_eq_one_of_pos (by omega), Int.sign_eq_one_of_pos pos,
    Number.roundedDiv_exact (by omega) (by omega)]
  simp

theorem partCount_le_one (neg : part < 0) (some : 0 < size) : partCount size part ≤ 1 := by
  unfold partCount Number.truncDiv
  grind [Int.sign_eq_neg_one_of_neg, lt_trichotomy, Number.roundedDiv_le_one,
    Int.sign_eq_one_of_pos]

theorem equalSizes?_ok (h : equalSizes? size part = .ok ns) : size = 0 ∧ ns = [0] ∨ size ≠ 0 ∧
    0 < partCount size part ∧
      ns = replicate ((partCount size part).toNat - 1) part ++
        [part - (part * partCount size part - size)] := by
  unfold equalSizes? at h
  split at h
  · grind
  grind

theorem equalSizes?_nonneg_iff (nonneg : 0 ≤ size) (h : equalSizes? size part = .ok ns) :
    (∀ n ∈ ns, 0 ≤ n) ↔ size = 0 ∨ part * (partCount size part - 1) ≤ size := by
  obtain ⟨rfl, rfl⟩ | ⟨some, count, rfl⟩ := equalSizes?_ok h
  · simp
  have last : part - (part * partCount size part - size) = size -
    part * (partCount size part - 1) := by ring
  constructor
  · intro all
    have := all _ (mem_append_right _ (mem_singleton.2 rfl))
    exact .inr (by omega)
  · rintro (zero | fit) n hn
    · exact absurd zero some
    rcases mem_append.1 hn with first | last
    · obtain ⟨many, rfl⟩ := mem_replicate.1 first
      by_contra neg
      have := partCount_le_one (show n < 0 by omega) (show 0 < size by omega)
      omega
    · rw [mem_singleton.1 last]
      omega

/-! ## What is asked for -/

def Fits (d : Dim) : Request → Prop
  | .sizes vs => d.lower = d.upper ∧ ∀ v ∈ vs, ∀ n, v.int? = some n → 0 ≤ n
  | .each v => ∀ part, v.int? = some part → d.value = 0 ∨ part * (partCount d.value part -
    1) ≤ d.value

def Asked (d : Dim) (ns : List Int) : Request → Prop
  | .sizes vs => Forall₂ (fun v n => v.int? = some n) vs ns
  | .each v => ∃ part, v.int? = some part ∧ d.isStatic = true ∧ equalSizes? d.value part = .ok ns

theorem fits_iff (wf : d.WellFormed) (nonneg : 0 ≤ d.lower) (asked : Asked d ns r)
    (sum : ns.sum = d.value) : ((∀ n ∈ ns, 0 ≤ n) ∧ ∀ m, d.Admits m → ns.sum = m) ↔ Fits d r := by
  have first : d.value = d.lower := rfl
  cases r with
  | sizes vs =>
    have members : (∀ n ∈ ns, 0 ≤ n) ↔ ∀ v ∈ vs, ∀ n, v.int? = some n → 0 ≤ n := by
      clear sum
      induction asked with
      | nil => simp
      | cons here _ ih => simp [ih, here]
    refine and_congr members ?_ |>.trans and_comm
    constructor
    · intro all
      have := all d.upper wf.admits_upper
      omega
    · intro one m hm
      have := hm.1
      have := hm.2
      omega
  | each v =>
    obtain ⟨part, int, static, made⟩ := asked
    obtain ⟨n, only⟩ := length_eq_one_iff.1 (wf.fixed static)
    have one : ∀ m, d.Admits m → ns.sum = m := by
      intro m hm
      have low : n ≤ m := by simpa [Dim.lower, only] using hm.1
      have high : m ≤ n := by simpa [Dim.upper, only] using hm.2
      have : d.value = n := by simp [Dim.value, only]
      omega
    rw [and_iff_left one, equalSizes?_nonneg_iff nonneg made]
    constructor
    · intro fit part' int'
      grind
    · exact fun all => all part int

theorem fits_of_small (nonneg : 0 ≤ d.lower) (asked : Asked d ns (.each v))
    (int : v.int? = some part) (small : d.value + part ≤ 2 ^ 53) : Fits d (.each v) := by
  intro part' int'
  obtain rfl := Option.some.inj (int.symm.trans int')
  have nonneg : 0 ≤ d.value := nonneg
  obtain ⟨part', int', -, made⟩ := asked
  obtain rfl := Option.some.inj (int.symm.trans int')
  obtain ⟨zero, -⟩ | ⟨some, count, -⟩ := equalSizes?_ok made
  · exact .inl zero
  right
  by_cases pos : 0 < part
  · rw [partCount_exact pos (by omega) small]
    have := Int.mul_ediv_self_le (x := d.value + part - 1) (k := part) (by omega)
    rw [Int.mul_sub]
    omega
  · have one : part * (partCount d.value part - 1) ≤ 0 := Int.mul_nonpos_of_nonpos_of_nonneg
      (by omega) (by omega)
    omega

theorem addSize?_int {a : Int} (h : v.int? = some n) : addSize? (.int a) v =
    .ok (.int (a + n)) := by
  cases v with
  | int m => rw [addSize?, Option.some.inj (h : some m = some n)]
  | bool b => rw [addSize?, Option.some.inj (h : some _ = some n)]
  | _ => cases h

theorem sumSizes?_ints (h : Forall₂ (fun v n => v.int? = some n) vs ns) :
    sumSizes? vs = .ok (.int ns.sum) := by
  have from_here : ∀ a : Int, vs.foldlM addSize? (.int a) = .ok (.int (a + ns.sum)) := by
    induction h with
    | nil => intro a; simp; rfl
    | @cons v n vs ns here _ ih =>
      intro a
      rw [foldlM_cons, addSize?_int here, sum_cons, ← Int.add_assoc]
      exact ih (a + n)
  rw [sumSizes?, from_here, Int.zero_add]

/-! ## Parts of a tensor -/

/-- An axis of a part has the size of the part where the tensor is split, and elsewhere the sizes
and the name of the axis. -/
def PartAxis (k : Nat) (n : Int) (p : Dim × Nat) (e : Dim) : Prop :=
  if p.2 = k then e.isStatic = true ∧ e.values = [n] else Dim.ofValues?
    (Dim.sortedValues p.1.values) p.1.name = .ok e

def PartShape (g : Arena) (ds : List Dim) (k : Nat) (n : Int) (es : List DimId) : Prop :=
  Forall₂ (fun p e => e.idx < g.dims.size ∧ PartAxis k n p (g.dim e)) ds.zipIdx es

theorem PartShape.extends (more : g.Extends g') (h : PartShape g ds k n es) :
    PartShape g' ds k n es :=
  Forall₂.imp (fun _ e both =>
    ⟨Nat.lt_of_lt_of_le both.1 more.dims, by rw [more.dim e both.1]; exact both.2⟩) h

theorem PartShape.length (h : PartShape g ds k n es) : es.length = ds.length := by
  rw [← Forall₂.length_eq h, length_zipIdx]

theorem here_iff (inside : (s.at? dim).isSome) (lt : i < s.length) :
    ((i : Int) = dim ∨ (i : Int) = dim + s.length) ↔ i = s.clipIdx dim := by
  have cast := Accessor.clipIdx_cast inside
  grind

theorem partShape_ok (inside : (s.at? dim).isSome)
    (known : ∀ d ∈ s, d.idx < g.dims.size) (more : g.Extends h)
    (run : partShape s dim n h = .ok es h') :
    PartShape h' (s.map g.dim) (s.clipIdx dim) n es := by
  have axes := mapM_extends
    (Q := fun h p e => e.idx < h.dims.size ∧ PartAxis (s.clipIdx dim) n (g.dim p.1, p.2) (h.dim e))
      ?_ ?_ run
  · unfold PartShape
    rw [zipIdx_map, forall₂_map_left_iff]
    exact axes
  · intro h h' p e more both
    refine ⟨Nat.lt_of_lt_of_le both.1 more.dims, ?_⟩
    rw [more.dim e both.1]
    exact both.2
  · intro p hp h₁ h₂ e more' run
    have mem : s[p.2]? = some p.1 := mem_zipIdx_iff_getElem?.1 hp
    have same : h₁.dim p.1 = g.dim p.1 := (more.trans more').dim p.1
      (known p.1 (mem_of_getElem? mem))
    have read : Build.dim p.1 h₁ = .ok (g.dim p.1) h₁ := by rw [← same]; rfl
    dsimp only at run
    rw [bind_run read] at run
    obtain ⟨new, made⟩ := dimOfValues_ok run
    refine ⟨new, ?_⟩
    have here := here_iff inside (List.getElem?_eq_some_iff.1 mem).1
    unfold PartAxis
    by_cases at_axis : p.2 = s.clipIdx dim
    · have found : ((p.2 : Int) == dim || (p.2 : Int) == dim + s.length) = true := by
        simpa using here.2 at_axis
      rw [if_pos found] at made
      obtain same := Except.ok.inj (made : Except.ok (Dim.static n _) = _)
      rw [if_pos at_axis, ← same]
      exact ⟨rfl, rfl⟩
    · grind [dim]

instance partShapeOf_extends (s : List DimId) (dim : Int) (v : Value) :
    Within .extends (partShapeOf s dim v) := by
  unfold partShapeOf
  exact .of_parts

theorem partShapeOf_ok (run : partShapeOf s dim v g = .ok es g') : ∃ n, v.int? = some n ∧
    partShape s dim n g = .ok es g' := by
  unfold partShapeOf at run
  cases int : v.int? with
  | none =>
    rw [int] at run
    exact (throw_ok.1 run).elim
  | some n =>
    rw [int] at run
    exact ⟨n, rfl, run⟩

theorem forall₂_right {R : α → β → Prop} {P : β → Prop} {as : List α} {bs : List β}
    (h : Forall₂ R as bs) (hR : ∀ a b, R a b → P b) : ∀ b ∈ bs, P b := by
  induction h with
  | nil => simp
  | cons here _ ih => grind

theorem forall₂_comp {γ : Type} {A : α → β → Prop} {B : β → γ → Prop} {as : List α} {cs : List γ} :
    Forall₂ (fun a c => ∃ b, A a b ∧ B b c) as cs ↔ ∃ bs, Forall₂ A as bs ∧ Forall₂ B bs cs := by
  constructor
  · intro h
    induction h with
    | nil => exact ⟨[], .nil, .nil⟩
    | cons here _ ih =>
      obtain ⟨b, hA, hB⟩ := here
      obtain ⟨bs, all, all'⟩ := ih
      exact ⟨b :: bs, .cons hA all, .cons hB all'⟩
  · rintro ⟨bs, h, h'⟩
    induction h generalizing cs with
    | nil =>
      cases h'
      exact .nil
    | cons hA _ ih =>
      cases h' with
      | cons hB rest => exact .cons ⟨_, hA, hB⟩ (ih rest)

theorem partShapes_ok (known : ∀ d ∈ (h.tensor x).shape, d.idx < g.dims.size) (more : g.Extends h)
    (run : partShapes x vs dim h = .ok shapes h') :
    ∃ d ns, (h.tensor x).shape.at? dim = some d ∧ vs ≠ [] ∧
    Forall₂ (fun v n => v.int? = some n) vs ns ∧
      ns.sum = (g.dim d).value ∧
      Forall₂ (PartShape h' ((h.tensor x).shape.map g.dim) ((h.tensor x).shape.clipIdx dim)) ns
        shapes := by
  unfold partShapes at run
  simp only [bind_ok, require_ok, ofExcept_ok] at run
  obtain ⟨s, _, shown, _, _, ⟨-, rfl⟩, _, _, ⟨-, rfl⟩, _, _, ⟨listed, rfl⟩, d, _, axis, _, _, read,
    sum, _, ⟨added, rfl⟩, _, _, ⟨checked, rfl⟩, run⟩ := run
  obtain ⟨rfl, rfl⟩ := EStateM.Result.ok.inj (shown : EStateM.Result.ok _ _ = _)
  obtain ⟨at_axis, rfl⟩ := expect_ok.1 axis
  obtain ⟨rfl, rfl⟩ := EStateM.Result.ok.inj (read : EStateM.Result.ok _ _ = _)
  have parts := mapM_extends (Q := fun h₁ v es => ∃ n, v.int? = some n ∧
    PartShape h₁ ((h.tensor x).shape.map g.dim) ((h.tensor x).shape.clipIdx dim) n es) ?_ ?_ run
  · obtain ⟨ns, ints, shapes⟩ := forall₂_comp.1 parts
    refine ⟨d, ns, at_axis, by simpa using listed, ints, ?_, shapes⟩
    obtain rfl := Except.ok.inj (added.symm.trans (sumSizes?_ints ints))
    rw [← more.dim d (known d (mem_of_getElem? (Accessor.getElem?_clipIdx at_axis)))]
    exact eq_of_beq checked
  · rintro h₁ h₂ v es grown ⟨n, int, shape⟩
    exact ⟨n, int, shape.extends grown⟩
  · intro v _ h₁ h₂ es grown run
    obtain ⟨n, int, made⟩ := partShapeOf_ok run
    exact ⟨n, int, partShape_ok (by simp [at_axis]) known (more.trans grown) made⟩

/-- A part of a tensor with the given axes and element type. -/
structure IsPart (g : Arena) (ds : List Dim) (dtype : String) (k : Nat) (n : Int) (y : TensorId) :
    Prop where
  known : y.idx < g.tensors.size
  shape : PartShape g ds k n (g.tensor y).shape
  dtype : (g.tensor y).dtype = dtype
  free : (g.tensor y).dst.fixed = false

theorem output_ok (run : output o s dtype g = .ok y g') :
    y.idx < g'.tensors.size ∧ (g'.tensor y).shape = s ∧ (g'.tensor y).dtype = dtype ∧
    (g'.tensor y).dst.fixed = false := by
  unfold output at run
  simp only [bind_ok, op_ok] at run
  obtain ⟨_, _, ⟨rfl, rfl⟩, added⟩ := run
  obtain ⟨rfl, rfl⟩ := EStateM.Result.ok.inj (added : EStateM.Result.ok _ _ = _)
  rw [Arena.tensor_push_new]
  exact ⟨by simp, rfl, rfl, rfl⟩

theorem parts_ok (known : ∀ d ∈ (h.tensor x).shape, d.idx < g.dims.size)
    (x_known : x.idx < h.tensors.size) (more : g.Extends h) (run : (do
      setParam o "split_sizes" (.list vs)
      let shapes ← partShapes x vs dim
      let ys ← shapes.mapM fun s => output o s dtype
      setOutputs o ys
      return ys : Build (List TensorId)) h = .ok ys g') :
    ∃ d ns, (h.tensor x).shape.at? dim = some d ∧ vs ≠ [] ∧
    Forall₂ (fun v n => v.int? = some n) vs ns ∧
      ns.sum = (g.dim d).value ∧
      Forall₂ (IsPart g' ((h.tensor x).shape.map g.dim) dtype ((h.tensor x).shape.clipIdx dim)) ns
        ys := by
  simp only [bind_ok, pure_ok] at run
  obtain ⟨_, h₁, noted, shapes, h₂, shaped, ys, h₃, outputs, _, h₄, set, rfl, rfl⟩ := run
  have noted := Frame.extends.keeps noted
  have set := Frame.extends.keeps set
  have shape : (h₁.tensor x).shape = (h.tensor x).shape := (noted.tensor x x_known).1
  obtain ⟨d, ns, at_axis, listed, ints, sum, parts⟩ := partShapes_ok (by rw [shape]; exact known)
    (more.trans noted) shaped
  rw [shape] at at_axis parts
  refine ⟨d, ns, at_axis, listed, ints, sum, ?_⟩
  have made := mapM_extends (Q := fun h s y => y.idx < h.tensors.size ∧ (h.tensor y).shape = s ∧
    (h.tensor y).dtype = dtype ∧
    (h.tensor y).dst.fixed = false) ?_ (fun _ _ _ _ _ _ run => output_ok run) outputs
  · have later : h₂.Extends h₄ := (Frame.extends.keeps outputs).trans set
    refine (forall₂_comp.2 ⟨shapes, parts, made⟩).imp fun n y part => ?_
    obtain ⟨s, part, new, rfl, type, free⟩ := part
    obtain ⟨shape, dtype⟩ := set.tensor y new
    exact ⟨Nat.lt_of_lt_of_le new
      set.tensors, by rw [shape]; exact part.extends later, dtype.trans type, (set.fixed y
      new).trans free⟩
  · rintro h h' s y more ⟨new, rfl, type, free⟩
    obtain ⟨shape, dtype⟩ := more.tensor y new
    exact ⟨Nat.lt_of_lt_of_le new more.tensors, shape, dtype.trans type,
      (more.fixed y new).trans free⟩

theorem apply_ok (known : x.idx < g.tensors.size)
    (dims_known : ∀ d ∈ (g.tensor x).shape, d.idx < g.dims.size)
    (run : apply o x r dim g = .ok ys g') :
    ∃ i d ns, wrapDim? dim (g.tensor x).rank = .ok i ∧ (g.tensor x).shape.at? i = some d ∧ ns ≠ [] ∧
    ns.sum = (g.dim d).value ∧
      Asked (g.dim d) ns r ∧ Forall₂ (IsPart g' ((g.tensor x).shape.map g.dim) (g.tensor x).dtype
        ((g.tensor x).shape.clipIdx i)) ns ys := by
  unfold apply at run
  simp only [bind_ok, tensor_ok, ofExcept_ok] at run
  obtain ⟨_, _, ⟨rfl, rfl⟩, _, g₁, first, i, _, ⟨wrapped, rfl⟩, _, g₂, second, _, g₃, linked,
    run⟩ := run
  have start : g.Extends g₃ := (Frame.extends.keeps first).trans
    ((Frame.extends.keeps second).trans (Frame.extends.keeps linked))
  have shape : (g₃.tensor x).shape = (g.tensor x).shape := (start.tensor x known).1
  have x_known : x.idx < g₃.tensors.size := Nat.lt_of_lt_of_le known start.tensors
  have dims_known' : ∀ d ∈ (g₃.tensor x).shape, d.idx < g.dims.size := by rwa [shape]
  cases r with
  | sizes vs =>
    obtain ⟨d, ns, at_axis, listed, ints, sum, parts⟩ := parts_ok dims_known' x_known start run
    rw [shape] at at_axis parts
    exact ⟨i, d, ns, wrapped, at_axis, fun none => listed (by simpa [none] using ints), sum,
      ints, parts⟩
  | each v =>
    obtain ⟨part, _, taken, run⟩ := bind_ok.1 run
    obtain ⟨int, rfl⟩ := expect_ok.1 taken
    obtain ⟨d, _, found, run⟩ := bind_ok.1 run
    obtain ⟨at_axis, rfl⟩ := expect_ok.1 found
    obtain ⟨_, _, read, run⟩ := bind_ok.1 run
    obtain ⟨rfl, rfl⟩ := EStateM.Result.ok.inj (read : EStateM.Result.ok _ _ = _)
    obtain ⟨_, _, checked, run⟩ := bind_ok.1 run
    obtain ⟨static, rfl⟩ := require_ok.1 checked
    obtain ⟨ns, _, sized, run⟩ := bind_ok.1 run
    obtain ⟨made, rfl⟩ := ofExcept_ok.1 sized
    have same : g₃.dim d = g.dim d := start.dim d
      (dims_known d (mem_of_getElem? (Accessor.getElem?_clipIdx at_axis)))
    obtain ⟨d', ns', at_axis', listed, ints, sum, parts⟩ := parts_ok dims_known' x_known start run
    obtain rfl : ns' = ns := by
      rw [forall₂_map_left_iff] at ints
      exact (forall₂_eq_eq_eq ▸ ints.imp fun _ _ h => Option.some.inj h : ns = ns').symm
    rw [shape] at at_axis' parts
    obtain rfl := Option.some.inj (at_axis.symm.trans at_axis')
    rw [same] at static made
    exact ⟨i, d, ns', wrapped, at_axis, by simpa using listed, sum, ⟨part, int, static,
      made⟩, parts⟩

end Split

/-! ## Joining the parts -/

theorem MoreDims.extends (more : MoreDims g g') : g.Extends g' := by
  have tensors : g'.tensors = g.tensors := by rw [more.rest]
  have tensor : ∀ t, g'.tensor t = g.tensor t :=
    fun t => by rw [Arena.tensor_eq, tensors, ← Arena.tensor_eq]
  exact ⟨more.size, more.old, Nat.le_of_eq (by rw [tensors]),
    fun t _ => by rw [tensor]; exact ⟨rfl, rfl⟩, fun t _ => by rw [tensor]⟩

namespace Split

theorem PartShape.axis (h : PartShape g ds k n es) (hd : ds[i]? = some d) :
    ∃ e, es[i]? = some e ∧ e.idx < g.dims.size ∧ PartAxis k n (d, i) (g.dim e) := by
  obtain ⟨length, all⟩ := forall₂_iff_get.1 h
  grind [List.getElem?_eq_some_iff, List.length_zipIdx, length]

end Split

namespace Concat

theorem joinAxis_fixed (nonempty : es ≠ [])
    (sizes : Forall₂ (fun n e => (g.dim e).values = [n]) ns es) :
    ∃ e g', joinAxis true es g = .ok e g' ∧ MoreDims g g' ∧ e.idx < g'.dims.size ∧
    (g'.dim e).isStatic = true ∧
      (g'.dim e).values = [ns.sum] := by
  have measured : ∀ f : Dim → Int, (∀ d n, d.values = [n] → f d = n) →
    es.map (fun e => f (g.dim e)) = ns := by
    intro f hf
    clear nonempty
    induction sizes with
    | nil => rfl
    | cons here _ ih => rw [map_cons, hf _ _ here, ih]
  have low : (es.map fun e => (g.dim e).lower).sumInt = ns.sum := by
    rw [Strided.sumInt_eq, measured Dim.lower fun d n only => by rw [Dim.lower, only]; rfl]
  have high : (es.map fun e => (g.dim e).upper).sumInt = ns.sum := by
    rw [Strided.sumInt_eq, measured Dim.upper fun d n only => by rw [Dim.upper, only]; rfl]
  have made : Dim.ofValues? [ns.sum, ns.sum] none = .ok (.static ns.sum) := by
    simp [Dim.ofValues?, distinct]
  refine ⟨⟨g.dims.size⟩, { g with dims := g.dims.push (.static ns.sum) }, ?_,
    .push g _, by simp, ?_⟩
  · cases es with
    | nil => exact absurd rfl nonempty
    | cons e es =>
      unfold joinAxis
      rw [bind_run get_run]
      dsimp only
      rw [low, high]
      unfold dimOfValues
      rw [made]
      rfl
  · rw [Arena.dim_push, if_pos rfl]
    exact ⟨rfl, rfl⟩

theorem joinAxis_same (same : ∀ d ∈ es, g.dim d = g.dim e) :
    joinAxis false (e :: es) g = .ok e g := by
  have equal : ((e :: es).all fun d => (g.dim e).same (g.dim d)) = true := by
    rw [all_eq_true]
    intro d hd
    have : g.dim d = g.dim e := by grind
    rw [this]
    simp [Dim.same]
  unfold joinAxis
  simp_all

open Split

theorem joinAxis_parts (parts : Forall₂ (PartShape g ds k) ns shapes) (nonempty : ns ≠ [])
    (hd : ds[i]? = some d) :
    ∃ e g', joinAxis ((i : Int) == k) (shapes.map fun s => s.getD i default) g = .ok e g' ∧
    MoreDims g g' ∧
      e.idx < g'.dims.size ∧ PartAxis k ns.sum (d, i) (g'.dim e) := by
  have axes : Forall₂ (fun n e => e.idx < g.dims.size ∧ PartAxis k n (d, i) (g.dim e)) ns
      (shapes.map fun s => s.getD i default) := by
    rw [forall₂_map_right_iff]
    refine parts.imp fun _ s part => ?_
    obtain ⟨e, he, axis⟩ := part.axis hd
    grind
  have listed : (shapes.map fun s => s.getD i default) ≠ [] := by
    intro none
    simp_all
  generalize (shapes.map fun s => s.getD i default) = es at axes listed ⊢
  unfold PartAxis at axes ⊢
  by_cases here : i = k
  · simp only [here, if_true] at axes ⊢
    rw [beq_self_eq_true]
    exact joinAxis_fixed listed (axes.imp fun _ _ axis => axis.2.2)
  · simp only [here, if_false] at axes ⊢
    have elsewhere : ((i : Int) == k) = false := by simpa using here
    rw [elsewhere]
    cases axes with
    | nil => exact absurd rfl listed
    | @cons n e ns es first rest =>
      have all := forall₂_right rest fun _ e' axis => Except.ok.inj (axis.2.symm.trans first.2)
      exact ⟨e, g, joinAxis_same all, .refl g, first.1, first.2⟩

theorem joinShapes_parts (parts : Forall₂ (PartShape g ds k) ns shapes) (nonempty : ns ≠ [])
    (inside : k < ds.length) :
    ∃ es g', joinShapes shapes k g = .ok es g' ∧ MoreDims g g' ∧ PartShape g' ds k ns.sum es := by
  have lengths := forall₂_right parts fun _ es part => part.length
  have listed : shapes ≠ [] := by
    intro none
    simp_all
  have rank : (shapes.headD []).length = ds.length := by
    cases shapes with
    | nil => exact absurd rfl listed
    | cons s shapes => exact lengths s mem_cons_self
  obtain ⟨h, ranks, same⟩ := forM_returns (g := g) (l := shapes)
    (f := fun s => require (.concatRanks s.length (shapes.headD []).length)
      (s.length == (shapes.headD []).length)) (· = g)
    (fun s hs h same => ⟨h, require_run (by rw [lengths s hs, rank]; simp), same⟩) rfl
  rw [same] at ranks
  obtain ⟨es, g', run, more, axes⟩ := mapM_dims (g := g) (l := range ds.length)
    (f := fun i : Nat => joinAxis ((i : Int) == k) (shapes.map fun s => s.getD i default))
    (fun i e => ∀ d, ds[i]? = some d → PartAxis k ns.sum (d, i) e) (by
      intro i hi h more
      have hd := getElem?_eq_getElem (mem_range.1 hi)
      obtain ⟨e, h', run, more', new, axis⟩ :=
        joinAxis_parts (parts.imp fun _ _ part => part.extends more.extends) nonempty hd
      grind)
  refine ⟨es, g', ?_, more, ?_⟩
  · have some_axis : ds.length ≠ 0 := by omega
    unfold joinShapes
    simp only [forIn_eq_forM]
    rw [bind_run (require_run (by simpa using listed)),
      bind_run (require_run (by rw [rank]; simpa using some_axis)),
      bind_run (require_run (by rw [rank]; simpa using inside)), bind_run ranks, rank]
    exact run
  · have positions : range ds.length = ds.zipIdx.map (·.2) := by simp [range_eq_range']
    rw [positions, forall₂_map_left_iff] at axes
    have members : ∀ q ∈ ds.zipIdx, ds[q.2]? = some q.1 := fun q hq => mem_zipIdx_iff_getElem?.1 hq
    exact ((forall₂_and_left _ _).2 ⟨members, axes⟩).imp fun q e both =>
      ⟨both.2.1, both.2.2 q.1 both.1⟩

theorem apply_parts (o : OpId)
    {p : Int} (parts : Forall₂ (IsPart g ds dtype k) ns ys) (nonempty : ns ≠ [])
    (inside : k < ds.length) (wrapped : wrapDim? p ds.length = .ok k) :
    ∃ z g', apply o ys p g = .ok z g' ∧ PartShape g' ds k ns.sum (g'.tensor z).shape ∧
    (g'.tensor z).dtype = dtype := by
  have all := forall₂_right parts fun _ y part =>
    (⟨part.known, part.shape.length, part.dtype, part.free⟩ :
    y.idx < g.tensors.size ∧ (g.tensor y).shape.length = ds.length ∧ (g.tensor y).dtype = dtype ∧
      (g.tensor y).dst.fixed = false)
  obtain ⟨first, head⟩ : ∃ y, ys.head? = some y := by
    cases parts with
    | nil => exact absurd rfl nonempty
    | cons _ _ => exact ⟨_, rfl⟩
  obtain ⟨known, rank, type, -⟩ := all first (mem_of_mem_head? head)
  let g₁ := g.modifyOp o fun x => { x with
    inputs := some ys
    inputAccessors := some (ys.map fun t => .ofShape (g.tensor t).shape)
    givenInputs := some ys
    inputMasks := some (ys.map fun _ => true) }
  let g₂ := g₁.modifyOp o (·.setParam "concat_dim" (.int k))
  have inputs : ∀ t ∈ (g₂.op o).inputList, t ∈ ys := by
    intro t ht
    have named := Arena.mem_inputList_modifyOp ht
    rw [Operator.inputList_setParam] at named
    exact Arena.mem_inputList_modifyOp (g := g) named
  obtain ⟨g₃, link⟩ := linkInputs_returns (g := g₂) (o := o) fun t ht => (all t (inputs t ht)).2.2.2
  have more : g.Extends g₃ := (Frame.extends.keeps (modifyOp_run (g := g) o _)).trans
    ((Frame.extends.keeps (modifyOp_run (g := g₁) o _)).trans (Frame.extends.keeps link))
  have shapes : Forall₂ (PartShape g₃ ds k) ns (ys.map fun t => (g.tensor t).shape) := by
    rw [forall₂_map_right_iff]
    exact parts.imp fun _ _ part => part.shape.extends more
  obtain ⟨es, g₄, joined, more', shape⟩ := joinShapes_parts shapes nonempty inside
  obtain ⟨z, g', out, made, type', dims⟩ := soleOutput_run (g := g₄) o es dtype
  refine ⟨z, g', ?_, ?_, type'⟩
  · have here : wrapDim? p (g₁.tensor first).rank = .ok k := by rw [← wrapped, ← rank]; rfl
    have same : (g₄.tensor first).dtype = dtype := by
      rw [((more.trans more'.extends).tensor first known).2, type]
    unfold apply setParam
    rw [bind_run get_run, bind_run (modifyOp_run o _), bind_run (expect_ok.2 ⟨head, rfl⟩),
      bind_run (tensor_run first), bind_run (ofExcept_ok.2 ⟨here, rfl⟩),
      bind_run (modifyOp_run o _), bind_run link, bind_run joined,
      bind_run (tensor_run first), same]
    exact out
  · rw [made]
    exact shape.extends (Frame.extends.keeps out)

end Concat

/-! ## Splitting and joining -/

namespace Split

def HasSize (g : Arena) (k : Nat) (n : Int) (y : TensorId) : Prop :=
  ∃ e, (g.tensor y).shape[k]? = some e ∧ (g.dim e).isStatic = true ∧ (g.dim e).values = [n]

/-- The axes of a shape have the sizes of the axes of another one, and their names except at `k`. -/
def Restores (g : Arena) (s : List DimId) (k : Nat) (g' : Arena) (s' : List DimId) : Prop :=
  s'.length = s.length ∧ ∀ (j : Nat) (d e : DimId), s[j]? = some d → s'[j]? = some e →
    (∀ n, n ∈ (g'.dim e).values ↔ n ∈ (g.dim d).values) ∧ (j ≠ k → (g'.dim e).name = (g.dim d).name)

theorem IsPart.hasSize (part : IsPart g ds dtype k n y) (inside : k < ds.length) :
    HasSize g k n y := by
  obtain ⟨e, he, -, axis⟩ := part.shape.axis (getElem?_eq_getElem inside)
  rw [PartAxis, if_pos rfl] at axis
  exact ⟨e, he, axis⟩

theorem PartShape.restores {d : DimId}
    (shape : PartShape g' (s.map g.dim) k n es) (at_axis : s[k]? = some d)
    (wf : (g.dim d).WellFormed) (whole : ∀ m, (g.dim d).Admits m → n = m) :
    Restores g s k g' es := by
  refine ⟨by rw [shape.length, length_map], fun j d' e hd he => ?_⟩
  obtain ⟨e', he', -, axis⟩ :=
    shape.axis (show (s.map g.dim)[j]? = some (g.dim d') by rw [getElem?_map, hd]; rfl)
  obtain rfl := Option.some.inj (he.symm.trans he')
  unfold PartAxis at axis
  by_cases here : j = k
  · subst here
    obtain rfl := Option.some.inj (at_axis.symm.trans hd)
    rw [if_pos rfl] at axis
    refine ⟨fun m => ?_, fun other => absurd rfl other⟩
    rw [axis.2, mem_singleton]
    constructor
    · rintro rfl
      rw [whole _ wf.admits_lower]
      exact wf.lower_mem
    · exact fun mem => (whole m ⟨wf.lower_le mem, wf.le_upper mem⟩).symm
  · rw [if_neg here] at axis
    obtain ⟨-, members⟩ := Dim.ofValues?_ok axis
    grind [Dim.mem_sortedValues, Dim.ofValues?_name, axis]

/-- **Splitting and joining.** A split that is accepted cuts an axis into parts of fixed sizes.
These are not negative and add up to every size that the axis may have exactly if the parts that
were asked for fit, which equal parts of moderate size always do. -/
theorem split_parts_iff {g g' : Arena} {o : OpId} {x : TensorId} {r : Request} {dim : Int}
    {ys : List TensorId} (known : x.idx < g.tensors.size)
    (sized : ∀ d ∈ (g.tensor x).shape, (g.dim d).WellFormed ∧ 0 ≤ (g.dim d).lower)
    (run : apply o x r dim g = .ok ys g') :
    ∃ (i : Int) (k : Nat) (d : DimId) (sizes : List Int), wrapDim? dim (g.tensor x).rank = .ok i ∧
      (g.tensor x).shape.clipIdx i = k ∧ (g.tensor x).shape[k]? = some d ∧
        Forall₂ (HasSize g' k) sizes ys ∧
      (((∀ n ∈ sizes, 0 ≤ n) ∧ ∀ m, (g.dim d).Admits m → sizes.sum = m) ↔ Fits (g.dim d) r) ∧
      (∀ v part, r = .each v → v.int? = some part → (g.dim d).value + part ≤ 2 ^ 53 →
        Fits (g.dim d) r) ∧
      (Fits (g.dim d) r → ∀ o' p, wrapDim? p (g.tensor x).rank = .ok k →
        ∃ z g'', Concat.apply o' ys p g' = .ok z g'' ∧ Restores g (g.tensor x).shape k g''
        (g''.tensor z).shape ∧ (g''.tensor z).dtype = (g.tensor x).dtype) := by
  obtain ⟨i, d, ns, wrapped, axis, nonempty, sum, asked, parts⟩ :=
    apply_ok known (fun d hd => Arena.lt_of_wellFormed (sized d hd).1) run
  have at_axis := Accessor.getElem?_clipIdx axis
  obtain ⟨wf, nonneg⟩ := sized d (mem_of_getElem? at_axis)
  have inside : (g.tensor x).shape.clipIdx i < ((g.tensor x).shape.map g.dim).length := by
    rw [length_map]
    exact (List.getElem?_eq_some_iff.1 at_axis).1
  have fits := fits_iff wf nonneg asked sum
  refine ⟨i, _, d, ns, wrapped, rfl, at_axis, parts.imp fun _ _ part => part.hasSize inside,
    fits, ?_, ?_⟩
  · rintro v part rfl int small
    exact fits_of_small nonneg asked int small
  · intro fit o' p wrapped'
    obtain ⟨z, g'', joined, shape, dtype⟩ := Concat.apply_parts o' parts nonempty inside
      (by rw [length_map]; exact wrapped')
    exact ⟨z, g'', joined, shape.restores at_axis wf (fits.2 fit).2, dtype⟩

/-- A tensor with axes of 5 and 8 elements and one with an axis of 2 to 4, a split and a
concatenation. -/
def splitArena : Arena where
  dims := #[.static 5, .static 8, ⟨false, [2, 4], some "n"⟩]
  tensors := #[.ofShape [⟨0⟩, ⟨1⟩], .ofShape [⟨2⟩]]
  ops := #[.ofClass .split "split", .ofClass .concatenate "concatenate"]
  namer := ⟨0, 0, [], []⟩
  target := none

/-- Eight elements are cut into parts of three, and put together again.  Two parts of one element
each are accepted for an axis that may have more. -/
theorem split_parts_iff_rows :
    (∃ ys g' sizes, apply ⟨0⟩ ⟨0⟩ (.each (.int 3)) (-1) splitArena = .ok ys g' ∧
      Forall₂ (HasSize g' 1) sizes ys ∧ (∀ n ∈ sizes, 0 ≤ n) ∧ sizes.sum = 8 ∧
      ∃ z g'', Concat.apply ⟨1⟩ ys (-1) g' = .ok z g'' ∧
      Restores splitArena [⟨0⟩, ⟨1⟩] 1 g'' (g''.tensor z).shape) ∧
    ∃ ys g' sizes, apply ⟨0⟩ ⟨1⟩ (.sizes [.int 1, .int 1]) 0 splitArena = .ok ys g' ∧
    Forall₂ (HasSize g' 0) sizes ys ∧
    ¬ ((∀ n ∈ sizes, 0 ≤ n) ∧ ∀ m, (splitArena.dim ⟨2⟩).Admits m → sizes.sum = m) := by
  constructor
  · have returns : (EStateM.run' (apply ⟨0⟩ ⟨0⟩ (.each (.int 3)) (-1)) splitArena).isSome =
      true := by decide
    cases run : apply ⟨0⟩ ⟨0⟩ (.each (.int 3)) (-1) splitArena with
    | error => simp [EStateM.run', EStateM.run, run] at returns
    | ok ys g' =>
      obtain ⟨i, k, d, sizes, wrapped, clipped, axis, parts, fits, small, joins⟩ :=
        split_parts_iff (by decide) (by decide) run
      obtain rfl := Except.ok.inj (wrapped : Except.ok (1 : Int) = _)
      obtain rfl : 1 = k := clipped
      obtain rfl := Option.some.inj (axis : some (⟨1⟩ : DimId) = _)
      have fit := small (.int 3) 3 rfl rfl (by decide)
      obtain ⟨nonneg, sum⟩ := fits.2 fit
      obtain ⟨z, g'', joined, shape, -⟩ := joins fit ⟨1⟩ (-1) rfl
      exact ⟨ys, g', sizes, rfl, parts, nonneg, sum 8 ⟨by decide, by decide⟩, z, g'', joined, shape⟩
  · have returns : (EStateM.run' (apply ⟨0⟩ ⟨1⟩ (.sizes [.int 1, .int 1]) 0) splitArena).isSome =
      true := by decide
    cases run : apply ⟨0⟩ ⟨1⟩ (.sizes [.int 1, .int 1]) 0 splitArena with
    | error => simp [EStateM.run', EStateM.run, run] at returns
    | ok ys g' =>
      obtain ⟨i, k, d, sizes, wrapped, clipped, axis, parts, fits, -, -⟩ :=
        split_parts_iff (by decide) (by decide) run
      obtain rfl := Except.ok.inj (wrapped : Except.ok (0 : Int) = _)
      obtain rfl : 0 = k := clipped
      obtain rfl := Option.some.inj (axis : some (⟨2⟩ : DimId) = _)
      refine ⟨ys, g', sizes, rfl, parts, fun right => ?_⟩
      exact absurd (fits.1 right).1 (by decide)

end Split

end TensorGraph

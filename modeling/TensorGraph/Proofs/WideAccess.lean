import TensorGraph.Kernel.Elementwise
import TensorGraph.Proofs.BroadcastIndex

/-!
# Access to several elements at once

A kernel moves `w` neighbouring elements at once, where `w` is 1, 2, 4 or 8.
-/

namespace TensorGraph

open List

variable {w j : Nat}

namespace Accessor

def Allows (w : Int) (a : Accessor) : Prop :=
  w ∣ a.offset ∧ (a.isContiguous = false → ∃ row stored, a.seenTotal = some row ∧
    a.storedTotal = some stored ∧ w ∣ row ∧ w ∣ stored)

/-- `w` elements, of which `number` says the places in the tensor, lie side by side in the stored
one, from a multiple of `w` on. -/
def Aligned (w : Nat) (a : Accessor) (number : Nat → Nat) : Prop :=
  ∃ base : Int, (w : Int) ∣ base ∧ ∀ j < w, a.address? 1 (number j) = some (base + j)

theorem block_div {r : Nat} (divides : w ∣ r) (low : j < w) (k : Nat) :
    (k * w + j) / r = k * w / r ∧ (k * w + j) % r = k * w % r + j := by
  obtain ⟨c, rfl⟩ := divides
  rcases Nat.eq_zero_or_pos c with rfl | pos
  · simp
  · have step : (k * w + j) / w = k := by rw [Nat.mul_comm, Nat.mul_add_div (by omega),
      Nat.div_eq_of_lt low, Nat.add_zero]
    have front : k * w / w = k := Nat.mul_div_cancel _ (by omega)
    have quotient : (k * w + j) / (w * c) = k * w / (w * c) := by
      rw [← Nat.div_div_eq_div_mul, ← Nat.div_div_eq_div_mul, step, front]
    grind [Nat.div_add_mod]

theorem block_tdiv {row : Int} (divides : (w : Int) ∣ row) (low : j < w) (k : Nat) :
    ((k * w + j : Nat) : Int).tdiv row = ((k * w : Nat) : Int).tdiv row ∧
      ((k * w + j : Nat) : Int).tmod row = ((k * w : Nat) : Int).tmod row + j := by
  obtain ⟨r, rfl | rfl⟩ := row.eq_nat_or_neg
  all_goals
    obtain ⟨quotient, rest⟩ := block_div (by simpa [Int.natCast_dvd_natCast] using divides) low k
    simp only [Int.tdiv_neg, Int.tmod_neg, ← Int.ofNat_tdiv, ← Int.ofNat_tmod, quotient, rest,
      true_and]
    rfl

theorem Allows.aligned {a : Accessor} (allows : Allows w a) (k : Nat) : Aligned w a fun j =>
    k * w + j := by
  unfold Aligned address?
  cases contiguous : a.isContiguous with
  | true =>
    refine ⟨a.offset + k * w, (Int.dvd_add_right allows.1).2 (Dvd.intro_left _ rfl), fun j _ => ?_⟩
    simp [add_assoc]
  | false =>
    obtain ⟨row, stored, seen, total, divides, divides'⟩ := allows.2 contiguous
    refine ⟨((k * w : Nat) : Int).tdiv row * stored + ((k * w : Nat) : Int).tmod row + a.offset, ?_,
      fun j low => ?_⟩
    · have rest : (w : Int) ∣ ((k * w : Nat) : Int).tmod row := by
        simp_all [Int.tmod_def, Int.dvd_sub, dvd_mul_of_dvd_left]
      exact dvd_add (dvd_add (dvd_mul_of_dvd_right divides' _) rest) allows.1
    · obtain ⟨quotient, rest⟩ := block_tdiv divides low k
      simp only [seen, total, Bool.false_eq_true, if_false, Option.bind_eq_bind, Option.bind_some,
        mul_one, quotient, rest]
      exact congrArg some (by ring)

/-! ## Widths -/

theorem widthOf_spec (n : Int) : widthOf n ∈ widths ∧ widthOf n ∣ n := by
  unfold widthOf
  cases found : widths.find? fun w => n % w == 0 with
  | none => exact ⟨by decide, one_dvd n⟩
  | some w => exact ⟨mem_of_find?_eq_some found,
    Int.dvd_of_emod_eq_zero (by simpa using find?_some found)⟩

theorem min_dvd : ∀ v ∈ widths, ∀ w ∈ widths, min v w ∈ widths ∧ min v w ∣ v ∧ min v w ∣
    w := by decide

theorem Allows.of_dvd {v u : Int} {a : Accessor} (allows : Allows v a) (divides : u ∣ v) :
    Allows u a := by
  refine ⟨divides.trans allows.1, fun apart => ?_⟩
  obtain ⟨row, stored, seen, total, h, h'⟩ := allows.2 apart
  exact ⟨row, stored, seen, total, divides.trans h, divides.trans h'⟩

theorem width?_spec {a : Accessor} {v : Int} (run : a.width? = some v) : v ∈ widths ∧
    Allows v a := by
  unfold width? at run
  split at run
  · next contiguous =>
    obtain rfl := Option.some.inj run
    exact ⟨(widthOf_spec _).1, (widthOf_spec _).2, by simp [contiguous]⟩
  · simp only [Option.bind_eq_bind, Option.bind_eq_some_iff] at run
    obtain ⟨row, seen, stored, total, run⟩ := run
    obtain rfl := Option.some.inj run
    obtain ⟨mem, left, right⟩ := min_dvd _ (widthOf_spec a.offset).1 _ (widthOf_spec row).1
    obtain ⟨mem', left', right'⟩ := min_dvd _ mem _ (widthOf_spec stored).1
    exact ⟨mem', (left'.trans left).trans (widthOf_spec _).2, fun _ => ⟨row, stored, seen, total,
      (left'.trans right).trans (widthOf_spec _).2, right'.trans (widthOf_spec _).2⟩⟩

theorem foldlM_width?_spec {as : List Accessor} {u v : Int} (mem : u ∈ widths)
    (run : as.foldlM (fun w a => a.width?.map (min w)) u = some v) : v ∈ widths ∧ v ∣ u ∧
    ∀ a ∈ as, Allows v a := by
  induction as generalizing u with
  | nil => grind [Option.some.inj, dvd_rfl]
  | cons a as ih =>
    rw [foldlM_cons] at run
    obtain ⟨m, first, rest⟩ := Option.bind_eq_some_iff.1 run
    obtain ⟨x, own, rfl⟩ := Option.map_eq_some_iff.1 first
    obtain ⟨memX, allows⟩ := width?_spec own
    obtain ⟨mem', left, right⟩ := min_dvd u mem x memX
    obtain ⟨mem, divides, all⟩ := ih mem' rest
    exact ⟨mem, divides.trans left, forall_mem_cons.2 ⟨allows.of_dvd (divides.trans right), all⟩⟩

theorem widthFor?_spec {elements v : Int} {as : List Accessor}
    (run : widthFor? elements as = some v) :
    v ∈ widths ∧ v ∣ elements ∧ ∀ a ∈ as, Allows v a := by
  unfold widthFor? commonWidth? at run
  obtain ⟨x, common, rfl⟩ := Option.map_eq_some_iff.1 run
  obtain ⟨mem, -, all⟩ := foldlM_width?_spec (by decide) common
  obtain ⟨mem', left, right⟩ := min_dvd _ (widthOf_spec elements).1 _ mem
  exact ⟨mem', left.trans (widthOf_spec _).2, fun a ha => (all a ha).of_dvd right⟩

end Accessor

namespace Kernel

open Accessor (widths Allows Aligned)

variable {env : String → Int} {operand result : List Dim} {ms ns cs : List Nat} {i : Nat}

/-! ## The end of an operand -/

def EndAlike (ms ns cs : List Nat) : Prop := ∃ ps qs, ms = ps ++ cs ∧ ns = qs ++ cs ∧
    ps.length = qs.length

theorem repeated_self (low : i < cs.prod) : repeated cs cs i = i := by
  induction cs generalizing i with
  | nil => simpa [repeated, eq_comm] using low
  | cons c cs ih =>
    rw [prod_cons] at low
    have pos : 0 < cs.prod := Nat.pos_of_ne_zero fun zero => by simp [zero] at low
    rw [repeated, ih (Nat.mod_lt _ pos)]
    split
    · next one => rw [Nat.mod_eq_of_lt (by simpa [one] using low), Nat.zero_mul, Nat.zero_add]
    · exact Nat.div_add_mod' ..

theorem repeated_append (length : ms.length = ns.length) (low : i < (ns ++ cs).prod) :
    repeated (ms ++ cs) (ns ++ cs) i = repeated ms ns (i / cs.prod) * cs.prod + i % cs.prod := by
  induction ms generalizing ns i with
  | nil =>
    obtain rfl := length_eq_zero_iff.1 length.symm
    rw [nil_append] at low ⊢
    rw [repeated_self low, Nat.mod_eq_of_lt low]
    simp [repeated]
  | cons m ms ih =>
    cases ns with
    | nil => simp at length
    | cons n ns =>
      rw [cons_append, prod_cons] at low
      have pos : 0 < (ns ++ cs).prod := Nat.pos_of_ne_zero fun zero => by simp [zero] at low
      rw [cons_append, cons_append, repeated, ih (by simpa using length) (Nat.mod_lt _ pos),
        repeated, prod_append, prod_append, Nat.mul_comm ns.prod, Nat.mod_mul_right_mod,
        Nat.mod_mul_right_div_self,
        Nat.div_div_eq_div_mul]
      ring

theorem EndAlike.block (alike : EndAlike ms ns cs) (divides : w ∣ cs.prod) {k : Nat}
    (low : k < ns.prod / w) :
    ∃ q, ∀ j < w, repeated ms ns (k * w + j) = q * w + j := by
  obtain ⟨ps, qs, rfl, rfl, length⟩ := alike
  obtain ⟨c, count⟩ := divides
  obtain ⟨u, inside⟩ : w ∣ k * w % cs.prod := (Nat.dvd_mod_iff ⟨c, count⟩).2 (Nat.dvd_mul_left _ _)
  refine ⟨repeated ps qs (k * w / cs.prod) * c + u, fun j small => ?_⟩
  obtain ⟨quotient, rest⟩ := Accessor.block_div ⟨c, count⟩ small k
  have bound : k * w + j < (qs ++ cs).prod := by
    have := Nat.mul_le_mul_right w (Nat.succ_le_of_lt low)
    have := Nat.div_mul_le_self (qs ++ cs).prod w
    rw [Nat.succ_mul] at *
    omega
  grind [repeated_append]

/-! ## The elements that are not repeated -/

def extend (operand result : List Dim) : List Dim := replicate (result.length - operand.length)
    (.static 1) ++ operand

def sizes (env : String → Int) (ds : List Dim) : List Nat := ds.map (sizeAt env)

theorem sizeAt_static {d : Dim} (static : d.isStatic) : sizeAt env d = d.value.toNat := by
  simp [sizeAt, dimExpr, static, Code.IntExpr.eval]

theorem sizeAt_same {x y : Dim} (same : x.same y) :
    sizeAt env x = sizeAt env y := by rw [sizeAt, dimExpr_same same, sizeAt]

theorem trailingProduct_spec {ds : List Dim} (count : Int) (positive : ∀ d ∈ ds, 0 < sizeAt env d) :
    ∃ zs, zs <:+ ds ∧ zs.length ≤ count.toNat ∧ Shape.trailingProduct ds count =
    (sizes env zs).prod := by
  set zs := (ds.reverse.take count.toNat).takeWhile (·.isStatic) with hz
  have start : zs <+: ds.reverse := ( takeWhile_prefix _).trans ( take_prefix _ _)
  refine ⟨zs.reverse, by simpa using reverse_suffix.2 start, ?_, ?_⟩
  · grind [ takeWhile_prefix, length_take_le]
  · have value : ∀ d ∈ zs, ((sizeAt env d : Nat) : Int) = d.value := by
      grind [sizeAt, sizeAt_static, mem_takeWhile_imp]
    have product : ∀ (zs : List Dim) (n : Int), (∀ d ∈ zs, ((sizeAt env d : Nat) : Int) = d.value) →
        zs.foldl (fun n d => n * d.value) n = n * (sizes env zs).prod := by
      intro zs
      induction zs with
      | nil => simp [sizes]
      | cons d zs ih =>
        intro n value
        obtain ⟨first, rest⟩ := forall_mem_cons.1 value
        rw [foldl_cons, ih _ rest, ← first, sizes, sizes, map_cons, prod_cons, Nat.cast_mul,
          mul_assoc]
    rw [Shape.trailingProduct, ← hz, product zs 1 value, one_mul, sizes, sizes, map_reverse,
      prod_reverse]

theorem keptAxes_spec {rank : Nat} {extended : List Dim} (length : extended.length = result.length)
    (low : rank ≤ extended.length) :
    ∃ front back, extended.zip result = front ++ back ∧ (∀ p ∈ back, p.1.same p.2) ∧
      (keptAxes rank extended result).toNat ≤ back.length := by
  unfold keptAxes
  rw [getLast?_eq_head?_reverse, ← filter_reverse, head?_filter]
  generalize found : find? _ (extended.zip result).zipIdx.reverse = last
  cases last with
  | none =>
    refine ⟨[], extended.zip result, rfl, fun p hp => ?_, by simp [← length]; omega⟩
    obtain ⟨i, bound, at_⟩ := getElem_of_mem hp
    have mem : (p, i) ∈ (extended.zip result).zipIdx.reverse :=
      List.mem_reverse.2 (List.mem_zipIdx_iff_getElem?.2 (List.getElem?_eq_some_iff.2 ⟨bound, at_⟩))
    simpa using find?_eq_none.1 found _ mem
  | some p =>
    obtain ⟨-, before, behind, split, same⟩ := find?_eq_some_iff_append.1 found
    have pairs : (extended.zip result).zipIdx = behind.reverse ++ p :: before.reverse := by
      simpa using congrArg reverse split
    have zip :
        extended.zip result = (behind.reverse ++ [p]).map (·.1) ++ before.reverse.map (·.1) := by
      rw [← map_append, append_assoc, singleton_append, ← pairs, zipIdx_map_fst]
    have place : p.2 = behind.length := by
      have at_ : (behind.reverse ++ p :: before.reverse)[behind.length]? = some p := by
        rw [getElem?_append_right (by simp)]
        simp
      rw [← pairs, getElem?_zipIdx] at at_
      obtain ⟨_, -, rfl⟩ := Option.map_eq_some_iff.1 at_
      exact Nat.zero_add _
    refine ⟨_, _, zip, by simpa using fun x y i h => same _ h, ?_⟩
    have total := congrArg List.length zip
    simp [length] at total ⊢
    omega

theorem extend_length (low : operand.length ≤ result.length) :
    (extend operand result).length = result.length := by
  simp [extend, low]

theorem operandSpan_spec (low : operand.length ≤ result.length)
    (positive : ∀ d ∈ extend operand result, 0 < sizeAt env d) :
    ∃ cs, EndAlike (sizes env (extend operand result)) (sizes env result) cs ∧
    (operandSpan operand result).2 = cs.prod := by
  obtain ⟨count, span, front, back, zip, same, kept⟩ : ∃ count,
      (operandSpan operand result).2 = Shape.trailingProduct (extend operand result) count ∧
      ∃ front back, (extend operand result).zip result = front ++ back ∧
        (∀ p ∈ back, p.1.same p.2) ∧ count.toNat ≤ back.length := by
    by_cases equal : (operand.length == result.length && (operand.zip result).all fun p =>
      p.1.same p.2) = true
    · rw [operandSpan, if_pos equal]
      simp only [Bool.and_eq_true, beq_iff_eq, all_eq_true] at equal
      have whole : extend operand result = operand := by simp [extend, equal.1]
      rw [whole]
      exact ⟨_, rfl, [], operand.zip result, rfl, equal.2, by simp [equal.1]⟩
    · rw [operandSpan, if_neg equal]
      exact ⟨_, rfl, keptAxes_spec (extend_length low) (by simp [extend])⟩
  obtain ⟨zs, ends, short, product⟩ := trailingProduct_spec count positive
  have left : extend operand result = front.map (·.1) ++ back.map (·.1) := by
    rw [← map_append, ← zip, map_fst_zip (extend_length low).le]
  have right : result = front.map (·.2) ++ back.map (·.2) := by
    rw [← map_append, ← zip, map_snd_zip (extend_length low).ge]
  obtain ⟨middle, hm⟩ : zs <:+ back.map (·.1) :=
    suffix_of_suffix_length_le ends ⟨_, left.symm⟩ (by simpa using short.trans kept)
  have alike : sizes env (back.map (·.2)) = sizes env middle ++ sizes env zs := by
    rw [sizes, sizes, sizes, ← map_append, hm]
    simpa [Function.comp_def] using fun x y h => (sizeAt_same (same _ h)).symm
  refine ⟨sizes env zs, ⟨sizes env (front.map (·.1)) ++ sizes env middle,
    sizes env (front.map (·.2)) ++ sizes env middle, ?_, ?_, by simp [sizes]⟩, span.trans product⟩
  · rw [left, ← hm]
    simp [sizes]
  · grind [append_assoc, sizes]

theorem min_suffix_dvd {ns cs ds : List Nat} (left : cs <:+ ns) (right : ds <:+ ns)
    (positive : 0 < ns.prod) :
    ∃ es, es <:+ ns ∧ min (cs.prod : Int) ds.prod = es.prod ∧ es.prod ∣ cs.prod ∧ es.prod ∣
    ds.prod := by
  have order : ∀ {cs ds : List Nat}, cs <:+ ds → ds <:+ ns → cs.prod ∣ ds.prod ∧
    cs.prod ≤ ds.prod := by
    rintro _ _ ⟨ps, rfl⟩ ⟨qs, rfl⟩
    rw [prod_append, prod_append] at positive
    rw [prod_append]
    exact ⟨Nat.dvd_mul_left _ _, Nat.le_mul_of_pos_left _
      (Nat.pos_of_mul_pos_right (Nat.pos_of_mul_pos_left positive))⟩
  grind [suffix_or_suffix_of_suffix, min_eq_left, dvd_rfl, min_eq_right]

/-! ## The width of an operator -/

theorem Broadcasts.positive {xs ys : List Dim} (fits : Broadcasts xs ys)
    (positive : ∀ d ∈ ys, 0 < sizeAt env d) :
    ∀ d ∈ xs, 0 < sizeAt env d := by
  induction fits with
  | nil => simp
  | cons fit _ ih =>
    obtain ⟨first, rest⟩ := forall_mem_cons.1 positive
    refine forall_mem_cons.2 ⟨?_, ih rest⟩
    grind [sizeAt_same, sizeAt, eval_one]

theorem foldl_smaller_spec {α : Type} {ns : List Nat} (positive : 0 < ns.prod) {count : α → Int}
    {shape : α → List Nat} {xs : List α} (each : ∀ x ∈ xs, ∃ cs, EndAlike (shape x) ns cs ∧
      count x = cs.prod) {known : Option Int} (start : ∀ n ∈ known, ∃ cs, cs <:+ ns ∧ n = cs.prod)
    {n : Int} (last : xs.foldl (fun known x => smaller known (count x)) known = some n) :
    ∃ cs, cs <:+ ns ∧ n = cs.prod ∧ (∀ m ∈ known, n ∣ m) ∧
    ∀ x ∈ xs, ∃ ds, EndAlike (shape x) ns ds ∧ cs.prod ∣ ds.prod := by
  induction xs generalizing known with
  | nil =>
    obtain rfl : known = some n := last
    obtain ⟨cs, ends, rfl⟩ := start n rfl
    exact ⟨cs, ends, rfl, by simp, by simp⟩
  | cons x xs ih =>
    obtain ⟨⟨ds, alike, value⟩, others⟩ := forall_mem_cons.1 each
    have own : ds <:+ ns := by
      obtain ⟨_, qs, -, rfl, -⟩ := alike
      exact suffix_append ..
    obtain ⟨es, ends, both, left, right⟩ : ∃ es, es <:+ ns ∧ smaller known (count x) =
      some (es.prod : Int) ∧
        (∀ m ∈ known, (es.prod : Int) ∣ m) ∧ es.prod ∣ ds.prod := by
      cases known with
      | none => grind [smaller, dvd_rfl]
      | some m =>
        obtain ⟨cs, ends, rfl⟩ := start m rfl
        obtain ⟨es, ends', least, left, right⟩ := min_suffix_dvd ends own positive
        have pos : (cs.prod : Int) ≠ 0 := by
          obtain ⟨ps, rfl⟩ := ends
          rw [prod_append] at positive
          exact_mod_cast (Nat.pos_of_mul_pos_left positive).ne'
        grind [Nat.cast_list_prod, Int.natCast_dvd_natCast, smaller]
    rw [foldl_cons] at last
    obtain ⟨cs, ends', rfl, divides, rest⟩ := ih others (by simpa [both] using ⟨es, ends, rfl⟩) last
    have first : cs.prod ∣ es.prod := by simpa [both, -Nat.cast_list_prod,
      Int.natCast_dvd_natCast] using divides
    exact ⟨cs, ends', rfl, fun m hm => (Int.natCast_dvd_natCast.2 first).trans (left m hm),
      forall_mem_cons.2 ⟨⟨ds, alike, first.trans right⟩, rest⟩⟩

theorem foldlM_fst {α β γ ε : Type} {f : α × β → γ → Except ε (α × β)} {h : α → γ → α}
    (step : ∀ acc c r, f acc c = .ok r → r.1 = h acc.1 c) {l : List γ} {acc r : α × β}
    (run : l.foldlM f acc = .ok r) :
    r.1 = l.foldl h acc.1 := by
  induction l generalizing acc with
  | nil =>
    obtain rfl := Except.ok.inj run
    rfl
  | cons c l ih =>
    rw [foldlM_cons] at run
    obtain ⟨m, first, rest⟩ := bind_eq_ok run
    rw [foldl_cons, ← step _ _ _ first]
    exact ih rest

variable {g : Arena} {inputs : List TensorId} {operands results : List Accessor} {out : Accessor}
  {v : Int}
  {shapes : List (Option (List Dim))}

def seen (g : Arena) (a : Accessor) : List Dim := a.seenShape.map g.dim

theorem widthAndShapes?_spec (run : widthAndShapes? g inputs operands results = .ok (v, shapes))
    (head : results.head? = some out) :
    ∃ n, (inputs.zip operands).foldl
    (fun known p => smaller known (operandSpan (seen g p.2) (seen g out)).2) none = some n ∧
      commonWidth? (some n) operands results = some v := by
  simp only [widthAndShapes?, head] at run
  obtain ⟨r, folded, rest⟩ := bind_eq_ok run
  have first := foldlM_fst (h := fun known p =>
    smaller known (operandSpan (seen g p.2) (seen g out)).2) ?_ folded
  · rw [← first]
    split at rest
    · next w found =>
      obtain ⟨rfl, -⟩ := Prod.mk.inj (Except.ok.inj rest)
      obtain ⟨n, some, -⟩ := Option.bind_eq_some_iff.1 found
      exact ⟨n, some, some ▸ found⟩
    · cases rest
  · intro acc p r run
    split at run
    · cases run
    · split at run
      · cases run
      · obtain rfl := Except.ok.inj run
        rfl

/-- Each block of as many elements as are moved at once lies side by side, from a multiple of the
width on, in each operand and in each result. -/
theorem widthAndShapes?_aligned (run : widthAndShapes? g inputs operands results = .ok (v, shapes))
    (head : results.head? = some out)
    (fits : ∀ p ∈ inputs.zip operands, Broadcasts (extend (seen g p.2) (seen g out)) (seen g out))
    (positive : ∀ d ∈ seen g out, 0 < sizeAt env d) :
    ∃ w : Nat, v = w ∧ 0 < w ∧ w ∣ (sizes env (seen g out)).prod ∧
    ∀ k < (sizes env (seen g out)).prod / w,
      (∀ p ∈ inputs.zip operands, p.2.Aligned w fun j =>
        repeated (sizes env (extend (seen g p.2) (seen g out))) (sizes env (seen g out))
          (k * w + j)) ∧
      ∀ a ∈ results, a.Aligned w fun j => k * w + j := by
  obtain ⟨n, least, width⟩ := widthAndShapes?_spec run head
  obtain ⟨u, onto, width⟩ := Option.bind_eq_some_iff.1 width
  obtain ⟨-, divides, written⟩ := Accessor.widthFor?_spec onto
  obtain ⟨mem, divides', read⟩ := Accessor.widthFor?_spec width
  obtain ⟨w, rfl, wide⟩ : ∃ w : Nat, v = w ∧ 0 < w := by
    have all : ∀ v ∈ widths, ∃ w : Nat, v = w ∧ 0 < w := by
      simp only [widths, forall_mem_cons]
      exact ⟨⟨8, by decide⟩, ⟨4, by decide⟩, ⟨2, by decide⟩, ⟨1, by decide⟩, by simp⟩
    exact all v mem
  have total : 0 < (sizes env (seen g out)).prod :=
    Nat.pos_of_ne_zero fun zero => by
      obtain ⟨d, hd, zero⟩ := mem_map.1 (prod_eq_zero_iff.1 zero)
      exact (positive d hd).ne' zero
  have each : ∀ p ∈ inputs.zip operands, ∃ cs,
      EndAlike (sizes env (extend (seen g p.2) (seen g out))) (sizes env (seen g out)) cs ∧
      (operandSpan (seen g p.2) (seen g out)).2 = cs.prod := by
    intro p hp
    have length := (fits p hp).length_eq
    exact operandSpan_spec (by simp [extend] at length; omega) ((fits p hp).positive positive)
  obtain ⟨cs, ends, rfl, -, shared⟩ := foldl_smaller_spec total each (by simp) least
  have small : w ∣ cs.prod := Int.natCast_dvd_natCast.1 (divides'.trans divides)
  refine ⟨w, rfl, wide, small.trans ends.sublist.prod_dvd_prod, fun k low =>
    ⟨fun p hp => ?_, fun a ha => ?_⟩⟩
  · obtain ⟨ds, alike, factor⟩ := shared p hp
    obtain ⟨q, block⟩ := alike.block (small.trans factor) low
    obtain ⟨base, multiple, address⟩ := (read p.2 (of_mem_zip hp).2).aligned q
    refine ⟨base, multiple, fun j hj => ?_⟩
    show p.2.address? 1 (repeated _ _ _ : Nat) = _
    rw [block j hj]
    exact address j hj
  · exact ((written a ha).of_dvd divides').aligned k

/-- Rows of four elements and one such row are added into the middle of rows of twelve. -/
theorem widthAndShapes?_aligned_rows :
    let g : Arena := { (default : Arena) with
      dims := #[⟨false, [1, 8], some "n"⟩, .static 4, .static 1], tensors := #[.ofShape [⟨0⟩, ⟨1⟩],
        .ofShape [⟨2⟩, ⟨1⟩]] }
    let operands : List Accessor := [.ofShape [⟨0⟩, ⟨1⟩], .ofShape [⟨2⟩, ⟨1⟩]]
    let result :=
      { Accessor.ofShape [⟨0⟩, ⟨1⟩] with
        isContiguous := false, offset := 4, seenTotal := some 4, storedTotal := some 12 }
    widthAndShapes? g [⟨0⟩, ⟨1⟩] operands [result] = .ok (4, [none, some [.static 1, .static 4]]) ∧
      (Accessor.ofShape [⟨2⟩, ⟨1⟩]).Aligned 4 (fun j => repeated [1, 4] [3, 4] (8 + j)) ∧
        result.Aligned 4 fun j => 8 + j := by
  intro g operands result
  have run : widthAndShapes? g [⟨0⟩, ⟨1⟩] operands [result] =
    .ok (4, [none, some [.static 1, .static 4]]) := by cbv
  obtain ⟨w, width, -, -, blocks⟩ := @widthAndShapes?_aligned (fun _ => 3) g _ _ _ result _
    _ run rfl
    (by simpa [operands, seen, g, extend, Accessor.ofShape] using ⟨.cons (.inl rfl)
      (.cons (.inl rfl) .nil), .cons (.inr rfl) (.cons (.inl rfl) .nil)⟩) (by decide)
  obtain rfl : w = 4 := by omega
  obtain ⟨read, written⟩ := blocks 2 (by decide)
  exact ⟨run, read (⟨1⟩, .ofShape [⟨2⟩, ⟨1⟩]) (by simp [operands]), written result (by simp)⟩

end Kernel

end TensorGraph

import Mathlib
import TensorGraph.Kernel.ThreadCode
import TensorGraph.Proofs.Steps

/-!
# How often code is copied

The code of a thread writes the value of a member out wherever it is read, unless several operators
read it.
-/

namespace TensorGraph.Kernel

open List

variable {tensor : TensorId → Tensor} {type : ComputeType} {members rest : List Member} {m : Member}
  {outputs : List (TensorId × String)}
  {d d' : Draft} {r t : TensorId}

theorem applications_apply (f : String) (es : List ElementExpr) :
    (ElementExpr.apply f es).applications = 1 + (es.map (·.applications)).sum := by
  rw [ElementExpr.applications]
  simp [sum]

def applications (code : List Statement) : Nat := (code.map (·.value.applications)).sum

namespace Draft

def weight (d : Draft) (t : TensorId) : Nat := ((d.expr? t).map (·.applications)).getD 0

theorem operand?_weight {wrap : ElementExpr → ElementExpr}
    (same : ∀ e, (wrap e).applications = e.applications) {e : ElementExpr}
    (run : d.operand? tensor type wrap t = .ok e) : e.applications = d.weight t := by
  unfold operand? at run
  unfold weight
  cases known : d.expr? t with
  | none =>
    simp only [known] at run
    grind [Except.ok.inj, ElementExpr.applications]
  | some e' =>
    simp only [known] at run
    obtain rfl := Except.ok.inj run
    exact same e'

theorem weight_learn (e : ElementExpr) : (d.learn r e).weight t = if t = r then e.applications else
    d.weight t := by
  unfold weight expr? learn
  rw [lookup_cons]
  by_cases same : t = r
  · simp [same]
  · simp [same, beq_false_of_ne same]

theorem mapM_operand?_weight {wrap : ElementExpr → ElementExpr}
    (same : ∀ e, (wrap e).applications = e.applications) {ts : List TensorId}
    {es : List ElementExpr} (run : ts.mapM (d.operand? tensor type wrap) = .ok es) :
    (es.map (·.applications)).sum = (ts.map d.weight).sum := by
  induction ts generalizing es with
  | nil =>
    obtain rfl := Except.ok.inj run
    rfl
  | cons t ts ih =>
    rw [mapM_cons] at run
    obtain ⟨e, first, run⟩ := bind_eq_ok run
    obtain ⟨es, others, run⟩ := bind_eq_ok run
    obtain rfl := Except.ok.inj run
    simp [operand?_weight same first, ih others]

end Draft

namespace Member

def result (m : Member) : TensorId := m.results.headD default

def Named (tensor : TensorId → Tensor) (m : Member) : Prop := 1 < (tensor m.result).dst.ops.length

instance : Decidable (m.Named tensor) := inferInstanceAs (Decidable (_ < _))

end Member

theorem Draft.step?_weight (run : d.step? tensor type m = .ok d') : m.results = [m.result] ∧
    (∀ t, d'.weight t = if t = m.result then
      (if m.Named tensor then 0 else 1 + (m.args.map d.weight).sum) else d.weight t) ∧
    applications d'.code = applications d.code + if m.Named tensor then 1 +
    (m.args.map d.weight).sum else 0 := by
  obtain ⟨⟨wrap, unwrap⟩, wraps, run⟩ := bind_eq_ok run
  have same : (∀ e, (wrap e).applications = e.applications) ∧ ∀ e, (unwrap e).applications =
    e.applications := by
    unfold wraps? at wraps
    split at wraps
    · obtain ⟨rfl, rfl⟩ := Prod.mk.inj (Except.ok.inj wraps)
      exact ⟨fun _ => rfl, fun _ => rfl⟩
    · obtain ⟨there, -, wraps⟩ := bind_eq_ok wraps
      obtain ⟨back, -, wraps⟩ := bind_eq_ok wraps
      obtain ⟨rfl, rfl⟩ := Prod.mk.inj (Except.ok.inj wraps)
      constructor <;> intro e <;> rw [ElementExpr.applications]
  obtain ⟨args, operands, run⟩ := bind_eq_ok run
  split at run
  · next r single =>
    have value : (unwrap (.apply m.fn args)).applications = 1 + (m.args.map d.weight).sum := by
      rw [same.2, applications_apply, mapM_operand?_weight same.1 operands]
    obtain rfl : m.result = r := by simp [Member.result, single]
    refine ⟨single, ?_⟩
    split at run
    · next named =>
      obtain rfl := Except.ok.inj run
      refine ⟨fun t => (weight_learn (.name _)).trans ?_, ?_⟩
      · simp [ElementExpr.applications, show m.Named tensor from named]
      · simp [applications, Statement.value, value, show m.Named tensor from named]
    · next named =>
      obtain rfl := Except.ok.inj run
      have inline : ¬ m.Named tensor := named
      grind [weight_learn, learn]
  · cases run

/-! ## Copies -/

/-- How often what is written for a tensor gets into the code of the members that follow and of the
outputs. -/
def copies (tensor : TensorId → Tensor) (outs : List TensorId) : List Member → TensorId → Nat
  | [], t => outs.count t
  | m :: rest, t => copies tensor outs rest t +
    m.args.count t * if m.Named tensor then 1 else copies tensor outs rest m.result

def allCopies (tensor : TensorId → Tensor) (outs : List TensorId) : List Member → Nat
  | [] => 0
  | m :: rest => (if m.Named tensor then 1 else copies tensor outs rest
    m.result) + allCopies tensor outs rest

variable {outs : List TensorId} {known : Finset TensorId}

theorem sum_weight (d : Draft) (outside : ∀ t ∉ known, d.weight t = 0) (ts : List TensorId) :
    (ts.map d.weight).sum = ∑ t ∈ known, d.weight t * ts.count t := by
  induction ts with
  | nil => simp
  | cons u ts ih =>
    have own : d.weight u = ∑ t ∈ known, if u = t then d.weight t else 0 := by
      simp_all [Finset.sum_ite_eq]
    rw [map_cons, sum_cons, ih, own, ← Finset.sum_add_distrib]
    refine Finset.sum_congr rfl fun t _ => ?_
    rw [count_cons]
    by_cases same : u = t <;> simp [same, Nat.mul_add, Nat.add_comm]

/-- What is written so far gets into the code as often as its copies say, and so do the members that
follow. -/
theorem applications_foldlM (known : Finset TensorId) (outs : List TensorId)
    (outside : ∀ t ∉ known, d.weight t = 0) (apart : ∀ m ∈ rest, m.result ∉ known)
    (distinct : (rest.map (·.result)).Nodup)
    (run : rest.foldlM (Draft.step? tensor type) d = .ok d') :
    applications d'.code + (outs.map d'.weight).sum = applications d.code + ∑ t ∈ known,
    d.weight t * copies tensor outs rest t + allCopies tensor outs rest := by
  induction rest generalizing d known with
  | nil =>
    obtain rfl := Except.ok.inj run
    rw [sum_weight d outside]
    rfl
  | cons m rest ih =>
    rw [foldlM_cons] at run
    obtain ⟨d₁, first, run⟩ := bind_eq_ok run
    obtain ⟨-, weight, code⟩ := Draft.step?_weight first
    obtain ⟨new, apart⟩ := forall_mem_cons.1 apart
    obtain ⟨fresh, distinct⟩ := nodup_cons.1 distinct
    have kept : ∀ t ∈ known, d₁.weight t = d.weight t := by
      intro t ht
      have other : t ≠ m.result := ne_of_mem_of_not_mem ht new
      rw [weight, if_neg other]
    rw [ih (insert m.result known) ?_ ?_ distinct run, code, Finset.sum_insert new,
      Finset.sum_congr rfl fun t ht => by rw [kept t ht], weight, if_pos rfl, sum_weight d outside]
    · simp only [copies, allCopies, Nat.mul_add, Finset.sum_add_distrib]
      by_cases named : m.Named tensor
      · simp only [named, if_true, Nat.mul_one, Nat.zero_mul]
        ring
      · simp only [named, if_false, ← Nat.mul_assoc, ← Finset.sum_mul]
        ring
    · intro t ht
      rw [Finset.mem_insert, not_or] at ht
      rw [weight, if_neg ht.1, outside t ht.2]
    · intro n hn same
      rcases Finset.mem_insert.1 same with same | same
      · exact fresh (mem_map.2 ⟨n, hn, same⟩)
      · exact apart n hn same

/-! ## Values that are read once -/

def ReadOnce (tensor : TensorId → Tensor) (members : List Member) : Prop :=
  ∀ m ∈ members, ¬ m.Named tensor → (members.flatMap (·.args)).count m.result ≤ 1

instance : Decidable (ReadOnce tensor members) := inferInstanceAs (Decidable (∀ m ∈ members, _))

theorem ReadOnce.tail (once : ReadOnce tensor (m :: rest)) : ReadOnce tensor rest := by
  intro n hn inline
  have all := once n (mem_cons_of_mem _ hn) inline
  rw [flatMap_cons, count_append] at all
  omega

theorem copies_unread (unread : (rest.flatMap (·.args)).count t = 0) :
    copies tensor outs rest t = outs.count t := by
  induction rest with
  | nil => rfl
  | cons m rest ih =>
    rw [flatMap_cons, count_append] at unread
    rw [copies, ih (by omega), show m.args.count t = 0 by omega, Nat.zero_mul, Nat.add_zero]

theorem countP_cons {ts : List TensorId} (new : t ∉ ts) : outs.countP (· ∈ t :: ts) = outs.count t +
    outs.countP (· ∈ ts) := by
  induction outs with
  | nil => rfl
  | cons o outs ih =>
    rw [List.countP_cons, List.countP_cons, List.count_cons, ih]
    by_cases same : o = t <;> simp_all <;> omega

theorem countP_pos (last : ∀ n ∈ (m :: rest).getLast?, n.result ∈ outs) :
    1 ≤ outs.countP (· ∈ (m :: rest).map (·.result)) := by
  have mem := getLast?_eq_getLast_of_ne_nil (cons_ne_nil m rest)
  have out := last _ mem
  grind [countP_pos_iff, mem_map_of_mem, mem_of_getLast?]

theorem copies_le (new : t ∉ members.map (·.result)) (distinct : (members.map (·.result)).Nodup)
    (single : (members.flatMap (·.args)).count t ≤ 1) (once : ReadOnce tensor members)
    (last : ∀ m ∈ members.getLast?, m.result ∈ outs) :
    copies tensor outs members t ≤ outs.countP (· ∈ t :: members.map (·.result)) := by
  induction members generalizing t with
  | nil =>
    rw [copies, countP_cons new]
    omega
  | cons m rest ih =>
    rw [map_cons, mem_cons, not_or] at new
    obtain ⟨fresh, distinct'⟩ := nodup_cons.1 distinct
    have last' : ∀ m ∈ rest.getLast?, m.result ∈ outs := fun n hn => last n (by
      rw [getLast?_cons, hn]
      rfl)
    have own : (if m.Named tensor then 1 else copies tensor outs rest m.result) ≤ outs.countP
      (· ∈ (m :: rest).map (·.result)) := by
      split
      · exact countP_pos last
      · next inline =>
        have single := once m mem_cons_self inline
        rw [flatMap_cons, count_append] at single
        exact ih fresh distinct' (by omega) once.tail last'
    rw [flatMap_cons, count_append] at single
    rw [copies, countP_cons (by simpa using new)]
    by_cases read : m.args.count t = 0
    · have := ih new.2 distinct' (by omega) once.tail last'
      rw [countP_cons new.2] at this
      have := countP_mono_left (l := outs) (p := (· ∈ rest.map (·.result)))
        (q := (· ∈ (m :: rest).map (·.result))) (by simp_all)
      rw [read]
      omega
    · grind [copies_unread]

theorem allCopies_le (distinct : (members.map (·.result)).Nodup) (once : ReadOnce tensor members)
    (last : ∀ m ∈ members.getLast?, m.result ∈ outs) :
    allCopies tensor outs members ≤ members.length * outs.length := by
  induction members with
  | nil => exact Nat.zero_le _
  | cons m rest ih =>
    obtain ⟨fresh, distinct⟩ := nodup_cons.1 distinct
    have last' : ∀ m ∈ rest.getLast?, m.result ∈ outs := fun n hn => last n (by
      rw [getLast?_cons, hn]
      rfl)
    have own : (if m.Named tensor then 1 else copies tensor outs rest m.result) ≤ outs.length := by
      split
      · exact (countP_pos last).trans countP_le_length
      · next inline =>
        have single := once m mem_cons_self inline
        rw [flatMap_cons, count_append] at single
        exact (copies_le (t := m.result) fresh distinct (by omega) once.tail last').trans
          countP_le_length
    have rest := ih distinct once.tail last'
    rw [allCopies, length_cons, Nat.succ_mul]
    omega

variable {inputs : List (TensorId × String)} {code : List Statement}

theorem mapM_finish?_applications {written : List Statement}
    (run : outputs.mapM (fun p => d.finish? p.1 p.2) = .ok written) :
    applications written = ((outputs.map (·.1)).map d.weight).sum := by
  induction outputs generalizing written with
  | nil =>
    obtain rfl := Except.ok.inj run
    rfl
  | cons p outputs ih =>
    rw [mapM_cons] at run
    obtain ⟨s, first, run⟩ := bind_eq_ok run
    obtain ⟨ss, others, run⟩ := bind_eq_ok run
    obtain rfl := Except.ok.inj run
    grind [Draft.finish?, Except.ok.inj, Statement.value, Draft.weight, applications]

theorem threadCode?_applications (distinct : (members.map (·.result)).Nodup)
    (run : threadCode? tensor type inputs members outputs = .ok code) :
    applications code = allCopies tensor (outputs.map (·.1)) members := by
  obtain ⟨d, steps, run⟩ := bind_eq_ok run
  obtain ⟨written, finish, run⟩ := bind_eq_ok run
  obtain rfl := Except.ok.inj run
  have start : ∀ (inputs : List (TensorId × String)) (d : Draft), (∀ t, d.weight t = 0) →
    d.code = [] →
      (∀ t, (inputs.foldl (fun d p => d.learn p.1 (.name p.2)) d).weight t = 0) ∧
      (inputs.foldl (fun d p => d.learn p.1 (.name p.2)) d).code = [] := by
    intro inputs
    induction inputs with
    | nil => exact fun d zero code => ⟨zero, code⟩
    | cons p inputs ih =>
      intro d zero code
      refine ih _ (fun t => ?_) code
      rw [Draft.weight_learn, zero, ElementExpr.applications, ite_self]
  obtain ⟨zero, empty⟩ := start inputs ⟨[], [], 0⟩ (fun _ => rfl) rfl
  have total := applications_foldlM ∅ (outputs.map (·.1)) (fun t _ => zero t)
    (by simp) distinct steps
  rw [empty, ← mapM_finish?_applications finish] at total
  simpa [applications] using total

/-- If what gets no name is read once at most, a fused operator of `n` members with `k` outputs
applies at most `n * k` functions. -/
theorem threadCode?_applications_le (distinct : (members.map (·.result)).Nodup)
    (once : ReadOnce tensor members) (last : ∀ m ∈ members.getLast?, m.result ∈ outputs.map (·.1))
    (run : threadCode? tensor type inputs members outputs = .ok code) :
    applications code ≤ members.length * outputs.length := by
  rw [threadCode?_applications distinct run]
  simpa using allCopies_le distinct once last

/-- A value that is an output and is read by the next member is written twice. -/
theorem threadCode?_applications_le_output :
    let members : List Member := [⟨"tanh", .half, [⟨0⟩], [⟨1⟩]⟩, ⟨"mul", .half, [⟨1⟩, ⟨0⟩], [⟨2⟩]⟩]
    ∃ code, threadCode? (fun _ => default) .half [(⟨0⟩, "x")] members [(⟨1⟩, "y"), (⟨2⟩, "z")] =
    .ok code ∧ applications code ≤ 4 := by
  intro members
  have run : threadCode? (fun _ => default) .half [(⟨0⟩, "x")] members [(⟨1⟩, "y"), (⟨2⟩, "z")] =
    .ok _ := rfl
  refine ⟨_, run, threadCode?_applications_le ?_ ?_ ?_ run⟩ <;> decide

end TensorGraph.Kernel

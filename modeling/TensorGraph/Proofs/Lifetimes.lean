import Mathlib.Logic.Relation
import TensorGraph.Proofs.Lists
import TensorGraph.Proofs.Placement
import TensorGraph.Proofs.SortedGraph
import TensorGraph.Proofs.Steps

/-!
# The lifetimes cover the live ranges

A tensor is live from the first to the last step that touches it or one of its views, and to the end
if it or one of its views is an output (`LiveAt`).
-/

namespace TensorGraph

open List

variable {g g' : Arena} {t : TensorId} {steps : List OpId} {i : Nat} {n : Option String}
  {ls ls' : Lifetimes}

namespace Graph

open Build

variable {u : TensorId} {e : Option String × Lifetime}

/-! ## Live ranges -/

def Shows (g : Arena) : TensorId → TensorId → Prop := Relation.ReflTransGen fun u v =>
    (g.tensor u).viewOf = some v

/-- A tensor is live at a step: it or a view of it was touched by then and is touched from then on,
or it is kept to the end because it or a view of it is an output. -/
def LiveAt (g : Arena) (ts : Graph) (t : TensorId) (i : Nat) : Prop :=
  (∃ u a, Shows g u t ∧ Touches g (sourceSteps g ts) u a ∧ a ≤ i) ∧
    ((∃ u b, Shows g u t ∧ Touches g (sourceSteps g ts) u b ∧ i ≤ b) ∨
      (i < (sourceSteps g ts).length ∧ ∃ u ∈ ts, Shows g u t ∧ (g.tensor u).isOutput))

/-- Every view is produced, by operators that read what it shows, and is no parameter. -/
structure ViewsRead (g : Arena) (ts : Graph) : Prop where
  produced : ∀ t ∈ ts, (g.tensor t).viewOf.isSome → (g.tensor t).src.ops ≠ []
  reads : ∀ t ∈ ts, ∀ v ∈ (g.tensor t).viewOf, ∀ o ∈ (g.tensor t).src.ops, v ∈ (g.op o).inputList
  noParam : ∀ t ∈ ts, (g.tensor t).viewOf.isSome → (g.tensor t).isParam = false

instance (g : Arena) (ts : Graph) : Decidable (ViewsRead g ts) :=
  decidable_of_iff ((∀ t ∈ ts, (g.tensor t).viewOf.isSome → (g.tensor t).src.ops ≠ []) ∧
      (∀ t ∈ ts, ∀ v ∈ (g.tensor t).viewOf, ∀ o ∈ (g.tensor t).src.ops, v ∈ (g.op o).inputList) ∧
      ∀ t ∈ ts, (g.tensor t).viewOf.isSome → (g.tensor t).isParam = false)
    ⟨fun ⟨a, b, c⟩ => ⟨a, b, c⟩, fun h => ⟨h.produced, h.reads, h.noParam⟩⟩

section Views

variable {g : Arena} {ts : Graph} (sorted : Sorted g ts) (views : ViewsRead g ts)
include sorted views

variable {v : TensorId}

theorem view_before (ht : t ∈ ts) (hv : (g.tensor t).viewOf = some v) : Before ts v t := by
  obtain ⟨o, ho⟩ := exists_mem_of_ne_nil _ (views.produced t ht (by simp [hv]))
  exact sorted.reads t ht o ho v (views.reads t ht v hv o ho)

theorem view_touched (h : Touches g (sourceSteps g ts) t i)
    (hv : (g.tensor t).viewOf = some v) : ∃ j, j ≤ i ∧ Touches g (sourceSteps g ts) v j := by
  have ht := sorted.mem_of_touches h
  have read := views.reads t ht v hv
  rcases sorted.touches_cases h with ⟨o, ho, step⟩ | earlier
  · exact ⟨i, Nat.le_refl i, o, step, Or.inl (read o ho)⟩
  · obtain ⟨o, ho⟩ := exists_mem_of_ne_nil _ (views.produced t ht (by simp [hv]))
    obtain ⟨j, hj, step⟩ := earlier o ho
    exact ⟨j, Nat.le_of_lt hj, o, step, Or.inl (read o ho)⟩

theorem shown_touched (shows_ : Shows g u t) (h : Touches g (sourceSteps g ts) u i) :
    ∃ j, j ≤ i ∧ Touches g (sourceSteps g ts) t j := by
  induction shows_ with
  | refl => exact ⟨i, Nat.le_refl i, h⟩
  | tail _ hv ih => grind [view_touched, Nat.le_trans]

theorem baseTensor_spec {n : Nat} (ht : t ∈ ts) (fuel : ts.idxOf t < n) :
    Shows g t (baseTensor g n t) ∧ (g.tensor (baseTensor g n t)).viewOf = none ∧
    baseTensor g n t ∈ ts := by
  induction n generalizing t with
  | zero => omega
  | succ n ih =>
    unfold baseTensor
    cases hv : (g.tensor t).viewOf with
    | none => exact ⟨Relation.ReflTransGen.refl, hv, ht⟩
    | some v =>
      have before := view_before sorted views ht hv
      have shorter : ts.idxOf v < n := by
        unfold Before at before
        omega
      obtain ⟨chain, last, mem⟩ := ih before.mem shorter
      exact ⟨chain.head hv, last, mem⟩

end Views

theorem shown_unique {t' : TensorId} (h : Shows g u t) (h' : Shows g u t')
    (last : (g.tensor t).viewOf = none) (last' : (g.tensor t').viewOf = none) : t = t' := by
  have ends : ∀ {a b : TensorId}, Shows g a b → (g.tensor a).viewOf = none → a = b := by
    intro a b hab ha
    rcases Relation.ReflTransGen.cases_head hab with rfl | ⟨c, hc, -⟩
    · rfl
    · rw [ha] at hc
      cases hc
  have functional : Relator.RightUnique fun u v => (g.tensor u).viewOf = some v := by
    intro a b c hb hc
    rw [hb] at hc
    exact Option.some.inj hc
  rcases Relation.ReflTransGen.total_of_right_unique functional h h' with h | h
  · exact ends h last
  · exact (ends h last').symm

/-! ## Records by name -/

namespace Lifetimes

variable {l : Lifetime}

def Keyed (ls : Lifetimes) : Prop := (ls.map (·.1)).Nodup

theorem Keyed.unique (keyed : ls.Keyed) {l' : Lifetime} (h : (n, l) ∈ ls) (h' : (n, l') ∈ ls) :
    l = l' :=
  value_unique keyed h h'

theorem Keyed.lookup_iff (keyed : ls.Keyed) : ls.lookup n = some l ↔ (n, l) ∈ ls :=
  lookup_eq_some_iff_mem keyed

theorem mem_set : e ∈ ls.set n l ↔ e = (n, l) ∨ (e ∈ ls ∧ e.1 ≠ n) :=
  mem_setKey

theorem Keyed.set (keyed : ls.Keyed) (n : Option String) (l : Lifetime) : (ls.set n l).Keyed := by
  unfold Keyed Lifetimes.set
  split
  · rw [map_fst_replace]
    exact keyed
  · next unknown =>
    rw [map_append, nodup_append]
    refine ⟨keyed, by simp, ?_⟩
    grind

end Lifetimes

/-! ## Touching -/

/-- What a record says is so: it has the name and the size of its tensor, which is no parameter and
touched by some step, and it ends before the last step. -/
structure Record (g : Arena) (steps : List OpId) (e : Option String × Lifetime) : Prop where
  name : e.1 = (g.tensor e.2.tensor).name
  noParam : (g.tensor e.2.tensor).isParam = false
  size : Dtype.alignedSize? g.dim (g.tensor e.2.tensor).shape (g.tensor e.2.tensor).dtype 64 =
    .ok e.2.size
  inside : e.2.last < steps.length
  touched : ∃ i, Touches g steps e.2.tensor i

/-- One record for each name, and each is right. -/
structure Records (g : Arena) (steps : List OpId) (ls : Lifetimes) : Prop where
  keyed : ls.Keyed
  each : ∀ e ∈ ls, Record g steps e

/-- The record of a tensor covers a step, and an output's all steps to the last. -/
def Covers (g : Arena) (steps : List OpId) (ls : Lifetimes) (t : TensorId) (i : Nat) : Prop :=
  ∃ l, ((g.tensor t).name, l) ∈ ls ∧ l.tensor = t ∧ l.first ≤ i ∧ i ≤ l.last ∧
    ((g.tensor t).isOutput → steps.length ≤ l.last + 1)

section Touch

variable {g g' : Arena} {steps : List OpId} {ls ls' : Lifetimes} {t : TensorId} {i : Nat}

/-- A step leaves a parameter alone; any other tensor gets a record that covers the step and what
its record covered before. -/
theorem touch_cases (records : Records g steps ls) (hi : i < steps.length)
    (run : touch steps.length i ls t g = .ok ls' g') :
    g = g' ∧ (((g.tensor t).isParam = true ∧ ls' = ls) ∨
      ((g.tensor t).isParam = false ∧ ∃ l, ls' = ls.set (g.tensor t).name l ∧ l.tensor = t ∧
        Dtype.alignedSize? g.dim (g.tensor t).shape (g.tensor t).dtype 64 = .ok l.size ∧
        l.first ≤ i ∧ i ≤ l.last ∧ l.last < steps.length ∧
          ((g.tensor t).isOutput → steps.length ≤ l.last + 1) ∧
        ∀ k, ((g.tensor t).name, k) ∈ ls → k.tensor = t ∧ l.first ≤ k.first ∧
          k.last ≤ l.last)) := by
  unfold touch at run
  rw [bind_run (tensor_run _)] at run
  split at run
  · simp_all
  · next param =>
    have param : (g.tensor t).isParam = false := by simpa using param
    -- the record before an output is kept to the end
    have life : g = g' ∧ ∃ l : Lifetime,
        ls' = ls.set (g.tensor t).name
          (if (g.tensor t).isOutput then { l with last := steps.length - 1 } else l) ∧
        l.tensor = t ∧ Dtype.alignedSize? g.dim (g.tensor t).shape (g.tensor t).dtype 64 =
          .ok l.size ∧
        l.first ≤ i ∧ i ≤ l.last ∧ l.last < steps.length ∧
        ∀ k, ((g.tensor t).name, k) ∈ ls → k.tensor = t ∧ l.first ≤ k.first ∧ k.last ≤ l.last := by
      cases known : ls.lookup (g.tensor t).name with
      | some k =>
        have mem := records.keyed.lookup_iff.1 known
        obtain ⟨-, -, size, inside, -⟩ := records.each _ mem
        simp only [known, bind_ok, require_ok, sizeBytes_ok, pure_ok, beq_iff_eq] at run
        obtain ⟨-, _, ⟨rfl, rfl⟩, -, _, ⟨-, rfl⟩, l, _, ⟨rfl, rfl⟩, rfl, rfl⟩ := run
        refine ⟨rfl, _, rfl, rfl, size, Nat.min_le_right _ _, Nat.le_max_right _ _,
          Nat.max_lt.2 ⟨inside, hi⟩, ?_⟩
        intro k' hk'
        rw [records.keyed.unique hk' mem]
        grind
      | none =>
        simp only [known, bind_ok, sizeBytes_ok, pure_ok] at run
        obtain ⟨size, _, ⟨hsize, rfl⟩, l, _, ⟨rfl, rfl⟩, rfl, rfl⟩ := run
        refine ⟨rfl, _, rfl, rfl, hsize, Nat.le_refl i, Nat.le_refl i, hi, ?_⟩
        grind
    grind [param]

theorem records_touch (records : Records g steps ls) (touched : Touches g steps t i)
    (run : touch steps.length i ls t g = .ok ls' g') :
    g = g' ∧ Records g steps ls' ∧ (∀ u j, Covers g steps ls u j → Covers g steps ls' u j) ∧
      ((g.tensor t).isParam = false → Covers g steps ls' t i) := by
  obtain ⟨rfl, ⟨param, rfl⟩ | ⟨param, l, rfl, own, size, hfirst, hlast, inside, out, grows⟩⟩ :=
    touch_cases records touched.lt run
  · grind
  · subst own
    refine ⟨rfl, ⟨records.keyed.set _ _, ?_⟩, ?_, fun _ =>
      ⟨l, Lifetimes.mem_set.2 (Or.inl rfl), rfl, hfirst, hlast, out⟩⟩
    · intro e he
      rcases Lifetimes.mem_set.1 he with rfl | ⟨he, -⟩
      · exact ⟨rfl, param, size, inside, i, touched⟩
      · exact records.each e he
    · rintro u j ⟨k, hk, rfl, kfirst, klast, kout⟩
      by_cases same : (g.tensor k.tensor).name = (g.tensor l.tensor).name
      · rw [same] at hk
        obtain ⟨tensors, lower, upper⟩ := grows k hk
        refine ⟨l, Lifetimes.mem_set.2 (Or.inl (by rw [same])),
          tensors.symm, by omega, by omega, fun h => ?_⟩
        have := kout h
        omega
      · exact ⟨k, Lifetimes.mem_set.2 (Or.inr ⟨hk, same⟩), rfl, kfirst, klast, kout⟩

end Touch

theorem records_touchAll (us : List TensorId) (records : Records g steps ls)
    (touched : ∀ u ∈ us, Touches g steps u i)
    (run : us.foldlM (touch steps.length i) ls g = .ok ls' g') :
    g = g' ∧ Records g steps ls' ∧ (∀ u j, Covers g steps ls u j → Covers g steps ls' u j) ∧
      ∀ u ∈ us, (g.tensor u).isParam = false → Covers g steps ls' u i := by
  induction us generalizing ls with
  | nil => simp_all
  | cons u us ih =>
    simp only [foldlM_cons, bind_ok] at run
    obtain ⟨ls₁, g₁, first, rest⟩ := run
    obtain ⟨rfl, records, keeps, covers⟩ := records_touch records (touched u mem_cons_self) first
    grind [mem_cons_of_mem]

theorem records_steps (rest done : List OpId) (split : steps = done ++ rest)
    (records : Records g steps ls) (covers : ∀ t i, i < done.length → Touches g steps t i →
    (g.tensor t).isParam = false → Covers g steps ls t i)
    (run : ((rest.zipIdx done.length).foldlM (fun ls (o, i) => do
      let ts ← inputs o
      let us ← outputs o
      (ts ++ us).foldlM (touch steps.length i) ls) ls : Build Lifetimes) g = .ok ls' g') :
    g = g' ∧ Records g steps ls' ∧
      ∀ t i, Touches g steps t i → (g.tensor t).isParam = false → Covers g steps ls' t i := by
  induction rest generalizing done ls with
  | nil =>
    obtain ⟨rfl, rfl⟩ := run
    have all : steps.length = done.length := by rw [split, append_nil]
    exact ⟨rfl, records, fun t i h => covers t i (all ▸ h.lt) h⟩
  | cons o rest ih =>
    simp only [zipIdx_cons, foldlM_cons, bind_ok, inputs_ok, outputs_ok] at run
    obtain ⟨ls₁, g₁, ⟨ts, _, ⟨hts, rfl⟩, us, _, ⟨hus, rfl⟩, first⟩, run⟩ := run
    have here : steps[done.length]? = some o := by rw [split]; simp
    have ins : (g.op o).inputList = ts := by simp [Operator.inputList, hts]
    have outs : (g.op o).outputList = us := by simp [Operator.outputList, hus]
    have touched : ∀ u ∈ ts ++ us, Touches g steps u done.length := by
      intro u hu
      refine ⟨o, here, ?_⟩
      rw [ins, outs]
      exact mem_append.1 hu
    obtain ⟨rfl, records, keeps, fresh⟩ := records_touchAll (ts ++ us) records touched first
    refine ih (done ++ [o]) (by simp [split]) records (fun t i hi h param => ?_)
      (by simpa using run)
    rw [length_append, length_singleton] at hi
    by_cases old : i < done.length
    · exact keeps t i (covers t i old h param)
    · obtain rfl : i = done.length := by omega
      obtain ⟨p, hp, ht⟩ := h
      grind

/-! ## Joining views -/

def Grown (ls ls' : Lifetimes) : Prop :=
  ∀ n l, (n, l) ∈ ls → ∃ l', (n, l') ∈ ls' ∧ l'.tensor = l.tensor ∧ l'.first = l.first ∧
    l.last ≤ l'.last

theorem Covers.grown (grown : Grown ls ls') (h : Covers g steps ls t i) :
    Covers g steps ls' t i := by
  obtain ⟨l, hl, rfl, hfirst, hlast, hout⟩ := h
  obtain ⟨k, hk, same, first, last⟩ := grown _ l hl
  refine ⟨k, hk, same, by omega, by omega, fun h => ?_⟩
  have := hout h
  omega

theorem Grown.trans {ls'' : Lifetimes} (h : Grown ls ls') (h' : Grown ls' ls'') :
    Grown ls ls'' := by
  intro n l₀ he
  obtain ⟨k, hk, same, first, last⟩ := h n l₀ he
  obtain ⟨l, hl, same', first', last'⟩ := h' n k hk
  grind

theorem grown_set (keyed : ls.Keyed) {b : Lifetime} (hb : (n, b) ∈ ls) (m : Nat) :
    Grown ls (ls.set n { b with last := max b.last m }) := by
  intro k l he
  by_cases same : k = n
  · subst same
    rw [keyed.unique he hb]
    grind [Lifetimes.mem_set, Nat.le_max_left]
  · exact ⟨l, Lifetimes.mem_set.2 (Or.inr ⟨he, same⟩), rfl, rfl, Nat.le_refl _⟩

def base (g : Arena) (t : TensorId) : TensorId := baseTensor g (g.tensors.size + 1) t

/-- What holds when the views among some of the records have been joined: only records of tensors
that are no views have changed, and they last as long as the views that were joined to them. -/
structure Joined (g : Arena) (steps : List OpId) (ls done acc : Lifetimes)
    (names : List (Option String)) : Prop where
  records : Records g steps acc
  grown : Grown ls acc
  kept : ∀ e, (g.tensor e.2.tensor).viewOf.isSome → (e ∈ acc ↔ e ∈ ls)
  longer : ∀ e ∈ done, (g.tensor e.2.tensor).viewOf.isSome →
    (g.tensor (base g e.2.tensor)).isParam = false →
    ∃ b, ((g.tensor (base g e.2.tensor)).name, b) ∈ acc ∧ b.tensor = base g e.2.tensor ∧
      e.2.last ≤ b.last
  names : ∀ n ∈ names, ∃ e ∈ ls, e.1 = n ∧ (g.tensor e.2.tensor).viewOf.isSome

section Join

variable {g : Arena} {ts : Graph} {ls : Lifetimes} (sorted : Sorted g ts) (views : ViewsRead g ts)
include sorted views

variable {acc acc' : Lifetimes} {names names' : List (Option String)}

theorem base_spec (ht : t ∈ ts) : Shows g t (base g t) ∧ (g.tensor (base g t)).viewOf = none ∧
    base g t ∈ ts := by
  refine baseTensor_spec sorted views ht ?_
  have := idxOf_lt_length_iff.2 ht
  have := length_le_size sorted.nodup sorted.known
  omega

variable (records : Records g (sourceSteps g ts) ls)
  (covers : ∀ t i, Touches g (sourceSteps g ts) t i → (g.tensor t).isParam = false →
    Covers g (sourceSteps g ts) ls t i)
include records covers

theorem Joined.step {done : Lifetimes}
    (he : e ∈ ls) (joined : Joined g (sourceSteps g ts) ls done acc names)
    (run : (match acc.lookup e.1 with
      | none => return (acc, names)
      | some l =>
        if (g.tensor l.tensor).viewOf.isNone then return (acc, names)
        else if (g.tensor (base g l.tensor)).isParam then return (acc, names)
        else do
          let b ← expect .unmet (acc.lookup (g.tensor (base g l.tensor)).name)
          return (acc.set (g.tensor (base g l.tensor)).name { b with last := max b.last l.last },
            e.1 :: names) :
      Build (Lifetimes × List (Option String))) g = .ok (acc', names') g') :
    g = g' ∧ Joined g (sourceSteps g ts) ls (done ++ [e]) acc' names' := by
  -- a view is found as it is in `ls`, since only records of tensors that are no views change
  have found : (g.tensor e.2.tensor).viewOf.isSome → acc.lookup e.1 = some e.2 := fun view =>
    joined.records.keyed.lookup_iff.2 ((joined.kept e view).2 he)
  -- a turn that changes nothing must have had nothing to do
  have idle : (¬((g.tensor e.2.tensor).viewOf.isSome ∧ (g.tensor (base g e.2.tensor)).isParam =
    false)) →
      Joined g (sourceSteps g ts) ls (done ++ [e]) acc names := fun nothing =>
    ⟨joined.records, joined.grown, joined.kept,
      forall_mem_snoc.2 ⟨joined.longer, fun view param => absurd ⟨view, param⟩ nothing⟩,
        joined.names⟩
  cases hl : acc.lookup e.1 with
  | none =>
    simp only [hl, pure_ok, Prod.mk.injEq] at run
    grind
  | some l =>
    simp only [hl] at run
    have mem := joined.records.keyed.lookup_iff.1 hl
    by_cases view : (g.tensor e.2.tensor).viewOf.isSome
    · obtain rfl : l = e.2 := by grind
      rw [if_neg (by simpa [Option.isSome_iff_ne_none] using view)] at run
      split at run
      · simp_all
      · next param =>
        have param : (g.tensor (base g e.2.tensor)).isParam = false := by simpa using param
        simp only [bind_ok, expect_ok, pure_ok, Prod.mk.injEq] at run
        obtain ⟨b, _, ⟨hb, rfl⟩, ⟨rfl, rfl⟩, rfl⟩ := run
        have hb := joined.records.keyed.lookup_iff.1 hb
        obtain ⟨i, touched⟩ := (records.each e he).touched
        obtain ⟨chain, last, -⟩ := base_spec sorted views (sorted.mem_of_touches touched)
        -- the record with the name of the base is the record of the base, which is touched as well
        have own : b.tensor = base g e.2.tensor := by
          obtain ⟨j, -, touched⟩ := shown_touched sorted views chain touched
          obtain ⟨b', hb', own, -⟩ := (covers _ j touched param).grown joined.grown
          rw [joined.records.keyed.unique hb hb', own]
        have grown := grown_set joined.records.keyed hb e.2.last
        refine ⟨rfl, ⟨joined.records.keyed.set _ _, ?_⟩, joined.grown.trans grown, ?_,
          forall_mem_snoc.2 ⟨?_, fun _ _ =>
          ⟨_, Lifetimes.mem_set.2 (Or.inl rfl), own, Nat.le_max_right _ _⟩⟩,
            forall_mem_cons.2 ⟨⟨e, he, rfl, view⟩, joined.names⟩⟩
        · intro f hf
          rcases Lifetimes.mem_set.1 hf with rfl | ⟨hf, -⟩
          · obtain ⟨name, noParam, size, inside, touched⟩ := joined.records.each _ hb
            exact ⟨name, noParam, size, Nat.max_lt.2 ⟨inside, (joined.records.each _ mem).inside⟩,
              touched⟩
          · exact joined.records.each f hf
        · intro f hview
          rw [← joined.kept f hview, Lifetimes.mem_set]
          constructor
          · grind
          · intro hf
            refine Or.inr ⟨hf, fun same => ?_⟩
            have : f.2 = b := joined.records.keyed.unique (same ▸ hf) hb
            grind
        · intro f hf hview hparam
          obtain ⟨c, hc, same, longer⟩ := joined.longer f hf hview hparam
          obtain ⟨c', hc', same', -, longer'⟩ := grown _ c hc
          grind
    · have same : (g.tensor l.tensor).viewOf.isNone := by
        by_contra h
        have view' : (g.tensor l.tensor).viewOf.isSome := by
          simpa [Option.isSome_iff_ne_none] using h
        have := records.keyed.unique ((joined.kept (e.1, l) view').1 mem) he
        rw [this] at view'
        exact view view'
      simp_all

/-- Joining views leaves right records; the one of a tensor that is no view stays and covers what it
covered, and what the record of any of its views covers. -/
theorem joinViews_spec (run : joinViews ls g = .ok ls' g') :
    g = g' ∧ Records g (sourceSteps g ts) ls' ∧
      ∀ t u i j, (g.tensor t).viewOf = none → (g.tensor t).isParam = false → Shows g u t →
        Covers g (sourceSteps g ts) ls t i → Covers g (sourceSteps g ts) ls u j →
        ∃ l, ((g.tensor t).name, l) ∈ ls' ∧ l.tensor = t ∧ l.first ≤ i ∧ j ≤ l.last ∧
          ((g.tensor u).isOutput → (sourceSteps g ts).length ≤ l.last + 1) := by
  unfold joinViews at run
  simp only [bind_ok, get_ok, pure_ok] at run
  obtain ⟨_, _, ⟨rfl, rfl⟩, ⟨acc, names⟩, g₁, loop, rfl, rfl⟩ := run
  have start : Joined g (sourceSteps g ts) ls [] ls [] :=
    ⟨records, fun n l h => ⟨l, h, rfl, rfl, Nat.le_refl _⟩, fun _ _ => Iff.rfl, by simp, by simp⟩
  obtain ⟨rfl, joined⟩ := foldlM_walks (fun done (r : Lifetimes × List (Option String)) h =>
      g = h ∧ Joined g (sourceSteps g ts) ls done r.1 r.2)
        (fun done e rest split b b' h h' before turn => by
    obtain ⟨rfl, joined⟩ := before
    exact Joined.step sorted views records covers (by simp [split]) joined turn) ⟨rfl, start⟩ loop
  refine ⟨rfl, ⟨joined.records.keyed.sublist (filter_sublist.map _), fun e he => ?_⟩, ?_⟩
  · exact joined.records.each e (mem_filter.1 he).1
  · intro t u i j noView param shows_ ht hu
    -- the record of a tensor that is no view is not filtered out
    have stays : ∀ l, ((g.tensor t).name, l) ∈ acc → l.tensor = t →
        ((g.tensor t).name, l) ∈ acc.filter fun e => !names.contains e.1 := by
      intro l hl own
      refine mem_filter.2 ⟨hl, ?_⟩
      simp only [Bool.not_eq_true', contains_eq_mem, decide_eq_false_iff_not]
      intro named
      obtain ⟨e, he, same, view⟩ := joined.names _ named
      have mem : ((g.tensor t).name, e.2) ∈ acc := by
        rw [← same]
        exact (joined.kept e view).2 he
      rw [joined.records.keyed.unique mem hl, own, noView] at view
      cases view
    obtain ⟨l, hl, own, first, last, out⟩ := ht.grown joined.grown
    by_cases same : u = t
    · subst same
      obtain ⟨k, hk, -, -, last', -⟩ := hu.grown joined.grown
      rw [joined.records.keyed.unique hk hl] at last'
      grind
    · obtain ⟨k, hk, own', -, last', out'⟩ := hu
      have view : (g.tensor k.tensor).viewOf.isSome := by
        rw [own']
        rcases Relation.ReflTransGen.cases_head shows_ with rfl | ⟨v, hv, -⟩
        · exact absurd rfl same
        · simp [hv]
      obtain ⟨_, touched⟩ := (records.each _ hk).touched
      obtain ⟨chain, end_, -⟩ := base_spec sorted views (sorted.mem_of_touches touched)
      simp only [own'] at chain end_ view
      have isBase : base g u = t := shown_unique chain shows_ end_ noView
      obtain ⟨b, hb, -, longer⟩ := joined.longer _ hk (by simpa [own'] using view)
        (by simpa [own', isBase] using param)
      simp only [own', isBase] at hb longer
      rw [joined.records.keyed.unique hb hl] at longer
      grind

end Join

/-- The lifetimes are right, no tensor has two of them, and they cover the live ranges of all
tensors that are neither parameters nor views. -/
theorem lifetimes_spec {ts : Graph} {ls : List Lifetime} (sorted : Sorted g ts)
    (views : ViewsRead g ts) (run : lifetimes (sourceSteps g ts) g = .ok ls g') :
    g = g' ∧ (∀ l ∈ ls, Record g (sourceSteps g ts) ((g.tensor l.tensor).name, l)) ∧
    (ls.map (·.tensor)).Nodup ∧
      ∀ t i, (g.tensor t).isParam = false → (g.tensor t).viewOf = none → LiveAt g ts t i →
        ∃ l ∈ ls, l.tensor = t ∧ l.first ≤ i ∧ i ≤ l.last := by
  unfold lifetimes at run
  simp only [bind_ok, pure_ok] at run
  obtain ⟨ls₁, g₁, walk, ls₂, g₂, join, _, g₃, check, rfl, rfl⟩ := run
  obtain ⟨rfl, records, covers⟩ := records_steps (sourceSteps g ts) [] rfl
    ⟨by simp [Lifetimes.Keyed], by simp⟩ (by simp) walk
  obtain ⟨rfl, records', joined⟩ := joinViews_spec sorted views records covers join
  have same : g = g₃ :=
    forIn_keeps (f := fun e => require _ _) (g = ·)
      (fun _ _ _ _ _ start step => start.trans (require_ok.1 step).2) rfl check
  subst same
  refine ⟨rfl, fun l hl => ?_, ?_, ?_⟩
  · obtain ⟨e, he, rfl⟩ := mem_map.1 hl
    have record := records'.each e he
    exact ⟨rfl, record.noParam, record.size, record.inside, record.touched⟩
  · refine Nodup.of_map (fun t => (g.tensor t).name) ?_
    have : ((ls₂.map (·.2)).map (·.tensor)).map (fun t => (g.tensor t).name) = ls₂.map (·.1) := by
      rw [map_map, map_map]
      exact map_congr_left fun e he => (records'.each e he).name.symm
    rw [this]
    exact records'.keyed
  · rintro t i param noView ⟨⟨u, a, shown, touched, before⟩, later⟩
    obtain ⟨j, hj, touched⟩ := shown_touched sorted views shown touched
    have ht := covers t j touched param
    -- whatever shows `t` is `t` or a view, hence no parameter
    have noParam : ∀ u ∈ ts, Shows g u t → (g.tensor u).isParam = false := by
      intro u hu shown
      rcases Relation.ReflTransGen.cases_head shown with rfl | ⟨v, hv, -⟩
      · exact param
      · exact views.noParam u hu (by simp [hv])
    rcases later with ⟨w, b, shown', touched', after⟩ | ⟨inside, w, hw, shown', out⟩
    · have hb := covers w b touched' (noParam w (sorted.mem_of_touches touched') shown')
      grind
    · have hk : ∃ k, Touches g (sourceSteps g ts) w k := by
        rcases Relation.ReflTransGen.cases_head shown' with rfl | ⟨v, hv, -⟩
        · exact ⟨j, touched⟩
        · obtain ⟨o, ho⟩ := exists_mem_of_ne_nil _ (views.produced w hw (by simp [hv]))
          exact sorted.touches_of_source hw ho
      obtain ⟨k, touched'⟩ := hk
      have hb := covers w k touched' (noParam w hw shown')
      grind

end Graph

end TensorGraph

import TensorGraph.Proofs.LibraryWalk
import TensorGraph.Proofs.MemoryPlan

/-!
# Outputs of a library

The library of a graph brings each output into the buffer of its slot, by computing it there or by
copying it there after the run (`Model.Delivers`).
-/

namespace TensorGraph.Library

open TensorGraph.Graph List

variable {t : TensorId}

/-- The library of a graph can be written and delivers each output, in the given order, to a slot
behind those of the inputs. -/
def DeliversAll (g : Arena) (platform : Platform) (e : Emitter) (ts outputs : List TensorId) :
    Prop :=
  ∃ m, Model.ofGraph? g platform e ts outputs = .ok m ∧ ∀ (i : Nat) t, outputs[i]? = some t →
    m.Delivers g t ((ts.filter fun t => (g.tensor t).isInput).length + i)

section Delivery

variable {g : Arena} {platform : Platform} {e : Emitter} {ts outputs : List TensorId}
  (ready : Ready g platform e ts)
  (perm : outputs.Perm (ts.filter fun t => (g.tensor t).isOutput))
include ready

variable {v : TensorId} {i : Nat}

theorem linked_of_lead (lead : FirstViewsLead g ts) (ht : t ∈ ts) : Model.Linked g t := by
  intro stored shown v view
  have inside := (ready.inside t ht).1 stored.2
  refine (ready.decided v (ready.before t ht v view).mem).2 ⟨t, ?_, shown⟩
  cases output : (g.tensor t).isOutput with
  | true => exact lead t ht output inside t v .refl view
  | false =>
    have marked : (g.tensor t).hasOutputAliases := shown.resolve_left (by simp [output])
    obtain ⟨w, x, first, hx, outputX, chain, insideX⟩ := output_of_alias ready.before ready.produced
      (fun v hv => (ready.decided v hv).1) ht marked
    have hwt := (firstView?_some first).2
    exact lead x hx outputX (insideX ((inside_view hwt).2 ⟨stored.1, output, inside⟩)) t v
      (chain.tail hwt) view

theorem stored_of_view (ht : t ∈ ts) (inside : Inside g t) (view : (g.tensor t).viewOf = some v) :
    Stored g t :=
  ⟨ready.produced t ht (by simp [view]), (ready.inside t ht).2 inside⟩

theorem lead_of_linked (linked : ∀ t ∈ ts, Model.Linked g t) {m : List (String × Nat)}
    (own : ∀ t ∈ ts, (g.tensor t).isOutput → Stored g t → BaseNumber g m t (outputs.idxOf t))
    (mem : ∀ t ∈ ts, (g.tensor t).isOutput → t ∈ outputs) : FirstViewsLead g ts := by
  intro t ht output inside u v chain view
  -- all that the output shows is marked
  have marks : ∀ {u}, Shows g t u → ∀ v, (g.tensor u).viewOf = some v →
      Inside g u ∧ OutputAlias g u := by
    intro u chain
    induction chain with
    | refl => exact fun v _ => ⟨inside, Or.inl output⟩
    | tail chain hw ih =>
      intro v hv
      obtain ⟨insideW, alias_⟩ := ih _ hw
      have hwts := shows_mem ready.before ht chain
      exact ⟨((inside_view hw).1 insideW).2.2,
        Or.inr (linked _ hwts (stored_of_view ready hwts insideW hw) alias_ _ hw)⟩
  obtain ⟨insideU, aliasU⟩ := marks chain v view
  have hu := shows_mem ready.before ht chain
  have marked := linked u hu (stored_of_view ready hu insideU view) aliasU v view
  have hv := (ready.before u hu v view).mem
  obtain ⟨w, x, first, hx, outputX, chainX, insideX⟩ := output_of_alias ready.before ready.produced
    (fun v hv => (ready.decided v hv).1) hv marked
  obtain ⟨hw, hwv⟩ := firstView?_some first
  have insideX := insideX ((inside_view hwv).2 ((inside_view view).1 insideU))
  -- the output behind the first view has the same base, so it is the same output
  have storedOf : ∀ {y z : TensorId}, y ∈ ts → Inside g y → Shows g y z →
    (g.tensor z).viewOf = some v → Stored g y := by
    intro y z hy insideY chainY hz
    rcases Relation.ReflTransGen.cases_head chainY with rfl | ⟨c, hc, -⟩
    · exact stored_of_view ready hy insideY hz
    · exact stored_of_view ready hy insideY hc
  obtain ⟨r, base, last, number⟩ := own t ht output (storedOf ht inside chain view)
  have toBase : Shows g v r := by
    have functional : Relator.RightUnique fun u v => (g.tensor u).viewOf = some v :=
      fun _ _ _ hb hc => Option.some.inj (hb.symm.trans hc)
    rcases Relation.ReflTransGen.total_of_right_unique functional (chain.tail view) base with h | h
    · exact h
    · rcases Relation.ReflTransGen.cases_head h with rfl | ⟨c, hc, -⟩
      · exact .refl
      · rw [last] at hc
        cases hc
  have numberX : BaseNumber g m x (outputs.idxOf t) :=
    ⟨r, (chainX.tail hwv).trans toBase, last, number⟩
  have same := numberX.unique (own x hx outputX (storedOf hx insideX chainX hwv))
  obtain rfl : t = x := (idxOf_inj (mem t ht output)).1 same
  rw [first, view_unique ready.before ht chain chainX view hwv]

include perm

omit ready in
theorem mem_outputs : t ∈ outputs ↔ t ∈ ts ∧ (g.tensor t).isOutput := by
  rw [perm.mem_iff, mem_filter]

theorem own_of_lead (lead : FirstViewsLead g ts) (ht : t ∈ outputs) (stored : Stored g t)
    (number : BaseNumber g (outputSlots g ts outputs) t i) : i = outputs.idxOf t := by
  obtain ⟨htts, output⟩ := (mem_outputs perm).1 ht
  obtain ⟨r, base, last, hi⟩ := number
  have hr := shows_mem ready.before htts base
  obtain ⟨x, hx, chain, insideX⟩ :=
    (numbered ready.distinct ready.before ready.produced perm).origin r hr i hi
  have inside := (ready.inside t htts).1 stored.2
  have made : (g.tensor r).src.ops ≠ [] := by
    rcases Relation.reflTransGen_iff_eq_or_transGen.1 base with rfl | above
    · exact stored.1
    · exact (inside r above).1
  obtain ⟨hxts, outputX⟩ := (mem_outputs perm).1 (mem_of_getElem? hx)
  obtain rfl := lead.unique htts hxts output outputX inside (insideX made (inside_of_base last))
    base chain
  have nodup : outputs.Nodup := perm.nodup_iff.2 ((Nodup.of_map _ ready.distinct).filter _)
  grind

namespace Model

variable {m : Model} (h : Assembled g platform ts outputs ts m)
include h

omit ready perm in
theorem storage_shows (ht : t ∈ ts) (chain : Shows g t v) :
    v ∈ ts ∧ m.storage (label g v) = m.storage (label g t) := by
  induction chain with
  | refl => exact ⟨ht, rfl⟩
  | tail _ hv ih =>
    obtain ⟨hw, same⟩ := ih
    obtain ⟨hvts, step⟩ := h.views _ hw _ hv
    exact ⟨hvts, step.symm.trans same⟩

omit ready in
theorem filter_records (lt : i < outputs.length) :
    m.records.filter (·.slot == (i + m.inputCount : Int)) =
    m.outputRecords.filter (·.slot == (i + m.inputCount : Int)) := by
  unfold outputRecords
  rw [filter_filter]
  refine filter_congr fun r _ => ?_
  rw [perm.length_eq, ← h.outputCount] at lt
  grind

theorem goes_of_delivers (ht : outputs[i]? = some t)
    (delivers : m.Delivers g t (i + m.inputCount)) :
    Goes g outputs m.outputs t i := by
  have lt := (List.getElem?_eq_some_iff.1 ht).1
  have recorded := delivers.recorded
  obtain ⟨rs, tensors, goes, same⟩ := h.records
  rw [filter_records perm h lt, same] at recorded
  obtain ⟨p, hp, eq⟩ : ∃ p ∈ rs, recordOf g p.1 (p.2 + m.inputCount) = recordOf g t
    (i + m.inputCount) := by
    have mem :
        recordOf g t (i + m.inputCount) ∈ (rs.map fun p => recordOf g p.1 (p.2 + m.inputCount)) :=
      (List.mem_filter.1 (recorded ▸ List.mem_singleton.2 rfl)).1
    exact List.mem_map.1 mem
  have hpts : p.1 ∈ ts := by grind [List.mem_map_of_mem]
  have sameTensor : p.1 = t := List.inj_on_of_nodup_map ready.distinct hpts
    ((mem_outputs perm).1 (List.mem_of_getElem? ht)).1 (congrArg Record.name eq)
  have sameNumber : (p.2 : Int) + m.inputCount = i + m.inputCount := congrArg Record.slot eq
  grind

theorem delivers_of_lead (lead : FirstViewsLead g ts) (ht : outputs[i]? = some t) :
    m.Delivers g t (i + m.inputCount) := by
  have nodupTs : ts.Nodup := List.Nodup.of_map _ ready.distinct
  have nodup : outputs.Nodup := perm.nodup_iff.2 (nodupTs.filter _)
  have mem := List.mem_of_getElem? ht
  obtain ⟨htts, output⟩ := (mem_outputs perm).1 mem
  obtain ⟨lt, get⟩ := List.getElem?_eq_some_iff.1 ht
  have index : outputs.idxOf t = i := by rw [← get, nodup.idxOf_getElem]
  have only : ∀ u ∈ outputs, (outputs.idxOf u : Int) + m.inputCount = i + m.inputCount ↔ u = t := by
    grind [List.idxOf_inj]
  refine ⟨?_, ?_⟩
  · obtain ⟨rs, tensors, goes, same⟩ := h.records
    have own : ∀ p ∈ rs, p.2 = outputs.idxOf p.1 := by
      intro p hp
      have hpo : p.1 ∈ outputs := by grind
      have goesP := goes p hp
      unfold Goes at goesP
      split at goesP
      · next stored =>
        rw [h.numbers] at goesP
        exact own_of_lead ready perm lead hpo stored goesP
      · exact goesP
    have records : m.outputRecords =
        (ts.filter fun t => (g.tensor t).isOutput).map fun u =>
          recordOf g u (outputs.idxOf u + m.inputCount) := by
      rw [same, ← tensors, List.map_map]
      refine List.map_congr_left fun p hp => ?_
      simp only [Function.comp_apply, own p hp]
    rw [filter_records perm h lt, records, List.filter_map,
      List.filter_eq_singleton (nodupTs.filter _)
      (List.mem_filter.2 ⟨htts, output⟩)]
    · simp only [List.map_cons, List.map_nil, index]
      rfl
    · grind [recordOf]
  · have slots : ∀ u ∈ ts.filter (fun t => (g.tensor t).isOutput && !decide (Stored g t)),
        (copyOf g outputs m.inputCount u).slot = i + m.inputCount ↔ u = t := by
      intro u hu
      obtain ⟨huts, copied⟩ := List.mem_filter.1 hu
      exact only u ((mem_outputs perm).2 ⟨huts, by simp_all⟩)
    by_cases stored : Stored g t
    · left
      obtain ⟨j, number, -, storage⟩ := h.bound t htts stored (Or.inl output)
      rw [h.numbers] at number
      obtain rfl : j = i := (own_of_lead ready perm lead mem stored number).trans index
      refine ⟨storage, ?_⟩
      rw [h.copies]
      rintro c hc eq
      obtain ⟨u, hu, rfl⟩ := List.mem_map.1 hc
      grind
    · right
      obtain ⟨-, -, bytes, sized⟩ := ready.typed t htts
      refine ⟨copyOf g outputs m.inputCount t, ?_, ?_, ?_,
        rfl, by simp [copyOf, sized, Except.toOption]⟩
      · rw [h.copies, List.filter_map, List.filter_eq_singleton (nodupTs.filter _)
          (List.mem_filter.2 ⟨htts, by simp [output, stored]⟩)]
        · rfl
        · intro u hu
          simpa using slots u hu
      all_goals
        have shows_ : Shows g t ((g.tensor t).external.getD t) := by
          cases outside : (g.tensor t).external with
          | none => exact .refl
          | some x => exact ready.outside t htts x outside
        obtain ⟨hx, same⟩ := storage_shows h htts shows_
      · exact h.held _ hx
      · exact same

end Model

theorem delivers_iff_lead : DeliversAll g platform e ts outputs ↔ FirstViewsLead g ts := by
  have mem : ∀ {t}, t ∈ ts → (g.tensor t).isOutput → t ∈ outputs := fun ht output =>
    (mem_outputs perm).2 ⟨ht, output⟩
  constructor
  · rintro ⟨m, run, delivers⟩
    rcases Model.ofGraph?_spec ready perm with ⟨linked, m', run', h⟩ | ⟨-, f, failed⟩
    · cases run.symm.trans run'
      refine lead_of_linked ready (m := m.outputs) linked (fun t ht output stored => ?_) fun t ht =>
        mem ht
      have get := getElem?_idxOf (mem ht output)
      have goes := Model.goes_of_delivers ready perm h get (by
        rw [h.inputCount, Int.add_comm]
        exact delivers _ _ get)
      simpa [Goes, stored] using goes
    · rw [run] at failed
      cases failed
  · intro lead
    rcases Model.ofGraph?_spec ready perm with ⟨-, m, run, h⟩ | ⟨⟨t, ht, broken⟩, -⟩
    · refine ⟨m, run, fun i t ht => ?_⟩
      rw [← h.inputCount, Int.add_comm]
      exact Model.delivers_of_lead ready perm h lead ht
    · exact absurd (linked_of_lead ready lead ht) broken

end Delivery

/-- What a graph has to be before its marks are set: sorted, with names of its own, with element
types and operators that can be written, and without marks that contradict it. -/
structure Writable (g : Arena) (platform : Platform) (e : Emitter) (ts : List TensorId) : Prop where
  sorted : Sorted g ts
  views : ViewsRead g ts
  bounds : ∀ t ∈ ts, ∀ d ∈ (g.tensor t).shape, 0 ≤ (g.dim d).upper
  distinct : (ts.map (label g)).Nodup
  present : ∀ t ∈ ts, (g.tensor t).nop = false
  inputs : ∀ t ∈ ts, (g.tensor t).isInput → (g.tensor t).src.ops = []
  constants : ∀ t ∈ ts, (g.tensor t).data.isSome → (g.tensor t).src.ops = [] ∧
    (g.tensor t).isInput = false
  typed : ∀ t ∈ ts, (∃ x, pointerText? platform (g.tensor t).dtype = .ok x) ∧
    (∃ x, Record.dtypeText? (g.tensor t).dtype = .ok x) ∧ ∃ n, Dtype.size?
      (g.tensor t).dtype = .ok n
  emits : ∀ t ∈ ts, ∀ o ∈ (g.tensor t).src.ops, (∃ d, e.decl o = .ok d) ∧ ∃ c, e.call o = .ok c
  params : ∀ t ∈ ts, (g.tensor t).isParam → (g.tensor t).src.ops = [] ∧ (g.tensor t).isInput = false
  shown : ∀ t ∈ ts, (g.tensor t).hasOutputAliases → ∃ u ∈ ts, (g.tensor u).viewOf = some t
  external : ∀ t ∈ ts, (g.tensor t).external = none

section Marks

variable {g g₁ g₂ g' : Arena} {platform : Platform} {e : Emitter} {ts : List TensorId} {p : Plan}
  (w : Writable g platform e ts) (marked : markParams ts g = .ok () g₁)
    (viewed : markViews ts g₁ = .ok () g₂)
  (planned : plan ts g₂ = .ok p g')
include w marked viewed

theorem Writable.marks : AliasMarks g ts g₁ ∧ StorageMarks g₁ ts g₂ := by
  have older := viewsBack_of_sorted w.sorted w.views
  rw [markParams_eq] at marked
  cases marked
  rw [markViews_eq] at viewed
  cases viewed
  obtain ⟨first, -⟩ := markParams_marks w.sorted.nodup w.sorted.known
    (fun t ht v hv => w.sorted.known v (view_before w.sorted w.views ht hv).mem) older
  refine ⟨first, (markViews_marks w.sorted.nodup ?_ ?_).1⟩
  · rw [first.same.size]
    exact w.sorted.known
  · unfold ViewsBack
    simp only [first.same.viewOf]
    exact older

theorem Writable.param_eq (ht : t ∈ ts) :
    (g₂.tensor t).isParam = ((g.tensor t).src.ops.isEmpty && !(g.tensor t).isInput) := by
  obtain ⟨first, second⟩ := w.marks marked viewed
  rw [second.param t, first.param t ht]
  by_cases param : (g.tensor t).isParam
  · obtain ⟨leaf, inner⟩ := w.params t ht param
    simp [leaf, inner]
  · simp [param]

include planned

theorem Writable.places :
    Moved g₂ g' ∧ (∀ t ∈ ts, (g.tensor t).viewOf = none → (g.tensor t).src.ops ≠ [] →
      ∃ a, (g'.tensor t).offset = some a ∧ 0 ≤ a) ∧ ∀ t ∈ ts, (g.tensor t).data.isSome →
    ∃ a, (g'.tensor t).offset = some a ∧ 0 ≤ a := by
  obtain ⟨first, second⟩ := w.marks marked viewed
  have same := first.same.trans second.same
  have data : ∀ t, (g₂.tensor t).data = (g.tensor t).data := fun t => by rw [same.tensor t]
  have sorted := same.sorted w.sorted
  have views : ViewsRead g₂ ts := by
    refine ⟨?_, ?_, ?_⟩
    all_goals simp only [same.viewOf, same.src, same.op]
    · exact w.views.produced
    · exact w.views.reads
    · intro t ht view
      have produced := w.views.produced t ht view
      simp [w.param_eq marked viewed ht, produced]
  have bounds : ∀ t ∈ ts, ∀ d ∈ (g₂.tensor t).shape, 0 ≤ (g₂.dim d).upper := by
    intro t ht
    rw [same.dim, same.tensor t]
    exact w.bounds t ht
  have constants : ∀ t ∈ ts, (g₂.tensor t).data.isSome → (g₂.tensor t).isParam ∧
    (g₂.tensor t).viewOf = none := by
    intro t ht known
    obtain ⟨leaf, inner⟩ := w.constants t ht (data t ▸ known)
    refine ⟨by simp [w.param_eq marked viewed ht, leaf, inner], ?_⟩
    by_contra view
    rw [same.viewOf] at view
    exact w.views.produced t ht (Option.isSome_iff_ne_none.2 view) leaf
  obtain ⟨ls, lives, plan⟩ := planned_of_run sorted views bounds constants planned
  refine ⟨plan.moved, fun t ht base produced => ?_, fun t ht known => ?_⟩
  · obtain ⟨layout, perm, -, -⟩ := layout_lifetimes sorted views bounds lives
    obtain ⟨o, ho⟩ := exists_mem_of_ne_nil _ produced
    obtain ⟨i, touched⟩ := sorted.touches_of_source ht (same.src ▸ ho)
    have needs : NeedsPlace g₂ t := by
      refine ⟨by simp [w.param_eq marked viewed ht, produced], ?_⟩
      rw [same.viewOf]
      exact base
    obtain ⟨-, -, -, covered⟩ := lifetimes_spec sorted views lives
    obtain ⟨l, hl, rfl, -⟩ := covered t i needs.1 needs.2
      ⟨⟨t, i, .refl, touched, Nat.le_refl i⟩, Or.inl ⟨t, i, .refl, touched, Nat.le_refl i⟩⟩
    obtain ⟨q, hq, rfl⟩ := mem_map.1 (perm.mem_iff.2 hl)
    exact ⟨q.offset, plan.placed q hq needs, (layout.start q hq).1⟩
  · obtain ⟨a, n, occupies, lower, -⟩ := plan.inside t ht (data t ▸ known)
    exact ⟨a, occupies.offset, lower⟩

theorem Writable.ready : Ready g' platform e ts ∧ SameViews g g' ∧ ∀ t, (g'.tensor t).isInput =
    (g.tensor t).isInput := by
  obtain ⟨first, second⟩ := w.marks marked viewed
  obtain ⟨moved, placed, constants⟩ := w.places marked viewed planned
  have same := first.same.trans second.same
  have tensor : ∀ t, g'.tensor t = { g.tensor t with
      isParam := (g₂.tensor t).isParam, hasOutputAliases := (g₂.tensor t).hasOutputAliases
      external := (g₂.tensor t).external, offset := (g'.tensor t).offset } := fun t => by
    rw [moved.tensor t, same.tensor t]
  have views : SameViews g g' :=
    ⟨fun t => by rw [tensor t], fun t => by rw [tensor t], fun t => by rw [tensor t]⟩
  have isInput : ∀ t, (g'.tensor t).isInput = (g.tensor t).isInput := fun t => by rw [tensor t]
  have dtype : ∀ t, (g'.tensor t).dtype = (g.tensor t).dtype := fun t => by rw [tensor t]
  have external : ∀ t, (g'.tensor t).external = (g₂.tensor t).external := fun t => by rw [tensor t]
  have shown : ∀ t, (g'.tensor t).hasOutputAliases = (g₁.tensor t).hasOutputAliases := fun t => by
    rw [tensor t, ← second.shown t]
  have views₁ : SameViews g g₁ := ⟨fun t => first.same.viewOf, fun t => first.same.src, fun t =>
    first.same.isOutput⟩
  have sorted₁ := first.same.sorted w.sorted
  have viewsRead₁ : ViewsRead g₁ ts := by
    refine ⟨?_, ?_, ?_⟩
    all_goals simp only [first.same.viewOf, first.same.src, first.same.op]
    · exact w.views.produced
    · exact w.views.reads
    · intro t ht view
      have produced := w.views.produced t ht view
      rw [← second.param t]
      simp [w.param_eq marked viewed ht, produced]
  have unmarked : ∀ t ∈ ts, (g₁.tensor t).external =
    none := fun t ht => by rw [first.external t, w.external t ht]
  have labels : label g' = label g := funext fun t => by rw [label, tensor t]
  refine ⟨{ before := ?_, produced := ?_, distinct := labels ▸
    w.distinct, present := ?_, param := ?_, inputs := ?_, typed := ?_,
            placed := ?_, constants := ?_, emits := ?_, inside := ?_, outside := ?_, decided :=
              ?_ }, views, isInput⟩
  · simp only [views.viewOf]
    exact fun t ht v => view_before w.sorted w.views ht
  · simp only [views.viewOf, views.src]
    exact w.views.produced
  · intro t ht
    rw [tensor t]
    exact w.present t ht
  · intro t ht
    rw [tensor t]
    exact w.param_eq marked viewed ht
  · simp only [views.src, isInput]
    exact w.inputs
  · simp only [dtype]
    exact w.typed
  · simp only [views.viewOf, views.src]
    exact placed
  · intro t ht known
    rw [tensor t] at known
    exact constants t ht known
  · simp only [views.src]
    exact w.emits
  · intro t ht
    rw [external, external_none_iff sorted₁ viewsRead₁ unmarked second ht, views₁.inside_eq,
      views.inside_eq]
  · intro t ht x hx
    have chain := shows_external sorted₁ viewsRead₁ unmarked second ht (external t ▸ hx)
    rwa [views₁.shows_eq, ← views.shows_eq] at chain
  · intro v hv
    simp only [OutputAlias, shown, views.firstView?_eq, views.isOutput]
    rw [first.shown v]
    cases decided : firstView? g ts v with
    | some u => simp
    | none =>
      refine ⟨fun old => ?_, by simp⟩
      obtain ⟨u, hu, view⟩ := w.shown v hv old
      obtain ⟨x, found⟩ := firstView?_of_view hu view
      rw [decided] at found
      cases found

end Marks

/-- The library of a marked and planned graph can be written, records each output at its own slot
and brings its contents there, exactly if first views lead to the outputs that the graph stores
itself. -/
theorem library_delivers_iff {g g₁ g₂ g' : Arena} {platform : Platform} {e : Emitter}
    {ts outputs : List TensorId} {p : Plan} (w : Writable g platform e ts)
    (perm : outputs.Perm (ts.filter fun t => (g.tensor t).isOutput))
    (marked : markParams ts g = .ok () g₁) (viewed : markViews ts g₁ = .ok () g₂)
    (planned : plan ts g₂ = .ok p g') :
    DeliversAll g' platform e ts outputs ↔ FirstViewsLead g ts := by
  obtain ⟨ready, views, -⟩ := w.ready marked viewed planned
  simp only [← views.isOutput] at perm
  rw [← views.firstViewsLead_iff]
  exact delivers_iff_lead ready perm

/-- `a` is made of `x` and shown by the output `v` and by `u`, from which the output `z` is made. -/
def sharedArena : Arena where
  dims := #[.static 4, .static 8, .static 32]
  tensors :=
    let made (name : String) (o : Nat) (shape : List DimId) : Tensor :=
      { Tensor.ofShape shape with name := some name, src := ⟨[⟨o⟩], false⟩ }
    #[{ Tensor.ofShape [⟨0⟩, ⟨1⟩] with name := some "x", isInput := true }, made "a" 0 [⟨0⟩, ⟨1⟩],
      { made "v" 1 [⟨2⟩] with viewOf := some ⟨1⟩, isOutput := true },
        { made "u" 2 [⟨1⟩, ⟨0⟩] with viewOf := some ⟨1⟩ },
      { made "z" 3 [⟨1⟩, ⟨0⟩] with isOutput := true }]
  ops :=
    let applied (x y : Nat) : Operator :=
      { Operator.ofClass .elementwise "elementwise" with inputs := some [⟨x⟩], outputs := some [⟨y⟩]
        }
    #[applied 0 1, applied 1 2, applied 1 3, applied 3 4]
  namer := ⟨0, 0, [], []⟩
  target := none

def blankEmitter : Emitter := ⟨fun _ => .ok "", fun _ => .ok ""⟩

theorem writable_shared {ts : List TensorId} (sorted : Sorted sharedArena ts)
    (views : ViewsRead sharedArena ts) (distinct : (ts.map (label sharedArena)).Nodup)
    (known : ∀ t ∈ ts, t ∈ [⟨0⟩, ⟨1⟩, ⟨2⟩, ⟨3⟩, (⟨4⟩ : TensorId)]) :
    Writable sharedArena .cuda blankEmitter ts := by
  have all : ∀ {P : TensorId → Prop}, (∀ t ∈ [⟨0⟩, ⟨1⟩, ⟨2⟩, ⟨3⟩, (⟨4⟩ : TensorId)], P t) →
    ∀ t ∈ ts, P t :=
    fun h t ht => h t (known t ht)
  have half : ∀ t ∈ ts, (sharedArena.tensor t).dtype = "float16" := all (by decide)
  refine ⟨sorted, views, all (by decide), distinct, all (by decide),
    all (by decide), all (by decide), fun t ht => ?_,
    fun _ _ _ _ => ⟨⟨"", rfl⟩, "", rfl⟩, all (by decide), fun t ht h => ?_, all (by decide)⟩
  · rw [half t ht]
    exact ⟨⟨_, rfl⟩, ⟨_, rfl⟩, _, rfl⟩
  · have unmarked : ∀ t ∈ ts, (sharedArena.tensor t).hasOutputAliases = false := all (by decide)
    rw [unmarked t ht] at h
    cases h

def outputFirst : List TensorId := [⟨0⟩, ⟨1⟩, ⟨2⟩, ⟨3⟩, ⟨4⟩]

def outputLast : List TensorId := [⟨0⟩, ⟨1⟩, ⟨3⟩, ⟨4⟩, ⟨2⟩]

theorem firstViewsLead_outputFirst : FirstViewsLead sharedArena outputFirst := by
  intro t ht output _ u v chain view
  have cases : ∀ t ∈ outputFirst, (sharedArena.tensor t).isOutput →
      t = ⟨2⟩ ∨ (sharedArena.tensor t).viewOf = none := by decide
  rcases Relation.ReflTransGen.cases_head chain with rfl | ⟨w, hw, rest⟩
  · rcases cases t ht output with rfl | base
    · cases view
      rfl
    · rw [base] at view
      cases view
  · rcases cases t ht output with rfl | base
    · cases hw
      rcases Relation.ReflTransGen.cases_head rest with rfl | ⟨y, hy, -⟩
      · cases view
      · cases hy
    · rw [base] at hw
      cases hw

theorem plan_shared : ∀ ts ∈ [outputFirst, outputLast],
    (match plan ts (ts.foldl viewTurn (ts.foldr (fun t g => markTurn g t) sharedArena)) with
      | .ok _ _ => true
      | .error _ _ => false) = true := by
  intro ts hts
  rcases mem_cons.1 hts with rfl | hts
  · cbv
  · rw [mem_singleton.1 hts]
    cbv

/-- With `v` in front of `u` both outputs are delivered, with `u` in front they are not. -/
theorem library_delivers_iff_shared :
    (∃ g₁ g₂ p g', markParams outputFirst sharedArena = .ok () g₁ ∧
      markViews outputFirst g₁ = .ok () g₂ ∧ plan outputFirst g₂ = .ok p g' ∧
      DeliversAll g' .cuda blankEmitter outputFirst [⟨4⟩, ⟨2⟩]) ∧ ∃ g₁ g₂ p g',
    markParams outputLast sharedArena = .ok () g₁ ∧ markViews outputLast g₁ = .ok () g₂ ∧
    plan outputLast g₂ = .ok p g' ∧ ¬ DeliversAll g' .cuda blankEmitter outputLast [⟨4⟩, ⟨2⟩] := by
  constructor
  · cases run : plan outputFirst
      (outputFirst.foldl viewTurn (outputFirst.foldr (fun t g => markTurn g t) sharedArena)) with
    | error => simpa [run] using plan_shared outputFirst (by simp)
    | ok p g' =>
      have w : Writable sharedArena .cuda blankEmitter outputFirst :=
        writable_shared (by decide) (by decide) (by decide) (by decide)
      refine ⟨_, _, p, g', markParams_eq _ _, markViews_eq _ _, run, ?_⟩
      exact (library_delivers_iff w (by decide) (markParams_eq _ _) (markViews_eq _ _) run).2
        firstViewsLead_outputFirst
  · cases run : plan outputLast
      (outputLast.foldl viewTurn (outputLast.foldr (fun t g => markTurn g t) sharedArena)) with
    | error => simpa [run] using plan_shared outputLast (by simp)
    | ok p g' =>
      have w : Writable sharedArena .cuda blankEmitter outputLast :=
        writable_shared (by decide) (by decide) (by decide) (by decide)
      refine ⟨_, _, p, g', markParams_eq _ _, markViews_eq _ _, run, ?_⟩
      rw [library_delivers_iff w (by decide) (markParams_eq _ _) (markViews_eq _ _) run]
      intro lead
      have inside : Inside sharedArena ⟨2⟩ :=
        (inside_view rfl).2 ⟨by decide, rfl, inside_of_base rfl⟩
      have first := lead ⟨2⟩ (by decide) rfl inside ⟨2⟩ ⟨1⟩ .refl rfl
      exact absurd first (by decide)

/-- Marking goes backwards and writes the mark of a tensor again at each of its views.  So in the
end a tensor is marked exactly if first views lead from it to an output. -/
theorem markParams_marked_iff {g : Arena} {ts : Graph} (sorted : Sorted g ts)
    (views : ViewsRead g ts) (unmarked : ∀ t, (g.tensor t).hasOutputAliases = false) :
    ∃ g', markParams ts g = .ok () g' ∧ ∀ v, (g'.tensor v).hasOutputAliases ↔
      ∃ u, Relation.TransGen (fun v u => firstView? g ts v = some u) v u ∧
        (g.tensor u).isOutput := by
  obtain ⟨⟨-, -, -, shown⟩, -⟩ := markParams_marks sorted.nodup sorted.known
    (fun t ht v hv => sorted.known v (view_before sorted views ht hv).mem)
      (viewsBack_of_sorted sorted views)
  refine ⟨_, markParams_eq g ts, fun v => ⟨fun marked => ?_, ?_⟩⟩
  · -- a first view stands behind the tensor, so the chain ends
    induction hn : ts.length - ts.idxOf v using Nat.strongRecOn generalizing v with
    | _ n ih =>
      rw [shown] at marked
      cases first : firstView? g ts v with
      | none => simp [first, unmarked] at marked
      | some w =>
        obtain ⟨hw, view⟩ := firstView?_some first
        have behind := view_before sorted views hw view
        have inList := idxOf_lt_length_iff.2 hw
        unfold Before at behind
        rcases Bool.or_eq_true_iff.1 (first ▸ marked) with output | marked
        · exact ⟨w, .single first, output⟩
        · obtain ⟨u, chain, output⟩ := ih _ (by omega) w marked rfl
          exact ⟨u, .head first chain, output⟩
  · rintro ⟨u, chain, output⟩
    induction chain using Relation.TransGen.head_induction_on with
    | single first => rw [shown, first]; simp [output]
    | head first _ marked => rw [shown, first]; simp [marked]

/-- The output `v` shows `a`, but it is not the first that does. -/
theorem markParams_marked_iff_last : ∃ g', markParams outputLast sharedArena = .ok () g' ∧
    (sharedArena.tensor ⟨2⟩).viewOf = some ⟨1⟩ ∧ (sharedArena.tensor ⟨2⟩).isOutput ∧
      ¬ (g'.tensor ⟨1⟩).hasOutputAliases := by
  obtain ⟨g', run, marked⟩ := markParams_marked_iff (show Sorted sharedArena outputLast by decide)
    (by decide)
    (by rintro ⟨_ | _ | _ | _ | _ | i⟩ <;> rfl)
  refine ⟨g', run, rfl, rfl, fun h => ?_⟩
  obtain ⟨u, chain, output⟩ := (marked ⟨1⟩).1 h
  obtain ⟨w, first, rest⟩ := Relation.TransGen.head'_iff.1 chain
  obtain rfl : ⟨3⟩ = w := Option.some.inj first
  rcases rest.cases_head with rfl | ⟨_, none, -⟩
  · cases output
  · cases none

end TensorGraph.Library

import TensorGraph.Proofs.FusedElementwise
import TensorGraph.Proofs.PointwiseClusters

/-!
# One operator for each group

The groups of a graph are replaced one after the other.
-/

namespace TensorGraph

open List

variable {t : TensorId} {o : OpId}

namespace Pointwise

open Build TensorGraph.Graph Elementwise

/-- A graph as it comes from applying operators: it passes the check, operators and tensors that
belong together are in it together, and its elementwise operators take their operands, less the
constant numbers, as inputs. -/
structure WellFormed (g : Arena) (ts : Graph) : Prop where
  nodup : ts.Nodup
  valid : Valid g ts
  known : ∀ t ∈ ts, t.idx < g.tensors.size
  loose : ∀ t ∈ ts, Loose (g.tensor t)
  /-- what one operator writes is all in the graph and has the same sources -/
  siblings : ∀ t ∈ ts, ∀ o ∈ (g.tensor t).src.ops, ∀ y ∈ (g.op o).outputList,
    y ∈ ts ∧ ∀ p, p ∈ (g.tensor y).src.ops ↔ p ∈ (g.tensor t).src.ops
  /-- what uses a tensor writes something -/
  users : ∀ t ∈ ts, ∀ o ∈ (g.tensor t).dst.ops, (g.op o).outputList ≠ []
  pointwise : ∀ t ∈ ts, ∀ o ∈ (g.tensor t).src.ops, (g.op o).kind = "elementwise" →
    (g.op o).outputs = some [t] ∧
    (g.op o).args.isSome ∧ (g.op o).inputs = (g.op o).args.map fun args => args.filter fun a =>
      !(g.tensor a).isNumber
  /-- an operator and what it writes are named together -/
  named : ∀ t ∈ ts, ∀ o ∈ (g.tensor t).src.ops, (g.op o).name.isSome → (g.tensor t).name.isSome

theorem WellFormed.sound {g : Arena} {ts : Graph} (wf : WellFormed g ts) : Sound g ts :=
  ⟨wf.nodup, wf.valid, fun t ht o ho kind => (wf.pointwise t ht o ho kind).1⟩

/-- Disjoint groups of elementwise operators that are the only sources of what they write. -/
structure Grouping (g : Arena) (ts : Graph) (groups : List (List OpId)) : Prop where
  proper : ∀ ms ∈ groups, ms ≠ [] ∧ ms.Nodup
  disjoint : groups.Pairwise List.Disjoint
  eligible : ∀ ms ∈ groups, ∀ o ∈ ms, Eligible g ts o

/-- An arena in which operators have taken the places of some groups. -/
structure Fused (g : Arena) (ts : Graph) (done : List (List OpId)) (g' : Arena) : Prop where
  dims : g'.dims = g.dims
  tensors_size : g'.tensors.size = g.tensors.size
  ops_size : g'.ops.size = g.ops.size + done.length
  old : ∀ p : OpId, p.idx < g.ops.size → g'.op p = g.op p
  new : ∀ k ms, done[k]? = some ms →
    Represents g ms (g'.op ⟨g.ops.size + k⟩) ∧ (g'.op ⟨g.ops.size + k⟩).name = none
  fields : ∀ t, g'.tensor t = { g.tensor t with src := (g'.tensor t).src, dst := (g'.tensor t).dst }
  loose : ∀ t ∈ ts, Loose (g'.tensor t)
  src : ∀ t ∈ ts, ∀ p, p ∈ (g'.tensor t).src.ops ↔ p ∈ (g.tensor t).src.ops ∧
    (∀ ms ∈ done, p ∉ ms) ∨
    ∃ k ms, done[k]? = some ms ∧ p = ⟨g.ops.size + k⟩ ∧ Leaves g ms t
  dst : ∀ t ∈ ts, ∀ p, p ∈ (g'.tensor t).dst.ops ↔ p ∈ (g.tensor t).dst.ops ∧
    (∀ ms ∈ done, p ∉ ms) ∨
    ∃ k ms, done[k]? = some ms ∧ p = ⟨g.ops.size + k⟩ ∧ Enters g ms t
  sole : ∀ t ∈ ts, ∀ o, (∀ ms ∈ done, o ∉ ms) → (g.tensor t).src.ops = [o] →
    (g'.tensor t).src.ops = [o]

section Groups

variable {g : Arena} {ts : Graph} (wf : WellFormed g ts)
include wf

omit wf in
theorem Eligible.inGraph (eligible : Eligible g ts o) : InGraph g ts o := by
  obtain ⟨-, t, ht, source⟩ := eligible
  exact ⟨t, ht, by simp [source]⟩

theorem WellFormed.lt_size (member : InGraph g ts o) : o.idx < g.ops.size := by
  obtain ⟨t, ht, ho⟩ := member
  exact Arena.lt_of_applied (wf.valid.applied ht ho).1

theorem WellFormed.ordered : Ordered g ts := wf.valid.ordered

theorem Eligible.writes (eligible : Eligible g ts o) (ht : t ∈ (g.op o).outputList) :
    t ∈ ts ∧ (g.tensor t).src.ops = [o] := by
  obtain ⟨kind, u, hu, source⟩ := eligible
  have outputs := (wf.pointwise u hu o (by simp [source]) kind).1
  grind [Operator.outputList, outputs]

theorem Eligible.reads (eligible : Eligible g ts o) (ht : t ∈ (g.op o).inputList) :
    t ∈ ts ∧ o ∈ (g.tensor t).dst.ops ∧ (g.tensor t).isNumber = false := by
  obtain ⟨kind, u, hu, source⟩ := eligible
  have ho : o ∈ (g.tensor u).src.ops := by simp [source]
  obtain ⟨inside, user⟩ := wf.valid.reads hu ho ht
  obtain ⟨-, applied, inputs⟩ := wf.pointwise u hu o ho kind
  obtain ⟨args, hargs⟩ := Option.isSome_iff_exists.1 applied
  have number : !(g.tensor t).isNumber := by
    rw [Operator.inputList, inputs, hargs] at ht
    exact (mem_filter.1 ht).2
  exact ⟨inside, user, by simpa using number⟩

omit wf in
theorem fused_nil (loose : ∀ t ∈ ts, Loose (g.tensor t)) : Fused g ts [] g :=
  ⟨rfl, rfl, rfl, fun _ _ =>
    rfl, by simp, fun _ => rfl, loose, by simp, by simp, fun _ _ _ _ h => h⟩

/-! ## The next group -/

section Next

variable {done : List (List OpId)} {g' : Arena} (fused : Fused g ts done g')
  (eligible : ∀ ds ∈ done, ∀ o ∈ ds, Eligible g ts o)
  {ms : List OpId} (eligible' : ∀ o ∈ ms, Eligible g ts o) (apart : ∀ ds ∈ done, ∀ o ∈ ds, o ∉ ms)
include fused eligible eligible' apart

omit eligible apart fused in
theorem not_new (ho : o ∈ ms) (k : Nat) : o ≠ ⟨g.ops.size + k⟩ := by
  have := wf.lt_size (eligible' o ho).inGraph
  rintro rfl
  simp only at this
  omega

omit eligible apart in
theorem Fused.op_member (ho : o ∈ ms) : g'.op o = g.op o :=
  fused.old o (wf.lt_size (eligible' o ho).inGraph)

omit fused eligible in
theorem leaves_other {ds : List OpId} (hds : ds ∈ done) {p : OpId} (hp : p ∈ ds)
    (writes : t ∈ (g.op p).outputList) (reads : Reads g ms t) : Leaves g ds t := by
  obtain ⟨o, ho, ht⟩ := reads
  exact ⟨⟨p, hp, writes⟩, Or.inr ⟨o, ((eligible' o ho).reads wf ht).2.1, fun h =>
    apart ds hds o h ho⟩⟩

omit fused eligible in
theorem enters_other {ds : List OpId} (hds : ds ∈ done) {p : OpId} (hp : p ∈ ds)
    (reads : t ∈ (g.op p).inputList) (writes : Writes g ms t) : Enters g ds t := by
  obtain ⟨o, ho, ht⟩ := writes
  obtain ⟨-, source⟩ := (eligible' o ho).writes wf ht
  exact ⟨⟨p, hp, reads⟩, Or.inr ⟨o, by simp [source], fun h => apart ds hds o h ho⟩⟩

omit eligible apart in
theorem Fused.reads_iff : Reads g' ms t ↔ Reads g ms t :=
  exists_congr fun o => and_congr_right fun ho => by rw [fused.op_member wf eligible' ho]

omit eligible apart in
theorem Fused.writes_iff : Writes g' ms t ↔ Writes g ms t :=
  exists_congr fun o => and_congr_right fun ho => by rw [fused.op_member wf eligible' ho]

theorem Fused.enters_iff : Enters g' ms t ↔ Enters g ms t := by
  unfold Enters
  rw [fused.reads_iff wf eligible']
  refine and_congr_right fun reads => ?_
  obtain ⟨o, ho, hto⟩ := reads
  have ht := ((eligible' o ho).reads wf hto).1
  -- a source in another group is exchanged for the operator of that group, and none is added
  have exchanged : ∀ ds ∈ done, ∀ p ∈ ds, p ∈ (g.tensor t).src.ops →
      ∃ (k : Nat) (ds : List OpId), done[k]? = some ds ∧ Leaves g ds t := by
    intro ds hds p hp source
    obtain ⟨k, hk⟩ := getElem?_of_mem hds
    exact ⟨k, ds, hk, leaves_other wf eligible' apart hds hp (wf.valid.writes ht source)
      ⟨o, ho, hto⟩⟩
  have stems : ∀ (k : Nat) ds, done[k]? = some ds → Leaves g ds t → ∃ p ∈ ds, (g.tensor t).src.ops =
    [p] := by
    rintro k ds hk ⟨⟨p, hp, writes⟩, -⟩
    exact ⟨p, hp, ((eligible ds (mem_of_getElem? hk) p hp).writes wf writes).2⟩
  constructor
  · rintro (none | ⟨p, hp, outside⟩)
    · refine Or.inl (eq_nil_iff_forall_not_mem.2 fun p hp => ?_)
      have left : p ∉ (g'.tensor t).src.ops := by simp [none]
      rw [fused.src t ht, not_or] at left
      by_cases member : ∃ ds ∈ done, p ∈ ds
      · obtain ⟨ds, hds, hpd⟩ := member
        obtain ⟨k, ds, hk, leaves⟩ := exchanged ds hds p hpd hp
        have new : (⟨g.ops.size + k⟩ : OpId) ∈ (g'.tensor t).src.ops :=
          (fused.src t ht _).2 (Or.inr ⟨k, ds, hk, rfl, leaves⟩)
        simp [none] at new
      · grind
    · rcases (fused.src t ht p).1 hp with ⟨hp, -⟩ | ⟨k, ds, hk, rfl, leaves⟩
      · exact Or.inr ⟨p, hp, outside⟩
      · grind
  · rintro (none | ⟨p, hp, outside⟩)
    · refine Or.inl (eq_nil_iff_forall_not_mem.2 fun p hp => ?_)
      rcases (fused.src t ht p).1 hp with ⟨hp, -⟩ | ⟨k, ds, hk, rfl, leaves⟩
      · simp [none] at hp
      · grind
    · refine Or.inr ?_
      by_cases member : ∃ ds ∈ done, p ∈ ds
      · obtain ⟨ds, hds, hpd⟩ := member
        obtain ⟨k, ds, hk, leaves⟩ := exchanged ds hds p hpd hp
        exact ⟨⟨g.ops.size + k⟩, (fused.src t ht _).2 (Or.inr ⟨k, ds, hk, rfl, leaves⟩),
          fun h => not_new wf eligible' h k rfl⟩
      · exact ⟨p, (fused.src t ht p).2 (Or.inl ⟨hp, fun ds hds hpd => member ⟨ds, hds, hpd⟩⟩),
          outside⟩

theorem Fused.leaves_iff : Leaves g' ms t ↔ Leaves g ms t := by
  unfold Leaves
  rw [fused.writes_iff wf eligible']
  refine and_congr_right fun writes => ?_
  obtain ⟨o, ho, hto⟩ := writes
  obtain ⟨ht, source⟩ := (eligible' o ho).writes wf hto
  have flag : (g'.tensor t).isOutput = (g.tensor t).isOutput := by rw [fused.fields]
  rw [flag]
  refine or_congr_right ?_
  constructor
  · rintro ⟨p, hp, outside⟩
    rcases (fused.dst t ht p).1 hp with ⟨hp, -⟩ | ⟨k, ds, hk, rfl, ⟨⟨q, hq, reads⟩, -⟩⟩
    · exact ⟨p, hp, outside⟩
    · have hds := mem_of_getElem? hk
      exact ⟨q, ((eligible ds hds q hq).reads wf reads).2.1, apart ds hds q hq⟩
  · rintro ⟨p, hp, outside⟩
    by_cases member : ∃ ds ∈ done, p ∈ ds
    · obtain ⟨ds, hds, hpd⟩ := member
      obtain ⟨k, hk⟩ := getElem?_of_mem hds
      have enters := enters_other wf eligible' apart hds hpd (wf.valid.uses ht hp).2.1 ⟨o, ho, hto⟩
      exact ⟨⟨g.ops.size + k⟩, (fused.dst t ht _).2 (Or.inr ⟨k, ds, hk, rfl, enters⟩),
        fun h => not_new wf eligible' h k rfl⟩
    · exact ⟨p, (fused.dst t ht p).2 (Or.inl ⟨hp, fun ds hds hpd => member ⟨ds, hds, hpd⟩⟩),
        outside⟩

omit eligible in
theorem Fused.group (proper : ms ≠ [] ∧ ms.Nodup) : Group g' ts ms := by
  refine ⟨proper.1, proper.2, fun o ho => ?_, fun o ho t ht => ?_, fun o ho t ht => ?_,
    fun t ht => ?_, fused.loose, fun t ht o ho source => ?_, fun t ht o ho user => ?_⟩
  · rw [fused.op_member wf eligible' ho]
    obtain ⟨u, hu, source⟩ := (eligible' o ho).inGraph
    exact wf.valid.applied hu source
  · rw [fused.op_member wf eligible' ho] at ht
    obtain ⟨inside, user, number⟩ := (eligible' o ho).reads wf ht
    refine ⟨inside, (fused.dst t inside o).2 (Or.inl ⟨user, fun ds hds h => apart ds hds o h ho⟩),
      ?_⟩
    rw [fused.fields]
    exact number
  · rw [fused.op_member wf eligible' ho] at ht
    obtain ⟨inside, source⟩ := (eligible' o ho).writes wf ht
    exact ⟨inside, fused.sole t inside o (fun ds hds h => apart ds hds o h ho) source⟩
  · rw [fused.tensors_size]
    exact wf.known t ht
  · rw [fused.op_member wf eligible' ho]
    rcases (fused.src t ht o).1 source with ⟨source, -⟩ | ⟨k, ds, hk, new, -⟩
    · exact wf.valid.writes ht source
    · exact absurd new (not_new wf eligible' ho k)
  · rw [fused.op_member wf eligible' ho]
    rcases (fused.dst t ht o).1 user with ⟨user, -⟩ | ⟨k, ds, hk, new, -⟩
    · exact (wf.valid.uses ht user).2.1
    · exact absurd new (not_new wf eligible' ho k)

theorem Fused.fusable_iff : Fusable g' ms ↔ Fusable g ms := by
  have dim : g'.dim = g.dim := by
    unfold Arena.dim
    rw [fused.dims]
  have shape : ∀ t, (g'.tensor t).shape = (g.tensor t).shape := fun t => by rw [fused.fields]
  constructor
  · rintro ⟨used, enters, leaves, shapes⟩
    simp only [fused.reads_iff wf eligible', fused.writes_iff wf eligible',
      fused.enters_iff wf eligible eligible' apart, fused.leaves_iff wf eligible eligible' apart,
      dim, shape] at used enters leaves shapes
    exact ⟨used, enters, leaves, shapes⟩
  · rintro ⟨used, enters, leaves, shapes⟩
    simp only [← fused.reads_iff wf eligible', ← fused.writes_iff wf eligible',
      ← fused.enters_iff wf eligible eligible' apart, ← fused.leaves_iff wf eligible eligible'
        apart, ← dim, ← shape]
      at used enters leaves shapes
    exact ⟨used, enters, leaves, shapes⟩

theorem Fused.step {g'' : Arena} (merged : Merged g' ts ms g'') :
    Fused g ts (done ++ [ms]) g'' := by
  have last : ∀ (k : Nat) (ds : List OpId), (done ++ [ms])[k]? = some ds ↔ done[k]? = some ds ∨
    k = done.length ∧ ds = ms := by
    intro k ds
    grind
  have size := fused.ops_size
  -- the links of a tensor: those that are left, those to the operators that were there, and those
  -- to the new one
  have links : ∀ (P : List OpId → Prop) (A : Prop) (p : OpId),
      ((A ∧ (∀ ds ∈ done, p ∉ ds) ∨ ∃ (k : Nat) (ds : List OpId), done[k]? = some ds ∧
        p = ⟨g.ops.size + k⟩ ∧ P ds) ∧ p ∉ ms ∨
        p = ⟨g'.ops.size⟩ ∧ P ms) ↔
      (A ∧ (∀ ds ∈ done ++ [ms], p ∉ ds) ∨
        ∃ (k : Nat) (ds : List OpId), (done ++ [ms])[k]? = some ds ∧ p = ⟨g.ops.size + k⟩ ∧
          P ds) := by
    intro P A p
    simp only [last, mem_append, mem_singleton, or_imp, forall_and, forall_eq]
    constructor
    · rintro (⟨⟨a, outside⟩ | ⟨k, ds, hk, rfl, h⟩, hp⟩ | ⟨rfl, h⟩)
      · exact Or.inl ⟨a, outside, hp⟩
      · exact Or.inr ⟨k, ds, Or.inl hk, rfl, h⟩
      · simp_all
    · grind [not_new]
  refine ⟨merged.dims.trans fused.dims, merged.tensors_size.trans fused.tensors_size, ?_,
    fun p hp => ?_, fun k ds hk => ?_, fun t => ?_, merged.loose, fun t ht p => ?_, fun t ht p =>
    ?_, fun t ht o outside source => ?_⟩
  · rw [merged.ops_size, size, length_append, length_singleton, Nat.add_assoc]
  · rw [merged.old p (by omega), fused.old p hp]
  · rcases (last k ds).1 hk with hk | ⟨rfl, rfl⟩
    · have := (List.getElem?_eq_some_iff.1 hk).1
      rw [merged.old _ (by simp only; omega)]
      exact fused.new k ds hk
    · rw [← size]
      obtain ⟨⟨kind, members, applied, inputs, outputs⟩, name⟩ := merged.new
      refine ⟨⟨kind, members, applied, fun t => ?_, fun t => ?_⟩, name⟩
      · rw [inputs, fused.enters_iff wf eligible eligible' apart]
      · rw [outputs, fused.leaves_iff wf eligible eligible' apart]
  · rw [merged.fields, fused.fields]
  · rw [merged.src t ht, fused.src t ht, fused.leaves_iff wf eligible eligible' apart]
    exact links (Leaves g · t) _ p
  · rw [merged.dst t ht, fused.dst t ht, fused.enters_iff wf eligible eligible' apart]
    exact links (Enters g · t) _ p
  · simp only [mem_append, mem_singleton, or_imp, forall_and, forall_eq] at outside
    exact merged.sole t ht o outside.2 (fused.sole t ht o outside.1 source)

end Next

/-! ## All groups -/

variable {groups : List (List OpId)} (grouping : Grouping g ts groups)
include grouping

omit wf in
theorem Grouping.apart {done rest : List (List OpId)} {ms : List OpId}
    (split : groups = done ++ ms :: rest) :
    ∀ ds ∈ done, ∀ o ∈ ds, o ∉ ms := by
  intro ds hds o ho ho'
  have disjoint := grouping.disjoint
  rw [split, pairwise_append] at disjoint
  exact disjoint.2.2 ds hds ms mem_cons_self ho ho'

theorem Fused.fuse_iff {done rest : List (List OpId)} {ms : List OpId} {h : Arena}
    (fused : Fused g ts done h) (split : groups = done ++ ms :: rest) :
    (Fusable g ms ↔ ∃ h', (Elementwise.fuse ms >>= fun _ => pure ()) h = .ok () h') ∧
      ∀ h', (Elementwise.fuse ms >>= fun _ => pure ()) h = .ok () h' →
        Fused g ts (done ++ [ms]) h' := by
  have member : ms ∈ groups := by simp [split]
  have eligible : ∀ ds ∈ done, ∀ o ∈ ds, Eligible g ts o := fun ds hds =>
    grouping.eligible ds (by simp [split, hds])
  have eligible' := grouping.eligible ms member
  have apart := grouping.apart split
  have group := fused.group wf eligible' apart (grouping.proper ms member)
  rw [← fused.fusable_iff wf eligible eligible' apart]
  refine ⟨⟨fun fusable => ?_, ?_⟩, ?_⟩
  · obtain ⟨h', run, -⟩ := fuse_run group fusable
    exact ⟨h', bind_run run⟩
  · grind [bind_ok, fusable_of_fuse, group]
  · intro h' run
    obtain ⟨o, _, first, rest⟩ := bind_ok.1 run
    obtain ⟨-, rfl⟩ := pure_ok.1 rest
    obtain ⟨h'', again, merged⟩ := fuse_run group (fusable_of_fuse group first)
    obtain ⟨-, rfl⟩ : o = _ ∧ _ = h'' := by simpa using first.symm.trans again
    exact fused.step wf eligible eligible' apart merged

/-- If each group can be fused, then all of them can, one after the other. -/
theorem fuseAll_run (fusable : ∀ ms ∈ groups, Fusable g ms) : ∃ g', fuseAll groups g = .ok () g' ∧
    Fused g ts groups g' :=
  forM_arrives (Fused g ts) (fun _ ms _ split _ fused => by
    obtain ⟨can, next⟩ := fused.fuse_iff wf grouping split
    grind) (fused_nil wf.loose)

theorem fusable_of_fuseAll {u : Unit} {g' : Arena} (run : fuseAll groups g = .ok u g') :
    ∀ ms ∈ groups, Fusable g ms := by
  refine (forM_walks (fun done h => Fused g ts done h ∧ ∀ ms ∈ done, Fusable g ms)
    (fun done ms _ split h h' _ before turn => ?_) ⟨fused_nil wf.loose, by simp⟩ run).2
  obtain ⟨can, next⟩ := before.1.fuse_iff wf grouping split
  grind

end Groups

end Pointwise

end TensorGraph

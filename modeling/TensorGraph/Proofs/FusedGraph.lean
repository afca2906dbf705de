import TensorGraph.Proofs.FusedGroups
import TensorGraph.Proofs.Tidying

/-!
# The graph with one operator for each group

After the groups have been replaced, an operator stands for a group or for itself, and one feeds
another exactly if what it stands for feeds it when the groups are merged (`feeds_iff`).
-/

namespace TensorGraph

open List

variable {t : TensorId} {o : OpId} {ms : List OpId} {k : Nat}

namespace Pointwise

open Build TensorGraph.Graph Elementwise Relation

/-- What an operator stands for: itself if it is in no group, and the members of its group if it has
replaced one. -/
def StandsFor (g : Arena) (groups : List (List OpId)) (p a : OpId) : Prop :=
  p = a ∧ a.idx < g.ops.size ∧ (∀ ms ∈ groups, a ∉ ms) ∨
    ∃ (k : Nat) (ms : List OpId), groups[k]? = some ms ∧ p = ⟨g.ops.size + k⟩ ∧ a ∈ ms

section Fused

variable {g : Arena} {ts : Graph} (wf : WellFormed g ts) {groups : List (List OpId)}
  (grouping : Grouping g ts groups)
  {p q a b : OpId}

theorem StandsFor.sameBlock (hp : StandsFor g groups p a) (hp' : StandsFor g groups p b) :
    SameBlock groups a b := by
  rcases hp with ⟨rfl, low, -⟩ | ⟨k, ms, hk, rfl, ha⟩
  · rcases hp' with ⟨rfl, -, -⟩ | ⟨l, ns, hl, rfl, hb⟩
    · exact .refl _
    · simp only at low
      omega
  · rcases hp' with ⟨rfl, low, -⟩ | ⟨l, ns, hl, e, hb⟩
    · simp only at low
      omega
    · obtain rfl : k = l := by simpa using e
      obtain rfl : ms = ns := Option.some.inj (hk.symm.trans hl)
      exact Or.inr ⟨ms, mem_of_getElem? hk, ha, hb⟩

theorem exists_standsFor (groups : List (List OpId)) (low : a.idx < g.ops.size) :
    ∃ p, StandsFor g groups p a := by
  by_cases member : ∃ ms ∈ groups, a ∈ ms
  · obtain ⟨ms, hms, ha⟩ := member
    obtain ⟨k, hk⟩ := getElem?_of_mem hms
    exact ⟨_, Or.inr ⟨k, ms, hk, rfl, ha⟩⟩
  · exact ⟨a, Or.inl ⟨rfl, low, fun ms hms ha => member ⟨ms, hms, ha⟩⟩⟩

include grouping

theorem Grouping.place_unique {l : Nat} {ns : List OpId} (hk : groups[k]? = some ms)
    (hl : groups[l]? = some ns) (ha : a ∈ ms) (ha' : a ∈ ns) : k = l := by
  obtain ⟨low, rfl⟩ := List.getElem?_eq_some_iff.1 hk
  obtain ⟨low', rfl⟩ := List.getElem?_eq_some_iff.1 hl
  have disjoint := List.pairwise_iff_getElem.1 grouping.disjoint
  rcases Nat.lt_trichotomy k l with h | h | h
  · exact absurd ha' (disjoint k l low low' h ha)
  · exact h
  · exact absurd ha (disjoint l k low' low h ha')

theorem StandsFor.unique (hp : StandsFor g groups p a) (hq : StandsFor g groups q b)
    (same : SameBlock groups a b) :
    p = q := by
  have nowhere : ∀ {x y : OpId}, SameBlock groups x y → (∀ ms ∈ groups, x ∉ ms) → x = y := by
    rintro x y (rfl | ⟨ms, hms, hx, -⟩) out
    · rfl
    · exact absurd hx (out ms hms)
  rcases hp with ⟨rfl, -, out⟩ | ⟨k, ms, hk, rfl, ha⟩
  · obtain rfl := nowhere same out
    rcases hq with ⟨rfl, -, -⟩ | ⟨l, ns, hl, rfl, hb⟩
    · rfl
    · grind
  · rcases hq with ⟨rfl, -, out⟩ | ⟨l, ns, hl, rfl, hb⟩
    · obtain rfl := nowhere same.symm out
      grind
    · have ha' : a ∈ ns := by
        rcases same with rfl | ⟨os, hos, hao, hbo⟩
        · exact hb
        · rw [← group_unique grouping.disjoint hos (mem_of_getElem? hl) hbo hb]
          exact hao
      rw [grouping.place_unique hk hl ha ha']

theorem StandsFor.of_sameBlock (hp : StandsFor g groups p a) (same : SameBlock groups a b) :
    StandsFor g groups p b := by
  rcases same with rfl | ⟨ms, hms, ha, hb⟩
  · exact hp
  · rcases hp with ⟨-, -, out⟩ | ⟨k, ns, hk, rfl, ha'⟩
    · exact absurd ha (out ms hms)
    · rw [group_unique grouping.disjoint hms (mem_of_getElem? hk) ha ha'] at hb
      exact Or.inr ⟨k, ns, hk, rfl, hb⟩

theorem Grouping.inGraph (ha : InGraph g ts a) (same : SameBlock groups a b) : InGraph g ts b := by
  rcases same with rfl | ⟨ms, hms, -, hb⟩
  · exact ha
  · exact (grouping.eligible ms hms b hb).inGraph

variable {g' : Arena} (fused : Fused g ts groups g')
include wf fused

theorem Fused.source (ht : t ∈ ts) (hp : p ∈ (g'.tensor t).src.ops) :
    ∃ a, StandsFor g groups p a ∧ a ∈ (g.tensor t).src.ops := by
  rcases (fused.src t ht p).1 hp with ⟨hp, out⟩ | ⟨k, ms, hk, rfl, ⟨⟨a, ha, writes⟩, -⟩⟩
  · exact ⟨p, Or.inl ⟨rfl, wf.lt_size ⟨t, ht, hp⟩, out⟩, hp⟩
  · have := ((grouping.eligible ms (mem_of_getElem? hk) a ha).writes wf writes).2
    exact ⟨a, Or.inr ⟨k, ms, hk, rfl, ha⟩, by simp [this]⟩

theorem Fused.reader (hb : StandsFor g groups q b) (hbg : InGraph g ts b)
    (ht : t ∈ (g'.op q).inputList) :
    t ∈ ts ∧ ∃ b', StandsFor g groups q b' ∧ t ∈ (g.op b').inputList := by
  rcases hb with ⟨rfl, low, out⟩ | ⟨k, ms, hk, rfl, hb⟩
  · rw [fused.old q low] at ht
    obtain ⟨u, hu, source⟩ := hbg
    exact ⟨(wf.valid.reads hu source ht).1, q, Or.inl ⟨rfl, low, out⟩, ht⟩
  · obtain ⟨⟨b', hb', reads⟩, -⟩ := ((fused.new k ms hk).1.inputs t).1 ht
    exact ⟨((grouping.eligible ms (mem_of_getElem? hk) b' hb').reads wf reads).1, b',
      Or.inr ⟨k, ms, hk, rfl, hb'⟩, reads⟩

/-- An operator that is in no group, or has replaced one, feeds another exactly if what it stands
for does when the groups are merged. -/
theorem Fused.feeds_iff (hp : StandsFor g groups p a) (hq : StandsFor g groups q b)
    (hb : InGraph g ts b) :
    Feeds g' p q ↔ FeedsMerged g groups a b := by
  constructor
  · rintro ⟨t, ht, source⟩
    obtain ⟨inside, b', hq', reads⟩ := fused.reader wf grouping hq hb ht
    obtain ⟨a', hp', source'⟩ := fused.source wf grouping inside source
    refine ⟨fun same => ?_, a', b', hp.sameBlock hp', ⟨t, reads, source'⟩, hq'.sameBlock hq⟩
    -- an operator does not feed itself: what its group writes does not enter the group
    obtain rfl := hp.unique grouping hq same
    rcases hq with ⟨rfl, low, out⟩ | ⟨k, ms, hk, rfl, -⟩
    · rw [fused.old p low] at ht
      rcases (fused.src t inside p).1 source with ⟨source, -⟩ | ⟨k, ms, hk, rfl, -⟩
      · exact wf.ordered.not_reaches hb (.single ⟨t, ht, source⟩)
      · simp only at low
        omega
    · have enters := ((fused.new k ms hk).1.inputs t).1 ht
      rcases hp' with ⟨rfl, low, -⟩ | ⟨l, ns, hl, e, ha'⟩
      · simp only at low
        omega
      · obtain rfl : k = l := by simpa using e
        obtain rfl : ms = ns := Option.some.inj (hk.symm.trans hl)
        have eligible := grouping.eligible ms (mem_of_getElem? hk) a' ha'
        have sole := (eligible.writes wf (wf.valid.writes inside source')).2
        rcases enters.2 with none | ⟨r, hr, out⟩
        · simp [sole] at none
        · grind
  · rintro ⟨apart, a', b', ha, ⟨t, reads, source⟩, hb'⟩
    have apart' : ∀ ms ∈ groups, ¬ (a' ∈ ms ∧ b' ∈ ms) := fun ms hms h =>
      apart ((ha.trans grouping.disjoint (Or.inr ⟨ms, hms, h⟩)).trans grouping.disjoint hb')
    obtain ⟨u, hu, hbu⟩ := grouping.inGraph hb hb'.symm
    obtain ⟨inside, user⟩ := wf.valid.reads hu hbu reads
    refine ⟨t, ?_, ?_⟩
    · rcases hq.of_sameBlock grouping hb'.symm with ⟨rfl, low, -⟩ | ⟨k, ms, hk, rfl, member⟩
      · rwa [fused.old q low]
      · refine ((fused.new k ms hk).1.inputs t).2
          ⟨⟨b', member, reads⟩, Or.inr ⟨a', source, fun h => ?_⟩⟩
        grind
    · rcases hp.of_sameBlock grouping ha with ⟨rfl, -, out⟩ | ⟨k, ms, hk, rfl, member⟩
      · exact (fused.src t inside p).2 (Or.inl ⟨source, out⟩)
      · refine (fused.src t inside _).2
          (Or.inr ⟨k, ms, hk, rfl, ⟨a', member, wf.valid.writes inside source⟩,
          Or.inr ⟨b', user, fun h => ?_⟩⟩)
        grind

theorem Fused.inGraph (hp : InGraph g' ts p) : ∃ a, StandsFor g groups p a ∧ InGraph g ts a := by
  obtain ⟨t, ht, source⟩ := hp
  obtain ⟨a, stands, source'⟩ := fused.source wf grouping ht source
  exact ⟨a, stands, t, ht, source'⟩

theorem Fused.reaches_iff (hp : StandsFor g groups p a) (hq : StandsFor g groups q b)
    (hb : InGraph g ts b) :
    Reaches g' p q ↔ TransGen (FeedsMerged g groups) a b := by
  constructor
  · intro path
    induction path generalizing b with
    | single feeds => exact .single ((fused.feeds_iff wf grouping hp hq hb).1 feeds)
    | tail _ feeds ih =>
      obtain ⟨t, ht, source⟩ := feeds
      obtain ⟨inside, -⟩ := fused.reader wf grouping hq hb ht
      obtain ⟨c, stands, member⟩ := fused.inGraph wf grouping ⟨t, inside, source⟩
      exact (ih stands member).tail ((fused.feeds_iff wf grouping stands hq hb).1 ⟨t, ht, source⟩)
  · intro path
    induction path generalizing q with
    | single feeds => exact .single ((fused.feeds_iff wf grouping hp hq hb).2 feeds)
    | @tail c d _ feeds ih =>
      have hc : InGraph g ts c := by
        obtain ⟨-, c', d', same, ⟨t, reads, source⟩, same'⟩ := feeds
        obtain ⟨u, hu, hdu⟩ := grouping.inGraph hb same'.symm
        exact grouping.inGraph ⟨t, (wf.valid.reads hu hdu reads).1, source⟩ same.symm
      obtain ⟨r, stands⟩ := exists_standsFor groups (wf.lt_size hc)
      exact (ih stands hc).tail ((fused.feeds_iff wf grouping stands hq hb).2 feeds)

theorem Fused.acyclic_iff (fusable : ∀ ms ∈ groups, Fusable g ms) :
    (∀ p, InGraph g' ts p → ¬ Reaches g' p p) ↔ MergesAcyclic g ts groups := by
  constructor
  · intro acyclic a ha cycle
    obtain ⟨p, stands⟩ := exists_standsFor groups (wf.lt_size ha)
    refine acyclic p ?_ ((fused.reaches_iff wf grouping stands stands ha).2 cycle)
    rcases stands with ⟨rfl, -, out⟩ | ⟨k, ms, hk, rfl, -⟩
    · obtain ⟨t, ht, source⟩ := ha
      exact ⟨t, ht, (fused.src t ht p).2 (Or.inl ⟨source, out⟩)⟩
    · obtain ⟨t, leaves⟩ := (fusable ms (mem_of_getElem? hk)).leaves
      obtain ⟨o, ho, writes⟩ := leaves.1
      have ht := ((grouping.eligible ms (mem_of_getElem? hk) o ho).writes wf writes).1
      exact ⟨t, ht, (fused.src t ht _).2 (Or.inr ⟨k, ms, hk, rfl, leaves⟩)⟩
  · intro acyclic p hp cycle
    obtain ⟨a, stands, ha⟩ := fused.inGraph wf grouping hp
    exact acyclic a ha ((fused.reaches_iff wf grouping stands stands ha).1 cycle)

/-! ## The new graph can be sorted and tidied up -/

omit fused grouping in
theorem WellFormed.user_lt_size (ht : t ∈ ts) (ho : p ∈ (g.tensor t).dst.ops) :
    p.idx < g.ops.size :=
  Arena.lt_of_applied (wf.valid.uses ht ho).1.1

theorem Fused.source_of_leaves (hk : groups[k]? = some ms) (leaves : Leaves g ms t) :
    t ∈ ts ∧ ∀ p, p ∈ (g'.tensor t).src.ops ↔ p = ⟨g.ops.size + k⟩ := by
  obtain ⟨a, ha, writes⟩ := leaves.1
  have hms := mem_of_getElem? hk
  obtain ⟨ht, sole⟩ := (grouping.eligible ms hms a ha).writes wf writes
  refine ⟨ht, fun p => ?_⟩
  rw [fused.src t ht]
  constructor
  · rintro (⟨source, out⟩ | ⟨l, ns, hl, rfl, ⟨⟨b, hb, writes'⟩, -⟩⟩)
    · grind
    · have sole' := ((grouping.eligible ns (mem_of_getElem? hl) b hb).writes wf writes').2
      obtain rfl : a = b := by simpa [sole] using sole'
      rw [grouping.place_unique hk hl ha hb]
  · grind

omit wf fused in
theorem Grouping.enters_inside (wf : WellFormed g ts) (hk : groups[k]? = some ms)
    (enters : Enters g ms t) : t ∈ ts := by
  obtain ⟨⟨o, ho, reads⟩, -⟩ := enters
  exact ((grouping.eligible ms (mem_of_getElem? hk) o ho).reads wf reads).1

theorem Fused.agrees : Agrees g' ts := by
  refine ⟨fun t ht o => ?_, fun t ht o ho => ?_, fun t ht o ho x hx => ?_, fun t ht o ho => ?_,
    fun t ht o ho y hy => ?_⟩
  · rintro (ho | ho)
    · rcases (fused.src t ht o).1 ho with ⟨ho, -⟩ | ⟨k, ms, hk, rfl, -⟩
      · rw [fused.old o (wf.lt_size ⟨t, ht, ho⟩)]
        exact wf.valid.applied ht ho
      · exact (fused.new k ms hk).1.applied
    · rcases (fused.dst t ht o).1 ho with ⟨ho, -⟩ | ⟨k, ms, hk, rfl, -⟩
      · rw [fused.old o (wf.user_lt_size ht ho)]
        exact (wf.valid.uses ht ho).1
      · exact (fused.new k ms hk).1.applied
  · rcases (fused.src t ht o).1 ho with ⟨ho, -⟩ | ⟨k, ms, hk, rfl, leaves⟩
    · rw [fused.old o (wf.lt_size ⟨t, ht, ho⟩)]
      exact wf.valid.writes ht ho
    · exact ((fused.new k ms hk).1.outputs t).2 leaves
  · rcases (fused.src t ht o).1 ho with ⟨ho, out⟩ | ⟨k, ms, hk, rfl, -⟩
    · rw [fused.old o (wf.lt_size ⟨t, ht, ho⟩)] at hx
      obtain ⟨inside, user⟩ := wf.valid.reads ht ho hx
      exact ⟨inside, (fused.dst x inside o).2 (Or.inl ⟨user, out⟩)⟩
    · have enters := ((fused.new k ms hk).1.inputs x).1 hx
      have inside := grouping.enters_inside wf hk enters
      exact ⟨inside, (fused.dst x inside _).2 (Or.inr ⟨k, ms, hk, rfl, enters⟩)⟩
  · rcases (fused.dst t ht o).1 ho with ⟨ho, -⟩ | ⟨k, ms, hk, rfl, enters⟩
    · rw [fused.old o (wf.user_lt_size ht ho)]
      exact (wf.valid.uses ht ho).2.1
    · exact ((fused.new k ms hk).1.inputs t).2 enters
  · rcases (fused.dst t ht o).1 ho with ⟨ho, out⟩ | ⟨k, ms, hk, rfl, -⟩
    · rw [fused.old o (wf.user_lt_size ht ho)] at hy
      obtain ⟨inside, source⟩ := (wf.valid.uses ht ho).2.2 y hy
      exact ⟨inside, (fused.src y inside o).2 (Or.inl ⟨source, out⟩)⟩
    · obtain ⟨inside, sources⟩ := fused.source_of_leaves wf grouping hk
        (((fused.new k ms hk).1.outputs y).1 hy)
      exact ⟨inside, (sources _).2 rfl⟩

theorem Fused.siblings {y : TensorId} (ht : t ∈ ts) (ho : o ∈ (g'.tensor t).src.ops)
    (hy : y ∈ (g'.op o).outputList) : y ∈ ts ∧ ∀ p, p ∈ (g'.tensor y).src.ops ↔
    p ∈ (g'.tensor t).src.ops := by
  rcases (fused.src t ht o).1 ho with ⟨source, out⟩ | ⟨k, ms, hk, rfl, leaves⟩
  · rw [fused.old o (wf.lt_size ⟨t, ht, source⟩)] at hy
    obtain ⟨inside, same⟩ := wf.siblings t ht o source y hy
    -- no operator of a group writes either, since an operator outside all groups does
    have ungrouped : ∀ x ∈ ts, o ∈ (g.tensor x).src.ops → ∀ p, p ∈ (g'.tensor x).src.ops ↔
        p ∈ (g.tensor x).src.ops ∧ ∀ ms ∈ groups, p ∉ ms := by
      intro x hx hox p
      rw [fused.src x hx, or_iff_left]
      rintro ⟨k, ms, hk, -, ⟨⟨a, ha, writes⟩, -⟩⟩
      have hms := mem_of_getElem? hk
      rw [((grouping.eligible ms hms a ha).writes wf writes).2, mem_singleton] at hox
      exact out ms hms (hox ▸ ha)
    grind
  · obtain ⟨inside, sources⟩ := fused.source_of_leaves wf grouping hk
      (((fused.new k ms hk).1.outputs y).1 hy)
    refine ⟨inside, fun p => ?_⟩
    rw [sources, (fused.source_of_leaves wf grouping hk leaves).2]

theorem Fused.whole : Whole g' ts := by
  have agrees := fused.agrees wf grouping
  refine ⟨wf.nodup, fun t ht => ?_, fun t ht o ho => agrees.applied t ht o (Or.inl ho),
    fun t ht o ho x hx =>
    (agrees.source_reads t ht o ho x hx).1, fun t ht o ho y hy =>
      fused.siblings wf grouping ht ho hy⟩
  rw [fused.tensors_size]
  exact wf.known t ht

omit grouping in
theorem Fused.active (fusable : ∀ ms ∈ groups, Fusable g ms) (ht : t ∈ ts)
    (ho : o ∈ (g'.tensor t).dst.ops) : (g'.op o).outputList ≠ [] := by
  rcases (fused.dst t ht o).1 ho with ⟨ho, -⟩ | ⟨k, ms, hk, rfl, -⟩
  · rw [fused.old o (wf.user_lt_size ht ho)]
    exact wf.users t ht o ho
  · obtain ⟨y, leaves⟩ := (fusable ms (mem_of_getElem? hk)).leaves
    exact ne_nil_of_mem (((fused.new k ms hk).1.outputs y).2 leaves)

omit grouping in
theorem Fused.named (ht : t ∈ ts) (ho : o ∈ (g'.tensor t).src.ops) (name : (g'.op o).name.isSome) :
    (g'.tensor t).name.isSome := by
  rcases (fused.src t ht o).1 ho with ⟨source, -⟩ | ⟨k, ms, hk, rfl, -⟩
  · rw [fused.old o (wf.lt_size ⟨t, ht, source⟩)] at name
    rw [fused.fields]
    exact wf.named t ht o source name
  · rw [(fused.new k ms hk).2] at name
    cases name

end Fused

end Pointwise

end TensorGraph

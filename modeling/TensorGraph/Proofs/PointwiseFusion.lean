import Mathlib
import TensorGraph.Proofs.FusedGraph

/-!
# Fusing elementwise operators

A fused operator runs its members one after the other, from the values of its inputs.
-/

namespace TensorGraph

namespace Pointwise

open Build TensorGraph.Graph Elementwise Relation List

/-! ## What a group computes -/

section Meaning

variable {V : Type} (apply : Option Value → List V → V)

def Computes (g : Arena) (val : TensorId → V) (o : OpId) : Prop :=
  ∃ args, (g.op o).args = some args ∧
    ∀ y ∈ (g.op o).outputList, val y = apply ((g.op o).param? "func") (args.map val)

def evalMembers (g : Arena) : List OpId → (TensorId → Option V) → Option (TensorId → Option V)
  | [], env => some env
  | o :: ms, env => do
    let args ← (g.op o).args
    let vs ← args.mapM env
    evalMembers g ms fun t => if t ∈ (g.op o).outputList then
      some (apply ((g.op o).param? "func") vs) else env t

def operands (g : Arena) (p : OpId) (val : TensorId → V) (t : TensorId) : Option V :=
  if t ∈ (g.op p).inputList ∨ (g.tensor t).isNumber = true then some (val t) else none

theorem mapM_known {env : TensorId → Option V} {val : TensorId → V} {l : List TensorId}
    (known : ∀ t ∈ l, env t = some (val t)) :
    l.mapM env = some (l.map val) := by
  induction l with
  | nil => rfl
  | cons t l ih => grind

/-- Operators compute their results in any order in which each comes after all that it reads
from. -/
theorem evalMembers_spec {g : Arena} {val : TensorId → V} (start : TensorId → Prop) (ms : List OpId)
    (env : TensorId → Option V) (first : ∀ t, start t → env t = some (val t))
    (computes : ∀ o ∈ ms, Computes apply g val o)
    (ready : ∀ done o rest, ms = done ++ o :: rest → ∀ a ∈ ((g.op o).args.getD []), start a ∨
      Writes g done a) :
    ∃ env', evalMembers apply g ms env = some env' ∧ ∀ t, start t ∨ Writes g ms t →
    env' t = some (val t) := by
  suffices loop : ∀ (rest done : List OpId) (env : TensorId → Option V), ms = done ++ rest →
      (∀ t, start t ∨ Writes g done t → env t = some (val t)) →
      ∃ env', evalMembers apply g rest env = some env' ∧ ∀ t, start t ∨ Writes g ms t →
        env' t = some (val t) from
    loop ms [] env rfl fun t ht => first t (ht.resolve_right (by simp [Writes]))
  intro rest
  induction rest with
  | nil =>
    intro done env split known
    rw [append_nil] at split
    exact ⟨env, rfl, split ▸ known⟩
  | cons o rest ih =>
    intro done env split known
    obtain ⟨args, hargs, result⟩ := computes o (by simp [split])
    have operands : args.mapM env = some (args.map val) := by grind [mapM_known]
    obtain ⟨env', run, known'⟩ := ih (done ++ [o])
      (fun t => if t ∈ (g.op o).outputList then
        some (apply ((g.op o).param? "func") (args.map val)) else env t)
      (by simp [split]) fun t ht => by grind [Boundary.writes_append]
    refine ⟨env', ?_, known'⟩
    unfold evalMembers
    grind

end Meaning

section Groups

variable {g : Arena} {ts : Graph} (wf : WellFormed g ts) {groups : List (List OpId)}
  (grouping : Grouping g ts groups)
include wf grouping

theorem ready_of_order {ms : List OpId} (hms : ms ∈ groups)
    (order : ms.Pairwise fun a b => ¬ Reaches g b a)
    {done rest : List OpId} {o : OpId} (split : ms = done ++ o :: rest) {a : TensorId}
    (ha : a ∈ (g.op o).args.getD []) :
    (Enters g ms a ∨ (g.tensor a).isNumber = true) ∨ Writes g done a := by
  have ho : o ∈ ms := by simp [split]
  have eligible := grouping.eligible ms hms
  by_cases number : (g.tensor a).isNumber = true
  · exact Or.inl (Or.inr number)
  · obtain ⟨kind, t, ht, source⟩ := eligible o ho
    have hot : o ∈ (g.tensor t).src.ops := by simp [source]
    obtain ⟨-, applied, inputs⟩ := wf.pointwise t ht o hot kind
    obtain ⟨args, hargs⟩ := Option.isSome_iff_exists.1 applied
    have reads : a ∈ (g.op o).inputList := by
      rw [Operator.inputList, inputs, hargs]
      grind
    by_cases outer : (g.tensor a).src.ops = [] ∨ ∃ p ∈ (g.tensor a).src.ops, p ∉ ms
    · exact Or.inl (Or.inl ⟨⟨o, ho, reads⟩, outer⟩)
    · obtain ⟨some, all⟩ := not_or.1 outer
      obtain ⟨q, hq⟩ := exists_mem_of_ne_nil _ some
      have member : q ∈ ms := by
        by_contra h
        exact all ⟨q, hq, h⟩
      have inside := (wf.valid.reads ht hot reads).1
      have path : Reaches g q o := .single ⟨a, reads, hq⟩
      refine Or.inr ⟨q, ?_, wf.valid.writes inside hq⟩
      rw [split] at member order
      rcases mem_append.1 member with h | h
      · exact h
      · rcases mem_cons.1 h with rfl | h
        · exact absurd path (wf.ordered.not_reaches ⟨t, ht, hot⟩)
        · exact absurd path ((pairwise_cons.1 (pairwise_append.1 order).2.1).1 q h)

end Groups

/-! ## The groups of a graph -/

section Clusters

variable {g : Arena} {ts : Graph} {c : Clusters OpId} (clustered : Clustered g ts ts c)
include clustered

theorem Clustered.grouping : Grouping g ts c.toLists := by
  obtain ⟨proper, disjoint, nodes, -, -⟩ := Clusters.toLists_spec clustered.wf
  exact ⟨proper, disjoint, fun ms hms o ho => (clustered.nodes o).1 ((nodes o).2 ⟨ms, hms, ho⟩)⟩

theorem order_of_acyclic (acyclic : MergesAcyclic g ts c.toLists) :
    ∀ ms ∈ c.toLists, ms.Pairwise fun a b => ¬ Reaches g b a := by
  have grouping := clustered.grouping
  obtain ⟨-, disjoint, nodes, same, order⟩ := Clusters.toLists_spec clustered.wf
  refine order _ (clustered.order fun a b hab => ?_)
  rintro ⟨q, outside, there, back⟩
  obtain ⟨ms, hms, ha, hb⟩ := (same a b).1 hab
  have eligible := grouping.eligible ms hms b hb
  rcases acyclic.convex disjoint eligible.inGraph (Or.inr ⟨ms, hms, hb, ha⟩) there
    back with rfl | ⟨ns, hns, -, hq⟩
  · exact outside eligible
  · exact outside (grouping.eligible ns hns q hq)

end Clusters

/-! ## The new graph -/

/-- What the graph with a fused operator for each group has to do with the graph as it was. -/
structure Replaced (g : Arena) (ts : Graph) (groups : List (List OpId)) (ts' : Graph) (g' : Arena) :
    Prop where
  valid : Valid g' ts'
  /-- the operators have no cycle -/
  acyclic : ∀ p, InGraph g' ts' p → ¬ Reaches g' p p
  /-- what is asked for is still there -/
  outputs : ∀ t ∈ ts, (g.tensor t).isOutput = true → t ∈ ts' ∧ (g'.tensor t).isOutput = true
  /-- an operator was there before and at most got a name, or it stands for a group -/
  operators : ∀ p, InGraph g' ts' p →
    (InGraph g ts p ∧
      g'.op p = { g.op p with name := (g'.op p).name, firstName := (g'.op p).firstName }) ∨
      ∃ ms ∈ groups, Represents g ms (g'.op p)
  /-- every group has its operator, which lists producers before consumers -/
  members : ∀ ms ∈ groups, (∃ p, InGraph g' ts' p ∧ Represents g ms (g'.op p)) ∧
    ms.Pairwise fun a b => ¬ Reaches g b a
  /-- and computes what the members did -/
  values : ∀ p, InGraph g' ts' p → ∀ ms ∈ groups, Represents g ms (g'.op p) →
    ∀ (V : Type) (apply : Option Value → List V → V) (val : TensorId → V),
      (∀ o ∈ ms, Computes apply g val o) →
      ∃ env, evalMembers apply g' ms (operands g' p val) = some env ∧
        ∀ y ∈ (g'.op p).outputList, env y = some (val y)

section Main

variable {g : Arena} {ts : Graph} (wf : WellFormed g ts) {groups : List (List OpId)}
  (grouping : Grouping g ts groups)
  {g₁ : Arena} (fused : Fused g ts groups g₁) (fusable : ∀ ms ∈ groups, Fusable g ms)
include wf grouping fused fusable

theorem sortTidy_run (acyclic : MergesAcyclic g ts groups) :
    ∃ ts' g', (sort ts >>= tidy) g₁ = .ok ts' g' ∧ Renamed g₁ g' ∧ Valid g' ts' ∧ ts'.Nodup ∧
    (∀ t ∈ ts', t ∈ ts) ∧
      ∀ t ∈ ts, isLinked (g₁.tensor t) = true → t ∈ ts' := by
  have cycles := (fused.acyclic_iff wf grouping fusable).2 acyclic
  obtain ⟨us, run, perm⟩ := sort_returns (fused.whole wf grouping) fun t ht cycle => by
    obtain ⟨o, ho, reaches⟩ := reaches_of_needs cycle
    exact cycles o ⟨t, ht, ho⟩ (reaches o ho)
  have nodup : us.Nodup := perm.nodup_iff.2 wf.nodup
  have agrees := (fused.agrees wf grouping).perm perm.symm
  obtain ⟨ts', g', run', renamed, valid, sub, linked⟩ :=
    tidy_run nodup agrees (sort_ordered run).2.2
    (fun t ht o ho => fused.active wf fusable (perm.mem_iff.1 ht) ho)
    (fun t ht o ho => fused.named wf (perm.mem_iff.1 ht) ho)
  refine ⟨ts', g', by rw [bind_run run,
    run'], renamed, valid, nodup.sublist sub, fun t ht => ?_, fun t ht h => ?_⟩
  · exact perm.mem_iff.1 (sub.subset ht)
  · exact linked t (perm.mem_iff.2 ht) h

theorem acyclic_of_sortTidy {ts' : Graph} {g' : Arena} (run : (sort ts >>= tidy) g₁ = .ok ts' g') :
    MergesAcyclic g ts groups := by
  obtain ⟨us, g₂, run, -⟩ := bind_ok.1 run
  obtain ⟨-, sub, ordered⟩ := sort_ordered run
  refine (fused.acyclic_iff wf grouping fusable).1 fun p ⟨t, ht, hp⟩ =>
    ordered.not_reaches ⟨t, sub ht, hp⟩

end Main

theorem evalMembers_renamed {V : Type} (apply : Option Value → List V → V) {g g' : Arena}
    {ms : List OpId} (same : ∀ o ∈ ms, g'.op o =
    { g.op o with name := (g'.op o).name, firstName := (g'.op o).firstName })
    (env : TensorId → Option V) : evalMembers apply g' ms env = evalMembers apply g ms env := by
  induction ms generalizing env with
  | nil => rfl
  | cons o ms ih =>
    unfold evalMembers
    have rest := ih fun p hp => same p (mem_cons_of_mem _ hp)
    rw [same o mem_cons_self]
    simp only [rest]
    rfl

theorem replaced_of_fused {g : Arena} {ts : Graph} (wf : WellFormed g ts)
    {groups : List (List OpId)} (grouping : Grouping g ts groups) {g₁ : Arena}
    (fused : Fused g ts groups g₁)
    (fusable : ∀ ms ∈ groups, Fusable g ms)
    (order : ∀ ms ∈ groups, ms.Pairwise fun a b => ¬ Reaches g b a)
    {ts' : Graph} {g' : Arena} (renamed : Renamed g₁ g')
    (valid : Valid g' ts') (sub : ∀ t ∈ ts', t ∈ ts)
    (linked : ∀ t ∈ ts, isLinked (g₁.tensor t) = true → t ∈ ts') : Replaced g ts groups ts' g' := by
  have old : ∀ p, p.idx < g.ops.size → g'.op p =
    { g.op p with name := (g'.op p).name, firstName := (g'.op p).firstName } := by
    intro p hp
    rw [renamed.op, fused.old p hp]
  have represents : ∀ (k : Nat) (ms : List OpId), groups[k]? = some ms →
      Represents g ms (g'.op ⟨g.ops.size + k⟩) := by
    intro k ms hk
    rw [renamed.op]
    exact (fused.new k ms hk).1.renamed _ _
  refine ⟨valid, fun p hp => valid.ordered.not_reaches hp, fun t ht output => ?_,
    fun p ⟨t, ht, hp⟩ => ?_, fun ms hms => ⟨?_, order ms hms⟩, fun p ⟨t, ht, hp⟩ ms hms stands V
    apply val computes => ?_⟩
  · have flag : (g₁.tensor t).isOutput = true := by
      rw [fused.fields]
      exact output
    refine ⟨linked t ht (by simp [isLinked, flag]), ?_⟩
    rw [renamed.tensor]
    exact flag
  · rw [renamed.src] at hp
    rcases (fused.src t (sub t ht) p).1 hp with ⟨hp, -⟩ | ⟨k, ms, hk, rfl, -⟩
    · have member : InGraph g ts p := ⟨t, sub t ht, hp⟩
      exact Or.inl ⟨member, old p (wf.lt_size member)⟩
    · exact Or.inr ⟨ms, mem_of_getElem? hk, represents k ms hk⟩
  · obtain ⟨k, hk⟩ := getElem?_of_mem hms
    obtain ⟨t, leaves⟩ := (fusable ms hms).leaves
    obtain ⟨ht, sources⟩ := fused.source_of_leaves wf grouping hk leaves
    have source := (sources _).2 rfl
    refine ⟨_, ⟨t, linked t ht (by simp [isLinked, ne_nil_of_mem source]), ?_⟩, represents k ms hk⟩
    rw [renamed.src]
    exact source
  · have same : ∀ o ∈ ms,
        g'.op o = { g.op o with name := (g'.op o).name, firstName := (g'.op o).firstName } :=
      fun o ho => old o (wf.lt_size (grouping.eligible ms hms o ho).inGraph)
    have number : ∀ t, (g'.tensor t).isNumber = (g.tensor t).isNumber := by
      intro t
      rw [renamed.tensor, fused.fields]
      rfl
    rw [evalMembers_renamed apply same]
    obtain ⟨env, run, known⟩ := evalMembers_spec
      apply (fun t => Enters g ms t ∨ (g.tensor t).isNumber = true) ms
      (operands g' p val) (fun t ht => by
        unfold operands
        rw [if_pos]
        rwa [stands.inputs, number]) computes
      (fun done o rest split a ha => ready_of_order wf grouping hms (order ms hms) split ha)
    exact ⟨env, run, fun y hy => known y (Or.inr ((stands.outputs y).1 hy).1)⟩

/-- Elementwise operators are fused exactly if merging their groups leaves no cycle and each group
can be replaced: all its results are used, something enters it and something leaves it, and what
leaves it has one shape.  The new graph has no cycle, keeps what is asked for, and each of its fused
operators computes what its members did. -/
theorem group_returns_iff {g : Arena} {ts : Graph} (wf : WellFormed g ts) :
    ∃ c, clusters ts g = .ok c g ∧ (∀ o, Eligible g ts o ↔ ∃ ms ∈ c.toLists, o ∈ ms) ∧
      ((∃ ts' g', group ts g = .ok ts' g') ↔ MergesAcyclic g ts c.toLists ∧
        ∀ ms ∈ c.toLists, Fusable g ms) ∧
      ∀ ts' g', group ts g = .ok ts' g' → Replaced g ts c.toLists ts' g' := by
  obtain ⟨c, formed, clustered⟩ := clusters_run wf.sound
  have grouping := clustered.grouping
  have unfolded : group ts g = (fuseAll c.toLists >>= fun _ => sort ts >>= tidy) g := by
    unfold group
    rw [bind_run formed]
  have forward : ∀ ts' g', group ts g = .ok ts' g' →
      (MergesAcyclic g ts c.toLists ∧ ∀ ms ∈ c.toLists, Fusable g ms) ∧
        Replaced g ts c.toLists ts' g' := by
    intro ts' g' run
    rw [unfolded] at run
    obtain ⟨_, g₁, first, second⟩ := bind_ok.1 run
    have fusable := fusable_of_fuseAll wf grouping first
    obtain ⟨g₂, again, fused⟩ := fuseAll_run wf grouping fusable
    obtain rfl : g₁ = g₂ := by simpa using first.symm.trans again
    have acyclic := acyclic_of_sortTidy wf grouping fused fusable second
    obtain ⟨ts'', g'', run', renamed, valid, -, sub, linked⟩ :=
      sortTidy_run wf grouping fused fusable acyclic
    obtain ⟨rfl, rfl⟩ : ts' = ts'' ∧ g' = g'' := by simpa using second.symm.trans run'
    exact ⟨⟨acyclic, fusable⟩, replaced_of_fused wf grouping fused fusable
      (order_of_acyclic clustered acyclic) renamed valid
      sub linked⟩
  refine ⟨c, formed, fun o => ?_, ⟨fun ⟨ts', g', run⟩ => (forward ts' g' run).1,
    fun ⟨acyclic, fusable⟩ => ?_⟩,
    fun ts' g' run => (forward ts' g' run).2⟩
  · rw [← clustered.nodes, (Clusters.toLists_spec clustered.wf).2.2.1]
  · obtain ⟨g₁, first, fused⟩ := fuseAll_run wf grouping fusable
    obtain ⟨ts', g', second, -⟩ := sortTidy_run wf grouping fused fusable acyclic
    exact ⟨ts', g', by rw [unfolded, bind_run first, second]⟩

def linkedTensor (src dst : List Nat) : Tensor :=
  { Tensor.ofShape [⟨0⟩, ⟨1⟩] with
    src := ⟨src.map OpId.mk, false⟩, dst := ⟨dst.map OpId.mk, false⟩ }

/-- An elementwise operator of the examples: its function, its operands and its result. -/
def pointwiseOp (f : ScalarFn) (xs : List Nat) (y : Nat) : Operator :=
  { Operator.ofClass .elementwise "elementwise" with
    args := some (xs.map TensorId.mk)
    inputs := some (xs.map TensorId.mk)
    outputs := some [⟨y⟩]
    params := [("func", .func f)] }

/-- `a = tanh x`, `s = softmax a`, `y = a + s`, `z = cos y`: the sum cannot join the group of the
first operator. -/
def detourArena : Arena where
  dims := #[.static 4, .static 8]
  tensors := #[{ linkedTensor [] [0] with isInput := true }, linkedTensor [0] [1, 2],
    linkedTensor [1] [2], linkedTensor [2] [3], { linkedTensor [3] [] with isOutput := true }]
  ops := #[pointwiseOp .tanh [0] 1,
    { Operator.ofClass .softmax "softmax" with inputs := some [⟨1⟩], outputs := some [⟨2⟩] },
    pointwiseOp .add [1, 2] 3, pointwiseOp .cos [3] 4]
  namer := ⟨0, 0, [], []⟩
  target := none

def detourGraph : Graph := [⟨0⟩, ⟨1⟩, ⟨2⟩, ⟨3⟩, ⟨4⟩]

/-- `a = tanh x`, `b = cos a`, `s = softmax a`, `y = b + s`: the sum joins the group of `b`, which
holds the first operator. -/
def closedArena : Arena where
  dims := #[.static 4, .static 8]
  tensors := #[{ linkedTensor [] [0] with isInput := true }, linkedTensor [0] [1, 2],
    linkedTensor [1] [3], linkedTensor [2] [3], { linkedTensor [3] [] with isOutput := true }]
  ops := #[pointwiseOp .tanh [0] 1, pointwiseOp .cos [1] 2,
    { Operator.ofClass .softmax "softmax" with inputs := some [⟨1⟩], outputs := some [⟨3⟩] },
      pointwiseOp .add [2, 3] 4]
  namer := ⟨0, 0, [], []⟩
  target := none

theorem wellFormed_of_nameless {g : Arena} {ts : Graph} (nodup : ts.Nodup)
    (passes : check true ts g = .ok true g)
    (known : ∀ t ∈ ts, t.idx < g.tensors.size ∧ Loose (g.tensor t))
    (sources : ∀ t ∈ ts, ∀ o ∈ (g.tensor t).src.ops, (g.op o).name = none ∧
      (∀ y ∈ (g.op o).outputList, y ∈ ts ∧ (g.tensor y).src = (g.tensor t).src) ∧
      ((g.op o).kind = "elementwise" → (g.op o).outputs = some [t] ∧ (g.op o).args.isSome ∧
        (g.op o).inputs = (g.op o).args.map fun args => args.filter fun a =>
          !(g.tensor a).isNumber))
    (users : ∀ t ∈ ts, ∀ o ∈ (g.tensor t).dst.ops, (g.op o).outputList ≠ []) : WellFormed g ts := by
  refine ⟨nodup, (check_ok.1 passes).1, fun t ht => (known t ht).1, fun t ht => (known t ht).2,
    fun t ht o ho y hy => ?_, users, fun t ht o ho => (sources t ht o ho).2.2,
    fun t ht o ho named => ?_⟩
  · grind
  · simp [(sources t ht o ho).1] at named

theorem wellFormed_detour : WellFormed detourArena detourGraph :=
  wellFormed_of_nameless (by decide) (by rfl) (by decide) (by decide) (by decide)

theorem wellFormed_closed : WellFormed closedArena detourGraph :=
  wellFormed_of_nameless (by decide) (by rfl) (by decide) (by decide) (by decide)

/-- The first graph is fused into two operators around the one that stays, the second one is not
fused at all. -/
theorem group_returns_iff_detour :
    (∃ c ts' g', clusters detourGraph detourArena = .ok c detourArena ∧
      c.toLists = [[⟨0⟩], [⟨2⟩, ⟨3⟩]] ∧
      group detourGraph detourArena = .ok ts' g' ∧
      Replaced detourArena detourGraph c.toLists ts' g') ∧
    ∃ c, clusters detourGraph closedArena = .ok c closedArena ∧ c.toLists = [[⟨0⟩, ⟨1⟩, ⟨3⟩]] ∧
      ¬ ∃ ts' g', group detourGraph closedArena = .ok ts' g' := by
  constructor
  · obtain ⟨c, formed, -, returns, replaced⟩ := group_returns_iff wellFormed_detour
    have lists : (match clusters detourGraph detourArena with
        | .ok c _ => c.toLists | .error _ _ => []) = [[⟨0⟩], [⟨2⟩, ⟨3⟩]] := by cbv
    replace lists : c.toLists = [[⟨0⟩], [⟨2⟩, ⟨3⟩]] := by
      rw [formed] at lists
      exact lists
    have acyclic : MergesAcyclic detourArena detourGraph c.toLists := by
      rw [lists]
      exact mergesAcyclic_of_rank (by simp [List.Disjoint]) (fun o => min o.idx 2) (by decide)
        (by decide)
    obtain ⟨ts', g', run⟩ := returns.2 ⟨acyclic, by rw [lists]; decide⟩
    exact ⟨c, ts', g', formed, lists, run, replaced ts' g' run⟩
  · obtain ⟨c, formed, -, returns, -⟩ := group_returns_iff wellFormed_closed
    have lists : (match clusters detourGraph closedArena with
        | .ok c _ => c.toLists | .error _ _ => []) = [[⟨0⟩, ⟨1⟩, ⟨3⟩]] := by cbv
    replace lists : c.toLists = [[⟨0⟩, ⟨1⟩, ⟨3⟩]] := by
      rw [formed] at lists
      exact lists
    refine ⟨c, formed, lists, fun h => ?_⟩
    -- the group feeds the operator outside, which feeds the group
    have acyclic := (returns.1 h).1
    rw [lists] at acyclic
    have out : FeedsMerged closedArena [[⟨0⟩, ⟨1⟩, ⟨3⟩]] ⟨0⟩ ⟨2⟩ :=
      ⟨by decide, ⟨0⟩, ⟨2⟩, by decide, by decide, by decide⟩
    have back : FeedsMerged closedArena [[⟨0⟩, ⟨1⟩, ⟨3⟩]] ⟨2⟩ ⟨0⟩ :=
      ⟨by decide, ⟨2⟩, ⟨3⟩, by decide, by decide, by decide⟩
    exact acyclic ⟨0⟩ ⟨⟨1⟩, by decide, by decide⟩ (.tail (.single out) back)

end Pointwise

end TensorGraph

import Mathlib
import TensorGraph.Proofs.DependencyWalk
import TensorGraph.Proofs.GroupRings

/-!
# When groups of operators can be merged

`findGroups` puts operators of one kind into groups.
-/

namespace TensorGraph

namespace Grouping

open Build TensorGraph.Graph Relation List

variable {group ms : List OpId}

/-! ## Steps that only read -/

instance (o : OpId) : ReadOnly (alignment o) := .of_parts

instance (o : OpId) : ReadOnly (isCandidateProduct o) := .of_parts

instance (kind : String) (o : OpId) : ReadOnly
    (isCandidate kind o) := by unfold isCandidate; exact .of_parts

instance (v : Value) : ReadOnly (Norm.members v) := by unfold Norm.members; exact .of_parts

instance (o : OpId) : ReadOnly (normSize o) := by
  have turn : ∀ v : Value, ReadOnly (match v with
      | .dim d => fixedSize d
      | .tensor _ | .op _ => throw .noField
      | _ => throw .noField) := fun v => by split <;> infer_instance
  unfold normSize
  exact .of_parts

instance (a b : OpId) : ReadOnly (normsAgree a b) := by unfold normsAgree; exact .of_parts

instance (o : OpId) (dim : Int) : ReadOnly (Strided.isFixedFrom o dim) := .of_parts

instance (o : OpId) : ReadOnly (isFusibleSplit o) := .of_parts

instance (kind : String) (ts : List TensorId) (group : List OpId) :
    ReadOnly (splitUsers kind ts group) := by
  induction ts generalizing group with
  | nil => unfold splitUsers; infer_instance
  | cons t ts ih =>
    have next : ∀ o, ReadOnly (match group.getLast? with
        | none => splitUsers kind ts [o]
        | some p => do
          if (← alignment p) == (← alignment o) then splitUsers kind ts (group ++ [o]) else
            return group) := by
      intro o
      split <;> infer_instance
    unfold splitUsers
    exact .of_parts

instance (kind : String) (ops : List OpId) :
    ReadOnly (splitGroups kind ops) := by unfold splitGroups; exact .of_parts

/-! ## Collecting a group -/

def NumberedUpTo (g : Arena) (a b : OpId) : Prop := ∃ m n, number a g = .ok m g ∧
    number b g = .ok n g ∧ m ≤ n

def NumberedBefore (g : Arena) (a b : OpId) : Prop := ∃ m n, number a g = .ok m g ∧
    number b g = .ok n g ∧ m < n

/-- What is known of a member of a group and a later one: the later one is not known to depend on
it, and it does not depend on the later one, unless their numbers are in another order. -/
def Apart (g : Arena) (d : Descendants) (a b : OpId) : Prop :=
  (∃ os, d.lookup a = some os ∧ b ∉ os) ∧ (¬ Reaches g b a ∨ NumberedUpTo g a b)

section Collect

variable {g g' : Arena} {kind : String} {d : Descendants} {o : OpId} {free : List OpId}

variable {acc r : List OpId × List OpId}

/-- A group so far, with what depends on its members. -/
structure Grown (d : Descendants) (acc : List OpId × List OpId) : Prop where
  below : ∀ a ∈ acc.1, ∃ os, d.lookup a = some os ∧ os ⊆ acc.2
  apart : acc.1.Pairwise fun a b => ∃ os, d.lookup a = some os ∧ b ∉ os

theorem takeIn_ok {p : OpId} (grown : Grown d acc)
    (run : takeIn kind d o acc p g = .ok r g') : g = g' ∧ Grown d r ∧
    (r = acc ∨ r.1 = acc.1 ++ [p]) := by
  unfold takeIn at run
  split at run
  · simp_all
  · next fresh =>
    simp only [bind_ok] at run
    obtain ⟨agreed, _, agree, run⟩ := run
    obtain rfl := ReadOnly.keeps agree
    cases agreed with
    | false => simp_all
    | true =>
      simp only [Bool.not_true, Bool.false_eq_true, if_false, bind_ok, expect_ok, pure_ok] at run
      obtain ⟨os, _, ⟨entry, rfl⟩, rfl, rfl⟩ := run
      refine ⟨rfl, ⟨forall_mem_snoc.2 ⟨fun a ha => ?_, os, entry, fun q hq =>
        mem_union.2 (Or.inr hq)⟩, ?_⟩, Or.inr rfl⟩
      · obtain ⟨below, known, sub⟩ := grown.below a ha
        grind [mem_union]
      · refine pairwise_append.2 ⟨grown.apart, by simp, fun a ha b hb => ?_⟩
        obtain rfl := mem_singleton.1 hb
        obtain ⟨below, known, sub⟩ := grown.below a ha
        grind

theorem takeAllIn_ok {ps : List OpId} (grown : Grown d acc)
    (run : ps.foldlM (takeIn kind d o) acc g = .ok r g') :
    g = g' ∧ Grown d r ∧ ∃ more, r.1 = acc.1 ++ more ∧ more.Sublist ps := by
  induction ps generalizing acc g with
  | nil => simp_all
  | cons p ps ih =>
    simp only [foldlM_cons, bind_ok] at run
    obtain ⟨acc₁, _, first, rest⟩ := run
    obtain ⟨rfl, grown, taken⟩ := takeIn_ok grown first
    grind

theorem collect_apart (run : collect kind d o free g = .ok group g')
    (first : ∀ p ∈ free, ¬ Reaches g p o) :
    g = g' ∧ group.Pairwise (Apart g d) ∧ ∀ a ∈ group, a = o ∨ a ∈ free := by
  simp only [collect, bind_ok, expect_ok, pure_ok] at run
  obtain ⟨below, _, ⟨entry, rfl⟩, numbered, _, numbers, acc, _, loop, rfl, rfl⟩ := run
  obtain rfl := ReadOnly.keeps numbers
  have start : Grown d ([o], below) :=
    ⟨fun a ha => ⟨below, by simpa [mem_singleton.1 ha] using entry, fun _ h => h⟩, by simp⟩
  obtain ⟨rfl, grown, more, eq, sub⟩ := takeAllIn_ok start loop
  have known : ∀ e ∈ numbered, e.1 ∈ free ∧ number e.1 g = .ok e.2 g := by
    intro e he
    obtain ⟨p, hp, run⟩ := (mapM_each numbers).2.2 _ he
    simp only [bind_ok, pure_ok] at run
    grind
  have mem : ∀ e, e ∈ (numbered.mergeSort fun a b => a.2 ≤ b.2) ↔ e ∈ numbered := fun e =>
    (mergeSort_perm _ _).mem_iff
  have ordered :
      ((numbered.mergeSort fun a b => a.2 ≤ b.2).map (·.1)).Pairwise (NumberedUpTo g) := by
    have sorted : (numbered.mergeSort fun a b => a.2 ≤ b.2).Pairwise fun a b =>
      decide (a.2 ≤ b.2) = true :=
      pairwise_mergeSort (by simp; omega) (by simp; omega) numbered
    refine pairwise_map.2 (sorted.imp_of_mem fun ha hb le => ?_)
    exact ⟨_, _, (known _ ((mem _).1 ha)).2, (known _ ((mem _).1 hb)).2, by simpa using le⟩
  have free' : ∀ p ∈ more, p ∈ free := by grind
  rw [eq]
  obtain ⟨apart, rest⟩ := pairwise_cons.1 (eq ▸ grown.apart)
  refine ⟨rfl, pairwise_cons.2 ⟨fun p hp => ?_, ?_⟩, fun a ha => ?_⟩
  · exact ⟨apart p hp, Or.inl (first p (free' p hp))⟩
  · exact (rest.and (ordered.sublist sub)).imp fun h => ⟨h.1, Or.inr h.2⟩
  · exact (mem_cons.1 ha).imp_right (free' a)

end Collect

/-! ## The search -/

section Search

variable {g g' : Arena} {kind : String} {d : Descendants}

variable {given : List (List OpId)} {cands rest : List OpId} {s s' : Search}

def Collected (g : Arena) (d : Descendants) (ms : List OpId) : Prop :=
  ∃ group : List OpId, group.Pairwise (Apart g d) ∧ ms ⊆ group

theorem cut_subset {pieces : List (List OpId)} (run : cut group g = .ok pieces g') :
    g = g' ∧ ∀ ms ∈ pieces, ms ⊆ group := by
  simp only [cut, bind_ok, pure_ok] at run
  obtain ⟨sized, _, sizes, rfl, rfl⟩ := run
  obtain rfl := ReadOnly.keeps sizes
  refine ⟨rfl, fun ms hms o ho => ?_⟩
  obtain ⟨i, -, rfl⟩ := mem_map.1 hms
  have ho := mem_of_mem_take (mem_of_mem_drop ho)
  obtain ⟨e, he, rfl⟩ := mem_map.1 ho
  obtain ⟨p, hp, run⟩ := (mapM_each sizes).2.2 _ ((mergeSort_perm _ _).mem_iff.1 he)
  grind [bind_ok, pure_ok]

/-- Of a dependency inside of a collected group the search does not know, or the numbers are against
it. -/
theorem Collected.unnoticed {ts : Graph} {order : List TensorId} (collected : Collected g d ms)
    (ordered : Ordered g ts) (inside : ∀ o ∈ ms, InGraph g ts o)
    (noticed : ∀ a os, d.lookup a = some os → ∀ b, b ∈ os ↔ Noticed g kind order a b) :
    ∀ a ∈ ms, ∀ b ∈ ms, Reaches g a b → Noticed g kind order a b → ¬ NumberedBefore g a b := by
  rintro a ha b hb reaches known ⟨m, n, hm, hn, lt⟩
  obtain ⟨group, apart, sub⟩ := collected
  have ne : a ≠ b := by
    rintro rfl
    exact ordered.not_reaches (inside a ha) reaches
  rcases apart.or_of_ne (sub ha) (sub hb) ne with ⟨⟨os, entry, unknown⟩, -⟩ | ⟨-,
    free | ⟨n', m', hn', hm', le⟩⟩
  · exact unknown ((noticed a os entry b).2 known)
  · exact free reaches
  · cases hm.symm.trans hm'
    cases hn.symm.trans hn'
    omega

/-- Where the search stands: all free operators are still to come, and each group is given or
collected. -/
structure Searched (g : Arena) (d : Descendants) (given : List (List OpId)) (cands rest : List OpId)
    (s : Search) : Prop where
  free : s.free ⊆ rest
  groups : ∀ ms ∈ s.groups, ms ∈ given ∨ ms ⊆ cands ∧ Collected g d ms

theorem Searched.step {o : OpId}
    (so_far : Searched g d given cands (o :: rest) s) (inside : o :: rest ⊆ cands)
    (first : ∀ p ∈ rest, ¬ Reaches g p o) (run : Search.step kind d s o g = .ok s' g') :
    g = g' ∧ Searched g d given cands rest s' := by
  have free : ∀ p ∈ s.free.filter (· != o), p ∈ rest := by
    intro p hp
    obtain ⟨hp, other⟩ := mem_filter.1 hp
    exact (mem_cons.1 (so_far.free hp)).resolve_left (by simpa using other)
  unfold Search.step at run
  split at run
  · obtain ⟨rfl, rfl⟩ := pure_ok.1 run
    exact ⟨rfl, free, so_far.groups⟩
  · simp only [bind_ok] at run
    obtain ⟨group, _, collects, run⟩ := run
    obtain ⟨rfl, apart, members⟩ := collect_apart collects fun p hp => first p (free p hp)
    have member : group ⊆ cands := by grind
    have free' : ∀ p ∈ (s.free.filter (· != o)).filter (!group.contains ·), p ∈ rest := fun p hp =>
      free p (mem_filter.1 hp).1
    split at run
    · simp only [bind_ok, pure_ok] at run
      obtain ⟨pieces, _, cuts, _, _, ⟨rfl, rfl⟩, rfl, rfl⟩ := run
      obtain ⟨rfl, sub⟩ := cut_subset cuts
      exact ⟨rfl, free', forall_mem_append.2 ⟨so_far.groups, fun ms hms =>
        Or.inr ⟨Subset.trans (sub ms hms) member, group, apart, sub ms hms⟩⟩⟩
    · simp only [bind_ok, pure_ok] at run
      obtain ⟨_, _, ⟨rfl, rfl⟩, rfl, rfl⟩ := run
      refine ⟨rfl, free', ?_⟩
      dsimp only
      split
      · exact forall_mem_snoc.2 ⟨so_far.groups, Or.inr ⟨member, group, apart, fun _ h => h⟩⟩
      · exact so_far.groups

theorem searched_run (so_far : Searched g d given cands rest s) (inside : rest ⊆ cands)
    (sorted : rest.Pairwise fun a b => ¬ Reaches g b a)
    (run : rest.foldlM (Search.step kind d) s g = .ok s' g') :
    g = g' ∧ Searched g d given cands [] s' := by
  induction rest generalizing s g with
  | nil => simp_all
  | cons o rest ih =>
    simp only [foldlM_cons, bind_ok] at run
    obtain ⟨s₁, _, first, run⟩ := run
    obtain ⟨before, sorted⟩ := pairwise_cons.1 sorted
    obtain ⟨rfl, so_far⟩ := so_far.step inside before first
    grind

/-- In the order in which operators produce the tensors of a graph, none reaches an earlier one. -/
theorem sources_pairwise {ts : Graph} (ordered : Ordered g ts) : (sources g ts).Pairwise fun a b =>
    ¬ Reaches g b a := by
  refine pairwise_distinct fun l a r split b reaches => ?_
  change sourceSteps g ts = _ at split
  -- what reaches the operator is a source of a tensor in front of the one that stands for its place
  have place : (sourceSteps g ts)[l.length]? = some a := by simp [split]
  obtain ⟨front, t, back, rfl, ha, short⟩ := sourceSteps_split place
  obtain ⟨u, hb, before⟩ := ordered.reaches_before reaches (by simp) ha
  have steps : sourceSteps g front <+: sourceSteps g (front ++ t :: back) := by simp [sourceSteps]
  have sub : sourceSteps g front <+: l :=
    prefix_of_prefix_length_le steps (split ▸ prefix_append l (a :: r)) short
  exact sub.subset (mem_flatMap.2 ⟨u, before.mem_front, hb⟩)

end Search

/-! ## The groups -/

/-- A graph that passes the check, with all that its operators write, and no operator in it that
writes nothing. -/
structure Complete (g : Arena) (ts : Graph) : Prop where
  nodup : ts.Nodup
  valid : Valid g ts
  siblings : ∀ t ∈ ts, ∀ o ∈ (g.tensor t).src.ops, ∀ y ∈ (g.op o).outputList, y ∈ ts
  users : ∀ t ∈ ts, ∀ o ∈ (g.tensor t).dst.ops, (g.op o).outputList ≠ []

theorem Complete.user {g : Arena} {ts : Graph} (complete : Complete g ts) {t : TensorId}
    (ht : t ∈ ts) {o : OpId} (ho : o ∈ (g.tensor t).dst.ops) : InGraph g ts o := by
  obtain ⟨y, hy⟩ := exists_mem_of_ne_nil _ (complete.users t ht o ho)
  obtain ⟨hy, source⟩ := (complete.valid.uses ht ho).2.2 y hy
  exact ⟨y, hy, source⟩

def FromSplit (g : Arena) (ts : Graph) (kind : String) (ms : List OpId) : Prop :=
  ∃ split, splitGroups kind (sources g ts) g = .ok split g ∧ ms ∈ split

section Groups

variable {g g' : Arena} {ts : Graph} {kind : String}

theorem splitUsers_users {ys : List TensorId} {r : List OpId}
    (run : splitUsers kind ys group g = .ok r g') :
    ∀ o ∈ r, o ∈ group ∨ ∃ y ∈ ys, o ∈ (g.tensor y).dst.ops := by
  induction ys generalizing group with
  | nil => simp_all [splitUsers, pure_ok]
  | cons y ys ih =>
    have stop : ∀ h : Arena, (pure group : Build (List OpId)) h = .ok r g' →
        ∀ o ∈ r, o ∈ group ∨ ∃ z ∈ y :: ys, o ∈ (g.tensor z).dst.ops :=
      fun h run o ho => Or.inl ((pure_ok.1 run).1 ▸ ho)
    have on : ∀ {group' : List OpId} {o : OpId}, o ∈ (g.tensor y).dst.ops →
      (∀ p ∈ group', p ∈ group ∨ p = o) →
        splitUsers kind ys group' g = .ok r g' → ∀ o ∈ r, o ∈ group ∨ ∃ z ∈ y ::
          ys, o ∈ (g.tensor z).dst.ops := by
      intro group' o user members run p hp
      rcases ih run p hp with hp | ⟨z, hz, hp⟩
      · grind
      · grind
    simp only [splitUsers, bind_ok, tensor_ok] at run
    obtain ⟨_, _, ⟨rfl, rfl⟩, run⟩ := run
    cases head : (g.tensor y).dst.ops.head? with
    | none =>
      simp only [head] at run
      exact stop _ run
    | some o =>
      have user : o ∈ (g.tensor y).dst.ops := mem_of_mem_head? head
      simp only [head, bind_ok, op_ok] at run
      obtain ⟨_, _, ⟨rfl, rfl⟩, run⟩ := run
      split at run
      · exact stop _ run
      · simp only [bind_ok] at run
        obtain ⟨candidate, _, test, run⟩ := run
        obtain rfl := ReadOnly.keeps test
        split at run
        · exact stop _ run
        · cases last : group.getLast? with
          | none =>
            simp only [last] at run
            exact on user (by simp) run
          | some p =>
            simp only [last, bind_ok] at run
            obtain ⟨m, _, hm, n, _, hn, run⟩ := run
            obtain rfl := ReadOnly.keeps hm
            obtain rfl := ReadOnly.keeps hn
            grind

theorem FromSplit.inGraph (complete : Complete g ts) (given : FromSplit g ts kind ms) :
    ∀ o ∈ ms, InGraph g ts o := by
  obtain ⟨split, run, hms⟩ := given
  intro o ho
  unfold splitGroups at run
  split at run
  · cases (pure_ok.1 run).1 ▸ hms
  · simp only [bind_ok, pure_ok] at run
    obtain ⟨found, _, loop, rfl, rfl⟩ := run
    obtain ⟨groups, hgroups, hms⟩ := mem_flatten.1 hms
    obtain ⟨p, hp, run⟩ := (mapM_each loop).2.2 _ hgroups
    obtain ⟨t, ht, source⟩ := mem_flatMap.1 (mem_distinct.1 hp)
    rw [bind_run (op_run _)] at run
    split at run
    · cases (pure_ok.1 run).1 ▸ hms
    · simp only [bind_ok] at run
      obtain ⟨fusible, _, test, run⟩ := run
      obtain rfl := ReadOnly.keeps test
      split at run
      · cases (pure_ok.1 run).1 ▸ hms
      · simp only [bind_ok, outputs_ok, pure_ok] at run
        obtain ⟨ys, _, ⟨written, rfl⟩, group, _, users, eq, rfl⟩ := run
        obtain rfl : ms = group := by grind
        rcases splitUsers_users users o ho with h | ⟨y, hy, user⟩
        · cases h
        · have inside := complete.siblings t ht p source y
            (by simpa [Operator.outputList, written] using hy)
          exact complete.user inside user

theorem findGroups_ok (complete : Complete g ts) {groups : List (List OpId)}
    (run : findGroups kind ts g = .ok groups g') :
    g = g' ∧ ∃ seen, survey kind ts g = .ok seen g ∧ ∀ ms ∈ groups, (∀ o ∈ ms, InGraph g ts o) ∧
      (FromSplit g ts kind ms ∨ ∀ a ∈ ms, ∀ b ∈ ms, Reaches g a b → Noticed g kind seen.order a b →
        ¬ NumberedBefore g a b) := by
  have ordered := complete.valid.ordered
  simp only [findGroups, bind_ok] at run
  obtain ⟨d, _, deps, run⟩ := run
  obtain ⟨rfl, seen, walks, -, -, noticed⟩ := descendants_noticed complete.valid deps
  split at run
  · simp_all
  · simp only [bind_ok, get_ok, require_ok, pure_ok] at run
    obtain ⟨_, _, ⟨rfl, rfl⟩, cands, _, filter, _, _, ⟨-, rfl⟩, split, _, given, s, _, search, rfl,
      rfl⟩ := run
    obtain ⟨rfl, sub, -⟩ := filterM_sublist filter
    obtain rfl := ReadOnly.keeps given
    have sub' := (filter_sublist (p := fun o => !split.any (·.contains o))).trans sub
    obtain ⟨rfl, done⟩ := searched_run ⟨fun _ h => h, fun ms hms => Or.inl hms⟩ (fun _ h => h)
      ((sources_pairwise ordered).sublist sub') search
    refine ⟨rfl, seen, walks, fun ms hms => ?_⟩
    rcases done.groups ms hms with hms | ⟨members, collected⟩
    · have fromSplit : FromSplit g ts kind ms := ⟨split, given, hms⟩
      exact ⟨fromSplit.inGraph complete, Or.inl fromSplit⟩
    · have inside : ∀ o ∈ ms, InGraph g ts o := fun o ho =>
        mem_flatMap.1 (mem_distinct.1 (sub'.subset (members ho)))
      exact ⟨inside, Or.inr (collected.unnoticed ordered inside noticed)⟩

/-- No member of a group depends on another one, and merging all groups at once leaves no cycle. -/
structure Mergeable (g : Arena) (ts : Graph) (groups : List (List OpId)) : Prop where
  independent : ∀ ms ∈ groups, ∀ a ∈ ms, ∀ b ∈ ms, ¬ Reaches g a b
  acyclic : BlocksAcyclic g ts groups

/-- Each dependency inside of a group is one that the search looks for: it was noticed, agrees with
the numbers and is not between users of a split. -/
structure Foreseen (g : Arena) (ts : Graph) (kind : String) (order : List TensorId)
    (groups : List (List OpId)) : Prop where
  inside : ∀ ms ∈ groups, ∀ a ∈ ms, ∀ b ∈ ms, Reaches g a b →
    ¬ FromSplit g ts kind ms ∧ Noticed g kind order a b ∧ NumberedBefore g a b
  between : ∀ ms ∈ groups, ∀ ns ∈ groups, ms ≠ ns → ¬ Ring g groups ms ns

/-- The groups that are found can be merged exactly if each dependency inside of one could be seen,
and different ones form no ring. -/
theorem findGroups_mergeable_iff (complete : Complete g ts) {groups : List (List OpId)}
    (run : findGroups kind ts g = .ok groups g') :
    ∃ seen, survey kind ts g = .ok seen g ∧
    (Mergeable g ts groups ↔ Foreseen g ts kind seen.order groups) := by
  obtain ⟨-, seen, walks, found⟩ := findGroups_ok complete run
  have rings := blocksAcyclic_iff (complete.valid.ordered) fun ms hms => (found ms hms).1
  refine ⟨seen, walks, ?_, ?_⟩
  · rintro ⟨independent, acyclic⟩
    exact ⟨fun ms hms a ha b hb reaches => absurd reaches (independent ms hms a ha b hb),
      fun ms hms ns hns _ => rings.1 acyclic ms hms ns hns⟩
  · rintro ⟨inside, between⟩
    have independent : ∀ ms ∈ groups, ∀ a ∈ ms, ∀ b ∈ ms, ¬ Reaches g a b := by
      intro ms hms a ha b hb reaches
      obtain ⟨collected, noticed, numbered⟩ := inside ms hms a ha b hb reaches
      rcases (found ms hms).2 with fromSplit | unnoticed
      · exact collected fromSplit
      · exact unnoticed a ha b hb reaches noticed numbered
    refine ⟨independent, rings.2 fun ms hms ns hns ring => ?_⟩
    by_cases same : ms = ns
    · obtain ⟨a, ha, b, hb, reaches⟩ := ring.1
      exact independent ms hms a ha b (same ▸ hb) reaches
    · exact between ms hms ns hns same ring

end Groups

def matrix (rows cols : Nat) (src dst : List Nat) : Tensor :=
  { Tensor.ofShape [⟨rows⟩, ⟨cols⟩] with src := ⟨src.map OpId.mk, false⟩, dst := ⟨dst.map OpId.mk,
    false⟩ }

def product (name : String) (x w y : Nat) : Operator :=
  { Operator.ofClass .gemmRcr "gemm_rcr" with
    name := some name
    inputs := some [⟨x⟩, ⟨w⟩]
    outputs := some [⟨y⟩]
    params := [("alpha", .int 1)] }

/-- The products of `x` and `w`, of `u` and `v`, and of the two results; the axis is that of the
rows of `x`. -/
def productArena (axis : Nat) : Arena where
  dims := #[.static 2, .static 4, .static 8, .static 16]
  tensors := #[matrix 0 axis [] [0], matrix 2 axis [] [0], matrix 0 2 [0] [2], matrix 3 2 [] [1],
    matrix 2 2 [] [1], matrix 3 2 [1] [2], matrix 0 3 [2] []]
  ops := #[product "0" 0 1 2, product "1" 3 4 5, product "2" 2 5 6]
  namer := ⟨0, 0, [], []⟩
  target := none

def productGraph : Graph := [⟨0⟩, ⟨1⟩, ⟨2⟩, ⟨3⟩, ⟨4⟩, ⟨5⟩, ⟨6⟩]

theorem complete_products {axis : Nat} (h : axis = 1 ∨ axis = 2) :
    Complete (productArena axis) productGraph := by
  have passes : check true productGraph (productArena axis) = .ok true (productArena axis) := by rfl
  rcases h with rfl | rfl
  · exact ⟨by decide, (check_ok.1 passes).1, by decide, by decide⟩
  · exact ⟨by decide, (check_ok.1 passes).1, by decide, by decide⟩

/-- Where all rows are of one length, the first two products are a group.  Where those of the first
product are shorter, the other two are one, for it was not noticed that the last product reads the
result of the second one. -/
theorem findGroups_mergeable_iff_products :
    (findGroups "gemm_rcr" productGraph (productArena 2) = .ok [[⟨0⟩, ⟨1⟩]] (productArena 2) ∧
      Mergeable (productArena 2) productGraph [[⟨0⟩, ⟨1⟩]]) ∧
    findGroups "gemm_rcr" productGraph (productArena 1) = .ok [[⟨1⟩, ⟨2⟩]] (productArena 1) ∧
      ∃ seen, survey "gemm_rcr" productGraph (productArena 1) = .ok seen (productArena 1) ∧
        ¬ Foreseen (productArena 1) productGraph "gemm_rcr" seen.order [[⟨1⟩, ⟨2⟩]] := by
  have equal : findGroups "gemm_rcr" productGraph (productArena 2) =
    .ok [[⟨0⟩, ⟨1⟩]] (productArena 2) := by cbv
  have shorter : findGroups "gemm_rcr" productGraph (productArena 1) =
    .ok [[⟨1⟩, ⟨2⟩]] (productArena 1) := by cbv
  refine ⟨⟨equal, ?_⟩, shorter, ?_⟩
  · obtain ⟨seen, -, mergeable⟩ := findGroups_mergeable_iff (complete_products (Or.inr rfl)) equal
    -- nothing that the two products read has a source
    have first : ∀ a, ∀ b ∈ [(⟨0⟩ : OpId), ⟨1⟩], ¬ Reaches (productArena 2) a b := by
      intro a b hb reaches
      obtain ⟨c, -, t, ht, source⟩ := TransGen.tail'_iff.1 reaches
      have bare : ∀ b ∈ [(⟨0⟩ : OpId), ⟨1⟩], ∀ t ∈ ((productArena 2).op b).inputList,
          ((productArena 2).tensor t).src.ops = [] := by decide
      rw [bare b hb t ht] at source
      cases source
    refine mergeable.2 ⟨fun ms hms a _ b hb reaches => ?_, fun ms hms ns hns ne => ?_⟩
    · obtain rfl := mem_singleton.1 hms
      exact absurd reaches (first a b hb)
    · exact absurd ((mem_singleton.1 hms).trans (mem_singleton.1 hns).symm) ne
  · obtain ⟨seen, walks, mergeable⟩ := findGroups_mergeable_iff
      (complete_products (Or.inl rfl)) shorter
    refine ⟨seen, walks, fun foreseen => ?_⟩
    exact (mergeable.2 foreseen).independent _ mem_cons_self ⟨1⟩ (by simp) ⟨2⟩ (by simp)
      (.single (by decide))

/-! ## Cutting large groups -/

theorem flatten_pieces {α : Type} (l : List α) (m bound k : Nat) :
    ((range k).map fun i => (l.take (min ((i + 1) * m) bound)).drop (i * m)).flatten =
    l.take (min (k * m) bound) := by
  induction k with
  | zero => simp
  | succ k ih =>
    have next : (k + 1) * m = k * m + m := Nat.succ_mul k m
    rw [range_succ, map_append, flatten_append, ih, map_singleton, flatten_singleton]
    rcases Nat.le_total (k * m) bound with le | le
    · have front : l.take (k * m) = (l.take (min ((k + 1) * m) bound)).take (k * m) := by
        rw [take_take]
        congr 1
        omega
      simp_all
    · rw [drop_eq_nil_of_le (by simp; omega), append_nil, Nat.min_eq_right le,
        Nat.min_eq_right (by omega)]

theorem cut_run {size : OpId → Int} (sizes : ∀ o ∈ group, normSize o g = .ok (size o) g) :
    ∃ sorted : List OpId, sorted.Perm group ∧ sorted.Pairwise (fun a b => size b ≤ size a) ∧
      let count := (sorted.length + mostNorms - 1) / mostNorms
      cut group g = .ok ((range count).map fun i =>
        (sorted.take (min ((i + 1) * mostNorms) count)).drop (i * mostNorms)) g := by
  have measured : (group.mapM fun o => do return (o, ← normSize o) : Build _) g =
    .ok (group.map fun o => (o, size o)) g :=
    mapM_run fun o ho => by rw [bind_run (sizes o ho)]; rfl
  have perm := mergeSort_perm (group.map fun o => (o, size o)) fun a b => decide (b.2 ≤ a.2)
  have sorted :
      ((group.map fun o => (o, size o)).mergeSort fun a b => decide (b.2 ≤ a.2)).Pairwise fun a b =>
      decide (b.2 ≤ a.2) = true :=
    pairwise_mergeSort (by simp; omega) (by simp; omega) _
  refine ⟨_, (perm.map (·.1)).trans (by simp [Function.comp_def]),
    pairwise_map.2 (sorted.imp_of_mem fun ha hb le => ?_), ?_⟩
  · grind
  · rw [cut, bind_run measured]
    rfl

/-- A large group is cut into as many pieces as are needed, none of them too large.  But the pieces
end at their own number instead of the number of members: together they hold only the first few
members by size, and the last one is empty. -/
theorem cut_pieces {size : OpId → Int} (sizes : ∀ o ∈ group, normSize o g = .ok (size o) g)
    (large : mostNorms < group.length) :
    ∃ (pieces : List (List OpId)) (sorted : List OpId), cut group g = .ok pieces g ∧
      sorted.Perm group ∧ sorted.Pairwise (fun a b => size b ≤ size a) ∧
      pieces.length = (group.length + mostNorms - 1) / mostNorms ∧
        (∀ ms ∈ pieces, ms.length ≤ mostNorms) ∧
      pieces.flatten = sorted.take pieces.length ∧ ¬ pieces.flatten.Perm group ∧
      (∀ i ms, pieces[i]? = some ms → (ms = [] ↔ pieces.length ≤ i * mostNorms)) ∧ [] ∈ pieces := by
  obtain ⟨sorted, perm, ordered, run⟩ := cut_run sizes
  rw [perm.length_eq] at run
  set count := (group.length + mostNorms - 1) / mostNorms with counted
  have bounds : 1 < count ∧ count < group.length ∧ count ≤ (count - 1) * mostNorms := by
    unfold mostNorms at *
    omega
  have joined := flatten_pieces sorted mostNorms count count
  rw [Nat.min_eq_right (by unfold mostNorms; omega)] at joined
  refine ⟨_, sorted, run, perm,
    ordered, by simp, fun ms hms => ?_, by simpa using joined, fun all => ?_, fun i ms hi => ?_, ?_⟩
  · obtain ⟨i, -, rfl⟩ := List.mem_map.1 hms
    have next : (i + 1) * mostNorms = i * mostNorms + mostNorms := Nat.succ_mul i mostNorms
    simp only [List.length_drop, List.length_take]
    omega
  · have length := all.length_eq
    rw [joined, List.length_take, perm.length_eq] at length
    omega
  · rw [List.getElem?_map, Option.map_eq_some_iff] at hi
    obtain ⟨j, hj, rfl⟩ := hi
    obtain ⟨low, rfl⟩ := List.getElem?_eq_some_iff.1 hj
    simp only [List.length_range] at low
    simp only [List.drop_eq_nil_iff, List.length_take, perm.length_eq, List.getElem_range,
      List.length_map, List.length_range]
    unfold mostNorms at *
    omega
  · refine List.mem_map.2 ⟨count - 1, by simp; omega, List.drop_eq_nil_of_le ?_⟩
    simp only [List.length_take]
    omega

/-- Forty layers. -/
theorem cut_pieces_forty :
    let layer : Operator := { Operator.ofClass .layernorm
      "layernorm" with params := [("normalized_shape", .list [.dim ⟨0⟩])] }
    let g := Arena.ofNodes [8] [] (Array.replicate 40 layer)
    ∃ pieces : List (List OpId), cut ((range 40).map OpId.mk) g = .ok pieces g ∧ [] ∈ pieces := by
  intro layer g
  have sizes : ∀ o ∈ (range 40).map OpId.mk, normSize o g = .ok 8 g := by
    intro o ho
    simp only [mem_map, mem_range] at ho
    obtain ⟨i, low, rfl⟩ := ho
    interval_cases i <;> rfl
  obtain ⟨pieces, _, run, _, _, _, _, _, _, _, empty⟩ := cut_pieces sizes (by decide)
  exact ⟨pieces, run, empty⟩

end Grouping

end TensorGraph

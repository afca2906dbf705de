import TensorGraph.Fusion.Pointwise
import TensorGraph.Proofs.ClusterSets
import TensorGraph.Proofs.MergedGraph

/-!
# Which elementwise operators come together

An operator joins the groups of those that it reads from, less those that are set aside.
-/

namespace TensorGraph

namespace Pointwise

open Build TensorGraph.Graph List

variable {o : OpId} {done : Graph} {t : TensorId} {c : Clusters OpId}

/-! ## The operators that can be joined -/

section Settle

variable {g : Arena} {S : OpId → Prop} (closed : Closed g S)
include closed

theorem reachesAside_run {sources aside : List OpId} (hs : ∀ p ∈ sources, S p)
    (ha : ∀ p ∈ aside, S p) (o : OpId) :
    ∃ r, reachesAside sources aside o g = .ok r g ∧
    (r = true → ∃ q ∈ sources ++ aside, Reaches g o q) := by
  have detours : ∀ p ∈ sources, ∃ r, (do
      if o == p then return false
      if !(← isAncestor o p) then return false
      return !(← isParent o p) : Build Bool) g = .ok r g ∧ (r = true → Reaches g o p) := by
    intro p hp
    split
    · exact ⟨false, rfl, by simp⟩
    · obtain ⟨found, run, sound⟩ := closed.isAncestor_run o (hs p hp)
      rw [bind_run run]
      cases found with
      | false => exact ⟨false, rfl, by simp⟩
      | true =>
        refine ⟨!decide (Feeds g o p), ?_, fun _ => sound.1 rfl⟩
        show (isParent o p >>= fun b => pure !b) g = _
        rw [bind_run (closed.isParent_run o (hs p hp))]
        rfl
  have ancestors : ∀ p ∈ aside, ∃ r, isAncestor o p g = .ok r g ∧ (r = true ↔ Reaches g o p) :=
    fun p hp =>
    closed.isAncestor_run o (ha p hp)
  choose! d hd using detours
  choose! e he using ancestors
  unfold reachesAside
  rw [bind_run (anyM_reads fun p hp => (hd p hp).1)]
  cases detour : sources.any d with
  | true =>
    obtain ⟨p, hp, h⟩ := any_eq_true.1 detour
    exact ⟨true, rfl, fun _ => ⟨p, mem_append_left _ hp, (hd p hp).2 h⟩⟩
  | false =>
    refine ⟨aside.any e, anyM_reads fun p hp => (he p hp).1, fun h => ?_⟩
    grind

theorem settle_run (n : Nat) (sources aside : List OpId) (hs : ∀ p ∈ sources, S p)
    (ha : ∀ p ∈ aside, S p) (enough : sources.length < n) :
    ∃ kept, settle n sources aside g = .ok kept g ∧ kept ⊆ sources ∧
      ∀ r ∈ sources, r ∉ kept → ∃ q ∈ sources ++ aside, Reaches g r q := by
  induction n generalizing sources aside with
  | zero => simp at enough
  | succ n ih =>
    choose d hd using reachesAside_run closed hs ha
    unfold settle
    rw [bind_run (filterM_reads fun p _ => (hd p).1)]
    split
    · simp_all
    · next some =>
      have fewer : (sources.filter fun p => !(sources.filter d).contains p).length <
        sources.length :=
        length_filter_lt_length_iff_exists.2 (by simpa using some)
      obtain ⟨kept, run, sub, reason⟩ := ih (sources.filter fun p => !(sources.filter d).contains p)
        (aside ++ sources.filter d) (fun p hp => hs p (mem_filter.1 hp).1)
        (fun p hp => (mem_append.1 hp).elim (ha p) fun h => hs p (mem_filter.1 h).1) (by omega)
      grind

theorem joinable_run (ho : S o) :
    ∃ deps, joinable o g = .ok deps g ∧ (∀ d ∈ deps, Feeds g d o ∧ (g.op d).kind = "elementwise") ∧
      ∀ r, Feeds g r o → (g.op r).kind = "elementwise" → r ∉ deps → ∃ q, Feeds g q o ∧
        Reaches g r q := by
  have mem : ∀ p, p ∈ ((g.op o).inputList.flatMap fun t => (g.tensor t).src.ops).distinct ↔
    Feeds g p o := by
    intro p
    rw [mem_distinct, mem_flatMap]
    rfl
  unfold joinable
  rw [bind_run (closed.inputs_run ho), bind_run (get_ok.2 ⟨rfl, rfl⟩)]
  generalize ((g.op o).inputList.flatMap fun t => (g.tensor t).src.ops).distinct = sources at mem
  have inS : ∀ p ∈ sources, S p := fun p hp => closed.fed p o ho ((mem p).1 hp)
  simp only [partition_eq_filter_filter]
  obtain ⟨kept, run, sub, reason⟩ := settle_run closed (sources.length + 1)
    (sources.filter fun p => (g.op p).kind == "elementwise")
      (sources.filter (not ∘ fun p => (g.op p).kind == "elementwise"))
    (fun p hp => inS p (mem_filter.1 hp).1) (fun p hp => inS p (mem_filter.1 hp).1)
      (Nat.lt_succ_of_le (length_filter_le ..))
  refine ⟨kept, run, fun d hd => ?_, fun r hr kind h => ?_⟩
  · grind
  · obtain ⟨q, hq, reaches⟩ := reason r (mem_filter.2 ⟨(mem r).2 hr, by simpa using kind⟩) h
    grind

end Settle

/-! ## The groups -/

def Eligible (g : Arena) (ts : Graph) (o : OpId) : Prop :=
  (g.op o).kind = "elementwise" ∧ ∃ t ∈ ts, (g.tensor t).src.ops = [o]

def Blocked (g : Arena) (ts : Graph) (a b : OpId) : Prop := ∃ q, ¬ Eligible g ts q ∧ Reaches g a q ∧
    Reaches g q b

/-- What holds of the groups when the sources of some tensors have been added. -/
structure Clustered (g : Arena) (ts done : Graph) (c : Clusters OpId) : Prop where
  wf : c.Wf
  nodes : ∀ o, o ∈ c.nodes ↔ Eligible g done o
  near : ∀ a b, a ∈ c.nodes → b ∈ c.nodes → Reaches g b a → c.Same b a ∨ Blocked g ts b a
  order : (∀ a b, c.Same a b → ¬ Blocked g ts b a) → c.InOrder fun a b => ¬ Reaches g b a

/-- A graph that passes the check, without repetition, whose elementwise operators have one output
each. -/
structure Sound (g : Arena) (ts : Graph) : Prop where
  nodup : ts.Nodup
  valid : Valid g ts
  sole : ∀ t ∈ ts, ∀ o ∈ (g.tensor t).src.ops, (g.op o).kind = "elementwise" →
    (g.op o).outputs = some [t]

theorem Clustered.skip {g : Arena} {ts : Graph} (clustered : Clustered g ts done c)
    (other : ∀ o, (g.tensor t).src.ops = [o] → (g.op o).kind ≠ "elementwise") :
    Clustered g ts (done ++ [t]) c := by
  refine ⟨clustered.wf, fun p => ?_, clustered.near, clustered.order⟩
  rw [clustered.nodes]
  constructor
  · rintro ⟨hk, u, hu, hp⟩
    exact ⟨hk, u, mem_append_left _ hu, hp⟩
  · rintro ⟨hk, u, hu, hp⟩
    rcases mem_append.1 hu with hu | hu
    · exact ⟨hk, u, hu, hp⟩
    · grind

section Clusters

variable {g : Arena} {ts : Graph} (sound : Sound g ts)
include sound

variable {u : TensorId} {b : OpId} {deps : List OpId}

theorem closed_graph : Closed g (InGraph g ts) := by
  refine ⟨fun o ⟨t, ht, ho⟩ => (sound.valid.applied ht ho).1, fun a b ⟨t, ht, hb⟩ ⟨x, hx, ha⟩ => ?_⟩
  exact ⟨x, (sound.valid.reads ht hb hx).1, ha⟩

theorem sole_output (kind : (g.op o).kind = "elementwise") (ht : t ∈ ts) (hu : u ∈ ts)
    (hot : o ∈ (g.tensor t).src.ops) (hou : o ∈ (g.tensor u).src.ops) : t = u := by
  have := (sound.sole t ht o hot kind).symm.trans (sound.sole u hu o hou kind)
  simpa using this

theorem before_of_reaches {a : OpId} (h : Reaches g a b) (kind : (g.op a).kind = "elementwise")
    (ht : t ∈ ts) (hu : u ∈ ts) (ha : a ∈ (g.tensor t).src.ops) (hb : b ∈ (g.tensor u).src.ops) :
    Before ts t u := by
  obtain ⟨w, haw, before⟩ := sound.valid.ordered.reaches_before h hu hb
  rw [sole_output sound kind ht before.mem ha haw]
  exact before

theorem joins_path (hb : Eligible g ts b) (reaches : Reaches g b o)
    (reason : ∀ r, Feeds g r o → (g.op r).kind = "elementwise" → r ∉ deps → ∃ q, Feeds g q o ∧
      Reaches g r q) :
    (∃ d ∈ deps, d = b ∨ Reaches g b d) ∨ Blocked g ts b o := by
  -- the last source of an input that lies on such a way cannot have been set aside
  suffices last : ∀ (k : Nat) (r : OpId), Feeds g r o → (r = b ∨ Reaches g b r) →
      (∀ t ∈ ts, (g.tensor t).src.ops = [r] → ts.length ≤ ts.idxOf t + k) →
      (∃ d ∈ deps, d = b ∨ Reaches g b d) ∨ Blocked g ts b o by
    rcases Relation.TransGen.tail'_iff.1 reaches with ⟨r, way, feeds⟩
    refine last ts.length r feeds ?_ fun t _ _ => Nat.le_add_left _ _
    rcases Relation.reflTransGen_iff_eq_or_transGen.1 way with h | h
    · exact Or.inl h
    · exact Or.inr h
  have outside : ∀ r, Feeds g r o → (r = b ∨ Reaches g b r) → ¬ Eligible g ts r →
    Blocked g ts b o := by
    intro r feeds way eligible
    refine ⟨r, eligible, ?_, .single feeds⟩
    grind
  intro k
  induction k with
  | zero =>
    intro r feeds way bound
    refine Or.inr (outside r feeds way ?_)
    rintro ⟨-, t, ht, hr⟩
    grind
  | succ k ih =>
    intro r feeds way bound
    by_cases eligible : Eligible g ts r
    · obtain ⟨kind, t, ht, hr⟩ := eligible
      by_cases kept : r ∈ deps
      · exact Or.inl ⟨r, kept, way⟩
      · obtain ⟨q, feeds', reaches'⟩ := reason r feeds kind kept
        have way' : Reaches g b q := by
          rcases way with rfl | way
          · exact reaches'
          · exact way.trans reaches'
        refine ih q feeds' (Or.inr way') fun u hu hq => ?_
        have before : Before ts t u := before_of_reaches sound reaches' kind ht hu (by simp [hr])
          (by simp [hq])
        grind [Before]
    · exact Or.inr (outside r feeds way eligible)

theorem Clustered.add {rest : Graph}
    (split : ts = done ++ t :: rest) (clustered : Clustered g ts done c)
    (kind : (g.op o).kind = "elementwise") (ho : (g.tensor t).src.ops = [o])
    (joins : ∀ d ∈ deps, Feeds g d o) (reason : ∀ r, Feeds g r o → (g.op r).kind = "elementwise" →
    r ∉ deps → ∃ q, Feeds g q o ∧ Reaches g r q) :
    Clustered g ts (done ++ [t]) (c.add o deps) := by
  have ht : t ∈ ts := by rw [split]; simp
  have sub : ∀ u ∈ done, u ∈ ts := fun u hu => by rw [split]; exact mem_append_left _ hu
  have nodup := sound.nodup
  rw [split] at nodup
  have later : t ∉ done := fun h => (nodup_append.1 nodup).2.2 t h t mem_cons_self rfl
  have fresh : o ∉ c.nodes := by
    intro h
    obtain ⟨-, u, hu, hou⟩ := (clustered.nodes o).1 h
    grind [sole_output]
  have added := Clusters.add_spec clustered.wf fresh deps
  -- no operator of the groups is reached from the new one
  have last : ∀ a ∈ c.nodes, ¬ Reaches g o a := by
    intro a ha reaches
    obtain ⟨-, u, hu, hau⟩ := (clustered.nodes a).1 ha
    have before := before_of_reaches sound reaches kind ht (sub u hu) (by simp [ho]) (by simp [hau])
    rw [split] at before
    exact Nat.lt_asymm before (before_of_mem_front nodup hu)
  have same_trans : ∀ a b d, (c.add o deps).Same a b → (c.add o deps).Same b d →
    (c.add o deps).Same a d := by
    rintro a b d ⟨i, ha, hb⟩ ⟨j, hb', hd⟩
    rw [value_unique added.wf.nodup hb hb'] at ha
    exact ⟨j, ha, hd⟩
  refine ⟨added.wf, fun p => ?_, fun a b ha hb reaches => ?_, fun apart => ?_⟩
  · rw [added.nodes, mem_append, clustered.nodes, mem_singleton]
    constructor
    · rintro (⟨hk, u, hu, hp⟩ | rfl)
      · exact ⟨hk, u, mem_append_left _ hu, hp⟩
      · exact ⟨kind, t, by simp, ho⟩
    · rintro ⟨hk, u, hu, hp⟩
      rcases mem_append.1 hu with hu | hu
      · exact Or.inl ⟨hk, u, hu, hp⟩
      · grind
  · rw [added.nodes, mem_append, mem_singleton] at ha hb
    rcases hb with hb | rfl
    · rcases ha with ha | rfl
      · exact (clustered.near a b ha hb reaches).imp_left (added.same b a)
      · obtain ⟨hk, u, hu, hbu⟩ := (clustered.nodes b).1 hb
        have eligible : Eligible g ts b := ⟨hk, u, sub u hu, hbu⟩
        rcases joins_path sound eligible reaches reason with ⟨d, hd, way⟩ | blocked
        · by_cases hde : Eligible g ts d
          · obtain ⟨hdk, w, hw, hdw⟩ := hde
            have before : Before ts w t := before_of_reaches sound (.single (joins d hd)) hdk hw ht
              (by simp [hdw]) (by simp [ho])
            rw [split] at before
            have hdn : d ∈ c.nodes := (clustered.nodes d).2 ⟨hdk, w, before.mem_front, hdw⟩
            have joined := added.joined d hd hdn
            rcases way with rfl | way
            · exact Or.inl joined
            · rcases clustered.near d b hdn hb way with near | ⟨q, hq, hbq, hqd⟩
              · exact Or.inl (same_trans b d _ (added.same b d near) joined)
              · exact Or.inr ⟨q, hq, hbq, hqd.tail (joins d hd)⟩
          · rcases way with rfl | way
            · exact absurd eligible hde
            · exact Or.inr ⟨d, hde, way, .single (joins d hd)⟩
        · exact Or.inr blocked
    · rcases ha with ha | rfl
      · exact absurd reaches (last a ha)
      · exact absurd (before_of_reaches sound reaches kind ht ht (by simp [ho]) (by simp [ho]))
          (Nat.lt_irrefl _)
  · refine added.order _ (clustered.order fun a b h => apart a b (added.same a b h))
      (fun a b ha hb h far reaches => ?_) last
    rcases clustered.near a b ha hb reaches with near | blocked
    · obtain ⟨i, hbi, hai⟩ := near
      exact far ⟨i, hai, hbi⟩
    · exact apart a b h blocked

/-- The groups are found, and they hold all elementwise operators of the graph. -/
theorem clusters_run : ∃ c, clusters ts g = .ok c g ∧ Clustered g ts ts c := by
  have start : Clustered g ts [] .empty :=
    ⟨Clusters.wf_empty, by simp [Clusters.nodes, Clusters.empty, Eligible], by simp [Clusters.nodes,
    Clusters.empty], fun _ => by simp [Clusters.InOrder, Clusters.empty]⟩
  refine foldlM_passes (Clustered g ts) (fun done t rest c split clustered => ?_) start
  rw [bind_run (tensor_ok.2 ⟨rfl, rfl⟩)]
  cases hs : (g.tensor t).src.sole? with
  | none =>
    refine ⟨c, rfl, clustered.skip fun o ho => ?_⟩
    rw [Links.sole?_eq_some.2 ho] at hs
    cases hs
  | some o =>
    have ho := Links.sole?_eq_some.1 hs
    dsimp only
    rw [bind_run (op_ok.2 ⟨rfl, rfl⟩)]
    by_cases kind : (g.op o).kind = "elementwise"
    · have member : InGraph g ts o := ⟨t, by rw [split]; simp, by simp [ho]⟩
      obtain ⟨deps, run, joins, reason⟩ := joinable_run (closed_graph sound) member
      rw [if_pos (by simpa using kind), bind_run run]
      exact ⟨_, rfl, clustered.add sound split kind ho (fun d hd => (joins d hd).1) reason⟩
    · rw [if_neg (by simpa using kind)]
      refine ⟨c, rfl, clustered.skip fun p hp => ?_⟩
      grind

end Clusters

end Pointwise

end TensorGraph

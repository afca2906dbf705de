import TensorGraph.Fusion.Group
import TensorGraph.Proofs.Reachability
import TensorGraph.Proofs.Sorting
import TensorGraph.Proofs.ValidGraph

/-!
# What a walk over the graph records

`survey` walks forward from each tensor and keeps for it the operators of a kind that it found
behind it.
-/

namespace TensorGraph

open List

variable {g : Arena} {t u y : TensorId} {led : List TensorId} {os : List OpId}

namespace Grouping

open Build TensorGraph.Graph Relation

variable {n : Nat} {acc : Seen × List OpId}

/-! ## Seeing a tensor for the first time -/

def Next (g : Arena) (t y : TensorId) : Prop := ∃ o ∈ (g.tensor t).dst.ops, y ∈ (g.op o).outputList

/-- A walk that sees tensors in some order sees one of them from another: from the last that leads
to it. -/
structure Discovers (g : Arena) (order : List TensorId) (u z : TensorId) : Prop where
  seen : z ∈ order
  next : Next g u z
  before : Before order u z
  last : ∀ v, Next g v z → Before order v z → ¬ Before order u v

def Makes (g : Arena) (kind : String) (p : OpId) (z : TensorId) : Prop :=
  (g.tensor z).src.ops = [p] ∧ (g.op p).kind = kind

def Behind (g : Arena) (kind : String) (order : List TensorId) (t : TensorId) (p : OpId) : Prop :=
  ∃ u z, ReflTransGen (Next g) t u ∧ Discovers g order u z ∧ Makes g kind p z

section Order

variable {g : Arena} {kind : String} {order more : List TensorId} {t u v z : TensorId} {p : OpId}

theorem before_append_iff (hz : z ∈ order) : Before (order ++ more) v z ↔ Before order v z := by
  unfold Before
  grind

theorem discovers_append_iff (hz : z ∈ order) : Discovers g (order ++ more) u z ↔
    Discovers g order u z := by
  constructor
  · rintro ⟨-, next, before, last⟩
    rw [before_append_iff hz] at before
    refine ⟨hz, next, before, fun v hv hvz later => last v hv ((before_append_iff hz).2 hvz) ?_⟩
    exact (before_append_iff hvz.mem).2 later
  · rintro ⟨-, next, before, last⟩
    refine ⟨mem_append_left _ hz, next, (before_append_iff hz).2 before, fun v hv hvz later => ?_⟩
    have hvz := (before_append_iff hz).1 hvz
    exact last v hv hvz ((before_append_iff hvz.mem).1 later)

theorem behind_iff : Behind g kind order t p ↔
    ∃ z, Next g t z ∧ (Discovers g order t z ∧ Makes g kind p z ∨ Behind g kind order z p) := by
  constructor
  · rintro ⟨u, z, path, found, makes⟩
    rcases ReflTransGen.cases_head path with rfl | ⟨y, next, path⟩
    · exact ⟨z, found.next, Or.inl ⟨found, makes⟩⟩
    · exact ⟨y, next, Or.inr ⟨u, z, path, found, makes⟩⟩
  · rintro ⟨z, next, ⟨found, makes⟩ | ⟨u, y, path, found, makes⟩⟩
    · exact ⟨t, z, .refl, found, makes⟩
    · exact ⟨u, y, path.head next, found, makes⟩

end Order

/-! ## The state of a walk -/

def Seen.order (seen : Seen) : List TensorId := seen.map (·.1)

/-- A walk has finished with all tensors that it has seen but some: it has seen what they lead to
and finished with it, and holds what is behind them. -/
structure Finished (g : Arena) (kind : String) (unfinished : List TensorId) (seen : Seen) :
    Prop where
  nodup : seen.order.Nodup
  unfinished_seen : unfinished ⊆ seen.order
  next : ∀ u ∈ seen.order, u ∉ unfinished → ∀ z, Next g u z → z ∈ seen.order ∧ z ∉ unfinished
  single : ∀ u ∈ seen.order, u ∉ unfinished → (g.tensor u).src.ops.length ≤ 1
  entries : ∀ u os, (u, os) ∈ seen → u ∉ unfinished → ∀ p, p ∈ os ↔ Behind g kind seen.order u p

/-! ## One walk -/

def successors (g : Arena) (t : TensorId) : List TensorId :=
  (g.tensor t).dst.ops.flatMap fun o => (g.op o).outputList

theorem mem_successors : y ∈ successors g t ↔ Next g t y := mem_flatMap

@[simp] theorem mem_union {as bs : List OpId} {p : OpId} : p ∈ union as bs ↔ p ∈ as ∨ p ∈ bs := by
  simp only [union, mem_append, mem_filter]
  grind

def gather (g : Arena) (kind : String) (n : Nat) (acc : Seen × List OpId) (y : TensorId) :
    Except Fault (Seen × List OpId) :=
  walk g kind n acc.1 y >>= fun r => .ok (r.1, union acc.2 r.2)

theorem gather_flatMap {kind : String} {r : Seen × List OpId} (run : os.foldlM (fun acc o => do
      let some ys := (g.op o).outputs | throw Fault.badKey
      ys.foldlM (fun (seen, found) y => do
        let (seen, more) ← walk g kind n seen y
        return (seen, union found more)) acc) acc = .ok r) :
    (os.flatMap fun o => (g.op o).outputList).foldlM (gather g kind n) acc = .ok r := by
  induction os generalizing acc with
  | nil => exact run
  | cons o os ih =>
    rw [foldlM_cons] at run
    rw [flatMap_cons, foldlM_append]
    unfold Operator.outputList
    cases written : (g.op o).outputs with
    | none => simp [written, bind, Except.bind, throw, throwThe, MonadExceptOf.throw] at run
    | some ys =>
      simp only [written] at run
      change (ys.foldlM (gather g kind n) acc >>= _) = _ at run
      rw [Option.getD_some]
      cases first : ys.foldlM (gather g kind n) acc with
      | error e => simp [first, bind, Except.bind] at run
      | ok acc₁ =>
        simp only [first, bind, Except.bind] at run
        exact ih run

/-- A walk to a tensor that was seen tells what is known; any other one walks on to all that the
tensor leads to. -/
theorem walk_ok {kind : String} {seen seen' : Seen}
    (run : walk g kind (n + 1) seen t = .ok (seen', os)) :
    seen.lookup t = some os ∧ seen' = seen ∨
    seen.lookup t = none ∧ (g.tensor t).src.ops.length ≤ 1 ∧ ∃ s found,
      (successors g t).foldlM (gather g kind n) (seen ++ [(t, [])], []) = .ok (s, found) ∧
      seen' = (s.map fun e => if e.1 == t then (t, found) else e) ∧ ∀ p, p ∈ os ↔ p ∈ found ∨
        Makes g kind p t := by
  rw [walk] at run
  cases known : seen.lookup t with
  | some os' =>
    simp only [known] at run
    cases run
    exact Or.inl ⟨rfl, rfl⟩
  | none =>
    simp only [known] at run
    generalize loop : foldlM (m := Except Fault) _ (seen ++ [(t, [])], []) (g.tensor t).dst.ops =
      r at run
    cases r with
    | error e => simp [bind, Except.bind] at run
    | ok r =>
      obtain ⟨s, found⟩ := r
      refine Or.inr ⟨rfl, ?_⟩
      have loop := gather_flatMap loop
      simp only [bind, Except.bind] at run
      cases sources : (g.tensor t).src.ops with
      | nil =>
        simp only [sources] at run
        cases run
        exact ⟨by simp, s, os, loop, rfl, by simp [Makes, sources]⟩
      | cons o rest =>
        cases rest with
        | nil =>
          simp only [sources] at run
          cases run
          refine ⟨by simp, s, found, loop, rfl, fun p => ?_⟩
          by_cases same : (g.op o).kind = kind
          · simp only [beq_iff_eq, same, if_true, mem_union, mem_singleton, Makes, sources,
              cons.injEq, and_true]
            grind
          · simp only [beq_iff_eq, same, if_false, Makes, sources, cons.injEq, and_true]
            grind
        | cons o' rest =>
          simp only [sources] at run
          cases run

section Walk

variable {g : Arena} {kind : String} {unfinished : List TensorId} {seen seen' : Seen} {t : TensorId}

theorem Finished.path (finished : Finished g kind unfinished seen) {v : TensorId}
    (path : ReflTransGen (Next g) u v) (hu : u ∈ seen.order) (closed : u ∉ unfinished) :
    v ∈ seen.order ∧ v ∉ unfinished := by
  induction path with
  | refl => exact ⟨hu, closed⟩
  | tail _ next ih => exact finished.next _ ih.1 ih.2 _ next

theorem Finished.behind_append (finished : Finished g kind unfinished seen) (more : List TensorId)
    (hu : u ∈ seen.order) (closed : u ∉ unfinished) {p : OpId} :
    Behind g kind (seen.order ++ more) u p ↔ Behind g kind seen.order u p := by
  have known : ∀ {v z}, ReflTransGen (Next g) u v → Next g v z → z ∈ seen.order := fun path next =>
    (finished.path (path.tail next) hu closed).1
  constructor
  · rintro ⟨v, z, path, found, makes⟩
    exact ⟨v, z, path, (discovers_append_iff (known path found.next)).1 found, makes⟩
  · rintro ⟨v, z, path, found, makes⟩
    exact ⟨v, z, path, (discovers_append_iff (known path found.next)).2 found, makes⟩

/-- The outcome of a walk to a tensor. -/
structure Walked (g : Arena) (kind : String) (unfinished : List TensorId) (seen : Seen)
    (t : TensorId) (seen' : Seen)
    (os : List OpId) : Prop where
  finished : Finished g kind unfinished seen'
  closed : t ∉ unfinished
  order : t ∈ seen.order ∧ seen' = seen ∨ t ∉ seen.order ∧ ∃ rest, seen'.order = seen.order ++
    t :: rest ∧
    ∀ z ∈ rest, ∃ u ∈ t :: rest, Next g u z ∧ Before seen'.order u z
  found : ∀ p, p ∈ os ↔ Behind g kind seen'.order t p ∨ t ∉ seen.order ∧ Makes g kind p t

/-- Where a walk from a tensor stands when it has walked on to some of those that the tensor leads
to. -/
structure Gathered (g : Arena) (kind : String) (unfinished : List TensorId) (seen : Seen)
    (t : TensorId)
    (led : List TensorId) (acc : Seen × List OpId) : Prop where
  finished : Finished g kind (t :: unfinished) acc.1
  closed : ∀ z ∈ led, z ∈ acc.1.order ∧ z ∉ t :: unfinished
  order : ∃ rest, acc.1.order = seen.order ++ t :: rest ∧
    ∀ z ∈ rest, z ∈ led ∨ ∃ u ∈ rest, Next g u z ∧ Before acc.1.order u z
  found : ∀ p, p ∈ acc.2 ↔ ∃ z ∈ led, Discovers g acc.1.order t z ∧ Makes g kind p z ∨
    Behind g kind acc.1.order z p

theorem Seen.order_append (seen : Seen) (t : TensorId) (os : List OpId) :
    (seen ++ [(t, os)]).order = seen.order ++ [t] := by
  simp [Seen.order]

theorem Gathered.start (finished : Finished g kind unfinished seen) (new : t ∉ seen.order) :
    Gathered g kind unfinished seen t [] (seen ++ [(t, [])], []) where
  finished := by
    have old : ∀ {u}, u ∈ (seen ++ [(t, [])]).order → u ∉ t :: unfinished → u ∈ seen.order ∧
      u ∉ unfinished := by
      grind [closed, Seen.order_append]
    refine ⟨?_, ?_, ?_, ?_, ?_⟩
    · rw [Seen.order_append]
      exact nodup_append.2 ⟨finished.nodup, by simp, by grind⟩
    · rw [Seen.order_append]
      exact fun u hu => by grind [finished.unfinished_seen]
    · intro u hu closed z next
      obtain ⟨hz, closed'⟩ := finished.next u (old hu closed).1 (old hu closed).2 z next
      grind [Seen.order_append, mem_append_left]
    · exact fun u hu closed => finished.single u (old hu closed).1 (old hu closed).2
    · intro u os entry closed p
      rw [Seen.order_append]
      have entry : (u, os) ∈ seen := by grind
      have hu : u ∈ seen.order := mem_map_of_mem entry
      rw [finished.behind_append [t] hu (by grind)]
      exact finished.entries u os entry (by grind) p
  closed := by simp
  order := ⟨[], Seen.order_append _ _ _, by simp⟩
  found := by simp

/-- A tensor that is seen for the first time on the way from another one is discovered by it:
whatever else leads to it and was seen is unfinished, so it was seen earlier. -/
theorem Gathered.discovers {rest : List TensorId}
    (so_far : Gathered g kind unfinished seen t led acc) (open_seen : unfinished ⊆ seen.order)
    (next : Next g t y) (new : y ∉ acc.1.order) (nodup : (acc.1.order ++ y :: rest).Nodup) :
    Discovers g (acc.1.order ++ y :: rest) t y := by
  obtain ⟨front, split, -⟩ := so_far.order
  have ht : t ∈ acc.1.order := by simp [split]
  refine ⟨by simp, next, before_of_mem_front nodup ht, fun v leads before later => ?_⟩
  have hv : v ∈ acc.1.order := before.mem_front
  rw [before_append_iff hv] at later
  by_cases closed : v ∈ t :: unfinished
  · rcases mem_cons.1 closed with rfl | closed
    · exact Nat.lt_irrefl _ later
    · rw [split] at later
      have earlier := before_of_mem_front (split ▸ so_far.finished.nodup) (open_seen closed)
      exact Nat.lt_asymm later earlier
  · exact new (so_far.finished.next v hv closed y leads).1

theorem Gathered.led_of_discovers (so_far : Gathered g kind unfinished seen t led acc)
    (found : Discovers g acc.1.order t y) :
    y ∈ led := by
  obtain ⟨rest, split, new⟩ := so_far.order
  have nodup := split ▸ so_far.finished.nodup
  have hy := split ▸ found.seen
  have before := split ▸ found.before
  rcases mem_append.1 hy with old | hy
  · exact absurd before (Nat.lt_asymm (before_of_mem_front nodup old))
  · rcases mem_cons.1 hy with rfl | hy
    · exact absurd before (Nat.lt_irrefl _)
    · rcases new y hy with led | ⟨u, hu, leads, between⟩
      · exact led
      · have later := split ▸ before_of_mem_back nodup hu
        exact absurd later (found.last u leads between)

theorem Gathered.step (so_far : Gathered g kind unfinished seen t led acc)
    (open_seen : unfinished ⊆ seen.order) (next : Next g t y)
    (walked : Walked g kind (t :: unfinished) acc.1 y seen' os) :
    Gathered g kind unfinished seen t (led ++ [y]) (seen', union acc.2 os) := by
  obtain ⟨more, extended⟩ : ∃ more, seen'.order = acc.1.order ++ more := by
    rcases walked.order with ⟨-, rfl⟩ | ⟨-, rest, h, -⟩
    · exact ⟨[], by simp⟩
    · exact ⟨_, h⟩
  have hy : y ∈ seen'.order := by
    rcases walked.order with ⟨h, rfl⟩ | ⟨-, rest, h, -⟩
    · exact h
    · simp [h]
  refine ⟨walked.finished, forall_mem_snoc.2 ⟨fun z hz => ?_, hy, walked.closed⟩, ?_, fun p => ?_⟩
  · obtain ⟨h, closed⟩ := so_far.closed z hz
    grind
  · obtain ⟨rest, split, new⟩ := so_far.order
    refine ⟨rest ++ more, by rw [extended, split]; simp, fun z hz => ?_⟩
    rcases mem_append.1 hz with hz | hz
    · grind [mem_append_left, before_append_iff]
    · rcases walked.order with ⟨-, rfl⟩ | ⟨-, rest', h, leads⟩
      · have : more = [] := by simpa using extended
        simp [this] at hz
      · grind [append_cancel_left]
  · have old : p ∈ acc.2 ↔
        ∃ z ∈ led, Discovers g seen'.order t z ∧ Makes g kind p z ∨
          Behind g kind seen'.order z p := by
      rw [so_far.found]
      refine exists_congr fun z => and_congr_right fun hz => ?_
      obtain ⟨hz, closed⟩ := so_far.closed z hz
      rw [extended, discovers_append_iff hz, so_far.finished.behind_append more hz closed]
    have new : y ∉ acc.1.order → Discovers g seen'.order t y := by
      intro fresh
      rcases walked.order with ⟨h, -⟩ | ⟨-, rest, h, -⟩
      · exact absurd h fresh
      · rw [h]
        exact so_far.discovers open_seen next fresh (h ▸ walked.finished.nodup)
    have known : y ∈ acc.1.order → Discovers g seen'.order t y → y ∈ led := by
      intro h found
      rw [extended, discovers_append_iff h] at found
      exact so_far.led_of_discovers found
    rw [mem_union, walked.found]
    grind

theorem Seen.order_set (seen : Seen) (t : TensorId) (os : List OpId) :
    Seen.order (seen.map fun e => if e.1 == t then (t, os) else e) = seen.order :=
  map_fst_replace seen t os

theorem Gathered.finish (done : Gathered g kind unfinished seen t (successors g t) acc)
    (open_seen : unfinished ⊆ seen.order) (single : (g.tensor t).src.ops.length ≤ 1) :
    Finished g kind unfinished (acc.1.map fun e => if e.1 == t then (t, acc.2) else e) := by
  have extended : seen.order ⊆ acc.1.order := by
    obtain ⟨rest, split, -⟩ := done.order
    rw [split]
    exact subset_append_left _ _
  refine ⟨?_, ?_, ?_, ?_, ?_⟩
  · rw [Seen.order_set]
    exact done.finished.nodup
  · rw [Seen.order_set]
    exact Subset.trans open_seen extended
  · rw [Seen.order_set]
    intro u hu closed z next
    by_cases same : u = t
    · subst same
      obtain ⟨hz, closed'⟩ := done.closed z (mem_successors.2 next)
      grind
    · obtain ⟨hz, closed'⟩ := done.finished.next u hu (by simp [same, closed]) z next
      grind
  · rw [Seen.order_set]
    intro u hu closed
    by_cases same : u = t
    · exact same ▸ single
    · exact done.finished.single u hu (by simp [same, closed])
  · rw [Seen.order_set]
    intro u os entry closed p
    obtain ⟨⟨v, found⟩, entry, eq⟩ := mem_map.1 entry
    by_cases same : v = t
    · rw [if_pos (beq_iff_eq.2 same)] at eq
      cases eq
      rw [behind_iff, done.found]
      exact exists_congr fun z => and_congr_left fun _ => mem_successors
    · rw [if_neg (fun h => same (beq_iff_eq.1 h))] at eq
      cases eq
      exact done.finished.entries u os entry (by simp [same, closed]) p

theorem walk_walked {ts : Graph} (acyclic : ∀ t ∈ ts, ¬ TransGen (Next g) t t)
    (inside : ∀ t ∈ ts, ∀ y, Next g t y → y ∈ ts) (n : Nat)
    (run : walk g kind n seen t = .ok (seen', os)) (ht : t ∈ ts)
    (finished : Finished g kind unfinished seen) (above : ∀ s ∈ unfinished, TransGen (Next g) s t) :
    Walked g kind unfinished seen t seen' os := by
  induction n generalizing unfinished seen seen' t os with
  | zero => cases run
  | succ n ih =>
    have closed : t ∉ unfinished := fun h => acyclic t ht (above t h)
    rcases walk_ok run with ⟨known, rfl⟩ | ⟨fresh, single, s, found, loop, rfl, all⟩
    · have entry := (lookup_eq_some_iff_mem finished.nodup).1 known
      have old : t ∈ seen'.order := mem_map_of_mem entry
      refine ⟨finished, closed, Or.inl ⟨old, rfl⟩, fun p => ?_⟩
      rw [finished.entries t os entry closed p]
      grind
    · have new : t ∉ seen.order := by
        intro h
        obtain ⟨e, he, rfl⟩ := mem_map.1 h
        simpa using lookup_eq_none_iff.1 fresh e he
      -- all that the tensor leads to is walked to in turn; the tensor itself stays unfinished until
      -- then
      have turns :
          ∀ led ys acc r, (∀ y ∈ ys, Next g t y) → Gathered g kind unfinished seen t led acc →
          ys.foldlM (gather g kind n) acc = .ok r →
          Gathered g kind unfinished seen t (led ++ ys) r := by
        intro led ys
        induction ys generalizing led with
        | nil =>
          intro acc r _ so_far loop
          cases loop
          rwa [append_nil]
        | cons y ys turns =>
          intro acc r next so_far loop
          rw [foldlM_cons] at loop
          have leads := next y mem_cons_self
          cases first : walk g kind n acc.1 y with
          | error e => simp [gather, first, bind, Except.bind] at loop
          | ok r₁ =>
            obtain ⟨seen₁, more⟩ := r₁
            simp only [gather, first, bind, Except.bind] at loop
            have above : ∀ s ∈ t :: unfinished, TransGen (Next g) s y := by grind
            have walked := ih first (inside t ht y leads) so_far.finished above
            have := turns (led ++ [y]) _ r (fun z hz => next z (mem_cons_of_mem _ hz))
              (so_far.step finished.unfinished_seen leads walked) loop
            rwa [append_assoc] at this
      have done := turns [] _ _ _ (fun y hy => mem_successors.1 hy)
        (Gathered.start finished new) loop
      rw [nil_append] at done
      have ended := done.finish finished.unfinished_seen single
      obtain ⟨rest, split, leads⟩ := done.order
      refine ⟨ended, closed, Or.inr ⟨new, rest, by rw [Seen.order_set, split], fun z hz => ?_⟩,
        fun p => ?_⟩
      · rw [Seen.order_set]
        rcases leads z hz with next | ⟨u, hu, next⟩
        · refine ⟨t, mem_cons_self, mem_successors.1 next, ?_⟩
          rw [split]
          exact before_of_mem_back (split ▸ done.finished.nodup) hz
        · exact ⟨u, mem_cons_of_mem _ hu, next⟩
      · rw [all, Seen.order_set, done.found, behind_iff]
        simp only [mem_successors, new, not_false_eq_true, true_and]

theorem Walked.subset {ts : Graph} (walked : Walked g kind unfinished seen t seen' os)
    (inside : ∀ t ∈ ts, ∀ y, Next g t y → y ∈ ts) (ht : t ∈ ts) (old : seen.order ⊆ ts) :
    seen'.order ⊆ ts := by
  rcases walked.order with ⟨-, rfl⟩ | ⟨-, rest, order, leads⟩
  · exact old
  · -- what leads to a tensor was seen before it
    suffices new : ∀ k, ∀ z ∈ t :: rest, seen'.order.idxOf z < k → z ∈ ts by
      rw [order, append_subset]
      exact ⟨old, fun z hz => new _ z hz (Nat.lt_succ_self _)⟩
    intro k
    induction k with
    | zero => simp
    | succ k ih =>
      refine forall_mem_cons.2 ⟨fun _ => ht, fun z hz low => ?_⟩
      obtain ⟨u, hu, next, before⟩ := leads z hz
      exact inside u (ih u hu (Nat.lt_of_lt_of_le before (Nat.le_of_lt_succ low))) z next

end Walk

/-! ## All walks -/

section Survey

variable {g g' : Arena} {ts : Graph} {kind : String}

variable {o : OpId}

theorem Next.before (valid : Valid g ts) (ht : t ∈ ts) (next : Next g t y) :
    y ∈ ts ∧ Before ts t y := by
  obtain ⟨o, ho, hy⟩ := next
  obtain ⟨-, reads, writes⟩ := valid.uses ht ho
  obtain ⟨hy, source⟩ := writes y hy
  exact ⟨hy, valid.before hy source reads⟩

theorem next_acyclic (valid : Valid g ts) : ∀ t ∈ ts, ¬ TransGen (Next g) t t := by
  intro t ht cycle
  suffices later : ∀ {y}, TransGen (Next g) t y → y ∈ ts ∧ Before ts t y from Nat.lt_irrefl _
    (later cycle).2
  intro y path
  induction path with
  | single next => exact next.before valid ht
  | tail _ next ih =>
    obtain ⟨hy, before⟩ := next.before valid ih.1
    exact ⟨hy, Nat.lt_trans ih.2 before⟩

theorem survey_finished (valid : Valid g ts) {seen : Seen} (run : survey kind ts g = .ok seen g') :
    g = g' ∧ Finished g kind [] seen ∧ ts ⊆ seen.order ∧ seen.order ⊆ ts := by
  simp only [survey, bind_ok, get_ok] at run
  obtain ⟨_, _, ⟨rfl, rfl⟩, run⟩ := run
  refine foldlM_walks (fun done seen h => g = h ∧ Finished g kind [] seen ∧ done ⊆ seen.order ∧
    seen.order ⊆ ts) ?_
    ⟨rfl, by constructor <;> simp [Seen.order], by simp, by simp [Seen.order]⟩ run
  rintro done t rest split seen seen' _ h' ⟨rfl, finished, all, only⟩ turn
  simp only [bind_ok, ofExcept_ok, pure_ok] at turn
  obtain ⟨⟨seen₁, os⟩, _, ⟨walk, rfl⟩, rfl, rfl⟩ := turn
  have ht : t ∈ ts := by simp [split]
  have inside : ∀ t ∈ ts, ∀ y, Next g t y → y ∈ ts := fun t ht y next => (next.before valid ht).1
  have walked := walk_walked (next_acyclic valid) inside _ walk ht finished (by simp)
  refine ⟨rfl, walked.finished, ?_, walked.subset inside ht only⟩
  rcases walked.order with ⟨old, rfl⟩ | ⟨-, more, order, -⟩
  · exact append_subset.2 ⟨all, by simpa using old⟩
  · rw [order]
    exact append_subset.2 ⟨subset_append_of_subset_left _ all, by simp⟩

def Counts (g : Arena) (order : List TensorId) (o : OpId) (t : TensorId) : Prop :=
  ∃ l r, order = l ++ t :: r ∧ (g.tensor t).src.ops = [o] ∧ ∀ u ∈ r, (g.tensor u).src.ops ≠ [o]

theorem Counts.unique {order : List TensorId} (h : Counts g order o t) (h' : Counts g order o u) :
    t = u := by
  obtain ⟨l, r, rfl, ht, last⟩ := h
  obtain ⟨l', r', split, hu, last'⟩ := h'
  grind [append_eq_append_iff]

def Noticed (g : Arena) (kind : String) (order : List TensorId) (a b : OpId) : Prop :=
  ∃ t, Counts g order a t ∧ Behind g kind order t b

theorem lookup_note {d : Descendants} {e : TensorId × List OpId}
    (single : (g.tensor e.1).src.ops.length ≤ 1) :
    (Descendants.note g kind d e).lookup o =
      if (g.tensor e.1).src.ops = [o] ∧ (g.op o).kind = kind then some e.2 else d.lookup o := by
  unfold Descendants.note
  rcases sources : (g.tensor e.1).src.ops with _ | ⟨p, _ | ⟨q, rest⟩⟩
  · simp
  · by_cases same : (g.op p).kind = kind
    · rw [head?_cons]
      simp only [same, beq_self_eq_true, if_true]
      exact (lookup_setKey d p e.2 o).trans (by grind)
    · grind
  · simp [sources] at single

/-- The last tensor that an operator makes counts for it. -/
theorem lookup_notes {seen : Seen} (single : ∀ u ∈ seen.order, (g.tensor u).src.ops.length ≤ 1) :
    ((seen.foldl (Descendants.note g kind) []).lookup o = none → (g.op o).kind = kind →
      ∀ t ∈ seen.order, (g.tensor t).src.ops ≠ [o]) ∧
    ∀ os, (seen.foldl (Descendants.note g kind) []).lookup o = some os →
      (g.op o).kind = kind ∧ ∃ t, Counts g seen.order o t ∧ (t, os) ∈ seen := by
  induction seen using reverseRecOn with
  | nil => simp [Seen.order]
  | append_singleton seen e ih =>
    rw [Seen.order, map_append, map_singleton, forall_mem_snoc] at single
    obtain ⟨unset, set⟩ := ih single.1
    rw [foldl_append, foldl_cons, foldl_nil, lookup_note single.2, Seen.order, map_append,
      map_singleton]
    split
    · next here => exact ⟨by simp, fun os eq =>
        ⟨here.2, e.1, ⟨_, [], rfl, here.1, by simp⟩, by cases eq; simp⟩⟩
    · next other =>
      refine ⟨fun none same => forall_mem_snoc.2 ⟨unset none same, fun here => other ⟨here, same⟩⟩,
        fun os eq => ?_⟩
      obtain ⟨same, t, ⟨l, r, split, source, last⟩, entry⟩ := set os eq
      refine ⟨same, t, ⟨l, r ++ [e.1], ?_, source,
        forall_mem_snoc.2 ⟨last, fun here => other ⟨here, same⟩⟩⟩, mem_append_left _ entry⟩
      rw [← cons_append, ← append_assoc, ← split]
      rfl

theorem descendants_noticed (valid : Valid g ts) {d : Descendants}
    (run : descendants kind ts g = .ok d g') :
    g = g' ∧ ∃ seen, survey kind ts g = .ok seen g ∧ seen.order ⊆ ts ∧
      (∀ a, InGraph g ts a → (g.op a).kind = kind → ∃ os, d.lookup a = some os) ∧
      ∀ a os, d.lookup a = some os → ∀ b, b ∈ os ↔ Noticed g kind seen.order a b := by
  simp only [descendants, bind_ok, get_ok, pure_ok] at run
  obtain ⟨seen, _, walks, _, _, ⟨rfl, rfl⟩, rfl, rfl⟩ := run
  obtain ⟨rfl, finished, all, only⟩ := survey_finished valid walks
  have single : ∀ u ∈ seen.order, (g.tensor u).src.ops.length ≤ 1 := fun u hu =>
    finished.single u hu (by simp)
  refine ⟨rfl, seen, walks, only, ?_, fun a os entry b => ?_⟩
  · rintro a ⟨t, ht, source⟩ same
    refine Option.ne_none_iff_exists'.1 fun none => (lookup_notes single).1 none same t (all ht) ?_
    have short := single t (all ht)
    grind [length_eq_one_iff, length_pos_of_mem]
  · obtain ⟨-, t, counts, entry⟩ := (lookup_notes single).2 os entry
    rw [finished.entries t os entry (by simp)]
    constructor
    · exact fun behind => ⟨t, counts, behind⟩
    · rintro ⟨u, counts', behind⟩
      exact counts.unique counts' ▸ behind

end Survey

end Grouping

end TensorGraph

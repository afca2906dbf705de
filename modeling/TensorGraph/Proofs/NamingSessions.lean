import TensorGraph.Proofs.NamingCalls

/-!
# Naming graph after graph

The counters for names outlive a call, and between two calls graphs are built and changed
(`Session`).
-/

namespace TensorGraph

namespace Graph

open Build List

/-- What can have happened since nothing had been named: calls for some graphs, the last one first,
and edits between them. -/
inductive Session : Arena → List Graph → Set TensorId → Prop
  | start {g : Arena} {given : Set TensorId} (namer : g.namer = ⟨0, 0, [], []⟩)
    (ops : ∀ o, (g.op o).name = none)
      (names : ∀ t, (g.tensor t).name.isSome = true ↔ t ∈ given) : Session g [] given
  | edit {g g' : Arena} {graphs : List Graph} {given given' : Set TensorId}
    (session : Session g graphs given)
      (edited : Edited g given g' given') : Session g' graphs given'
  | call {g g' : Arena} {graphs : List Graph} {given : Set TensorId} {ts : Graph}
    (session : Session g graphs given)
      (callable : Callable g given ts) (run : giveNames ts g = .ok () g') :
        Session g' (ts :: graphs) given

def InGraphs (graphs : List Graph) (t : TensorId) : Prop := ∃ ts ∈ graphs, t ∈ ts

namespace Session

variable {g g' : Arena} {graphs : List Graph} {given : Set TensorId} {ts : Graph}

theorem records (session : Session g graphs given) : NameRecords g given := by
  induction session with
  | @start g given namer ops names =>
    have nothing : ∀ s, ¬ Generated g s := by
      rintro s (⟨k, less, -⟩ | ⟨o, f, k, name, -⟩)
      · grind
      · rw [ops] at name
        cases name
    have none : ∀ t ∉ given, ∀ s, (g.tensor t).name ≠ some s := fun t ht s hs =>
      ht ((names t).1 (by rw [hs]; rfl))
    refine ⟨fun o f hf => ?_, fun o _ f hf => ?_, fun s hs => ?_, fun t ht => (names t).2 ht,
      fun t ht s hs => absurd hs (none t ht s), fun t ht _ _ s hs => absurd hs (none t ht s),
        fun s hs => absurd hs (nothing s)⟩
    · rw [ops] at hf
      cases hf
    · rw [ops] at hf
      cases hf
    · grind
  | edit _ edited records => exact records.edited edited
  | call _ callable run records =>
    rcases giveNames_cases callable records with ⟨_, _, run', -, p, -⟩ | ⟨⟨_, _, failed⟩, -⟩
    · cases run.symm.trans run'
      exact p.records
    · cases run.symm.trans failed

theorem named (session : Session g graphs given) :
    (∀ t, InGraphs graphs t → (g.tensor t).name.isSome = true) ∧
    ∀ t ∉ given, (g.tensor t).name.isSome = true → InGraphs graphs t := by
  induction session with
  | start namer ops names =>
    refine ⟨fun t ⟨ts, hts, _⟩ => absurd hts not_mem_nil, fun t ht named =>
      absurd ((names t).1 named) ht⟩
  | @edit g g' graphs given given' _ edited ih =>
    refine ⟨fun t inside => ?_, fun t ht named => ?_⟩
    · by_cases here : t ∈ given'
      · exact edited.named t here
      · rw [(edited.kept t here).2]
        exact ih.1 t inside
    · obtain ⟨old, name⟩ := edited.kept t ht
      exact ih.2 t old (name ▸ named)
  | @call g g' graphs given ts session callable run ih =>
    rcases giveNames_cases callable session.records with ⟨_, _, run', -, p,
      all⟩ | ⟨⟨_, _, failed⟩, -⟩
    · cases run.symm.trans run'
      refine ⟨?_, fun t ht named => ?_⟩
      · rintro t ⟨us, hus, ht⟩
        rcases mem_cons.1 hus with rfl | hus
        · exact all t ht
        · have named := ih.1 t ⟨us, hus, ht⟩
          rwa [p.kept.tensors t named]
      · by_cases before : (g.tensor t).name.isSome = true
        · obtain ⟨us, hus, mem⟩ := ih.2 t ht before
          exact ⟨us, mem_cons_of_mem _ hus, mem⟩
        · exact ⟨ts, mem_cons_self, p.inside t (by simpa using before) named⟩
    · cases run.symm.trans failed

/-- A further call on a graph, whose tensors have names from somebody else that differ. It returns
unless the graph is stale; then names that were set are kept, all tensors of the graphs and all
operators of the last one have names, those of operators differ, and new names are identifiers. -/
theorem giveNames_names_iff (session : Session g graphs given) (callable : Callable g given ts)
    (distinct : ∀ t ∈ given, ∀ u ∈ given, InGraphs (ts :: graphs) t → InGraphs (ts :: graphs) u →
      (g.tensor t).name = (g.tensor u).name → t = u) :
    ((∃ g', giveNames ts g = .ok () g') ↔ ¬ Stale g ts) ∧
      ∀ g', giveNames ts g = .ok () g' → Kept g g' ∧
        (∀ t, InGraphs (ts :: graphs) t → (g'.tensor t).name.isSome = true) ∧
        (∀ t ∈ ts, ∀ o ∈ (g.tensor t).src.ops, (g'.op o).name.isSome = true) ∧
        (∀ o p f, (g'.op o).name = some f → (g'.op p).name = some f → o = p) ∧
        (∀ o f, (g'.op o).name = some f → IsIdentifier f) ∧
        (∀ t ∉ given, ∀ s, (g'.tensor t).name = some s → IsIdentifier s) ∧
        (∀ d s, (g.dim d).name = none → (g'.dim d).name = some s → IsIdentifier s) ∧
        ((∀ t u, InGraphs (ts :: graphs) t → InGraphs (ts :: graphs) u →
          (g'.tensor t).name = (g'.tensor u).name → t = u) ↔ ∀ t ∈ given, InGraphs (ts :: graphs)
          t → ∀ s, (g'.tensor t).name = some s → ¬ Generated g' s) := by
  rcases giveNames_cases callable session.records with ⟨last, g₁, run, fine, p,
    -⟩ | ⟨⟨f, g₁, failed⟩, stale⟩
  · refine ⟨iff_of_true ⟨g₁, run⟩ fine, fun g' run' => ?_⟩
    obtain rfl : g₁ = g' := (EStateM.Result.ok.inj (run.symm.trans run')).2
    obtain ⟨all, others⟩ := (session.call callable run).named
    refine ⟨p.kept, all, fun t ht o ho => p.ops o (mem_flatMap.2 ⟨t, ht, ho⟩), p.records.apart,
      fun o f hf => p.records.op_identifier hf, fun t ht s hs => p.records.generated_identifier
        (p.records.generated t ht s hs),
      p.dims, fun differ t ht inside s hs gen => ?_, fun free t u ht hu same => ?_⟩
    · obtain ⟨u, hu, hs'⟩ := p.records.taken s gen
      have := differ t u inside (others u hu (by rw [hs']; rfl)) (hs.trans hs'.symm)
      exact hu (this ▸ ht)
    · obtain ⟨s, hs⟩ := Option.isSome_iff_exists.1 (all t ht)
      have hs' := same.symm.trans hs
      by_cases here : t ∈ given <;> by_cases here' : u ∈ given
      · rw [p.kept.tensors t (p.before t here), p.kept.tensors u (p.before u here')] at same
        exact distinct t here u here' ht hu same
      · exact absurd (p.records.generated u here' s hs') (free t here ht s hs)
      · exact absurd (p.records.generated t here s hs) (free u here' hu s hs')
      · exact p.records.single t here u here' s hs hs'
  · refine ⟨iff_of_false ?_ (not_not.2 stale), fun g' run => ?_⟩
    · rintro ⟨g', run⟩
      cases run.symm.trans failed
    · cases run.symm.trans failed

end Session

/-- An input that somebody has called `tensor_0`, a tensor without a name, and their sum. -/
def clashingArena : Arena where
  dims := #[.static 4]
  tensors :=
    #[{ Tensor.ofShape [⟨0⟩] with name := some "tensor_0", isInput := true, dst := ⟨[⟨0⟩], false⟩ },
    { Tensor.ofShape [⟨0⟩] with dst := ⟨[⟨0⟩], false⟩ },
      { Tensor.ofShape [⟨0⟩] with src := ⟨[⟨0⟩], false⟩ }]
  ops := #[{ Operator.ofClass .elementwise (OpClass.label .elementwise) with
    inputs := some [⟨0⟩, ⟨1⟩], outputs := some [⟨2⟩] }]
  namer := ⟨0, 0, [], []⟩
  target := none

def clashingNamed : Arena := after (giveNames [⟨0⟩, ⟨1⟩, ⟨2⟩] clashingArena)

def clashingRelinked : Arena :=
  { clashingNamed.modifyOp ⟨0⟩ fun p => { p with outputs := some [⟨3⟩] } with
    tensors := clashingNamed.tensors.push { Tensor.ofShape [⟨0⟩] with src := ⟨[⟨0⟩], false⟩ } }

theorem session_clashingArena : Session clashingArena [] {⟨0⟩} := by
  refine .start rfl ?_ fun t => ?_
  · rintro ⟨_ | n⟩ <;> rfl
  · obtain ⟨_ | _ | _ | n⟩ := t
    · decide
    · decide
    · decide
    · refine iff_of_false ?_ (by simp)
      nofun

theorem callable_clashingArena : Callable clashingArena {⟨0⟩} [⟨0⟩, ⟨1⟩, ⟨2⟩] := by
  have checked : check true [⟨0⟩, ⟨1⟩, ⟨2⟩] clashingArena = .ok true clashingArena := by cbv
  have sources : ∀ t ∈ [⟨0⟩, ⟨1⟩, ⟨2⟩], ∀ o ∈ (clashingArena.tensor t).src.ops, o = ⟨0⟩ := by decide
  refine ⟨(check_ok.1 checked).1, by decide, fun t ht o ho => ?_, fun t _ here s hs => ?_⟩
  · rw [sources t ht o ho]
    exact OpClass.label_plain .elementwise
  · obtain rfl : t = ⟨0⟩ := here
    cases hs
    decide

theorem giveNames_clashingArena : giveNames [⟨0⟩, ⟨1⟩, ⟨2⟩] clashingArena =
    .ok () clashingNamed := by
  have returns : (match giveNames [⟨0⟩, ⟨1⟩, ⟨2⟩] clashingArena with
      | .ok _ _ => true
      | .error _ _ => false) = true := by decide +kernel
  unfold clashingNamed
  split at returns
  · next run => rfl
  · cases returns

theorem clashing_read : 0 < clashingNamed.ops.size ∧ 0 < clashingNamed.namer.tensors ∧
    (clashingNamed.tensor ⟨0⟩).name = some (numbered "tensor" 0) ∧
    (∀ t : TensorId, t ∈ [⟨0⟩, ⟨1⟩, ⟨3⟩] → t.idx < clashingRelinked.tensors.size ∧
      ∀ o ∈ (clashingRelinked.tensor t).src.ops, o = ⟨0⟩) ∧
    (clashingRelinked.tensor ⟨0⟩).name = some "tensor_0" ∧
    (clashingRelinked.tensor ⟨3⟩).name = none ∧
    (clashingRelinked.tensor ⟨3⟩).src.ops.head? = some ⟨0⟩ ∧ (clashingRelinked.op ⟨0⟩).name.isSome =
      true := by
  decide +kernel

theorem edited_clashingRelinked : Edited clashingNamed {⟨0⟩} clashingRelinked {⟨0⟩} := by
  obtain ⟨known, -, -, -, name, -⟩ := clashing_read
  have op : ∀ o, (clashingRelinked.op o).name = (clashingNamed.op o).name := by
    intro o
    show ((clashingNamed.modifyOp ⟨0⟩ fun p => { p with outputs := some [⟨3⟩] }).op o).name = _
    rw [Arena.op_modifyOp _ _ _ known]
    split
    · next e => rw [e]
    · rfl
  have tensor : ∀ t, (clashingRelinked.tensor t).name = (clashingNamed.tensor t).name := by
    intro t
    by_cases new : t.idx = clashingNamed.tensors.size
    · rw [Arena.tensor_of_le (g := clashingNamed) (by omega)]
      simp [clashingRelinked, Arena.tensor, Array.getD_eq_getD_getElem?, new, Tensor.ofShape]
      rfl
    · simp [clashingRelinked, Arena.tensor, Array.getD_eq_getD_getElem?, Array.getElem?_push, new]
  refine ⟨rfl, op, fun t ht => ⟨ht, tensor t⟩, fun t ht => ?_, fun t ht new => absurd ht new⟩
  obtain rfl : t = ⟨0⟩ := ht
  rw [name]
  rfl

theorem callable_clashingRelinked : Callable clashingRelinked {⟨0⟩} [⟨0⟩, ⟨1⟩, ⟨3⟩] := by
  have checks : (match check true [⟨0⟩, ⟨1⟩, ⟨3⟩] clashingRelinked with
      | .ok _ _ => true
      | .error _ _ => false) = true := by decide +kernel
  obtain ⟨-, -, -, sources, name, -⟩ := clashing_read
  refine ⟨?_, fun t ht => (sources t ht).1, fun t ht o ho => ?_, fun t _ here s hs => ?_⟩
  · grind [check_ok]
  · rw [(sources t ht).2 o ho]
    exact OpClass.label_plain .elementwise
  · obtain rfl : t = ⟨0⟩ := here
    obtain rfl : "tensor_0" = s := Option.some.inj (name.symm.trans hs)
    decide

/-- The second tensor is called `tensor_0` as well; and the new sum cannot be named. -/
theorem giveNames_names_iff_clashing :
    giveNames [⟨0⟩, ⟨1⟩, ⟨2⟩] clashingArena = .ok () clashingNamed ∧
    (clashingNamed.op ⟨0⟩).name.isSome = true ∧
    (¬ ∀ t u, InGraphs [[⟨0⟩, ⟨1⟩, ⟨2⟩]] t → InGraphs [[⟨0⟩, ⟨1⟩, ⟨2⟩]] u →
      (clashingNamed.tensor t).name = (clashingNamed.tensor u).name → t = u) ∧
    ¬ ∃ g', giveNames [⟨0⟩, ⟨1⟩, ⟨3⟩] clashingRelinked = .ok () g' := by
  obtain ⟨-, counted, name, sources, -, nameless, source, named⟩ := clashing_read
  have session := session_clashingArena
  have ran := giveNames_clashingArena
  obtain ⟨-, after⟩ := session.giveNames_names_iff callable_clashingArena fun t ht u hu _ _ _ =>
    ht.trans hu.symm
  obtain ⟨-, -, ops, -, -, -, -, differ⟩ := after _ ran
  refine ⟨ran, ops ⟨2⟩ (by decide) ⟨0⟩ (by decide), fun all => ?_, ?_⟩
  · have free := differ.1 all ⟨0⟩ rfl ⟨_, mem_singleton_self _, by decide⟩ _ name
    exact free (Or.inl ⟨0, counted, rfl⟩)
  · have session' := (session.call callable_clashingArena ran).edit edited_clashingRelinked
    obtain ⟨returns, -⟩ := session'.giveNames_names_iff callable_clashingRelinked fun t ht u hu _ _
      _ => ht.trans hu.symm
    rw [returns, not_not]
    refine ⟨[⟨0⟩, ⟨1⟩], ⟨3⟩, [], ⟨0⟩, rfl, fun u hu p hp => ?_, nameless, source, named⟩
    rw [(sources u (by simp_all; tauto)).2 p hp]
    exact named

end Graph

end TensorGraph

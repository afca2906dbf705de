import TensorGraph.Proofs.GraphValues
import TensorGraph.Proofs.Producers

/-!
# Merging splits and concatenations

A step of the rewriting leaves the blocks that the tensors hold as they are (`Rewritten`): the
operators still fit them, a tensor keeps its producer unless it loses all its links, and what is
marked as an output holds what the output of that name held.
-/

namespace TensorGraph

open List

variable {g g' h : Arena} {ts ts' : Graph} {t : TensorId} {cat o : OpId}

namespace Graph

open Build

variable {α : Type}

/-! ## Steps that keep the values -/

/-- A graph whose operators fit the blocks of its tensors, and whose concatenations copy all their
inputs as they are. -/
structure Fitting (functions : Functions α) (val : TensorId → Block α) (g : Arena) (ts : Graph) :
    Prop where
  valid : Valid g ts
  holds : ∀ o, InGraph g ts o → Holds functions val g o
  copies : ∀ o, InGraph g ts o → (g.op o).kind = "concatenate" → (g.op o).CopiesAll

theorem Fitting.not_single {functions : Functions α} {val : TensorId → Block α}
    (fitting : Fitting functions val g ts) (ho : InGraph g ts o)
    (kind : (g.op o).kind = "concatenate" ∨ (g.op o).kind = "split") : ts.length ≠ 1 := by
  intro single
  obtain ⟨u, rfl⟩ := length_eq_one_iff.1 single
  obtain ⟨t, ht, source⟩ := ho
  obtain rfl := mem_singleton.1 ht
  have reads : (g.op o).inputList = [] :=
    eq_nil_iff_forall_not_mem.2 fun x hx =>
      not_mem_nil ((fitting.valid.sources [] t [] rfl o source).reads x hx).1
  have holds := fitting.holds o ⟨t, ht, source⟩
  unfold Holds at holds
  rw [reads] at holds
  rcases kind with kind | kind
  · obtain ⟨k, y, -, joined, -⟩ := (Operator.meaning_concat kind).1 holds
    cases joined
  · grind [Operator.meaning_split, holds]

/-- How far the rewriting of a graph has come: from `g` to `h`. -/
structure Rewritten (functions : Functions α) (val : TensorId → Block α) (ts : Graph)
    (g h : Arena) : Prop where
  kind : ∀ o, (h.op o).kind = (g.op o).kind
  params : ∀ o, (h.op o).params = (g.op o).params
  outputs : ∀ o, (h.op o).outputs = (g.op o).outputs
  holds : ∀ o, InGraph g ts o → Holds functions val h o
  copies : ∀ o, InGraph g ts o → (g.op o).kind = "concatenate" → (h.op o).CopiesAll
  src : ∀ t, (h.tensor t).src = (g.tensor t).src ∨ isLinked (h.tensor t) = false
  mark : ∀ t ∈ ts, (h.tensor t).isOutput = true →
    ∃ y ∈ ts, (g.tensor y).isOutput = true ∧ (h.tensor t).name = (g.tensor y).name ∧ val y = val t

namespace Rewritten

variable {functions : Functions α} {val : TensorId → Block α} {ts : Graph} {g h : Arena}

theorem refl (fitting : Fitting functions val g ts) : Rewritten functions val ts g g :=
  ⟨fun _ => rfl, fun _ => rfl, fun _ => rfl, fitting.holds, fitting.copies, fun _ => Or.inl rfl,
    fun t ht mark => ⟨t, ht, mark, rfl, rfl⟩⟩

variable (r : Rewritten functions val ts g h)
include r

theorem param? (o : OpId) (key : String) :
    (h.op o).param? key = (g.op o).param? key := by
  unfold Operator.param?
  rw [r.params]

theorem src_of_dst (ho : o ∈ (h.tensor t).dst.ops) :
    (h.tensor t).src = (g.tensor t).src := by
  refine (r.src t).resolve_right fun unlinked => ?_
  grind [ne_nil_of_mem, isLinked]

theorem modifyTensor {f : Tensor → Tensor}
    (src : (h.tensor t).src = (g.tensor t).src ∨ isLinked (h.tensor t) = false →
      (f (h.tensor t)).src = (g.tensor t).src ∨ isLinked (f (h.tensor t)) = false)
    (mark : t ∈ ts → (f (h.tensor t)).isOutput = true →
      ∃ y ∈ ts, (h.tensor y).isOutput = true ∧ (f (h.tensor t)).name = (h.tensor y).name ∧
        val y = val t) :
    Rewritten functions val ts g (h.modifyTensor t f) := by
  refine ⟨r.kind, r.params, r.outputs, r.holds, r.copies, fun u => ?_, fun u hu => ?_⟩
  · rw [Arena.tensor_modifyTensor_ite]
    grind [src]
  · rw [Arena.tensor_modifyTensor_ite]
    split
    · next e =>
      obtain ⟨rfl, -⟩ := e
      intro marked
      obtain ⟨y, hy, output, name, same⟩ := mark hu marked
      obtain ⟨z, hz, first, name', same'⟩ := r.mark y hy output
      grind
    · exact r.mark u hu

theorem setDst (src : (h.tensor t).src = (g.tensor t).src)
    (f : Links → Links) : Rewritten functions val ts g
    (h.modifyTensor t fun x => { x with dst := f x.dst }) :=
  r.modifyTensor (fun _ => Or.inl src) fun ht marked => ⟨t, ht, marked, rfl, rfl⟩

theorem detach {h' : Arena} {u : Unit}
    (run : Build.detach t h = .ok u h') : Rewritten functions val ts g h' := by
  rw [Build.detach, modifyTensor_ok] at run
  rw [run]
  exact r.modifyTensor (fun _ => Or.inr rfl) fun _ marked => by cases marked

theorem modifyOp {f : Operator → Operator} (kind : (f (h.op o)).kind = (h.op o).kind)
    (params : (f (h.op o)).params = (h.op o).params)
    (outputs : (f (h.op o)).outputs = (h.op o).outputs) (holds : Holds functions val h o →
      (f (h.op o)).meaning functions o ((f (h.op o)).inputList.map val) =
      some ((f (h.op o)).outputList.map val))
    (copies : (h.op o).CopiesAll → (f (h.op o)).CopiesAll) :
    Rewritten functions val ts g (h.modifyOp o f) := by
  have op := Arena.op_modifyOp_ite h o
  refine ⟨fun p => ?_, fun p => ?_, fun p => ?_, fun p hp => ?_, fun p hp concat => ?_,
    r.src, r.mark⟩
  · rw [op, ← r.kind]
    grind
  · rw [op, ← r.params]
    grind
  · rw [op, ← r.outputs]
    grind
  · unfold Holds
    rw [op]
    split
    · grind [holds]
    · exact r.holds p hp
  · grind [op, copies]

end Rewritten

/-- What a graph has become: the tensors that are left keep their producers, and what is marked as
an output holds what the output of that name held. -/
structure Carried (val : TensorId → Block α) (g : Arena) (ts : Graph) (g' : Arena) (ts' : Graph) :
    Prop where
  sub : ∀ t ∈ ts', t ∈ ts
  src : ∀ t ∈ ts', (g'.tensor t).src = (g.tensor t).src
  mark : ∀ t ∈ ts', (g'.tensor t).isOutput = true → ∃ y ∈ ts, (g.tensor y).isOutput = true ∧
    (∀ n, (g.tensor y).name = some n → (g'.tensor t).name = some n) ∧ val y = val t

theorem Carried.refl (val : TensorId → Block α) (g : Arena) (ts : Graph) : Carried val g ts g ts :=
  ⟨fun _ h => h, fun _ _ => rfl, fun t ht mark => ⟨t, ht, mark, fun _ h => h, rfl⟩⟩

theorem Carried.trans {val : TensorId → Block α} {g₁ : Arena} {ts₁ : Graph}
    (a : Carried val g ts g₁ ts₁) (b : Carried val g₁ ts₁ g' ts') : Carried val g ts g' ts' := by
  refine ⟨fun t ht => a.sub t (b.sub t ht), fun t ht => (b.src t ht).trans (a.src t (b.sub t ht)),
    fun t ht mark => ?_⟩
  obtain ⟨y, hy, output, name, same⟩ := b.mark t ht mark
  obtain ⟨z, hz, output', name', same'⟩ := a.mark y hy output
  grind

/-- After rewriting, a graph is tidied up; one of a single tensor must not have been rewritten,
since nothing would drop out of it. -/
theorem Rewritten.tidy {functions : Functions α} {val : TensorId → Block α}
    (fitting : Fitting functions val g ts) (r : Rewritten functions val ts g h)
    (single : ts.length = 1 → h = g) (run : Graph.tidy ts h = .ok ts' g') :
    Fitting functions val g' ts' ∧ Carried val g ts g' ts' := by
  have producers := Frame.producers.keeps run
  have marks := Frame.marks.keeps run
  obtain ⟨one, rfl, rfl⟩ | ⟨rfl, valid⟩ := tidy_ok run
  · rw [single one]
    exact ⟨fitting, .refl val g ts'⟩
  have kept : ∀ t ∈ ts.filter (fun t => isLinked (h.tensor t)), t ∈ ts ∧ (h.tensor t).src =
    (g.tensor t).src := by
    intro t ht
    obtain ⟨ht, linked⟩ := mem_filter.1 ht
    refine ⟨ht, (r.src t).resolve_right fun unlinked => ?_⟩
    rw [unlinked] at linked
    cases linked
  have src : ∀ t ∈ ts.filter (fun t => isLinked (h.tensor t)), (g'.tensor t).src =
    (g.tensor t).src :=
    fun t ht => (producers.src t).trans (kept t ht).2
  have inGraph : ∀ o, InGraph g' (ts.filter fun t => isLinked (h.tensor t)) o → InGraph g ts o := by
    rintro o ⟨t, ht, ho⟩
    exact ⟨t, (kept t ht).1, src t ht ▸ ho⟩
  refine ⟨⟨valid, fun o ho => ?_, fun o ho concat => ?_⟩,
    ⟨fun t ht => (kept t ht).1, src, fun t ht mark => ?_⟩⟩
  · have := r.holds o (inGraph o ho)
    unfold Holds
    rw [producers.op]
    exact this
  · have kind : (g.op o).kind = "concatenate" := by
      rw [producers.op] at concat
      exact (r.kind o).symm.trans concat
    have copies := r.copies o (inGraph o ho) kind
    rw [producers.op]
    exact ⟨copies.masks, copies.accessors⟩
  · have known : t.idx < h.tensors.size := by
      refine Nat.lt_of_not_le fun outside => ?_
      have := marks.new t outside
      rw [mark] at this
      cases this
    obtain ⟨y, hy, output, name, same⟩ := r.mark t (kept t ht).1 (marks.isOutput t known ▸ mark)
    exact ⟨y, hy, output, fun n hn => marks.name t n (name.trans hn), same⟩

end Graph

/-! ## Merging -/

namespace ConcatFusion

open Build TensorGraph.Graph

variable {α : Type} {functions : Functions α} {val : TensorId → Block α} {ts : Graph} {g h : Arena}

/-- A split or a concatenation of a graph, and a concatenation along the same axis. -/
structure Mergeable (g : Arena) (ts : Graph) (o cat : OpId) : Prop where
  inGraph : InGraph g ts o
  kind : (g.op cat).kind = "concatenate"
  axes : ∃ key v w, ((g.op o).kind = "concatenate" ∧ key = "concat_dim" ∨ (g.op o).kind = "split" ∧
    key = "split_dim") ∧
    (g.op o).param? key = some w ∧ (g.op cat).param? "concat_dim" = some v ∧ (v != w) = false

theorem soleUser?_uses {us : List TensorId} {cat? : Option OpId}
    (run : soleUser? us cat? g = .ok (some cat) h) : (∀ o ∈ cat?, o = cat) ∧
      (cat? = some cat ∨ (g.op cat).kind = "concatenate" ∧ ∃ p ∈ us, (g.tensor p).dst.ops = [cat]) ∧
      ((∀ p ∈ us, (g.tensor p).dst.ops = [cat]) ∨ ∃ q ∈ us, (g.tensor q).dst.ops = []) := by
  induction us generalizing cat? with
  | nil => simp_all [soleUser?, pure_ok]
  | cons t us ih =>
    unfold soleUser? at run
    rw [bind_run (tensor_run _)] at run
    cases users : (g.tensor t).dst.ops with
    | nil => simp_all
    | cons o others =>
      rw [users] at run
      cases others with
      | cons => cases (pure_ok.1 run).1
      | nil =>
        simp only [bind_run (op_run _)] at run
        split at run
        · cases (pure_ok.1 run).1
        next kind =>
        split at run
        · cases (pure_ok.1 run).1
        · next same =>
          obtain ⟨here, -, rest⟩ := ih run
          obtain rfl := here o rfl
          refine ⟨fun p hp => ?_, Or.inr ⟨by simpa using kind, t, mem_cons_self, users⟩, ?_⟩
          · obtain rfl := hp
            simpa using same
          · grind

theorem target?_mergeable (inGraph : InGraph g ts o) (run : target? o g = .ok (some cat) h) :
    Mergeable g ts o cat := by
  unfold target? at run
  rw [bind_run (op_run _)] at run
  split at run
  · cases (pure_ok.1 run).1
  next kind =>
  simp only [bind_ok, outputs_ok] at run
  obtain ⟨ys, _, ⟨-, rfl⟩, user?, g₁, search, run⟩ := run
  obtain rfl := ReadOnly.keeps search
  cases user? with
  | none => cases (pure_ok.1 run).1
  | some user =>
    simp only [bind_ok, param, workAxis, op_ok, expect_ok] at run
    obtain ⟨v, _, ⟨_, _, ⟨rfl, rfl⟩, hv, rfl⟩, w, _, ⟨_, _, ⟨rfl, rfl⟩, _, _, ⟨rfl, rfl⟩, hw, rfl⟩,
      run⟩ := run
    split at run
    · cases (pure_ok.1 run).1
    · next same =>
      obtain rfl := Option.some.inj (pure_ok.1 run).1
      have concat := ((soleUser?_uses search).2.1.resolve_left (by simp)).1
      refine ⟨inGraph, concat, _, v, w, ?_, hw, hv, by simpa using same⟩
      grind

theorem findPairs_mergeable {pairs : List (OpId × OpId)} (run : findPairs ts g = .ok pairs h) :
    g = h ∧ ∀ p ∈ pairs, Mergeable g ts p.1 p.2 := by
  refine foldlM_keeps (fun pairs h => g = h ∧ ∀ p ∈ pairs, Mergeable g ts p.1 p.2) ?_
    ⟨rfl, by simp⟩ run
  rintro t ht pairs pairs' _ h' ⟨rfl, kept⟩ run
  rw [bind_run (tensor_run _)] at run
  cases sole : (g.tensor t).src.sole? with
  | none => simp_all
  | some o =>
    rw [sole] at run
    dsimp only at run
    split at run
    · simp_all
    obtain ⟨cat?, g₁, found, run⟩ := bind_ok.1 run
    obtain rfl := ReadOnly.keeps found
    cases cat? with
    | none => simp_all
    | some cat =>
      obtain ⟨rfl, rfl⟩ := pure_ok.1 run
      exact ⟨rfl, forall_mem_snoc.2
        ⟨kept, target?_mergeable ⟨t, ht, by simp [Links.sole?_eq_some.1 sole]⟩ found⟩⟩

theorem Mergeable.exchange (m : Mergeable g ts o cat) (r : Rewritten functions val ts g h) :
    ∃ k, ((h.op cat).param? "concat_dim").bind Value.nat? = some k ∧
      Exchange val k (h.op o).outputList (h.op o).inputList := by
  obtain ⟨key, v, w, kinds, hw, hv, same⟩ := m.axes
  have holds := r.holds o m.inGraph
  have exchange : ∃ k, w.nat? = some k ∧ Exchange val k (h.op o).outputList (h.op o).inputList := by
    rcases kinds with ⟨kind, rfl⟩ | ⟨kind, rfl⟩
    · exact Exchange.of_concat ((r.kind o).trans kind) ((r.param? o _).trans hw) holds
    · exact Exchange.of_split ((r.kind o).trans kind) ((r.param? o _).trans hw) holds
  obtain ⟨k, axis, exchange⟩ := exchange
  obtain ⟨n, rfl⟩ := Value.nat?_eq_some axis
  refine ⟨k, ?_, exchange⟩
  rw [r.param?, hv, Value.eq_of_not_ne same]
  exact axis

/-- A concatenation may read the whole of an operator that is merged into it in the place of its
parts. -/
theorem holds_contract (m : Mergeable g ts o cat) (r : Rewritten functions val ts g h)
    {p : Operator} (kind : p.kind = (h.op cat).kind) (params : p.params = (h.op cat).params)
    (outputs : p.outputs = (h.op cat).outputs) {n : Nat}
    (inputs : p.inputList = contract (h.op o).outputList (h.op o).inputList n (h.op cat).inputList)
    (holds : Holds functions val h cat) : p.meaning functions cat (p.inputList.map val) =
    some (p.outputList.map val) := by
  obtain ⟨k, axis, exchange⟩ := m.exchange r
  have concat : (h.op cat).kind = "concatenate" := (r.kind cat).trans m.kind
  obtain ⟨k', y, axis', joined, written⟩ := (Operator.meaning_concat concat).1 holds
  have same : k' = k := Option.some.inj (axis'.symm.trans axis)
  subst same
  refine (Operator.meaning_concat (kind.trans concat)).2 ⟨k', y, ?_, ?_, ?_⟩
  · unfold Operator.param?
    rw [params]
    exact axis
  · rw [inputs]
    have := exchange.contract n (h.op cat).inputList []
    simpa only [nil_append, joined] using this
  · unfold Operator.outputList
    rw [outputs]
    exact written

theorem merge_rewrites (m : Mergeable g ts o cat) (r : Rewritten functions val ts g h) {h' : Arena}
    {u : Unit} (run : merge o cat h = .ok u h') : Rewritten functions val ts g h' := by
  unfold merge at run
  simp only [bind_ok, outputs_ok, inputs_ok] at run
  obtain ⟨parts, _, ⟨hparts, rfl⟩, whole, _, ⟨hwhole, rfl⟩, us, _, ⟨hus, rfl⟩, run⟩ := run
  split at run
  · obtain ⟨-, rfl⟩ := pure_ok.1 run
    exact r
  simp only [bind_ok, setInputs, modifyOp_ok, op_ok, expect_ok, require_ok, Matmul.accessors,
    get_ok, pure_ok] at run
  obtain ⟨_, _, rfl, _, _, ⟨rfl, rfl⟩, masks, _, ⟨hmasks, rfl⟩, _, _, ⟨-, rfl⟩, as, _, ⟨has, rfl⟩,
    _, _, ⟨-, rfl⟩, _, _, ⟨_, _, ⟨rfl, rfl⟩, rfl, rfl⟩, _, _, rfl, _, h₁, moved, _, h₂, detached, -,
    rfl⟩ := run
  have outputList : (h.op o).outputList = parts := by simp [Operator.outputList, hparts]
  have inputList : (h.op o).inputList = whole := by simp [Operator.inputList, hwhole]
  have catInputs : (h.op cat).inputList = us := by simp [Operator.inputList, hus]
  -- the concatenation reads the whole
  have read : Rewritten functions val ts g
      (h.modifyOp cat fun x => { x with inputs := some (contract parts whole (us.length + 1) us)
        }) := by
    refine r.modifyOp rfl rfl rfl (fun holds => ?_) fun copies => ⟨copies.masks, copies.accessors⟩
    exact holds_contract m r rfl rfl rfl (by rw [outputList, inputList, catInputs]; rfl) holds
  have copied := read.modifyOp (o := cat) (f := fun x => { x with
      inputAccessors := some ((contract parts whole (us.length + 1) us).map fun t =>
        Accessor.ofShape
        ((h.modifyOp cat fun x => { x with inputs := some (contract parts whole (us.length + 1) us)
          }).tensor t).shape)
      givenInputs := some (contract parts whole (us.length + 1) us)
      inputMasks := some ((contract parts whole (us.length + 1) us).map fun _ => true) }) rfl rfl
        rfl (fun holds => holds)
    fun _ => ⟨⟨_, rfl, by simp⟩, ⟨_, rfl, by simp [Accessor.ofShape]⟩⟩
  -- what it was merged from uses the whole no more
  have linked : Rewritten functions val ts g h₁ := by
    refine forIn_turns (Rewritten functions val ts g) (fun t _ a a' _ kept run => ?_) copied moved
    simp only [bind_ok, removeDst_ok, addDst_ok, pure_ok] at run
    obtain ⟨_, _, ⟨uses, rfl⟩, _, _, ⟨-, rfl⟩, -, rfl⟩ := run
    have src : (a.tensor t).src = (g.tensor t).src := kept.src_of_dst uses
    have first := kept.setDst src (·.erase o)
    refine first.setDst ?_ (·.insert cat)
    rw [Arena.tensor_modifyTensor_ite]
    split <;> exact src
  exact forIn_keeps (Rewritten functions val ts g) (fun t _ a a' _ kept run => kept.detach run)
    linked detached

theorem mergePairs_fitting (fitting : Fitting functions val g ts)
    (run : mergePairs ts g = .ok ts' g') : Fitting functions val g' ts' ∧
    Carried val g ts g' ts' := by
  unfold mergePairs at run
  simp only [bind_ok] at run
  obtain ⟨pairs, _, search, _, h, merged, tidied⟩ := run
  obtain ⟨rfl, mergeable⟩ := findPairs_mergeable search
  have r : Rewritten functions val ts g h :=
    forIn_keeps (Rewritten functions val ts g)
      (fun p hp _ _ _ kept run => merge_rewrites (mergeable p hp) kept run)
      (.refl fitting) merged
  refine r.tidy fitting (fun single => ?_) tidied
  have none : pairs = [] := by
    refine eq_nil_iff_forall_not_mem.2 fun p hp => ?_
    obtain ⟨inGraph, -, _, _, _, kinds, -⟩ := mergeable p hp
    exact fitting.not_single inGraph (kinds.imp And.left And.left) single
  simp_all

end ConcatFusion

end TensorGraph

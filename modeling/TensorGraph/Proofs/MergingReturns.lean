import TensorGraph.Proofs.ConcatMerging
import TensorGraph.Proofs.PartRuns

/-!
# When merging returns

A tensor knows its users as a set, and an operator may read one tensor several times.
-/

namespace TensorGraph

open Build TensorGraph.Graph List

variable {h : Arena} {p t x : TensorId} {cat o q : OpId}

/-! ## Removing a user -/

namespace Build

theorem forM_takes {l : List TensorId} {f : TensorId → Build Unit} {g g' : Arena} {u : Unit}
    (turn : ∀ t ∈ l, ∀ (h h' : Arena) (u : Unit), f t h = .ok u h' → o ∈ (h.tensor t).dst.ops ∧
      ∀ x, o ∈ (h'.tensor x).dst.ops → x ≠ t ∧ o ∈ (h.tensor x).dst.ops)
    (run : l.forM f g = .ok u g') : l.Nodup ∧ ∀ t ∈ l, o ∈ (g.tensor t).dst.ops := by
  induction l generalizing g with
  | nil => simp
  | cons t l ih =>
    simp only [List.forM, bind_ok] at run
    obtain ⟨_, g₁, first, rest⟩ := run
    obtain ⟨uses, left⟩ := turn t mem_cons_self _ _ _ first
    obtain ⟨nodup, known⟩ := ih (fun x hx => turn x (mem_cons_of_mem _ hx)) rest
    grind

theorem removeDst_takes {h' : Arena} {u : Unit} (run : removeDst t o h = .ok u h') :
    o ∈ (h.tensor t).dst.ops ∧ h' = h.modifyTensor t (fun x => { x with dst := x.dst.erase o }) ∧
      ∀ x, o ∈ (h'.tensor x).dst.ops → x ≠ t ∧ o ∈ (h.tensor x).dst.ops := by
  obtain ⟨uses, rfl⟩ := removeDst_ok.1 run
  refine ⟨uses, rfl, fun x hx => ?_⟩
  rw [Arena.tensor_modifyTensor _ _ _ (Arena.lt_of_dst uses)] at hx
  split at hx
  · simp [Links.erase] at hx
  · next ne => exact ⟨ne, hx⟩

theorem forgetUse_nodup {ts : List TensorId} {g g' : Arena} {u : Unit}
    (run : forgetUse ts o g = .ok u g') :
    ts.Nodup ∧ ∀ t ∈ ts, o ∈ (g.tensor t).dst.ops :=
  forM_takes (fun _ _ _ _ _ run => ⟨(removeDst_takes run).1, (removeDst_takes run).2.2⟩) run

theorem moveUse_run (cat : OpId) (uses : o ∈ (h.tensor t).dst.ops)
    (loose : (h.tensor t).dst.fixed = false) : (removeDst t o >>= fun _ => addDst t cat) h =
      .ok () (h.modifyTensor t fun x => { x with dst := (x.dst.erase o).insert cat }) := by
  have first : removeDst t o h = .ok () (h.modifyTensor t fun x =>
    { x with dst := x.dst.erase o }) := by
    unfold removeDst
    simp_all
  rw [bind_run first]
  unfold addDst
  rw [bind_run (tensor_run t), bind_run (require_run (by
    grind [Arena.tensor_modifyTensor_self, Arena.lt_of_dst, Links.erase])), modifyTensor_run]
  simp only [Arena.modifyTensor_modifyTensor]

end Build

namespace ConcatFusion

/-! ## One merge -/

/-- Tensors and operators agree on who reads and who writes what, in order, and can be changed. -/
structure Linked (h : Arena) (ts : Graph) : Prop where
  agrees : Agrees h ts
  ordered : Ordered h ts
  loose : ∀ t ∈ ts, (h.tensor t).dst.fixed = false
  active : ∀ t ∈ ts, ∀ o ∈ (h.tensor t).dst.ops, (h.op o).outputList ≠ []
  named : ∀ t ∈ ts, ∀ o ∈ (h.tensor t).src.ops, (h.op o).name.isSome → (h.tensor t).name.isSome
  copies : ∀ o, InGraph h ts o → (h.op o).kind = "concatenate" → (h.op o).CopiesAll

/-- An operator whose outputs may be read by a concatenation and by nothing else. -/
structure Candidate (h : Arena) (ts : Graph) (o cat : OpId) : Prop where
  kind : (h.op cat).kind = "concatenate"
  reads : (h.op o).inputList ≠ []
  made : ∀ p ∈ (h.op o).outputList, p ∈ ts ∧ (h.tensor p).src.ops = [o]
  used : ∃ p ∈ (h.op o).outputList, (h.tensor p).dst.ops = [cat]
  alone : (∀ p ∈ (h.op o).outputList, (h.tensor p).dst.ops = [cat]) ∨ ∃ q ∈ (h.op o).outputList,
    (h.tensor q).dst.ops = []

theorem Candidate.inGraph {ts : Graph} (c : Candidate h ts o cat) : InGraph h ts o := by
  obtain ⟨p, hp, -⟩ := c.used
  obtain ⟨mem, src⟩ := c.made p hp
  exact ⟨p, mem, by simp [src]⟩

section Candidates

variable {h : Arena} {ts : Graph} {o cat : OpId} (linked : Linked h ts) (c : Candidate h ts o cat)
include linked c

theorem Candidate.cat_inGraph : InGraph h ts cat := by
  obtain ⟨p, hp, users⟩ := c.used
  have mem := (c.made p hp).1
  have uses : cat ∈ (h.tensor p).dst.ops := by simp [users]
  obtain ⟨y, hy⟩ := exists_mem_of_ne_nil _ (linked.active p mem cat uses)
  obtain ⟨inside, source⟩ := linked.agrees.user_writes p mem cat uses y hy
  exact ⟨y, inside, source⟩

theorem Candidate.before (hx : x ∈ (h.op o).inputList) (hp : p ∈ (h.op o).outputList) :
    Before ts x p := by
  obtain ⟨mem, src⟩ := c.made p hp
  exact (linked.ordered p mem o (by simp [src])).2 x hx

theorem Candidate.whole_apart : ∀ x ∈ (h.op o).inputList, x ∉ (h.op o).outputList :=
  fun _ hx hp => Nat.lt_irrefl _ (c.before linked hx hp)

theorem Candidate.ne : o ≠ cat := by
  rintro rfl
  obtain ⟨p, hp, users⟩ := c.used
  obtain ⟨mem, -⟩ := c.made p hp
  have reads := linked.agrees.user_reads p mem o (by simp [users])
  exact c.whole_apart linked p reads hp

theorem Candidate.whole_uses : ∀ x ∈ (h.op o).inputList, x ∈ ts ∧ o ∈ (h.tensor x).dst.ops := by
  obtain ⟨t, ht, source⟩ := c.inGraph
  exact fun x hx => linked.agrees.source_reads t ht o source x hx

theorem Candidate.all_used (runs : InRuns (h.op o).outputList (h.op cat).inputList) :
    ∀ p ∈ (h.op o).outputList, (h.tensor p).dst.ops = [cat] := by
  refine c.alone.resolve_right ?_
  rintro ⟨q, hq, unused⟩
  obtain ⟨p, hp, users⟩ := c.used
  have ne : (h.op o).outputList ≠ [] := ne_nil_of_mem hp
  have contracts := contracts_contract [] ne (Nat.lt_succ_self (h.op cat).inputList.length)
  have gone := (contracts.inRuns_iff_gone ne (by simp)).1 runs
  have reads := linked.agrees.user_reads p (c.made p hp).1 cat (by simp [users])
  have all := (contracts.replaced gone hp reads).2 q hq
  obtain ⟨t, ht, source⟩ := c.cat_inGraph linked
  have uses := (linked.agrees.source_reads t ht cat source q all).2
  rw [unused] at uses
  cases uses

end Candidates

theorem Candidate.cat_uses {ts : Graph} (c : Candidate h ts o cat) :
    ∃ p ∈ ts, cat ∈ (h.tensor p).dst.ops := by
  obtain ⟨p, hp, users⟩ := c.used
  exact ⟨p, (c.made p hp).1, by simp [users]⟩

section Apart

variable {h : Arena} {ts : Graph} {o cat o₂ cat₂ : OpId} (c : Candidate h ts o cat)
  (c₂ : Candidate h ts o₂ cat₂) (ne : o₂ ≠ o)
include c c₂ ne

theorem Candidate.not_part (hp : p ∈ (h.op o₂).outputList) : p ∉ (h.op o).outputList := by
  intro part
  have src := (c₂.made p hp).2
  rw [(c.made p part).2] at src
  exact ne (singleton_inj.1 src).symm

theorem Candidate.apart (linked : Linked h ts) (cat_ne : cat₂ ≠ o) (hp : p ∈ (h.op o₂).outputList)
    (users : (h.tensor p).dst.ops = [cat₂] ∨ (h.tensor p).dst.ops = []) :
    p ∉ (h.op o).outputList ∧ p ∉ (h.op o).inputList := by
  refine ⟨c.not_part c₂ ne hp, fun whole => ?_⟩
  have uses := (c.whole_uses linked p whole).2
  grind

end Apart

/-- A merge has taken place: `new` is what the concatenation reads now. -/
structure Merged (o cat : OpId) (new : List TensorId) (h h' : Arena) : Prop where
  contracts : Contracts (h.op o).outputList (h.op o).inputList (h.op cat).inputList new
  gone : ∀ v ∈ new, v ∉ (h.op o).outputList
  inputs : (h'.op cat).inputs = some new
  copies : (h'.op cat).CopiesAll
  op : ∀ p, h'.op p = { h.op p with
    inputs := (h'.op p).inputs
    inputAccessors := (h'.op p).inputAccessors
    givenInputs := (h'.op p).givenInputs
    inputMasks := (h'.op p).inputMasks }
  other : ∀ p ≠ cat, h'.op p = h.op p
  part : ∀ t ∈ (h.op o).outputList, h'.tensor t =
    { h.tensor t with src := .empty, dst := .empty, isInput := false, isOutput := false }
  whole : ∀ t ∈ (h.op o).inputList, h'.tensor t =
    { h.tensor t with dst := ((h.tensor t).dst.erase o).insert cat }
  rest : ∀ t, t ∉ (h.op o).outputList → t ∉ (h.op o).inputList → h'.tensor t = h.tensor t

theorem moveUses_eq (whole : List TensorId) (o cat : OpId) :
    (forIn whole PUnit.unit fun t _ => do
      removeDst t o
      addDst t cat
      pure (ForInStep.yield PUnit.unit) : Build PUnit) = whole.forM
        (fun t => removeDst t o >>= fun _ => addDst t cat) := by
  rw [← forIn_eq_forM]
  simp only [bind_assoc]

def reread (h : Arena) (cat : OpId) (new : List TensorId) : Arena :=
  (h.modifyOp cat fun x => { x with inputs := some new }).modifyOp cat fun x => { x with
    inputAccessors := some (new.map fun t => Accessor.ofShape (h.tensor t).shape)
    givenInputs := some new
    inputMasks := some (new.map fun _ => true) }

theorem op_reread {new : List TensorId} (known : cat.idx < h.ops.size) (p : OpId) :
    (reread h cat new).op p = if p = cat then { h.op cat with
      inputs := some new
      inputAccessors := some (new.map fun t => Accessor.ofShape (h.tensor t).shape)
      givenInputs := some new
      inputMasks := some (new.map fun _ => true) } else h.op p := by
  unfold reread
  rw [Arena.op_modifyOp _ _ _ (by simpa using known), Arena.op_modifyOp _ _ _ known]
  by_cases e : p = cat
  · simp [e]
  · simp [e, Arena.op_modifyOp _ _ _ known]

section Merge

variable {h : Arena} {ts : Graph} {o cat : OpId} (linked : Linked h ts) (c : Candidate h ts o cat)
include linked c

theorem Candidate.applied : ((h.op o).inputs = some (h.op o).inputList ∧
    (h.op o).outputs = some (h.op o).outputList) ∧
    (h.op cat).inputs = some (h.op cat).inputList := by
  have known : ∀ p, InGraph h ts p → (h.op p).inputs = some (h.op p).inputList ∧
    (h.op p).outputs = some (h.op p).outputList := by
    rintro p ⟨t, ht, source⟩
    obtain ⟨ins, outs⟩ := linked.agrees.applied t ht p (Or.inl source)
    grind [Option.isSome_iff_exists, Operator.inputList, Operator.outputList]
  exact ⟨known o (c.inGraph), (known cat (c.cat_inGraph linked)).1⟩

theorem Candidate.contracted :
    let new := contract (h.op o).outputList (h.op o).inputList ((h.op cat).inputList.length + 1)
      (h.op cat).inputList
    Contracts (h.op o).outputList (h.op o).inputList (h.op cat).inputList new ∧
      (new.any (h.op o).outputList.contains = true ↔
        ¬ InRuns (h.op o).outputList (h.op cat).inputList) := by
  intro new
  obtain ⟨p, hp, -⟩ := c.used
  have ne : (h.op o).outputList ≠ [] := ne_nil_of_mem hp
  have contracts := contracts_contract (h.op o).inputList ne
    (Nat.lt_succ_self (h.op cat).inputList.length)
  refine ⟨contracts, ?_⟩
  rw [contracts.inRuns_iff_gone ne (c.whole_apart linked), any_eq_true]
  constructor
  · grind
  · grind

theorem merge_skips (scattered : ¬ InRuns (h.op o).outputList (h.op cat).inputList) :
    merge o cat h = .ok () h := by
  obtain ⟨⟨ins, outs⟩, catIns⟩ := c.applied linked
  unfold merge
  rw [bind_run (outputs_ok.2 ⟨outs, rfl⟩), bind_run (inputs_ok.2 ⟨ins, rfl⟩),
    bind_run (inputs_ok.2 ⟨catIns, rfl⟩), if_pos ((c.contracted linked).2.2 scattered)]
  rfl

theorem Candidate.relinks (nodup : (h.op o).inputList.Nodup) (new : List TensorId) :
    ∃ h₁ h₂, (h.op o).inputList.forM (fun t => removeDst t o >>= fun _ => addDst t cat)
    (reread h cat new) = .ok () h₁ ∧
      (h.op o).outputList.forM detach h₁ = .ok () h₂ ∧ (∀ p, h₂.op p = (reread h cat new).op p) ∧
      ∀ t, h₂.tensor t =
        if t ∈ (h.op o).outputList then
          { h.tensor t with src := .empty, dst := .empty, isInput := false, isOutput := false }
        else if t ∈ (h.op o).inputList then
          { h.tensor t with dst := ((h.tensor t).dst.erase o).insert cat }
        else h.tensor t := by
  obtain ⟨h₁, moved, op₁, size₁, tensor₁⟩ := forM_modifyEach (g := reread h cat new) nodup
    (f := fun t => removeDst t o >>= fun _ => addDst t cat)
      (fun x => o ∈ x.dst.ops ∧ x.dst.fixed = false)
    (fun t _ a ⟨mem, loose⟩ => moveUse_run cat mem loose)
    (fun t ht => Arena.lt_of_dst (c.whole_uses linked t ht).2)
    (fun t ht => ⟨(c.whole_uses linked t ht).2, linked.loose t (c.whole_uses linked t ht).1⟩)
  obtain ⟨h₂, detached, same₂, -, tensor₂⟩ := forM_modifyTensor (g := h₁) (l := (h.op o).outputList)
    (f := detach)
    (F := fun x => { x with src := .empty, dst := .empty, isInput := false, isOutput := false })
      (fun _ => True)
    (fun _ _ _ _ => rfl) (fun _ _ => trivial) (fun _ => rfl)
    (fun t ht => size₁ ▸ Arena.lt_of_src (show o ∈ (h.tensor t).src.ops by simp [(c.made t ht).2]))
      fun _ _ => trivial
  refine ⟨h₁, h₂, moved, detached, fun p => ?_, fun t => ?_⟩
  · rw [← op₁]
    unfold Arena.op
    rw [same₂]
  · rw [tensor₂, tensor₁]
    split
    · next part =>
      rw [if_neg fun whole => c.whole_apart linked t whole part]
      rfl
    · rfl

/-- Merging returns if the operator reads no tensor twice. -/
theorem merge_returns (runs : InRuns (h.op o).outputList (h.op cat).inputList)
    (nodup : (h.op o).inputList.Nodup) :
    ∃ new h', merge o cat h = .ok () h' ∧ Merged o cat new h h' := by
  obtain ⟨⟨ins, outs⟩, catIns⟩ := c.applied linked
  obtain ⟨contracts, tested⟩ := c.contracted linked
  obtain ⟨ms, masks, allMasks⟩ := (linked.copies cat (c.cat_inGraph linked) c.kind).masks
  obtain ⟨as, accessors, unstrided⟩ := (linked.copies cat (c.cat_inGraph linked) c.kind).accessors
  have known : cat.idx < h.ops.size := Arena.lt_of_some rfl catIns
  generalize hnew : contract (h.op o).outputList (h.op o).inputList
    ((h.op cat).inputList.length + 1) (h.op cat).inputList = new
    at contracts tested
  have first : (h.modifyOp cat fun x => { x with inputs := some new }).op cat =
    { h.op cat with inputs := some new } := by
    rw [Arena.op_modifyOp _ _ _ known, if_pos rfl]
  obtain ⟨h₁, h₂, moved, detached, op, tensor⟩ := c.relinks linked nodup new
  refine ⟨new, h₂, ?_, ?_⟩
  · unfold merge
    rw [bind_run (outputs_ok.2 ⟨outs, rfl⟩), bind_run (inputs_ok.2 ⟨ins, rfl⟩),
      bind_run (inputs_ok.2 ⟨catIns, rfl⟩)]
    simp only [hnew]
    rw [if_neg (fun left => tested.1 left runs),
      bind_run (show setInputs cat new h = .ok () _ from rfl), bind_run (op_run cat),
      bind_run (expect_ok.2 ⟨by rw [first]; exact masks, rfl⟩), bind_run (require_run allMasks),
      bind_run (expect_ok.2 ⟨by rw [first]; exact accessors, rfl⟩),
        bind_run (require_run unstrided),
      bind_run (show Matmul.accessors new _ = .ok _ _ from rfl), bind_run (modifyOp_run cat _),
        moveUses_eq]
    show ((h.op o).inputList.forM _ >>= _ : Build Unit) (reread h cat new) = _
    rw [bind_run moved, forIn_eq_forM, bind_run detached]
    rfl
  · refine ⟨contracts, fun v hv part => ?_, ?_, ?_, fun p => ?_, fun p ne => ?_, fun t part => ?_,
      fun t whole => ?_, fun t no no' => ?_⟩
    · grind
    · rw [op, op_reread known, if_pos rfl]
    · rw [op, op_reread known, if_pos rfl]
      exact ⟨⟨_, rfl, by simp⟩, ⟨_, rfl, by simp [Accessor.ofShape]⟩⟩
    · rw [op, op_reread known]
      split
      · next e => rw [e]
      · rfl
    · rw [op, op_reread known, if_neg ne]
    · rw [tensor, if_pos part]
    · rw [tensor, if_neg (c.whole_apart linked t whole), if_pos whole]
    · rw [tensor, if_neg no, if_neg no']

theorem nodup_of_merge (runs : InRuns (h.op o).outputList (h.op cat).inputList) {u : Unit}
    {h' : Arena} (run : merge o cat h = .ok u h') : (h.op o).inputList.Nodup := by
  obtain ⟨⟨ins, outs⟩, catIns⟩ := c.applied linked
  obtain ⟨-, tested⟩ := c.contracted linked
  unfold merge at run
  rw [bind_run (outputs_ok.2 ⟨outs, rfl⟩), bind_run (inputs_ok.2 ⟨ins, rfl⟩),
    bind_run (inputs_ok.2 ⟨catIns, rfl⟩), if_neg (fun left => tested.1 left runs)] at run
  simp only [bind_ok, moveUses_eq] at run
  obtain ⟨_, _, -, _, _, -, _, _, -, _, _, -, _, _, -, _, _, -, _, _, -, _, _, -, _, _, moved, -⟩ :=
    run
  refine (forM_takes (o := o) (fun t _ a a' _ turn => ?_) moved).1
  obtain ⟨_, a₁, removed, added⟩ := bind_ok.1 turn
  obtain ⟨uses, -, left⟩ := removeDst_takes removed
  refine ⟨uses, fun x hx => left x ?_⟩
  -- the concatenation that is added is another operator
  obtain ⟨-, rfl⟩ := addDst_ok.1 added
  rw [Arena.tensor_modifyTensor_ite] at hx
  split at hx
  · exact (Links.mem_insert.1 hx).resolve_right (c.ne linked)
  · exact hx

end Merge

/-! ## What a merge keeps -/

section Keeps

variable {h h' : Arena} {ts : Graph} {o cat : OpId} {new : List TensorId}
  (m : Merged o cat new h h')
include m

theorem Merged.outputList (p : OpId) : (h'.op p).outputList = (h.op p).outputList := by
  rw [m.op p]
  rfl

theorem Merged.inputList_cat : (h'.op cat).inputList = new := by
  simp [Operator.inputList, m.inputs]

theorem Merged.name_src (t : TensorId) : (h'.tensor t).name = (h.tensor t).name ∧
    (t ∉ (h.op o).outputList → (h'.tensor t).src = (h.tensor t).src) := by
  by_cases part : t ∈ (h.op o).outputList
  · grind [part, other]
  · by_cases whole : t ∈ (h.op o).inputList
    · rw [m.whole t whole]
      exact ⟨rfl, fun _ => rfl⟩
    · rw [m.rest t part whole]
      exact ⟨rfl, fun _ => rfl⟩

variable (linked : Linked h ts) (c : Candidate h ts o cat)
include linked c

theorem Merged.mem_src (ht : t ∈ ts) : q ∈ (h'.tensor t).src.ops ↔ q ∈ (h.tensor t).src.ops ∧
    q ≠ o := by
  by_cases part : t ∈ (h.op o).outputList
  · simp [m.part t part, (c.made t part).2, Links.empty]
  · rw [(m.name_src t).2 part]
    refine ⟨fun source => ⟨source, ?_⟩, And.left⟩
    rintro rfl
    exact part (linked.agrees.source_writes t ht q source)

theorem Merged.mem_dst (ht : t ∈ ts) : q ∈ (h'.tensor t).dst.ops ↔
    t ∉ (h.op o).outputList ∧ (q ∈ (h.tensor t).dst.ops ∧ q ≠ o ∨ t ∈ (h.op o).inputList ∧
      q = cat) := by
  by_cases part : t ∈ (h.op o).outputList
  · simp [m.part t part, part, Links.empty]
  · by_cases whole : t ∈ (h.op o).inputList
    · rw [m.whole t whole, Links.mem_insert]
      simp [Links.erase, part, whole]
    · rw [m.rest t part whole]
      simp only [part, not_false_eq_true, whole, false_and, or_false, true_and]
      refine ⟨fun uses => ⟨uses, ?_⟩, And.left⟩
      rintro rfl
      exact whole (linked.agrees.user_reads t ht q uses)

theorem Merged.mem_new (x : TensorId) :
    x ∈ new ↔ x ∈ (h.op o).inputList ∨ x ∈ (h.op cat).inputList ∧ x ∉ (h.op o).outputList := by
  constructor
  · intro mem
    exact (m.contracts.mem x mem).imp_right fun read => ⟨read, m.gone x mem⟩
  · rintro (whole | ⟨read, other⟩)
    · obtain ⟨p, hp, users⟩ := c.used
      have reads := linked.agrees.user_reads p (c.made p hp).1 cat (by simp [users])
      exact (m.contracts.replaced m.gone hp reads).1 x whole
    · exact m.contracts.mem_of_not_mem x read other

theorem Merged.new_before (ht : t ∈ ts) (source : cat ∈ (h.tensor t).src.ops) (hx : x ∈ new) :
    Before ts x t := by
  have reads := (linked.ordered t ht cat source).2
  rcases (m.mem_new linked c x).1 hx with whole | ⟨read, -⟩
  · obtain ⟨p, hp, users⟩ := c.used
    have part := linked.agrees.user_reads p (c.made p hp).1 cat (by simp [users])
    exact Nat.lt_trans (c.before linked whole hp) (reads p part)
  · exact reads x read

theorem Merged.applied (ht : t ∈ ts) (hq : q ∈ (h'.tensor t).src.ops ∨ q ∈ (h'.tensor t).dst.ops) :
    (h'.op q).inputs.isSome ∧ (h'.op q).outputs.isSome := by
  have before : (h.op q).inputs.isSome ∧ (h.op q).outputs.isSome := by
    rcases hq with source | user
    · exact linked.agrees.applied t ht q (Or.inl ((m.mem_src linked c ht).1 source).1)
    · rcases ((m.mem_dst linked c ht).1 user).2 with ⟨user, -⟩ | ⟨-, rfl⟩
      · exact linked.agrees.applied t ht q (Or.inr user)
      · obtain ⟨p, hp, catUser⟩ := c.cat_uses
        exact linked.agrees.applied p hp q (Or.inr catUser)
  by_cases e : q = cat
  · subst e
    refine ⟨by simp [m.inputs], ?_⟩
    rw [m.op q]
    exact before.2
  · rwa [m.other q e]

variable (used : ∀ p ∈ (h.op o).outputList, (h.tensor p).dst.ops = [cat])

include used in
theorem Merged.source_reads (ht : t ∈ ts)
    (hq : q ∈ (h'.tensor t).src.ops) (hx : x ∈ (h'.op q).inputList) :
    x ∈ ts ∧ q ∈ (h'.tensor x).dst.ops := by
  obtain ⟨source, other⟩ := (m.mem_src linked c ht).1 hq
  by_cases e : q = cat
  · subst e
    rw [m.inputList_cat] at hx
    rcases (m.mem_new linked c x).1 hx with whole | ⟨read, apart⟩
    · have mem := (c.whole_uses linked x whole).1
      exact ⟨mem, (m.mem_dst linked c mem).2 ⟨c.whole_apart linked x whole, Or.inr ⟨whole, rfl⟩⟩⟩
    · obtain ⟨mem, user⟩ := linked.agrees.source_reads t ht q source x read
      exact ⟨mem, (m.mem_dst linked c mem).2 ⟨apart, Or.inl ⟨user, other⟩⟩⟩
  · rw [m.other q e] at hx
    obtain ⟨mem, user⟩ := linked.agrees.source_reads t ht q source x hx
    refine ⟨mem, (m.mem_dst linked c mem).2 ⟨fun part => e ?_, Or.inl ⟨user, other⟩⟩⟩
    simpa [used x part] using user

theorem Merged.user_reads (ht : t ∈ ts) (hq : q ∈ (h'.tensor t).dst.ops) :
    t ∈ (h'.op q).inputList := by
  obtain ⟨apart, ⟨user, -⟩ | ⟨whole, rfl⟩⟩ := (m.mem_dst linked c ht).1 hq
  · have read := linked.agrees.user_reads t ht q user
    by_cases e : q = cat
    · subst e
      rw [m.inputList_cat]
      exact (m.mem_new linked c t).2 (Or.inr ⟨read, apart⟩)
    · rwa [m.other q e]
  · rw [m.inputList_cat]
    exact (m.mem_new linked c t).2 (Or.inl whole)

include used in
theorem Merged.agrees : Agrees h' ts := by
  refine ⟨fun t ht q => m.applied linked c ht, fun t ht q hq => ?_, fun t ht q hq x =>
    m.source_reads linked c used ht hq, fun t ht q => m.user_reads linked c ht,
    fun t ht q hq y hy => ?_⟩
  · -- what a producer writes
    rw [m.outputList]
    exact linked.agrees.source_writes t ht q ((m.mem_src linked c ht).1 hq).1
  · -- what a user writes
    rw [m.outputList] at hy
    obtain ⟨-, ⟨user, other⟩ | ⟨-, rfl⟩⟩ := (m.mem_dst linked c ht).1 hq
    · obtain ⟨mem, source⟩ := linked.agrees.user_writes t ht q user y hy
      exact ⟨mem, (m.mem_src linked c mem).2 ⟨source, other⟩⟩
    · obtain ⟨p, hp, catUser⟩ := c.cat_uses
      obtain ⟨mem, source⟩ := linked.agrees.user_writes p hp q catUser y hy
      exact ⟨mem, (m.mem_src linked c mem).2 ⟨source, (c.ne linked).symm⟩⟩

include used in
theorem Merged.stays_linked : Linked h' ts := by
  have agrees := m.agrees linked c used
  refine ⟨agrees, fun t ht q hq => ?_, fun t ht => ?_, fun t ht q hq => ?_, fun t ht q hq => ?_,
    fun q hq kind => ?_⟩
  · have source := ((m.mem_src linked c ht).1 hq).1
    refine ⟨(agrees.applied t ht q (Or.inl hq)).1, fun x hx => ?_⟩
    by_cases e : q = cat
    · subst e
      exact m.new_before linked c ht source (m.inputList_cat ▸ hx)
    · rw [m.other q e] at hx
      exact (linked.ordered t ht q source).2 x hx
  · by_cases part : t ∈ (h.op o).outputList
    · rw [m.part t part]
      rfl
    · by_cases whole : t ∈ (h.op o).inputList
      · rw [m.whole t whole]
        show (((h.tensor t).dst.erase o).insert cat).fixed = false
        unfold Links.insert
        split <;> exact linked.loose t ht
      · rw [m.rest t part whole]
        exact linked.loose t ht
  · rw [m.outputList]
    obtain ⟨-, ⟨user, -⟩ | ⟨-, rfl⟩⟩ := (m.mem_dst linked c ht).1 hq
    · exact linked.active t ht q user
    · obtain ⟨p, hp, users⟩ := c.used
      exact linked.active p (c.made p hp).1 q (by simp [users])
  · rw [m.op q, (m.name_src t).1]
    exact linked.named t ht q ((m.mem_src linked c ht).1 hq).1
  · by_cases e : q = cat
    · exact e ▸ m.copies
    · obtain ⟨t, ht, source⟩ := hq
      rw [m.other q e] at kind ⊢
      exact linked.copies q ⟨t, ht, ((m.mem_src linked c ht).1 source).1⟩ kind

variable {o₂ cat₂ : OpId} (c₂ : Candidate h ts o₂ cat₂) (ne : o₂ ≠ o) (ne_cat : o₂ ≠ cat)
  (cat_ne : cat₂ ≠ o)
include c₂ ne ne_cat cat_ne

theorem Merged.candidate : Candidate h' ts o₂ cat₂ := by
  have outs := m.outputList o₂
  have same : ∀ p ∈ (h.op o₂).outputList, (h.tensor p).dst.ops = [cat₂] ∨
    (h.tensor p).dst.ops = [] →
      h'.tensor p = h.tensor p := by
    intro p hp users
    obtain ⟨part, whole⟩ := c.apart c₂ ne linked cat_ne hp users
    exact m.rest p part whole
  refine ⟨by rw [m.op cat₂]; exact c₂.kind, by rw [m.other o₂ ne_cat]; exact c₂.reads,
    fun p hp => ?_, ?_, ?_⟩
  · rw [outs] at hp
    rw [(m.name_src p).2 (c.not_part c₂ ne hp)]
    exact c₂.made p hp
  · obtain ⟨p, hp, users⟩ := c₂.used
    grind
  · rw [outs]
    refine c₂.alone.imp (fun all p hp => ?_) fun ⟨q, hq, unused⟩ => ⟨q, hq, ?_⟩
    · grind
    · rw [same q hq (Or.inr unused)]
      exact unused

include used in
theorem Merged.inRuns_iff :
    InRuns (h'.op o₂).outputList (h'.op cat₂).inputList ↔
    InRuns (h.op o₂).outputList (h.op cat₂).inputList := by
  by_cases e : cat₂ = cat
  · subst e
    rcases c₂.alone with all | ⟨q, hq, unused⟩
    · rw [m.outputList, m.inputList_cat]
      obtain ⟨p, hp, -⟩ := c.used
      obtain ⟨p₂, hp₂, -⟩ := c₂.used
      refine (m.contracts.inRuns_iff (ne_nil_of_mem hp) c.reads (ne_nil_of_mem hp₂) fun a
        ha => ?_).symm
      exact c.apart c₂ ne linked cat_ne ha (Or.inl (all a ha))
    · -- an output without users is in no run
      have c' := m.candidate linked c c₂ ne ne_cat cat_ne
      have same : h'.tensor q = h.tensor q := by
        obtain ⟨part, whole⟩ := c.apart c₂ ne linked cat_ne hq (Or.inr unused)
        exact m.rest q part whole
      have never : ∀ {k : Arena} (hk : Linked k ts) (ck : Candidate k ts o₂ cat₂)
        (mem : q ∈ (k.op o₂).outputList)
          (none : (k.tensor q).dst.ops = []), ¬ InRuns (k.op o₂).outputList
            (k.op cat₂).inputList := by
        intro k hk ck mem none runs
        have := ck.all_used hk runs q mem
        rw [none] at this
        cases this
      exact iff_of_false (never (m.stays_linked linked c used) c' (m.outputList o₂ ▸ hq)
        (same ▸ unused)) (never linked c₂ hq unused)
  · rw [m.outputList, m.other cat₂ e]

end Keeps

end ConcatFusion

end TensorGraph

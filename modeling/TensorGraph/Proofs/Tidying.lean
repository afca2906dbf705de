import TensorGraph.Graph.Prune
import TensorGraph.Proofs.Nodes
import TensorGraph.Proofs.Reachability
import TensorGraph.Proofs.Sorting
import TensorGraph.Proofs.ValidGraph

/-!
# Tidying up a graph

`tidy` drops the tensors without links, gives names, marks parameters, forgets the uses by operators
that produce nothing in the graph, and checks what is left.
-/

namespace TensorGraph

open List

variable {g : Arena} {ts : Graph}

namespace Graph

open Build

/-! ## The tensors that stay -/

/-- Tensors and operators agree on who reads and who writes what. -/
structure Agrees (g : Arena) (ts : Graph) : Prop where
  applied : ∀ t ∈ ts, ∀ o, o ∈ (g.tensor t).src.ops ∨ o ∈ (g.tensor t).dst.ops →
    (g.op o).inputs.isSome ∧ (g.op o).outputs.isSome
  source_writes : ∀ t ∈ ts, ∀ o ∈ (g.tensor t).src.ops, t ∈ (g.op o).outputList
  source_reads : ∀ t ∈ ts, ∀ o ∈ (g.tensor t).src.ops, ∀ x ∈ (g.op o).inputList, x ∈ ts ∧
    o ∈ (g.tensor x).dst.ops
  user_reads : ∀ t ∈ ts, ∀ o ∈ (g.tensor t).dst.ops, t ∈ (g.op o).inputList
  user_writes : ∀ t ∈ ts, ∀ o ∈ (g.tensor t).dst.ops, ∀ y ∈ (g.op o).outputList, y ∈ ts ∧
    o ∈ (g.tensor y).src.ops

theorem Agrees.perm {us : Graph} (agrees : Agrees g ts) (perm : ts.Perm us) : Agrees g us := by
  obtain ⟨applied, sourceWrites, sourceReads, userReads, userWrites⟩ := agrees
  have mem : ∀ t, t ∈ us ↔ t ∈ ts := fun t => perm.mem_iff.symm
  constructor <;> simpa only [mem]

theorem split_filter {l r : Graph} {t : TensorId} {keep : TensorId → Bool} (nodup : ts.Nodup)
    (split : ts.filter keep = l ++ t :: r) :
    (∀ x, Before ts x t → keep x = true → x ∈ l) ∧ ∀ y ∈ ts, Before ts t y → keep y = true →
    y ∈ r := by
  have kept : t ∈ ts.filter keep := by simp [split]
  obtain ⟨ht, hk⟩ := mem_filter.1 kept
  obtain ⟨a, b, rfl⟩ := append_of_mem ht
  have nodup' := nodup.filter keep
  rw [filter_append, filter_cons_of_pos hk] at split nodup'
  have front : t ∉ a.filter keep := fun h => (nodup_append.1 nodup').2.2 t h t mem_cons_self rfl
  have behind : t ∉ b.filter keep := (nodup_cons.1 (nodup_append.1 nodup').2.1).1
  obtain ⟨rfl, -, rfl⟩ := (append_cons_inj_of_notMem front behind).1 split
  refine ⟨fun x before hx => mem_filter.2 ⟨before.mem_front, hx⟩, fun y hy before hk =>
    mem_filter.2 ⟨?_, hk⟩⟩
  rcases mem_append.1 hy with hy | hy
  · exact absurd (before_of_mem_front nodup hy) (Nat.lt_asymm before)
  · rcases mem_cons.1 hy with rfl | hy
    · exact absurd before (Nat.lt_irrefl _)
    · exact hy

theorem Agrees.valid_filter (agrees : Agrees g ts) (ordered : Ordered g ts) (nodup : ts.Nodup)
    (keep : TensorId → Bool) (linked : ∀ x o, o ∈ (g.tensor x).src.ops ∨ o ∈ (g.tensor x).dst.ops →
    keep x = true) : Valid g (ts.filter keep) := by
  refine ⟨fun l t r split o ho => ?_, fun l t r split o ho => ?_⟩
  all_goals
    have ht : t ∈ ts := (mem_filter.1 (by simp [split] : t ∈ ts.filter keep)).1
    obtain ⟨front, behind⟩ := split_filter nodup split
  · refine ⟨agrees.applied t ht o (Or.inl ho), fun x hx => ?_, agrees.source_writes t ht o ho⟩
    have user := (agrees.source_reads t ht o ho x hx).2
    exact ⟨front x ((ordered t ht o ho).2 x hx) (linked x o (Or.inr user)), user⟩
  · have reads := agrees.user_reads t ht o ho
    refine ⟨agrees.applied t ht o (Or.inr ho), fun y hy => ?_, reads⟩
    obtain ⟨inside, source⟩ := agrees.user_writes t ht o ho y hy
    exact ⟨behind y inside ((ordered y inside o source).2 t reads) (linked y o (Or.inl source)),
      source⟩

/-! ## Names and marks -/

/-- Only names and marks have changed. -/
structure Renamed (g g' : Arena) : Prop where
  tensor : ∀ t, g'.tensor t = { g.tensor t with
    name := (g'.tensor t).name
    isParam := (g'.tensor t).isParam
    hasOutputAliases := (g'.tensor t).hasOutputAliases }
  op : ∀ o, g'.op o = { g.op o with name := (g'.op o).name, firstName := (g'.op o).firstName }

namespace Renamed

theorem refl (g : Arena) : Renamed g g := ⟨fun _ => rfl, fun _ => rfl⟩

theorem trans {a b c : Arena} (h : Renamed a b) (h' : Renamed b c) : Renamed a c :=
  ⟨fun t => by rw [h'.tensor, h.tensor], fun o => by rw [h'.op, h.op]⟩

theorem modifyTensor (g : Arena) (t : TensorId) {f : Tensor → Tensor}
    (marks : ∀ x, f x = { x with name := (f x).name, isParam := (f x).isParam, hasOutputAliases :=
      (f x).hasOutputAliases }) :
    Renamed g (g.modifyTensor t f) := by
  refine ⟨fun u => ?_, fun _ => rfl⟩
  rw [Arena.tensor_modifyTensor_ite]
  split
  · exact marks _
  · rfl

theorem modifyOp (g : Arena) (o : OpId) {f : Operator → Operator}
    (names : ∀ x, f x = { x with name := (f x).name, firstName := (f x).firstName }) :
    Renamed g (g.modifyOp o f) := by
  refine ⟨fun _ => rfl, fun p => ?_⟩
  rw [Arena.op_modifyOp_ite]
  split
  · exact names _
  · rfl

variable {g g' : Arena} (h : Renamed g g')
include h

theorem src (t : TensorId) : (g'.tensor t).src = (g.tensor t).src := by rw [h.tensor]

theorem dst (t : TensorId) : (g'.tensor t).dst = (g.tensor t).dst := by rw [h.tensor]

theorem inputs (o : OpId) : (g'.op o).inputs = (g.op o).inputs := by rw [h.op]

theorem outputs (o : OpId) : (g'.op o).outputs = (g.op o).outputs := by rw [h.op]

theorem inputList (o : OpId) : (g'.op o).inputList = (g.op o).inputList := by
  rw [Operator.inputList, h.inputs, Operator.inputList]

theorem outputList (o : OpId) : (g'.op o).outputList = (g.op o).outputList := by
  rw [Operator.outputList, h.outputs, Operator.outputList]

theorem agrees (agrees : Agrees g ts) : Agrees g' ts := by
  obtain ⟨applied, sourceWrites, sourceReads, userReads, userWrites⟩ := agrees
  constructor <;> simpa only [h.src, h.dst, h.inputs, h.outputs, h.inputList, h.outputList]

theorem valid (valid : Valid g ts) : Valid g' ts := by
  refine ⟨fun l t r split o ho => ?_, fun l t r split o ho => ?_⟩
  · rw [h.src] at ho
    obtain ⟨applied, reads, writes⟩ := valid.sources l t r split o ho
    constructor <;> simpa only [h.dst, h.inputs, h.outputs, h.inputList, h.outputList]
  · rw [h.dst] at ho
    obtain ⟨applied, writes, reads⟩ := valid.users l t r split o ho
    constructor <;> simpa only [h.src, h.inputs, h.outputs, h.inputList, h.outputList]

end Renamed

/-- How far the naming has come: names are kept, and until an operator has got a name none has a new
one. -/
structure Naming (g : Arena) (last : Option String) (h : Arena) : Prop where
  renamed : Renamed g h
  kept : ∀ t, (g.tensor t).name.isSome → (h.tensor t).name.isSome
  fresh : last = none → ∀ o, (h.op o).name = (g.op o).name

namespace Naming

variable {g h : Arena} {last : Option String}

theorem freshName_run (s : String) : ∃ name n, freshName s h = .ok name { h with namer := n } :=
  ⟨_, _, rfl⟩

variable (naming : Naming g last h)
include naming

theorem namer (n : Namer) : Naming g last { h with namer := n } :=
  ⟨naming.renamed.trans ⟨fun _ => rfl, fun _ => rfl⟩, naming.kept, naming.fresh⟩

theorem dims (d : Array Dim) : Naming g last { h with dims := d } :=
  ⟨naming.renamed.trans ⟨fun _ => rfl, fun _ => rfl⟩, naming.kept, naming.fresh⟩

theorem tensor (t : TensorId) (name : String) :
    Naming g last (h.modifyTensor t fun x => { x with name := some name }) := by
  refine ⟨naming.renamed.trans (.modifyTensor h t fun _ => rfl), fun u hu => ?_, naming.fresh⟩
  rw [Arena.tensor_modifyTensor_ite]
  split
  · rfl
  · exact naming.kept u hu

theorem op (o : OpId) (name : String) :
    Naming g (some name) (h.modifyOp o fun x =>
      { x with name := some name, firstName := some name }) :=
  ⟨naming.renamed.trans (.modifyOp h o fun _ => rfl), naming.kept, nofun⟩

theorem source_run (t : TensorId) : ∃ h', nameSource t h = .ok () h' ∧ Naming g last h' := by
  unfold nameSource
  rw [bind_run (Build.tensor_run t)]
  split
  · obtain ⟨name, n, run⟩ := freshName_run (h := h) s!"tensor_{h.namer.tensors}"
    rw [bind_run get_run, bind_run run, bind_run (modifyTensor_run t _)]
    exact ⟨_, rfl, ((naming.namer n).tensor t name).namer _⟩
  · exact ⟨h, rfl, naming⟩

theorem produced_run (t : TensorId) (o : OpId)
    (named : (g.op o).name.isSome → (g.tensor t).name.isSome) :
    ∃ last' h', nameProduced t last o h = .ok last' h' ∧ Naming g last' h' := by
  -- the tensor, once the last name is known or the tensor has one
  have second : ∀ (last : Option String) (h : Arena), Naming g last h →
    (last = none → (h.tensor t).name.isSome) →
      ∃ last' h', (do
        if (← Build.tensor t).name.isNone then
          let f ← expect .unsetLabel last
          let k := (← get).namer.outputCount f
          let name ← freshName s!"{f}_{k}"
          modifyTensor t fun x => { x with name := some name }
          modifyNamer (·.setOutputCount f (k + 1))
        return last : Build (Option String)) h = .ok last' h' ∧ Naming g last' h' := by
    intro last h naming known
    rw [bind_run (Build.tensor_run t)]
    split
    · next nameless =>
      cases last with
      | none => simp_all
      | some f =>
        obtain ⟨name, n, run⟩ := freshName_run (h := h) s!"{f}_{h.namer.outputCount f}"
        rw [bind_run (expect_ok.2 ⟨rfl, rfl⟩), bind_run get_run, bind_run run,
          bind_run (modifyTensor_run t _)]
        exact ⟨_, _, rfl, ((naming.namer n).tensor t name).namer _⟩
    · exact ⟨last, h, rfl, naming⟩
  unfold nameProduced
  rw [bind_run (op_run o)]
  cases hn : (h.op o).name.isSome with
  | true =>
    refine second last h naming fun none => naming.kept t (named ?_)
    rwa [← naming.fresh none]
  | false =>
    obtain ⟨name, n, run⟩ := freshName_run (h := h) s!"{(h.op o).kind}_{h.namer.ops}"
    simp only [Bool.false_eq_true, if_false, pure_bind]
    rw [bind_run get_run, bind_run run, bind_run (modifyOp_run o _)]
    exact second (some name) _ (((naming.namer n).op o name).namer _) nofun

theorem modifyDims_run (l : List (DimId × Nat)) (f : DimId × Nat → Dim → Dim) :
    ∃ h', l.forM (fun e => modifyDim e.1 (f e)) h = .ok () h' ∧ Naming g last h' :=
  forM_returns (Naming g last) (fun _ _ _ naming => ⟨_, rfl, naming.dims _⟩) naming

theorem dims_run (t : TensorId) : ∃ h', nameDims t h = .ok () h' ∧ Naming g last h' := by
  obtain ⟨h', run, naming'⟩ := naming.modifyDims_run (h.tensor t).shape.zipIdx fun e v =>
    if v.name.isNone then { v with name := some s!"{Fault.nameText (h.tensor t).name}_dim_{e.2}"
      } else v
  refine ⟨h', ?_, naming'⟩
  unfold nameDims
  simp only [forIn_eq_forM]
  simp_all

theorem tensor_run {t : TensorId}
    (named : ∀ o ∈ (g.tensor t).src.ops, (g.op o).name.isSome → (g.tensor t).name.isSome) :
    ∃ last' h', nameTensor last t h = .ok last' h' ∧ Naming g last' h' := by
  unfold nameTensor
  rw [bind_run (Build.tensor_run t)]
  dsimp only
  split
  · obtain ⟨h₁, run, naming₁⟩ := naming.source_run t
    obtain ⟨h₂, run', naming₂⟩ := naming₁.dims_run t
    simp_all
  · obtain ⟨last', h₁, run, naming₁⟩ := foldlM_returns (l := (h.tensor t).src.ops)
      (f := nameProduced t) (Naming g)
      (fun o ho last h' naming => naming.produced_run t o
        (named o (by rwa [‹Naming g _ h›.renamed.src] at ho))) naming
    obtain ⟨h₂, run', naming₂⟩ := naming₁.dims_run t
    simp_all

end Naming

theorem giveNames_run (named : ∀ t ∈ ts, ∀ o ∈ (g.tensor t).src.ops, (g.op o).name.isSome →
    (g.tensor t).name.isSome) :
    ∃ g', giveNames ts g = .ok () g' ∧ Renamed g g' := by
  have start : Naming g none g := ⟨.refl g, fun _ h => h, fun _ _ => rfl⟩
  obtain ⟨last, g', run, naming⟩ := foldlM_returns (l := ts) (f := nameTensor) (Naming g)
    (fun t ht last h naming => naming.tensor_run (named t ht)) start
  refine ⟨g', ?_, naming.renamed⟩
  unfold giveNames
  rw [bind_run run]
  rfl

theorem markAlias_run {h : Arena} (renamed : Renamed g h) (v? : Option TensorId) (b : Bool) :
    ∃ h', (do if let some v := v? then
      modifyTensor v fun y => { y with hasOutputAliases := b } : Build Unit) h = .ok () h' ∧
        Renamed g h' := by
  cases v? with
  | none => exact ⟨h, rfl, renamed⟩
  | some v => exact ⟨_, rfl, renamed.trans (.modifyTensor h v fun _ => rfl)⟩

theorem markParams_run (g : Arena) (ts : Graph) : ∃ g', markParams ts g = .ok () g' ∧
    Renamed g g' := by
  refine forM_returns (Renamed g) (fun t _ h renamed => ?_) (.refl g)
  rw [bind_run (Build.tensor_run t)]
  split
  · exact markAlias_run (renamed.trans (.modifyTensor h t fun _ => rfl)) _ _
  · exact markAlias_run renamed _ _

/-! ## Forgetting uses -/

theorem mem_sources {o : OpId} : o ∈ sources g ts ↔ InGraph g ts o := by
  simp [sources, mem_distinct, InGraph]

/-- An operator that none of its inputs knows as a user. -/
structure Unknown (g : Arena) (o : OpId) : Prop where
  applied : (g.op o).inputs.isSome
  inputs : ∀ x ∈ (g.op o).inputList, (g.tensor x).dst.fixed = false ∧ o ∉ (g.tensor x).dst.ops

theorem modifyTensor_eq_self {t : TensorId} {f : Tensor → Tensor}
    (same : f (g.tensor t) = g.tensor t) : g.modifyTensor t f = g := by
  have kept : g.tensors.modify t.idx f = g.tensors := by
    refine Array.ext_getElem? fun i => ?_
    rw [Array.getElem?_modify]
    split
    · next here =>
      subst here
      cases found : g.tensors[t.idx]? with
      | none => rfl
      | some x => simpa [Arena.tensor_eq, Array.getD_eq_getD_getElem?, found] using same
    · rfl
  rw [Arena.modifyTensor, kept]

theorem Unknown.discard_run {o : OpId} (unknown : Unknown g o) :
    (g.op o).inputList.forM (discardDst · o) g = .ok () g := by
  have turn : ∀ x ∈ (g.op o).inputList, ∀ h, g = h → ∃ h', discardDst x o h = .ok () h' ∧
    g = h' := by
    rintro x hx _ rfl
    obtain ⟨changeable, absent⟩ := unknown.inputs x hx
    have kept : (g.tensor x).dst.erase o = (g.tensor x).dst := by rw [Links.erase,
      filter_eq_self.2 (by grind)]
    refine ⟨g, ?_, rfl⟩
    rw [discardDst, bind_run (Build.tensor_run x), bind_run (require_run (by simp [changeable])),
      modifyTensor_run, modifyTensor_eq_self (by rw [kept])]
  obtain ⟨_, run, rfl⟩ := forM_returns (g = ·) turn rfl
  exact run

/-- What a walk through the users has visited. -/
structure Pruned (S : OpId → Prop) (V : List OpId) : Prop where
  nodup : V.Nodup
  inside : ∀ o ∈ V, S o

section Forget

variable {g : Arena} {S : OpId → Prop} {producing : List OpId}
  (inside : ∀ o, S o → o ∈ producing ∨ Unknown g o)
  (applied : ∀ o, S o → (g.op o).inputs.isSome ∧ (g.op o).outputs.isSome)
  (closed : ∀ o, S o → ∀ y ∈ (g.op o).outputList, ∀ p ∈ (g.tensor y).dst.ops, S p)
include inside applied closed

theorem pruneLayer_run {V layer : List OpId} (pruned : Pruned S V) (users : ∀ o ∈ layer, S o) :
    ∃ r, pruneLayer producing V layer g = .ok r g ∧ Pruned S r.1 ∧ (∀ o ∈ r.2, S o) ∧
      (V.length < r.1.length ∨ r.1 = V ∧ r.2 = []) := by
  suffices walk : ∃ r g', pruneLayer producing V layer g = .ok r g' ∧ g = g' ∧ Pruned S r.1 ∧
    (∀ o ∈ r.2, S o) ∧
      (V.length < r.1.length ∨ r.1 = V ∧ r.2 = []) by grind
  refine foldlM_returns (fun (r : List OpId × List OpId) h => g = h ∧ Pruned S r.1 ∧
    (∀ o ∈ r.2, S o) ∧
    (V.length < r.1.length ∨ r.1 = V ∧ r.2 = [])) ?_ ⟨rfl, pruned, by simp, by simp⟩
  rintro o ho ⟨visited, next⟩ h ⟨rfl, pruned, kept, grown⟩
  obtain ⟨ys, hys⟩ := Option.isSome_iff_exists.1 (applied o (users o ho)).2
  have outputList : (g.op o).outputList = ys := by simp [Operator.outputList, hys]
  dsimp only
  split
  · exact ⟨_, g, rfl, rfl, pruned, kept, grown⟩
  · next new =>
    refine ⟨(o :: visited, next ++ ys.flatMap fun y => (g.tensor y).dst.ops), g, ?_, rfl,
      ⟨nodup_cons.2 ⟨?_, pruned.nodup⟩, forall_mem_cons.2
      ⟨users o ho, pruned.inside⟩⟩, by grind, by grind⟩
    rotate_left
    · simpa using new
    split
    · next unlisted =>
      have unknown := (inside o (users o ho)).resolve_left (by simpa using unlisted)
      obtain ⟨xs, hxs⟩ := Option.isSome_iff_exists.1 unknown.applied
      have loop := unknown.discard_run
      rw [Operator.inputList, hxs, Option.getD_some] at loop
      rw [bind_run (inputs_ok.2 ⟨hxs, rfl⟩), forIn_eq_forM, bind_run loop,
        bind_run (outputs_ok.2 ⟨hys, rfl⟩)]
      rfl
    · rw [bind_run (outputs_ok.2 ⟨hys, rfl⟩)]
      rfl

theorem pruneLayers_run (n : Nat) {V layer : List OpId} (pruned : Pruned S V) (users : ∀ o ∈ layer,
      S o) (turn : 0 < n) (enough : layer = [] ∨ g.ops.size + 1 < n + V.length) :
    pruneLayers producing n V layer g = .ok () g := by
  induction n generalizing V layer with
  | zero => exact absurd turn (Nat.lt_irrefl 0)
  | succ n ih =>
    unfold pruneLayers
    split
    · rfl
    · next some =>
      obtain ⟨⟨V', next⟩, run, pruned', users', grown⟩ :=
        pruneLayer_run inside applied closed pruned users
      have := length_le_of_applied pruned'.nodup fun o ho => (applied o (pruned'.inside o ho)).1
      have room := enough.resolve_left (by simpa using some)
      rw [bind_run run]
      exact ih pruned' users' (by grind) (by grind)

end Forget

theorem forgetUnused_run {us : Graph} (agrees : Agrees g ts) (sub : ∀ t ∈ us, t ∈ ts)
    (producing : ∀ t ∈ ts, ∀ o ∈ (g.tensor t).dst.ops, InGraph g us o) :
    forgetUnused us g = .ok () g := by
  unfold forgetUnused
  refine pruneLayers_run (S := fun o => ∃ t ∈ ts, o ∈ (g.tensor t).dst.ops)
    (fun o ⟨t, ht, ho⟩ => ?_) (fun o ⟨t, ht, ho⟩ => ?_)
    (fun o ⟨t, ht, ho⟩ y hy p hp => ?_) _ ⟨nodup_nil, by simp⟩ (fun o ho => ?_) (by simp) (by simp)
  · exact Or.inl (mem_sources.2 (producing t ht o ho))
  · exact agrees.applied t ht o (Or.inr ho)
  · exact ⟨y, (agrees.user_writes t ht o ho y hy).1, hp⟩
  · grind

/-! ## The whole -/

/-- Tidying returns for a graph with right links, which then passes the check. -/
theorem tidy_run (nodup : ts.Nodup) (agrees : Agrees g ts) (ordered : Ordered g ts)
    (active : ∀ t ∈ ts, ∀ o ∈ (g.tensor t).dst.ops, (g.op o).outputList ≠ [])
    (named : ∀ t ∈ ts, ∀ o ∈ (g.tensor t).src.ops, (g.op o).name.isSome →
      (g.tensor t).name.isSome) :
    ∃ ts' g', tidy ts g = .ok ts' g' ∧ Renamed g g' ∧ Valid g' ts' ∧ ts'.Sublist ts ∧
    ∀ t ∈ ts, isLinked (g.tensor t) = true → t ∈ ts' := by
  have valid := agrees.valid_filter ordered nodup (fun t => isLinked (g.tensor t))
    (by grind [isLinked, ne_nil_of_mem])
  unfold tidy
  split
  · next single =>
    -- one tensor alone stays, even without links
    obtain ⟨t, rfl⟩ := length_eq_one_iff.1 (by simpa using single)
    refine ⟨[t], g, rfl, .refl g, ?_, Sublist.refl _, fun _ h _ => h⟩
    by_cases linked : isLinked (g.tensor t) = true
    · simpa [linked] using valid
    · simp only [isLinked, Bool.or_eq_true, not_or, Bool.not_eq_true', isEmpty_eq_false_iff, ne_eq,
        not_not] at linked
      refine ⟨fun l u r split o ho => ?_, fun l u r split o ho => ?_⟩
      all_goals
        have : u ∈ [t] := by simp [split]
        obtain rfl := mem_singleton.1 this
      · simp [linked.1.1.1] at ho
      · simp [linked.1.1.2] at ho
  · rw [bind_run get_run]
    set us := ts.filter fun t => isLinked (g.tensor t)
    have sub : ∀ t ∈ us, t ∈ ts := fun t ht => (mem_filter.1 ht).1
    obtain ⟨g₁, run₁, renamed₁⟩ := giveNames_run fun t ht => named t (sub t ht)
    obtain ⟨g₂, run₂, renamed₂⟩ := markParams_run g₁ us
    have renamed := renamed₁.trans renamed₂
    have producing : ∀ t ∈ ts, ∀ o ∈ (g.tensor t).dst.ops, ∃ y ∈ us, o ∈ (g.tensor y).src.ops := by
      intro t ht o ho
      obtain ⟨y, hy⟩ := exists_mem_of_ne_nil _ (active t ht o ho)
      obtain ⟨inside, source⟩ := agrees.user_writes t ht o ho y hy
      exact ⟨y, mem_filter.2 ⟨inside, by simp [isLinked, ne_nil_of_mem source]⟩, source⟩
    have forget : forgetUnused us g₂ = .ok () g₂ := by
      refine forgetUnused_run (renamed.agrees agrees) sub fun t ht o ho => ?_
      rw [renamed.dst] at ho
      simp only [InGraph, renamed.src]
      exact producing t ht o ho
    have valid₂ := renamed.valid valid
    rw [bind_run run₁, bind_run run₂, bind_run forget, bind_run (check_ok.2 ⟨valid₂, rfl, rfl⟩)]
    exact ⟨us, g₂, rfl, renamed, valid₂, filter_sublist, fun t ht linked =>
      mem_filter.2 ⟨ht, linked⟩⟩

end Graph

end TensorGraph

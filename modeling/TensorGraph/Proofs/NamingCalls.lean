import TensorGraph.Proofs.FailingSteps
import TensorGraph.Proofs.NamingRecords
import TensorGraph.Proofs.OutputMarks
import TensorGraph.Proofs.Tidying

/-!
# Naming a graph

A call of `giveNames` walks over the tensors of a graph.
-/

namespace TensorGraph

open List

variable {t : TensorId} {o : OpId} {s : String} {last : Option String}

namespace Graph

open Build

/-! ## Single names -/

section Single

variable {h : Arena} {given : Set TensorId}

theorem freshName_free (identifier : IsIdentifier s) (free : s ∉ h.namer.used) :
    freshName s h = .ok s { h with namer := { h.namer with used := h.namer.used ++ [s] } } := by
  unfold freshName
  rw [bind_run get_run, Namer.fresh_eq identifier free]
  rfl

theorem nameSource_named (named : (h.tensor t).name.isSome = true) : nameSource t h = .ok () h := by
  unfold nameSource
  rw [bind_run (tensor_run t), if_neg (by simpa [Option.isSome_iff_ne_none] using named)]
  rfl

theorem nameSource_nameless (records : NameRecords h given) (nameless : (h.tensor t).name = none) :
    nameSource t h = .ok () (h.nameTensor t (numbered "tensor" h.namer.tensors)
      { h.namer with used := h.namer.used ++
        [numbered "tensor" h.namer.tensors], tensors := h.namer.tensors + 1 }) := by
  obtain ⟨other, new⟩ := records.tensor_free
  have fresh := freshName_free (IsIdentifier.numbered (s := "tensor") (by decide) _)
    (records.not_used other new)
  unfold nameSource
  rw [bind_run (tensor_run t), if_pos (by simp [nameless]), bind_run get_run, numbered_tensor,
    bind_run fresh]
  rfl

def nameSourceOp (last : Option String) (o : OpId) : Build (Option String) := do
  let x ← op o
  if x.name.isSome then return last
  let k := (← get).namer.ops
  let name ← freshName s!"{x.kind}_{k}"
  modifyOp o fun x => { x with name := some name, firstName := some name }
  modifyNamer fun n => { n with ops := n.ops + 1 }.setOutputCount name 0
  return some name

/-- The second half of `nameProduced`: a tensor without a name gets one after the operator named
last. -/
def nameOutput (t : TensorId) (last : Option String) : Build Unit := do
  if (← tensor t).name.isNone then
    let f ← expect .unsetLabel last
    let k := (← get).namer.outputCount f
    let name ← freshName s!"{f}_{k}"
    modifyTensor t fun x => { x with name := some name }
    modifyNamer (·.setOutputCount f (k + 1))

theorem nameProduced_eq (t : TensorId) (last : Option String) (o : OpId) :
    nameProduced t last o = (do
      let last ← nameSourceOp last o
      nameOutput t last
      return last) := by
  have second : ∀ last, (do
      if (← tensor t).name.isNone then
        let f ← expect .unsetLabel last
        let k := (← get).namer.outputCount f
        let name ← freshName s!"{f}_{k}"
        modifyTensor t fun x => { x with name := some name }
        modifyNamer (·.setOutputCount f (k + 1))
      return last : Build (Option String)) = (do
        nameOutput t last
        return last) := by
    intro last
    unfold nameOutput
    rw [bind_assoc]
    refine bind_congr fun x => ?_
    split <;> simp only [bind_assoc, pure_bind]
  unfold nameProduced nameSourceOp
  rw [bind_assoc]
  refine bind_congr fun x => ?_
  split
  · exact second last
  · simp_all

theorem nameSourceOp_named (named : (h.op o).name.isSome = true) :
    nameSourceOp last o h = .ok last h := by
  unfold nameSourceOp
  rw [bind_run (op_run o), if_pos named]
  rfl

theorem nameSourceOp_nameless (records : NameRecords h given) (nameless : (h.op o).name = none)
    (plain : TensorGraph.Plain (h.op o).kind) :
    nameSourceOp last o h = .ok (some (numbered (h.op o).kind h.namer.ops)) (h.nameOp o
      (numbered (h.op o).kind h.namer.ops)
      ({ h.namer with used := h.namer.used ++
        [numbered (h.op o).kind h.namer.ops], ops := h.namer.ops + 1 }.setOutputCount
        (numbered (h.op o).kind h.namer.ops) 0)) := by
  obtain ⟨other, new⟩ := records.op_free plain
  have fresh := freshName_free (plain.identifier.numbered h.namer.ops) (records.not_used other new)
  unfold nameSourceOp
  rw [bind_run (op_run o), if_neg (by simp [nameless]), bind_run get_run, ← numbered,
    bind_run fresh]
  rfl

theorem nameOutput_named (named : (h.tensor t).name.isSome = true) : nameOutput t last h =
    .ok () h := by
  unfold nameOutput
  rw [bind_run (tensor_run t), if_neg (by simpa [Option.isSome_iff_ne_none] using named)]
  rfl

theorem nameOutput_nameless (records : NameRecords h given) (nameless : (h.tensor t).name = none)
    {f : String} (name : (h.op o).name = some f) :
    nameOutput t (some f) h = .ok () (h.nameTensor t (numbered f (h.namer.outputCount f))
      ({ h.namer with used := h.namer.used ++ [numbered f (h.namer.outputCount f)] }.setOutputCount
        f (h.namer.outputCount f + 1))) := by
  obtain ⟨other, new⟩ := records.output_free name
  have fresh := freshName_free ((records.op_identifier name).numbered _)
    (records.not_used other new)
  unfold nameOutput
  rw [bind_run (tensor_run t), if_pos (by simp [nameless]), bind_run (expect_ok.2 ⟨rfl, rfl⟩),
    bind_run get_run, ← numbered, bind_run fresh]
  rfl

theorem nameOutput_stuck (nameless : (h.tensor t).name = none) :
    nameOutput t none h = .error .unsetLabel h := by
  unfold nameOutput
  rw [bind_run (tensor_run t), if_pos (by simp [nameless])]
  rfl

end Single

/-! ## Names are kept -/

/-- Names that are set are kept, and nothing but names has changed in tensors and operators. -/
structure Kept (g h : Arena) : Prop where
  renamed : Renamed g h
  tensorSize : h.tensors.size = g.tensors.size
  opSize : h.ops.size = g.ops.size
  tensors : ∀ t, (g.tensor t).name.isSome = true → (h.tensor t).name = (g.tensor t).name
  ops : ∀ o, (g.op o).name.isSome = true → (h.op o).name = (g.op o).name
  dims : ∀ d, (g.dim d).name.isSome = true → (h.dim d).name = (g.dim d).name

namespace Kept

variable {g h h' : Arena}

theorem refl (g : Arena) : Kept g g := ⟨.refl g, rfl, rfl, fun _ _ => rfl, fun _ _ => rfl,
    fun _ _ => rfl⟩

theorem trans (kept : Kept g h) (kept' : Kept h h') : Kept g h' := by
  refine ⟨kept.renamed.trans kept'.renamed, kept'.tensorSize.trans kept.tensorSize,
    kept'.opSize.trans kept.opSize, fun t named => ?_, fun o named => ?_, fun d named => ?_⟩
  · have same := kept.tensors t named
    exact (kept'.tensors t (same ▸ named)).trans same
  · have same := kept.ops o named
    exact (kept'.ops o (same ▸ named)).trans same
  · have same := kept.dims d named
    exact (kept'.dims d (same ▸ named)).trans same

theorem op_nameless (kept : Kept g h) (nameless : (h.op o).name = none) : (g.op o).name = none := by
  by_contra named
  have named := Option.isSome_iff_ne_none.2 named
  rw [← kept.ops o named, nameless] at named
  cases named

theorem nameTensor (known : t.idx < h.tensors.size) (nameless : (h.tensor t).name = none)
    (s : String) (n : Namer) : Kept h (h.nameTensor t s n) := by
  refine ⟨Renamed.trans (.modifyTensor h t fun _ => rfl) ⟨fun _ => rfl, fun _ => rfl⟩,
    Arena.tensors_size_modifyTensor .., rfl, fun u named => ?_, fun _ _ => rfl, fun _ _ => rfl⟩
  rw [Arena.name_nameTensor known, if_neg]
  rintro rfl
  rw [nameless] at named
  cases named

theorem nameOp (known : o.idx < h.ops.size) (nameless : (h.op o).name = none) (s : String)
    (n : Namer) :
    Kept h (h.nameOp o s n) := by
  refine ⟨Renamed.trans (.modifyOp h o fun _ => rfl) ⟨fun _ => rfl, fun _ => rfl⟩,
    rfl, by simp [Arena.nameOp, Arena.modifyOp], fun _ _ => rfl, fun p named => ?_, fun _ _ => rfl⟩
  rw [Arena.name_nameOp known, if_neg]
  rintro rfl
  rw [nameless] at named
  cases named

end Kept

theorem name_modifyDim (h : Arena) (d e : DimId) (s : String) :
    ((h.modifyDim d fun v => if v.name.isNone then { v with name := some s } else v).dim e).name =
    (h.dim e).name ∨
      (h.dim e).name = none ∧
        ((h.modifyDim d fun v => if v.name.isNone then { v with name := some s } else v).dim
          e).name = some s := by
  simp only [Arena.dim, Arena.modifyDim, Array.getD_eq_getD_getElem?, Array.getElem?_modify]
  split
  · cases h.dims[e.idx]? with
    | none => exact Or.inl rfl
    | some v =>
      simp only [Option.map_some, Option.getD_some]
      split
      · simp_all
      · exact Or.inl rfl
  · exact Or.inl rfl

/-! ## How far a call has come -/

/-- What a call has done when it has passed some operators: those have names, `last` is the name of
one of them that had none before, and as long as there is no such one the tensors that are produced
by operators have no new names either. -/
structure Progress (g : Arena) (given : Set TensorId) (ts : Graph) (passed : List OpId)
    (last : Option String) (h : Arena) :
    Prop where
  kept : Kept g h
  before : ∀ t ∈ given, (g.tensor t).name.isSome = true
  records : NameRecords h given
  dims : ∀ d s, (g.dim d).name = none → (h.dim d).name = some s → IsIdentifier s
  inside : ∀ t, (g.tensor t).name = none → (h.tensor t).name.isSome = true → t ∈ ts
  ops : ∀ o ∈ passed, (h.op o).name.isSome = true
  busy : ∀ f, last = some f → (∃ o, (h.op o).name = some f) ∧ ∃ o ∈ passed, (g.op o).name = none
  idle : last = none → (∀ o, (h.op o).name = (g.op o).name) ∧
    ∀ t, (g.tensor t).src.ops ≠ [] → (h.tensor t).name = (g.tensor t).name

namespace Progress

variable {g h : Arena} {given : Set TensorId} {ts : Graph} {passed : List OpId}
  {last : Option String}

theorem start (records : NameRecords g given) : Progress g given ts [] none g where
  kept := .refl g
  before := records.named
  records := records
  dims d s none some := by
    rw [none] at some
    cases some
  inside t none some := by
    rw [none] at some
    cases some
  ops _ ho := absurd ho not_mem_nil
  busy _ := nofun
  idle _ := ⟨fun _ => rfl, fun _ _ => rfl⟩

variable (p : Progress g given ts passed last h)
include p

theorem withTensor (mem : t ∈ ts) (known : t.idx < h.tensors.size)
    (nameless : (h.tensor t).name = none) {n : Namer}
    (records : NameRecords (h.nameTensor t s n) given)
    (idle : last = none → (g.tensor t).src.ops = []) : Progress g given ts passed last
    (h.nameTensor t s n) where
  kept := p.kept.trans (.nameTensor known nameless s n)
  before := p.before
  records := records
  dims := p.dims
  inside u none some := by
    rw [Arena.name_nameTensor known] at some
    split at some
    · next e => exact e ▸ mem
    · exact p.inside u none some
  ops := p.ops
  busy := p.busy
  idle none := by
    refine ⟨(p.idle none).1, fun u produced => ?_⟩
    have ne : u ≠ t := fun e => produced (e ▸ idle none)
    rw [Arena.name_nameTensor known, if_neg ne]
    exact (p.idle none).2 u produced

theorem withOp (known : o.idx < h.ops.size)
    (nameless : (h.op o).name = none) {n : Namer} (records : NameRecords (h.nameOp o s n) given) :
    Progress g given ts (passed ++ [o]) (some s) (h.nameOp o s n) where
  kept := p.kept.trans (.nameOp known nameless s n)
  before := p.before
  records := records
  dims := p.dims
  inside := p.inside
  ops q hq := by
    rw [Arena.name_nameOp known]
    split
    · rfl
    · next ne => exact p.ops q ((mem_append.1 hq).resolve_right fun e => ne (mem_singleton.1 e))
  busy f hf := by
    cases hf
    refine ⟨⟨o, by rw [Arena.name_nameOp known, if_pos rfl]⟩,
      o, by simp, p.kept.op_nameless nameless⟩
  idle := nofun

theorem pass (named : (h.op o).name.isSome = true) :
    Progress g given ts (passed ++ [o]) last h where
  kept := p.kept
  before := p.before
  records := p.records
  dims := p.dims
  inside := p.inside
  ops q hq := (mem_append.1 hq).elim (p.ops q) fun e => mem_singleton.1 e ▸ named
  busy f hf := ⟨(p.busy f hf).1, (p.busy f hf).2.imp fun _ h => ⟨mem_append_left _ h.1, h.2⟩⟩
  idle := p.idle

theorem withDim (d : DimId) (identifier : IsIdentifier s) :
    Progress g given ts passed last (h.modifyDim d fun v =>
      if v.name.isNone then { v with name := some s } else v) where
  kept := by
    refine p.kept.trans ⟨⟨fun _ => rfl, fun _ => rfl⟩, rfl, rfl, fun _ _ => rfl, fun _ _ => rfl,
      fun e named => ?_⟩
    rcases name_modifyDim h d e s with same | ⟨none, -⟩
    · exact same
    · rw [none] at named
      cases named
  before := p.before
  records := p.records.edited ⟨rfl, fun _ => rfl, fun _ ht => ⟨ht, rfl⟩, p.records.named,
    fun _ ht new => absurd ht new⟩
  dims e x none some := by
    rcases name_modifyDim h d e s with same | ⟨-, new⟩
    · exact p.dims e x none (same ▸ some)
    · cases new.symm.trans some
      exact identifier
  inside := p.inside
  ops := p.ops
  busy := p.busy
  idle := p.idle

theorem last_eq_none_iff :
    last = none ↔ ∀ o ∈ passed, (g.op o).name.isSome = true := by
  constructor
  · rintro rfl o ho
    rw [← (p.idle rfl).1 o]
    exact p.ops o ho
  · intro named
    by_contra some
    obtain ⟨f, hf⟩ := Option.ne_none_iff_exists'.1 some
    obtain ⟨-, o, ho, none⟩ := p.busy f hf
    grind

end Progress

/-! ## One call -/

/-- What is asked of a graph: it is valid, its operators are numbered by plain stems, and the names
that somebody else has given to its tensors are identifiers. -/
structure Callable (g : Arena) (given : Set TensorId) (ts : Graph) : Prop where
  valid : Valid g ts
  known : ∀ t ∈ ts, t.idx < g.tensors.size
  plain : ∀ t ∈ ts, ∀ o ∈ (g.tensor t).src.ops, TensorGraph.Plain (g.op o).kind
  identifiers : ∀ t ∈ ts, t ∈ given → ∀ s, (g.tensor t).name = some s → IsIdentifier s

/-- The first tensor that needs an operator's name is one whose operator has its name already. -/
def Stale (g : Arena) (ts : Graph) : Prop :=
  ∃ l t r o, ts = l ++ t :: r ∧ (∀ u ∈ l, ∀ p ∈ (g.tensor u).src.ops, (g.op p).name.isSome = true) ∧
    (g.tensor t).name = none ∧ (g.tensor t).src.ops.head? = some o ∧ (g.op o).name.isSome = true

section Call

variable {g h : Arena} {given : Set TensorId} {ts : Graph} (callable : Callable g given ts)
include callable

theorem Callable.known_op (mem : t ∈ ts) (ho : o ∈ (g.tensor t).src.ops) : o.idx < g.ops.size :=
  Arena.lt_of_applied (callable.valid.applied mem ho).1

namespace Progress

variable {passed : List OpId} {last : Option String} (p : Progress g given ts passed last h)
  {t : TensorId} (mem : t ∈ ts)
include p mem

theorem source_run (leaf : (g.tensor t).src.ops = []) :
    ∃ h', nameSource t h = .ok () h' ∧ Progress g given ts passed last h' ∧
    (h'.tensor t).name.isSome = true := by
  cases name : (h.tensor t).name with
  | some s => grind [nameSource_named]
  | none =>
    have known : t.idx < h.tensors.size := p.kept.tensorSize ▸ callable.known t mem
    exact ⟨_, nameSource_nameless p.records name,
      p.withTensor mem known name (p.records.nameNumbered known name)
        fun _ => leaf, by simp [Arena.name_nameTensor known]⟩

theorem sourceOp_run (ho : o ∈ (g.tensor t).src.ops) :
    ∃ last' h', nameSourceOp last o h = .ok last' h' ∧
    Progress g given ts (passed ++ [o]) last' h' ∧ (h'.tensor t).name = (h.tensor t).name ∧
    (last' = none → last = none ∧ (h.op o).name.isSome = true) := by
  cases name : (h.op o).name with
  | some s => exact ⟨last, h, nameSourceOp_named (by simp [name]), p.pass (by simp [name]), rfl,
    fun none => ⟨none, rfl⟩⟩
  | none =>
    have known : o.idx < h.ops.size := p.kept.opSize ▸ callable.known_op mem ho
    have kind : (h.op o).kind = (g.op o).kind := by rw [p.kept.renamed.op]
    have plain : TensorGraph.Plain (h.op o).kind := kind ▸ callable.plain t mem o ho
    exact ⟨_, _, nameSourceOp_nameless p.records name plain,
      p.withOp known name (p.records.nameOp known name plain), rfl, nofun⟩

theorem output_run (ready : last = none → (h.tensor t).name.isSome = true) :
    ∃ h', nameOutput t last h = .ok () h' ∧ Progress g given ts passed last h' ∧
    (h'.tensor t).name.isSome = true := by
  cases name : (h.tensor t).name with
  | some s => grind [nameOutput_named]
  | none =>
    cases last with
    | none => grind
    | some f =>
      obtain ⟨⟨o, has⟩, -⟩ := p.busy f rfl
      have known : t.idx < h.tensors.size := p.kept.tensorSize ▸ callable.known t mem
      exact ⟨_, nameOutput_nameless p.records name has,
        p.withTensor mem known name (p.records.nameOutput known name has)
          nofun, by simp [Arena.name_nameTensor known]⟩

theorem produced_run (ho : o ∈ (g.tensor t).src.ops)
    (ready : last = none → (h.op o).name.isSome = true → (h.tensor t).name.isSome = true) :
    ∃ last' h', nameProduced t last o h = .ok last' h' ∧
    Progress g given ts (passed ++ [o]) last' h' ∧ (h'.tensor t).name.isSome = true := by
  obtain ⟨last', h₁, run, p₁, same, none⟩ := p.sourceOp_run callable mem ho
  obtain ⟨h₂, run', p₂, named⟩ := p₁.output_run callable mem fun none' => by grind
  refine ⟨last', h₂, ?_, p₂, named⟩
  rw [nameProduced_eq, bind_run run, bind_run run']
  rfl

theorem sources_run {os : List OpId} (sub : ∀ o ∈ os, o ∈ (g.tensor t).src.ops)
    (ready : ∀ o ∈ os.head?, last = none → (h.op o).name.isSome = true →
      (h.tensor t).name.isSome = true) :
    ∃ last' h', os.foldlM (nameProduced t) last h = .ok last' h' ∧
    Progress g given ts (passed ++ os) last' h' ∧
    ((h.tensor t).name.isSome = true ∨ os ≠ [] → (h'.tensor t).name.isSome = true) := by
  induction os generalizing passed last h with
  | nil => simp_all
  | cons o os ih =>
    obtain ⟨last₁, h₁, run, p₁, named⟩ := p.produced_run callable mem (sub o mem_cons_self)
      (ready o rfl)
    obtain ⟨last', h', run', p', named'⟩ :=
      ih p₁ (fun q hq => sub q (mem_cons_of_mem o hq)) fun _ _ _ _ => named
    refine ⟨last', h', ?_, by simpa using p', fun _ => named' (Or.inl named)⟩
    rw [foldlM_cons, bind_run run]
    exact run'

theorem identifier (name : (h.tensor t).name = some s) : IsIdentifier s := by
  by_cases here : t ∈ given
  · rw [p.kept.tensors t (p.before t here)] at name
    exact callable.identifiers t mem here s name
  · exact p.records.generated_identifier (p.records.generated t here s name)

theorem dims_run (named : (h.tensor t).name.isSome = true) :
    ∃ h', nameDims t h = .ok () h' ∧ Progress g given ts passed last h' ∧
    (h'.tensor t).name.isSome = true := by
  obtain ⟨s, name⟩ := Option.isSome_iff_exists.1 named
  have identifier := p.identifier callable mem name
  have dimName : ∀ i : Nat, IsIdentifier s!"{s}_dim_{i}" := identifier.append_number (t := "_dim_")
    (by decide)
  obtain ⟨h', run, p', named'⟩ := forM_returns (l := (h.tensor t).shape.zipIdx)
    (fun h' => Progress g given ts passed last h' ∧ (h'.tensor t).name.isSome = true)
    (f := fun e => modifyDim e.1 fun v => if v.name.isNone then
      { v with name := some s!"{s}_dim_{e.2}" } else v)
    (fun e _ h' turn => ⟨_, rfl, turn.1.withDim e.1 (dimName e.2), turn.2⟩) ⟨p, named⟩
  refine ⟨h', ?_, p', named'⟩
  unfold nameDims
  simp only [forIn_eq_forM]
  rw [bind_run (tensor_run t), name]
  exact bind_run run

theorem tensor_run (ready : ∀ o ∈ (g.tensor t).src.ops.head?, last = none →
      (g.op o).name.isSome = true → (g.tensor t).name.isSome = true) :
    ∃ last' h', nameTensor last t h = .ok last' h' ∧
    Progress g given ts (passed ++ (g.tensor t).src.ops) last' h' ∧
    (h'.tensor t).name.isSome = true := by
  have src : (h.tensor t).src = (g.tensor t).src := p.kept.renamed.src t
  unfold nameTensor
  rw [bind_run (Build.tensor_run t), src]
  dsimp only
  split
  · next leaf =>
    have leaf : (g.tensor t).src.ops = [] := by simpa using leaf
    obtain ⟨h₁, run, p₁, named⟩ := p.source_run callable mem leaf
    obtain ⟨h₂, run', p₂, named'⟩ := p₁.dims_run callable mem named
    simp_all
  · next produced =>
    have produced : (g.tensor t).src.ops ≠ [] := by simpa using produced
    obtain ⟨last', h₁, run, p₁, named⟩ := p.sources_run callable mem (fun _ ho => ho) fun o ho none
      named => by
      rw [(p.idle none).1 o] at named
      have := ready o ho none named
      rwa [p.kept.tensors t this]
    obtain ⟨h₂, run', p₂, named'⟩ := p₁.dims_run callable mem (named (Or.inr produced))
    simp_all

omit callable mem in
theorem tensor_stuck (first : (g.tensor t).src.ops.head? = some o) (none : last = none)
    (named : (g.op o).name.isSome = true) (nameless : (g.tensor t).name = Option.none) :
    ∃ f h', nameTensor last t h = .error f h' := by
  obtain ⟨os, sources⟩ := head?_eq_some_iff.1 first
  subst none
  have src : (h.tensor t).src = (g.tensor t).src := p.kept.renamed.src t
  obtain ⟨ops, tensors⟩ := p.idle rfl
  have stuck : nameProduced t Option.none o h = .error .unsetLabel h := by
    have none : (h.tensor t).name = Option.none := by rw [tensors t (by simp [sources]), nameless]
    rw [nameProduced_eq, bind_run (nameSourceOp_named (by rwa [ops o])),
      bind_failed (nameOutput_stuck none)]
  refine ⟨.unsetLabel, h, ?_⟩
  unfold nameTensor
  rw [bind_run (Build.tensor_run t), src]
  rw [if_neg (by simp [sources]), sources, foldlM_cons, bind_assoc, bind_failed stuck]

end Progress

theorem Progress.walk {passed : List OpId} (p : Progress g given ts passed last h) {back : Graph}
    (sub : ∀ t ∈ back, t ∈ ts) :
    (∃ last' h', back.foldlM nameTensor last h = .ok last' h' ∧ ¬ (last = none ∧ Stale g back) ∧
      Progress g given ts (passed ++ back.flatMap fun t => (g.tensor t).src.ops) last' h' ∧
      ∀ t ∈ back, (h'.tensor t).name.isSome = true) ∨
    (∃ f h', back.foldlM nameTensor last h = .error f h') ∧ last = none ∧ Stale g back := by
  induction back generalizing passed last h with
  | nil =>
    refine Or.inl ⟨last, h, rfl, ?_, by simpa using p, fun t ht => absurd ht not_mem_nil⟩
    rintro ⟨-, l, t, r, o, split, -⟩
    simp at split
  | cons t back ih =>
    have mem := sub t mem_cons_self
    by_cases stuck : last = none ∧ (g.tensor t).name = none ∧
        ∃ o ∈ (g.tensor t).src.ops.head?, (g.op o).name.isSome = true
    · obtain ⟨none, nameless, o, first, named⟩ := stuck
      obtain ⟨f, h', failed⟩ := p.tensor_stuck first none named nameless
      refine Or.inr ⟨⟨f, h', ?_⟩, none, [], t, back, o, rfl, fun u hu => absurd hu not_mem_nil,
        nameless, first, named⟩
      exact bind_failed failed
    · obtain ⟨last₁, h₁, run, p₁, named⟩ := p.tensor_run callable mem fun o ho none named => by
        by_contra nameless
        simp_all
      -- the rest is stale together with the tensor if no operator has got a name by then
      have stale : last = none ∧ Stale g (t :: back) ↔ last₁ = none ∧ Stale g back := by
        constructor
        · rintro ⟨none, l, u, r, o, split, front, nameless, first, has⟩
          rcases cons_eq_append_iff.1 split with ⟨rfl, e⟩ | ⟨l, rfl, rfl⟩
          · grind
          · refine ⟨p₁.last_eq_none_iff.2 fun q hq => ?_, l, u, r, o, rfl, fun v hv =>
              front v (mem_cons_of_mem t hv), nameless, first, has⟩
            exact (mem_append.1 hq).elim (p.last_eq_none_iff.1 none q) (front t mem_cons_self q)
        · rintro ⟨none, l, u, r, o, rfl, front, nameless, first, has⟩
          have passed := p₁.last_eq_none_iff.1 none
          refine ⟨p.last_eq_none_iff.2 fun q hq => passed q (mem_append_left _ hq), t :: l, u, r, o,
            rfl, fun v hv => ?_, nameless, first, has⟩
          grind
      rw [stale, foldlM_cons, bind_run run]
      rcases ih p₁ (fun u hu => sub u (mem_cons_of_mem t hu)) with ⟨last', h', run', fine, p',
        named'⟩ | failed
      · refine Or.inl ⟨last', h', run', fine, by simpa using p', fun u hu => ?_⟩
        rcases mem_cons.1 hu with rfl | hu
        · have stays : SameMarks h₁ h' := Frame.marks.keeps run'
          obtain ⟨s, hs⟩ := Option.isSome_iff_exists.1 named
          rw [stays.name u s hs]
          rfl
        · exact named' u hu
      · exact Or.inr failed

/-- Each tensor gets a name, or the call fails at a stale operator. -/
theorem giveNames_cases (records : NameRecords g given) :
    (∃ last g', giveNames ts g = .ok () g' ∧ ¬ Stale g ts ∧
      Progress g given ts (ts.flatMap fun t => (g.tensor t).src.ops) last g' ∧
        ∀ t ∈ ts, (g'.tensor t).name.isSome = true) ∨
    (∃ f g', giveNames ts g = .error f g') ∧ Stale g ts := by
  have start : Progress g given ts [] none g := .start records
  unfold giveNames
  rcases start.walk callable fun _ ht => ht with ⟨last, g', run, fine, p, named⟩ | ⟨⟨f, g', run⟩,
    -, stale⟩
  · refine Or.inl ⟨last, g', ?_, fun stale => fine ⟨rfl, stale⟩, p, named⟩
    rw [bind_run run]
    rfl
  · refine Or.inr ⟨⟨f, g', ?_⟩, stale⟩
    rw [bind_failed run]

end Call

end Graph

end TensorGraph

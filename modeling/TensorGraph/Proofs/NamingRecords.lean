import TensorGraph.Proofs.FreshNames
import TensorGraph.Proofs.Nodes

/-!
# What is known about names

The counters of a `Namer` tell which names have been generated: tensors that nothing produces are
numbered, operators are numbered by their kinds, and outputs by the operators:

    tensor_0, tensor_1, …        conv2d_0, split_1, …        conv2d_0_0, split_1_0, split_1_1, …

`NameRecords` says that the counters are right: each generated name belongs to one tensor, and names
in use are names of operators or generated ones.  A name that is asked for is then always free, and
giving it keeps the records (`NameRecords.nameTensor`, `NameRecords.nameOp`).  Tensors that somebody
else has named (`given`) are not on record.
-/

namespace TensorGraph

open List

variable {t : TensorId} {o : OpId} {f s : String}

/-! ## Giving a name -/

namespace Arena

variable {h : Arena} {n : Namer} {name : String}

def nameTensor (h : Arena) (t : TensorId) (name : String) (n : Namer) : Arena :=
  { h.modifyTensor t fun x => { x with name := some name } with namer := n }

def nameOp (h : Arena) (o : OpId) (name : String) (n : Namer) : Arena :=
  { h.modifyOp o fun x => { x with name := some name, firstName := some name } with namer := n }

theorem name_nameTensor (known : t.idx < h.tensors.size) (u : TensorId) :
    ((h.nameTensor t name n).tensor u).name = if u = t then some name else (h.tensor u).name := by
  show ((h.modifyTensor t fun x => { x with name := some name }).tensor u).name = _
  rw [tensor_modifyTensor t u _ known]
  split <;> rfl

theorem name_nameOp (known : o.idx < h.ops.size) (p : OpId) :
    ((h.nameOp o name n).op p).name = if p = o then some name else (h.op p).name := by
  show ((h.modifyOp o fun x => { x with name := some name, firstName := some name }).op p).name = _
  rw [op_modifyOp o p _ known]
  split <;> rfl

@[simp] theorem op_nameTensor (t : TensorId) (o : OpId) : (h.nameTensor t name n).op o = h.op o :=
  rfl

@[simp] theorem namer_nameTensor (t : TensorId) : (h.nameTensor t name n).namer = n := rfl

@[simp] theorem namer_nameOp (o : OpId) : (h.nameOp o name n).namer = n := rfl

end Arena

namespace Graph

/-- The names that tensors have been given: by their numbers, and by operators that produce them. -/
def Generated (h : Arena) (s : String) : Prop :=
  (∃ k < h.namer.tensors, s = numbered "tensor" k) ∨
    ∃ o f k, (h.op o).name = some f ∧ k < h.namer.outputCount f ∧ s = numbered f k

/-- The counters are right about all names but those that are given by somebody else. -/
structure NameRecords (h : Arena) (given : Set TensorId) : Prop where
  numbers : ∀ o f, (h.op o).name = some f → ∃ kind k, Plain kind ∧ k < h.namer.ops ∧
    f = numbered kind k
  apart : ∀ o p f, (h.op o).name = some f → (h.op p).name = some f → o = p
  used : ∀ s ∈ h.namer.used, (∃ o, (h.op o).name = some s) ∨ Generated h s
  named : ∀ t ∈ given, (h.tensor t).name.isSome = true
  generated : ∀ t ∉ given, ∀ s, (h.tensor t).name = some s → Generated h s
  single : ∀ t ∉ given, ∀ u ∉ given, ∀ s, (h.tensor t).name = some s →
    (h.tensor u).name = some s → t = u
  taken : ∀ s, Generated h s → ∃ t ∉ given, (h.tensor t).name = some s

/-- What else may happen to an arena: no operator gets a name and no generated name is changed, but
somebody may name tensors that have no name, and change the names of those that were named like this
before. -/
structure Edited (g : Arena) (given : Set TensorId) (g' : Arena) (given' : Set TensorId) :
    Prop where
  namer : g'.namer = g.namer
  ops : ∀ o, (g'.op o).name = (g.op o).name
  kept : ∀ t ∉ given', t ∉ given ∧ (g'.tensor t).name = (g.tensor t).name
  named : ∀ t ∈ given', (g'.tensor t).name.isSome = true
  new : ∀ t ∈ given', t ∉ given → (g.tensor t).name = none

namespace NameRecords

variable {h : Arena} {given : Set TensorId} (records : NameRecords h given)
include records

theorem not_given (nameless : (h.tensor t).name = none) : t ∉ given := fun mem => by
  have := records.named t mem
  rw [nameless] at this
  cases this

theorem ne_tensor (name : (h.op o).name = some f) : f ≠ "tensor" := by
  obtain ⟨kind, k, -, -, rfl⟩ := records.numbers o f name
  intro same
  have : '_' ∈ "tensor".toList := by
    rw [← same, toList_numbered]
    simp
  exact absurd this (by decide)

theorem op_identifier (name : (h.op o).name = some f) : IsIdentifier f := by
  obtain ⟨kind, k, plain, -, rfl⟩ := records.numbers o f name
  exact plain.identifier.numbered k

theorem generated_identifier (gen : Generated h s) : IsIdentifier s := by
  obtain ⟨k, -, rfl⟩ | ⟨o, f, k, name, -, rfl⟩ := gen
  · exact IsIdentifier.numbered (by decide) k
  · exact (records.op_identifier name).numbered k

theorem edited {h' : Arena} {given' : Set TensorId} (edited : Edited h given h' given') :
    NameRecords h' given' := by
  have same : ∀ s, Generated h' s ↔ Generated h s := fun s => by
    unfold Generated
    simp only [edited.namer, edited.ops]
  refine ⟨?_, ?_, fun s hs => ?_, edited.named, fun t ht s hs => ?_, fun t ht u hu s hs hs' => ?_,
    fun s hs => ?_⟩
  · simpa only [edited.ops, edited.namer] using records.numbers
  · simpa only [edited.ops] using records.apart
  · rw [edited.namer] at hs
    simpa only [edited.ops, same] using records.used s hs
  · obtain ⟨old, name⟩ := edited.kept t ht
    exact (same s).2 (records.generated t old s (name ▸ hs))
  · obtain ⟨old, name⟩ := edited.kept t ht
    obtain ⟨old', name'⟩ := edited.kept u hu
    exact records.single t old u old' s (name ▸ hs) (name' ▸ hs')
  · obtain ⟨t, ht, name⟩ := records.taken s ((same s).1 hs)
    have outside : t ∉ given' := fun mem => by
      rw [edited.new t mem ht] at name
      cases name
    exact ⟨t, outside, (edited.kept t outside).2.trans name⟩

/-! ### Requests are free -/

theorem not_used (other : ∀ o, (h.op o).name ≠ some s) (new : ¬ Generated h s) : s ∉ h.namer.used :=
  fun mem => (records.used s mem).elim (fun ⟨o, name⟩ => other o name) new

theorem tensor_free : (∀ o, (h.op o).name ≠ some (numbered "tensor" h.namer.tensors)) ∧
    ¬ Generated h (numbered "tensor" h.namer.tensors) := by
  refine ⟨fun o name => ?_, ?_⟩
  · obtain ⟨kind, k, plain, -, same⟩ := records.numbers o _ name
    exact plain.other (numbered_inj same).1.symm
  · rintro (⟨k, less, same⟩ | ⟨o, f, k, name, -, same⟩)
    · have := (numbered_inj same).2
      omega
    · exact records.ne_tensor name (numbered_inj same).1.symm

theorem op_free {kind : String} (plain : Plain kind) :
    (∀ o, (h.op o).name ≠ some (numbered kind h.namer.ops)) ∧
    ¬ Generated h (numbered kind h.namer.ops) := by
  refine ⟨fun o name => ?_, ?_⟩
  · obtain ⟨kind', k, -, less, same⟩ := records.numbers o _ name
    have := (numbered_inj same).2
    omega
  · rintro (⟨k, -, same⟩ | ⟨o, f, k, name, -, same⟩)
    · exact plain.other (numbered_inj same).1
    · obtain ⟨kind', k', -, -, rfl⟩ := records.numbers o f name
      exact plain.ne_numbered kind' k' (numbered_inj same).1

theorem output_free (name : (h.op o).name = some f) :
    (∀ p, (h.op p).name ≠ some (numbered f (h.namer.outputCount f))) ∧
      ¬ Generated h (numbered f (h.namer.outputCount f)) := by
  refine ⟨fun p name' => ?_, ?_⟩
  · obtain ⟨kind, k, plain, -, same⟩ := records.numbers p _ name'
    obtain ⟨kind', k', -, -, rfl⟩ := records.numbers o f name
    exact plain.ne_numbered kind' k' (numbered_inj same).1.symm
  · rintro (⟨k, -, same⟩ | ⟨p, f', k, -, less, same⟩)
    · exact records.ne_tensor name (numbered_inj same).1
    · obtain ⟨rfl, rfl⟩ := numbered_inj same
      exact Nat.lt_irrefl _ less

/-! ### Names that are given -/

theorem nameTensor (known : t.idx < h.tensors.size) (nameless : (h.tensor t).name = none)
    (new : ¬ Generated h s) {n : Namer} (ops : n.ops = h.namer.ops)
    (used : n.used = h.namer.used ++ [s]) (next : ∀ x, Generated (h.nameTensor t s n) x ↔
    Generated h x ∨ x = s) : NameRecords (h.nameTensor t s n) given := by
  have name : ∀ u, ((h.nameTensor t s n).tensor u).name = if u = t then some s else
    (h.tensor u).name :=
    Arena.name_nameTensor known
  have outside := records.not_given nameless
  refine ⟨fun o f hf => ?_, records.apart, fun x hx => ?_, fun u hu => ?_, fun u hu x hx => ?_,
    fun u hu v hv x hx hx' => ?_, fun x hx => ?_⟩
  · obtain ⟨kind, k, plain, less, rfl⟩ := records.numbers o f hf
    exact ⟨kind, k, plain, ops ▸ less, rfl⟩
  · rw [Arena.namer_nameTensor, used] at hx
    rw [next]
    rcases mem_append.1 hx with hx | hx
    · exact (records.used x hx).imp_right Or.inl
    · exact Or.inr (Or.inr (mem_singleton.1 hx))
  · rw [name]
    split
    · rfl
    · exact records.named u hu
  · rw [name] at hx
    rw [next]
    split at hx
    · exact Or.inr (Option.some.inj hx).symm
    · exact Or.inl (records.generated u hu x hx)
  · rw [name] at hx hx'
    split at hx <;> split at hx'
    · next e e' => rw [e, e']
    · cases hx
      exact absurd (records.generated v hv s hx') new
    · cases hx'
      exact absurd (records.generated u hu s hx) new
    · exact records.single u hu v hv x hx hx'
  · rcases (next x).1 hx with old | rfl
    · obtain ⟨u, hu, has⟩ := records.taken x old
      grind
    · exact ⟨t, outside, by rw [name, if_pos rfl]⟩

theorem nameNumbered (known : t.idx < h.tensors.size) (nameless : (h.tensor t).name = none) :
    NameRecords (h.nameTensor t (numbered "tensor" h.namer.tensors)
      { h.namer with used := h.namer.used ++
        [numbered "tensor" h.namer.tensors], tensors := h.namer.tensors + 1 }) given := by
  refine records.nameTensor known nameless records.tensor_free.2 rfl rfl fun x => ?_
  constructor
  · rintro (⟨k, less, rfl⟩ | other)
    · rcases Nat.lt_succ_iff_lt_or_eq.1 less with less | rfl
      · exact Or.inl (Or.inl ⟨k, less, rfl⟩)
      · exact Or.inr rfl
    · exact Or.inl (Or.inr other)
  · rintro ((⟨k, less, rfl⟩ | other) | rfl)
    · exact Or.inl ⟨k, Nat.lt_succ_of_lt less, rfl⟩
    · exact Or.inr other
    · exact Or.inl ⟨_, Nat.lt_succ_self _, rfl⟩

/-- Naming an output after its operator keeps the records right. -/
theorem nameOutput (known : t.idx < h.tensors.size) (nameless : (h.tensor t).name = none)
    (name : (h.op o).name = some f) :
    NameRecords (h.nameTensor t (numbered f (h.namer.outputCount f))
      ({ h.namer with used := h.namer.used ++ [numbered f (h.namer.outputCount f)] }.setOutputCount
        f (h.namer.outputCount f + 1))) given := by
  refine records.nameTensor known nameless (records.output_free name).2 (by simp) (by simp) fun x =>
    ?_
  generalize hn : Namer.setOutputCount _ f (h.namer.outputCount f + 1) = n
  have count : ∀ f', n.outputCount f' = if f' = f then h.namer.outputCount f +
    1 else h.namer.outputCount f' := fun f' => by
    rw [← hn]
    exact Namer.outputCount_setOutputCount f f' _
  have tensors : n.tensors = h.namer.tensors := by simp [← hn]
  unfold Generated
  simp only [Arena.namer_nameTensor, Arena.op_nameTensor, count, tensors]
  grind

theorem nameOp (known : o.idx < h.ops.size) (nameless : (h.op o).name = none) {kind : String}
    (plain : Plain kind) :
    NameRecords (h.nameOp o (numbered kind h.namer.ops)
      ({ h.namer with used := h.namer.used ++ [numbered kind h.namer.ops], ops := h.namer.ops +
        1 }.setOutputCount (numbered kind h.namer.ops) 0)) given := by
  obtain ⟨other, new⟩ := records.op_free plain
  generalize hs : numbered kind h.namer.ops = s at other new ⊢
  generalize hn : { h.namer with used := h.namer.used ++ [s], ops := h.namer.ops +
    1 }.setOutputCount s 0 = n
  have name : ∀ p, ((h.nameOp o s n).op p).name = if p = o then some s else (h.op p).name :=
    Arena.name_nameOp known
  have count : ∀ f, n.outputCount f = if f = s then 0 else h.namer.outputCount f := fun f => by
    rw [← hn]
    exact Namer.outputCount_setOutputCount s f 0
  have tensors : n.tensors = h.namer.tensors := by simp [← hn]
  have next : ∀ x, Generated (h.nameOp o s n) x ↔ Generated h x := by
    intro x
    unfold Generated
    simp only [Arena.namer_nameOp, name, count, tensors]
    refine or_congr_right ⟨?_, ?_⟩
    · rintro ⟨p, f, k, name', less, rfl⟩
      split at name'
      · grind
      · grind
    · rintro ⟨p, f, k, name', less, rfl⟩
      grind
  refine ⟨fun p f hf => ?_, fun p q f hp hq => ?_, fun x hx => ?_, records.named,
    fun t ht x hx => ?_, records.single, fun x hx => records.taken x ((next x).1 hx)⟩
  · rw [name] at hf
    have ops : n.ops = h.namer.ops + 1 := by simp [← hn]
    rw [Arena.namer_nameOp, ops]
    split at hf
    · grind
    · obtain ⟨kind', k, plain', less, rfl⟩ := records.numbers p f hf
      grind
  · rw [name] at hp hq
    split at hp <;> split at hq
    · next e e' => rw [e, e']
    · cases hp
      exact absurd hq (other q)
    · cases hq
      exact absurd hp (other p)
    · exact records.apart p q f hp hq
  · have used : n.used = h.namer.used ++ [s] := by simp [← hn]
    rw [Arena.namer_nameOp, used] at hx
    rw [next]
    rcases mem_append.1 hx with hx | hx
    · refine (records.used x hx).imp_left fun ⟨p, hp⟩ => ⟨p, ?_⟩
      grind
    · grind
  · rw [next]
    exact records.generated t ht x hx

end NameRecords

end Graph

end TensorGraph

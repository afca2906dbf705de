import TensorGraph.Op.Elementwise
import TensorGraph.Proofs.Nodes

/-!
# One operator for a group

`fuse` puts one operator in the place of a group of operators.
-/

namespace TensorGraph

open List

variable {g : Arena} {t : TensorId} {l : List TensorId} {o p : OpId} {done ms : List OpId} {a : Dim}

namespace Dim

theorem same_iff {b : Dim} :
    a.same b = true ↔ a.isStatic = b.isStatic ∧ a.values = b.values ∧
    (a.isStatic = true ∨ a.name = b.name) := by
  simp [same, and_assoc]

theorem same_refl (a : Dim) : a.same a = true := by simp [same_iff]

theorem same_symm {b : Dim} (h : a.same b = true) : b.same a = true := by
  rw [same_iff] at *
  grind

theorem same_trans {b c : Dim} (h : a.same b = true) (h' : b.same c = true) : a.same c = true := by
  rw [same_iff] at *
  grind

end Dim

namespace Shape

variable {look : DimTable}

theorem same_refl (a : List DimId) : same look a a = true := by
  induction a with
  | nil => rfl
  | cons d a ih => simp [same, Dim.same_refl, ih]

theorem same_symm {a b : List DimId} (h : same look a b = true) : same look b a = true := by
  fun_induction same look a b with
  | case1 => rfl
  | case2 a as b bs ih =>
    rw [Bool.and_eq_true] at h
    simp [same, Dim.same_symm h.1, ih h.2]
  | case3 => cases h

theorem same_trans {a b c : List DimId} (h : same look a b = true) (h' : same look b c = true) :
    same look a c = true := by
  fun_induction same look a b generalizing c with
  | case1 => exact h'
  | case2 a as b bs ih =>
    cases c with
    | nil => cases h'
    | cons c cs =>
      simp only [same, Bool.and_eq_true] at h h' ⊢
      exact ⟨Dim.same_trans h.1 h'.1, ih h.2 h'.2⟩
  | case3 => cases h

end Shape

namespace Elementwise

open Build

variable {g g' : Arena} {ts : List TensorId} {ms : List OpId}

/-! ## The boundary of a group -/

def Reads (g : Arena) (ms : List OpId) (t : TensorId) : Prop := ∃ o ∈ ms, t ∈ (g.op o).inputList

def Writes (g : Arena) (ms : List OpId) (t : TensorId) : Prop := ∃ o ∈ ms, t ∈ (g.op o).outputList

def Enters (g : Arena) (ms : List OpId) (t : TensorId) : Prop :=
  Reads g ms t ∧ ((g.tensor t).src.ops = [] ∨ ∃ p ∈ (g.tensor t).src.ops, p ∉ ms)

def Leaves (g : Arena) (ms : List OpId) (t : TensorId) : Prop :=
  Writes g ms t ∧ ((g.tensor t).isOutput = true ∨ ∃ p ∈ (g.tensor t).dst.ops, p ∉ ms)

instance (g : Arena) (ms : List OpId) (t : TensorId) : Decidable (Reads g ms t) :=
  inferInstanceAs (Decidable (∃ o ∈ ms, _))

instance (g : Arena) (ms : List OpId) (t : TensorId) : Decidable (Writes g ms t) :=
  inferInstanceAs (Decidable (∃ o ∈ ms, _))

instance (g : Arena) (ms : List OpId) (t : TensorId) : Decidable (Enters g ms t) :=
  inferInstanceAs (Decidable (_ ∧ _))

instance (g : Arena) (ms : List OpId) (t : TensorId) : Decidable (Leaves g ms t) :=
  inferInstanceAs (Decidable (_ ∧ _))

/-- A group of operators among the tensors of a graph, with which they agree on who reads and who
writes what. -/
structure Group (g : Arena) (ts : List TensorId) (ms : List OpId) : Prop where
  nonempty : ms ≠ []
  nodup : ms.Nodup
  applied : ∀ o ∈ ms, (g.op o).inputs.isSome ∧ (g.op o).outputs.isSome
  reads : ∀ o ∈ ms, ∀ t ∈ (g.op o).inputList, t ∈ ts ∧ o ∈ (g.tensor t).dst.ops ∧
    (g.tensor t).isNumber = false
  writes : ∀ o ∈ ms, ∀ t ∈ (g.op o).outputList, t ∈ ts ∧ (g.tensor t).src.ops = [o]
  known : ∀ t ∈ ts, t.idx < g.tensors.size
  loose : ∀ t ∈ ts, (g.tensor t).src.fixed = false ∧ (g.tensor t).dst.fixed = false
  sources : ∀ t ∈ ts, ∀ o ∈ ms, o ∈ (g.tensor t).src.ops → t ∈ (g.op o).outputList
  users : ∀ t ∈ ts, ∀ o ∈ ms, o ∈ (g.tensor t).dst.ops → t ∈ (g.op o).inputList

namespace Boundary

theorem mem_put {u : TensorId} : u ∈ put l t ↔ u ∈ l ∨ u = t := by
  unfold put
  grind

def noteRead (g : Arena) (ms : List OpId) (b : Boundary) (t : TensorId) : Boundary :=
  { b with
    reads := put b.reads t
    inputs := if isInput ms (g.tensor t) then put b.inputs t else b.inputs }

def noteWrite (g : Arena) (ms : List OpId) (b : Boundary) (t : TensorId) : Boundary :=
  { b with
    writes := put b.writes t
    outputs := if isOutput ms (g.tensor t) then put b.outputs t else b.outputs }

theorem mem_noteReads (g : Arena) (ms : List OpId) (l : List TensorId) (b : Boundary) :
    (∀ u, u ∈ (l.foldl (noteRead g ms) b).reads ↔ u ∈ b.reads ∨ u ∈ l) ∧
      (∀ u, u ∈ (l.foldl (noteRead g ms) b).inputs ↔ u ∈ b.inputs ∨ u ∈ l ∧
        isInput ms (g.tensor u) = true) ∧
      (l.foldl (noteRead g ms) b).writes = b.writes ∧ (l.foldl (noteRead g ms) b).outputs =
        b.outputs := by
  induction l generalizing b with
  | nil => simp
  | cons t l ih =>
    obtain ⟨reads, inputs, writes, outputs⟩ := ih (noteRead g ms b t)
    refine ⟨fun u => ?_, fun u => ?_, writes, outputs⟩
    · rw [foldl_cons, reads, mem_cons, ← or_assoc]
      exact or_congr_left mem_put
    · rw [foldl_cons, inputs]
      unfold noteRead
      split
      · rw [mem_put]
        grind
      · grind

theorem mem_noteWrites (g : Arena) (ms : List OpId) (l : List TensorId) (b : Boundary) :
    (∀ u, u ∈ (l.foldl (noteWrite g ms) b).writes ↔ u ∈ b.writes ∨ u ∈ l) ∧
      (∀ u, u ∈ (l.foldl (noteWrite g ms) b).outputs ↔ u ∈ b.outputs ∨ u ∈ l ∧
        isOutput ms (g.tensor u) = true) ∧
      (l.foldl (noteWrite g ms) b).reads = b.reads ∧ (l.foldl (noteWrite g ms) b).inputs =
        b.inputs := by
  induction l generalizing b with
  | nil => simp
  | cons t l ih =>
    obtain ⟨writes, outputs, reads, inputs⟩ := ih (noteWrite g ms b t)
    refine ⟨fun u => ?_, fun u => ?_, reads, inputs⟩
    · rw [foldl_cons, writes, mem_cons, ← or_assoc]
      exact or_congr_left mem_put
    · rw [foldl_cons, outputs]
      unfold noteWrite
      split
      · rw [mem_put]
        grind
      · grind

/-- What the boundary holds when some members have been added. -/
structure Bounds (g : Arena) (ms done : List OpId) (b : Boundary) : Prop where
  reads : ∀ t, t ∈ b.reads ↔ Reads g done t
  writes : ∀ t, t ∈ b.writes ↔ Writes g done t
  inputs : ∀ t, t ∈ b.inputs ↔ Reads g done t ∧ isInput ms (g.tensor t) = true
  outputs : ∀ t, t ∈ b.outputs ↔ Writes g done t ∧ isOutput ms (g.tensor t) = true

theorem Bounds.empty : Bounds g ms [] default := by
  constructor <;> simp [Reads, Writes, default, instInhabitedBoundary.default]

theorem reads_append : Reads g (done ++ [o]) t ↔ Reads g done t ∨ t ∈ (g.op o).inputList := by
  simp [Reads, or_and_right, exists_or]

theorem writes_append : Writes g (done ++ [o]) t ↔ Writes g done t ∨ t ∈ (g.op o).outputList := by
  simp [Writes, or_and_right, exists_or]

section Group

variable (group : Group g ts ms)
include group

theorem extend_run {b : Boundary} (ho : o ∈ ms) (bounds : Bounds g ms done b) :
    ∃ b', extend ms b o g = .ok b' g ∧ Bounds g ms (done ++ [o]) b' := by
  obtain ⟨ins, hins⟩ := Option.isSome_iff_exists.1 (group.applied o ho).1
  obtain ⟨outs, houts⟩ := Option.isSome_iff_exists.1 (group.applied o ho).2
  have inputList : (g.op o).inputList = ins := by simp [Operator.inputList, hins]
  have outputList : (g.op o).outputList = outs := by simp [Operator.outputList, houts]
  have reading : ∀ t ∈ ins, ∀ b, read ms o b t g = .ok (noteRead g ms b t) g := by
    intro t ht b
    have known := (group.reads o ho t (inputList ▸ ht)).2.1
    unfold read
    rw [bind_run (tensor_run t), bind_run (require_run (by simpa using known))]
    rfl
  have writing : ∀ t ∈ outs, ∀ b, write ms o b t g = .ok (noteWrite g ms b t) g := by
    intro t ht b
    obtain ⟨inside, source⟩ := group.writes o ho t (outputList ▸ ht)
    unfold write
    rw [bind_run (tensor_run t), bind_run (require_run (by simp [(group.loose t inside).2])),
      bind_run (require_run (by simp [source]))]
    rfl
  refine ⟨outs.foldl (noteWrite g ms) (ins.foldl (noteRead g ms) b), ?_, ?_⟩
  · unfold extend
    rw [bind_run (inputs_ok.2 ⟨hins, rfl⟩), bind_run (foldlM_reads reading b),
      bind_run (outputs_ok.2 ⟨houts, rfl⟩)]
    exact foldlM_reads writing _
  · obtain ⟨reads, inputs, writes, outputs⟩ := mem_noteReads g ms ins b
    obtain ⟨writes', outputs', reads', inputs'⟩ := mem_noteWrites g ms outs
      (ins.foldl (noteRead g ms) b)
    refine ⟨fun t => ?_, fun t => ?_, fun t => ?_, fun t => ?_⟩
    · rw [reads', reads, bounds.reads, reads_append, inputList]
    · rw [writes', writes, bounds.writes, writes_append, outputList]
    · rw [inputs', inputs, bounds.inputs, reads_append, inputList, or_and_right]
    · rw [outputs', outputs, bounds.outputs, writes_append, outputList, or_and_right]

theorem boundary_run : ∃ b, ms.foldlM (extend ms) default g = .ok b g ∧ Bounds g ms ms b := by
  obtain ⟨b, _, run, rfl, bounds⟩ := foldlM_arrives (l := ms)
    (fun done b h => g = h ∧ Bounds g ms done b)
    (fun done o rest split b h before => by
      obtain ⟨rfl, bounds⟩ := before
      obtain ⟨b', run, bounds'⟩ := extend_run group (split ▸ by simp : o ∈ ms) bounds
      exact ⟨b', g, run, rfl, bounds'⟩) ⟨rfl, .empty⟩
  exact ⟨b, run, bounds⟩

end Group

end Boundary

/-! ## The links afterwards -/

def cleared (ms : List OpId) (x : Tensor) : Tensor :=
  { x with
    src := .ofList (x.src.ops.filter (!ms.contains ·))
    dst := .ofList (x.dst.ops.filter (!ms.contains ·)) }

def withUser (o : OpId) (x : Tensor) : Tensor := { x with dst := x.dst.insert o }

def withSource (o : OpId) (x : Tensor) : Tensor := { x with src := x.src.insert o }

theorem mem_ofList {os : List OpId} : p ∈ (Links.ofList os).ops ↔ p ∈ os := mem_distinct

theorem mem_insert {l : Links} : p ∈ (l.insert o).ops ↔ p ∈ l.ops ∨ p = o := by
  unfold Links.insert
  grind

theorem insert_of_mem {l : Links} (h : o ∈ l.ops) : l.insert o = l := by
  unfold Links.insert
  rw [if_pos (by simpa using h)]

theorem fixed_insert {l : Links} : (l.insert o).fixed = l.fixed := by
  unfold Links.insert
  split <;> rfl

theorem cleared_cleared (ms : List OpId) (x : Tensor) :
    cleared ms (cleared ms x) = cleared ms x := by
  have twice : ∀ os : List OpId,
    (Links.ofList ((Links.ofList (os.filter (!ms.contains ·))).ops.filter (!ms.contains ·))) =
      Links.ofList (os.filter (!ms.contains ·)) := by
    intro os
    have stays : (Links.ofList (os.filter (!ms.contains ·))).ops.filter (!ms.contains ·) =
        (Links.ofList (os.filter (!ms.contains ·))).ops :=
      filter_eq_self.2 fun p hp => (mem_filter.1 (mem_ofList.1 hp)).2
    rw [stays]
    simp only [Links.ofList, distinct_eq_self (nodup_distinct _)]
  simp only [cleared, twice]

theorem withUser_withUser (o : OpId) (x : Tensor) : withUser o (withUser o x) = withUser o x := by
  simp only [withUser, insert_of_mem (mem_insert.2 (Or.inr rfl) : o ∈ (x.dst.insert o).ops)]

theorem withSource_withSource (o : OpId) (x : Tensor) :
    withSource o (withSource o x) = withSource o x := by
  simp only [withSource, insert_of_mem (mem_insert.2 (Or.inr rfl) : o ∈ (x.src.insert o).ops)]

def relinked (o : OpId) (ms : List OpId) (b : Boundary) (t : TensorId) (x : Tensor) : Tensor :=
  let x := if t ∈ b.reads ∨ t ∈ b.writes then cleared ms x else x
  let x := if t ∈ b.inputs then withUser o x else x
  if t ∈ b.outputs then withSource o x else x

def Loose (x : Tensor) : Prop := x.src.fixed = false ∧ x.dst.fixed = false

instance (x : Tensor) : Decidable (Loose x) := inferInstanceAs (Decidable (_ ∧ _))

theorem loose_relinked {b : Boundary} {x : Tensor} (h : Loose x) : Loose (relinked o ms b t x) := by
  unfold relinked
  split <;> split <;> split <;> simp_all [Loose, withSource, withUser, cleared, fixed_insert,
    Links.ofList]

theorem addDsts_run (known : ∀ t ∈ l, t.idx < g.tensors.size)
    (loose : ∀ t ∈ l, Loose (g.tensor t)) :
    ∃ g', l.forM (addDst · o) g = .ok () g' ∧ g' = { g with tensors := g'.tensors } ∧
      g'.tensors.size = g.tensors.size ∧ ∀ u, g'.tensor u = if u ∈ l then withUser o
        (g.tensor u) else g.tensor u := by
  refine forM_modifyTensor Loose (fun t _ h loose => ?_) (fun x loose => ?_) (withUser_withUser o)
    known loose
  · unfold addDst
    rw [bind_run (tensor_run t), bind_run (require_run (by simp [loose.2]))]
    rfl
  · exact ⟨loose.1, fixed_insert.trans loose.2⟩

theorem linkInputs_run (known : ∀ t ∈ (g.op o).inputList, t.idx < g.tensors.size)
    (loose : ∀ t ∈ (g.op o).inputList, Loose (g.tensor t)) :
    ∃ (g' : Arena) (n : Nat), linkInputs o g = .ok ()
    (g'.modifyOp o fun x => { x with depth := n }) ∧
      g' = { g with tensors := g'.tensors } ∧
      g'.tensors.size = g.tensors.size ∧
      ∀ u, g'.tensor u = if u ∈ (g.op o).inputList then withUser o
        (g.tensor u) else g.tensor u := by
  obtain ⟨g', run, rest, size, tensors⟩ := addDsts_run known loose
  refine ⟨g', ((g'.op o).inputList.map fun t => (g'.tensor t).depth).foldl max 0, ?_, rest, size,
    tensors⟩
  unfold linkInputs
  simp only [forIn_eq_forM]
  rw [bind_run (op_run o), bind_run run]
  exact modifyOp_run o _

theorem unlink_run (loose : Loose (g.tensor t)) :
    unlink ms t g = .ok () (g.modifyTensor t (cleared ms)) := by
  unfold unlink setSrc setDst
  rw [bind_run (tensor_run t), bind_run (modifyTensor_run t _),
    bind_run (require_run (by simp [loose.2])), modifyTensor_run, Arena.modifyTensor_modifyTensor]
  exact congrArg _ (Arena.modifyTensor_congr rfl)

theorem relink_run (o : OpId) (ms : List OpId) {b : Boundary}
    (inputs : ∀ t ∈ b.inputs, t ∈ b.reads) (outputs : ∀ t ∈ b.outputs, t ∈ b.writes)
    (known : ∀ t, t ∈ b.reads ∨ t ∈ b.writes → t.idx < g.tensors.size)
    (loose : ∀ t, t ∈ b.reads ∨ t ∈ b.writes → Loose (g.tensor t)) :
    ∃ g', relink o ms b g = .ok () g' ∧ g' = { g with tensors := g'.tensors } ∧
      g'.tensors.size = g.tensors.size ∧ ∀ t, g'.tensor t = relinked o ms b t (g.tensor t) := by
  have touched : ∀ t, t ∈ b.reads ++ b.writes.filter (!b.reads.contains ·) ↔ t ∈ b.reads ∨
    t ∈ b.writes := by
    intro t
    grind
  obtain ⟨g₁, run₁, rest₁, size₁, tensors₁⟩ := forM_modifyTensor (g := g)
    (l := b.reads ++ b.writes.filter (!b.reads.contains ·)) (f := unlink ms) (F := cleared ms) Loose
    (fun t _ h loose => unlink_run loose) (fun x _ => ⟨rfl, rfl⟩) (cleared_cleared ms)
      (fun t ht => known t ((touched t).1 ht))
    (fun t ht => loose t ((touched t).1 ht))
  have loose₁ : ∀ t, t ∈ b.reads ∨ t ∈ b.writes → Loose (g₁.tensor t) := by
    intro t ht
    rw [tensors₁, if_pos ((touched t).2 ht)]
    exact ⟨rfl, rfl⟩
  obtain ⟨g₂, run₂, rest₂, size₂, tensors₂⟩ := addDsts_run (g := g₁) (l := b.inputs) (o := o)
    (fun t ht => size₁ ▸ known t (Or.inl (inputs t ht)))
      (fun t ht => loose₁ t (Or.inl (inputs t ht)))
  obtain ⟨g₃, run₃, rest₃, size₃, tensors₃⟩ := forM_modifyTensor (g := g₂) (l := b.outputs)
    (f := (addSrc · o))
    (F := withSource o) Loose
    (fun t _ h loose => by
      unfold addSrc
      rw [bind_run (tensor_run t), bind_run (require_run (by simp [loose.1]))]
      rfl)
    (fun x loose => ⟨fixed_insert.trans loose.1, loose.2⟩) (withSource_withSource o)
    (fun t ht => by grind)
    (fun t ht => by
      have := loose₁ t (Or.inr (outputs t ht))
      rw [tensors₂]
      split
      · exact ⟨this.1, fixed_insert.trans this.2⟩
      · exact this)
  refine ⟨g₃, ?_, ?_, ?_, fun t => ?_⟩
  · unfold relink
    simp only [forIn_eq_forM]
    rw [bind_run run₁, bind_run run₂, bind_run run₃]
    rfl
  · rw [rest₃, rest₂, rest₁]
  · rw [size₃, size₂, size₁]
  · grind [relinked]

/-! ## The new operator -/

theorem checkOutputShapes_ok {g' : Arena} {u : Unit} : checkOutputShapes l g = .ok u g' ↔
      l ≠ [] ∧ (∀ t ∈ l, ∀ u ∈ l, Shape.same g.dim (g.tensor t).shape (g.tensor u).shape = true) ∧
        g = g' := by
  unfold checkOutputShapes
  cases l with
  | nil => simp
  | cons t l =>
    simp only [bind_ok, get_ok, require_ok, all_eq_true, ne_eq, reduceCtorEq, not_false_eq_true,
      true_and]
    constructor
    · rintro ⟨_, _, ⟨rfl, rfl⟩, same, rfl⟩
      have first : ∀ u ∈ t :: l, Shape.same g.dim (g.tensor t).shape (g.tensor u).shape = true := by
        intro u hu
        rcases mem_cons.1 hu with rfl | hu
        · exact Shape.same_refl _
        · exact same u hu
      grind [Shape.same_trans, Shape.same_symm]
    · grind

/-- What a group must fulfil to be replaced by one operator. -/
structure Fusable (g : Arena) (ms : List OpId) : Prop where
  used : ∀ t, Writes g ms t → Reads g ms t ∨ Leaves g ms t
  enters : ∃ t, Enters g ms t
  leaves : ∃ t, Leaves g ms t
  shapes : ∀ t u, Leaves g ms t → Leaves g ms u → Shape.same g.dim (g.tensor t).shape
    (g.tensor u).shape = true

instance (g : Arena) (ms : List OpId) : Decidable (Fusable g ms) :=
  decidable_of_iff ((∀ o ∈ ms, ∀ t ∈ (g.op o).outputList, Reads g ms t ∨ Leaves g ms t) ∧
      (∃ o ∈ ms, ∃ t ∈ (g.op o).inputList, Enters g ms t) ∧
        (∃ o ∈ ms, ∃ t ∈ (g.op o).outputList, Leaves g ms t) ∧
      ∀ o ∈ ms, ∀ t ∈ (g.op o).outputList, ∀ p ∈ ms, ∀ u ∈ (g.op p).outputList, Leaves g ms t →
        Leaves g ms u →
        Shape.same g.dim (g.tensor t).shape (g.tensor u).shape = true)
    ⟨fun ⟨used, ⟨_, _, t, _, enters⟩, ⟨_, _, u, _, leaves⟩, shapes⟩ =>
      ⟨fun t ⟨o, ho, ht⟩ => used o ho t ht, ⟨t, enters⟩, ⟨u, leaves⟩, fun t u lt lu =>
        let ⟨o, ho, ht⟩ := lt.1
        let ⟨p, hp, hu⟩ := lu.1
        shapes o ho t ht p hp u hu lt lu⟩,
    fun ⟨used, ⟨t, enters⟩, ⟨u, leaves⟩, shapes⟩ =>
      ⟨fun o ho t ht => used t ⟨o, ho, ht⟩, let ⟨o, ho, ht⟩ := enters.1; ⟨o, ho, t, ht, enters⟩,
        let ⟨o, ho, ht⟩ := leaves.1; ⟨o, ho, u, ht, leaves⟩, fun _ _ t _ _ _ u _ lt lu =>
          shapes t u lt lu⟩⟩

/-- An operator that stands for a group. -/
structure Represents (g : Arena) (ms : List OpId) (x : Operator) : Prop where
  kind : x.kind = "fused_elementwise"
  members : x.members = some ms
  applied : x.inputs.isSome ∧ x.outputs.isSome
  inputs : ∀ t, t ∈ x.inputList ↔ Enters g ms t
  outputs : ∀ t, t ∈ x.outputList ↔ Leaves g ms t

theorem Represents.renamed {x : Operator} (represents : Represents g ms x)
    (name first : Option String) :
    Represents g ms { x with name := name, firstName := first } :=
  ⟨represents.kind, represents.members, represents.applied, represents.inputs, represents.outputs⟩

/-- An arena in which a new operator has taken the place of a group. -/
structure Merged (g : Arena) (ts : List TensorId) (ms : List OpId) (g' : Arena) : Prop where
  dims : g'.dims = g.dims
  tensors_size : g'.tensors.size = g.tensors.size
  ops_size : g'.ops.size = g.ops.size + 1
  old : ∀ p : OpId, p.idx < g.ops.size → g'.op p = g.op p
  new : Represents g ms (g'.op ⟨g.ops.size⟩) ∧ (g'.op ⟨g.ops.size⟩).name = none
  fields : ∀ t, g'.tensor t = { g.tensor t with src := (g'.tensor t).src, dst := (g'.tensor t).dst }
  loose : ∀ t ∈ ts, Loose (g'.tensor t)
  src : ∀ t ∈ ts, ∀ p, p ∈ (g'.tensor t).src.ops ↔
    p ∈ (g.tensor t).src.ops ∧ p ∉ ms ∨ p = ⟨g.ops.size⟩ ∧ Leaves g ms t
  dst : ∀ t ∈ ts, ∀ p, p ∈ (g'.tensor t).dst.ops ↔
    p ∈ (g.tensor t).dst.ops ∧ p ∉ ms ∨ p = ⟨g.ops.size⟩ ∧ Enters g ms t
  sole : ∀ t ∈ ts, ∀ o ∉ ms, (g.tensor t).src.ops = [o] → (g'.tensor t).src.ops = [o]

section Fuse

variable (group : Group g ts ms) {b : Boundary} (bounds : Boundary.Bounds g ms ms b)
include group bounds

theorem mem_inputs : t ∈ b.inputs ↔ Enters g ms t := by
  rw [bounds.inputs]
  refine and_congr_right fun ⟨o, ho, ht⟩ => ?_
  simp [Boundary.isInput, (group.reads o ho t ht).2.2]

omit group in
theorem mem_outputs : t ∈ b.outputs ↔ Leaves g ms t := by
  rw [bounds.outputs]
  refine and_congr_right fun _ => ?_
  simp [Boundary.isOutput]

theorem consistent_iff : b.consistent = true ↔ ∀ t, Writes g ms t → Reads g ms t ∨
    Leaves g ms t := by
  simp only [Boundary.consistent, Bool.and_eq_true, all_eq_true, contains_eq_mem, Bool.or_eq_true,
    decide_eq_true_eq, Bool.not_eq_eq_eq_not, Bool.not_true, decide_eq_false_iff_not, bounds.reads,
      bounds.writes,
    mem_inputs group bounds, mem_outputs bounds]
  constructor
  · rintro ⟨⟨-, used⟩, -⟩
    exact used
  · intro used
    refine ⟨⟨⟨fun t enters => ⟨enters.1, ?_⟩, fun t reads => ?_⟩, used⟩, fun t leaves => leaves.1⟩
    · rintro ⟨o, ho, ht⟩
      have source := (group.writes o ho t ht).2
      rcases enters.2 with none | ⟨p, hp, outside⟩
      · simp [source] at none
      · grind
    · by_cases inner : (g.tensor t).src.ops = [] ∨ ∃ p ∈ (g.tensor t).src.ops, p ∉ ms
      · exact Or.inr ⟨reads, inner⟩
      · obtain ⟨some, all⟩ := not_or.1 inner
        obtain ⟨p, hp⟩ := exists_mem_of_ne_nil _ some
        have member : p ∈ ms := Decidable.byContradiction fun h => all ⟨p, hp, h⟩
        obtain ⟨o, ho, ht⟩ := reads
        exact Or.inl ⟨p, member, group.sources t (group.reads o ho t ht).1 p member hp⟩

end Fuse

theorem Group.lt_size (group : Group g ts ms) (ho : o ∈ ms) : o.idx < g.ops.size :=
  Arena.lt_of_applied (group.applied o ho).1

theorem Group.congr (group : Group g ts ms) (tensors : g'.tensors = g.tensors)
    (ops : ∀ o ∈ ms, g'.op o = g.op o) :
    Group g' ts ms := by
  have tensor : g'.tensor = g.tensor := by
    funext t
    rw [Arena.tensor_eq, tensors, Arena.tensor_eq]
  refine ⟨group.nonempty, group.nodup, fun o ho => ?_, fun o ho => ?_, fun o ho => ?_, ?_, ?_,
    fun t ht o ho => ?_, fun t ht o ho => ?_⟩
  · rw [ops o ho]
    exact group.applied o ho
  · rw [ops o ho, tensor]
    exact group.reads o ho
  · rw [ops o ho, tensor]
    exact group.writes o ho
  · rw [tensors]
    exact group.known
  · rw [tensor]
    exact group.loose
  · rw [ops o ho, tensor]
    exact group.sources t ht o ho
  · rw [ops o ho, tensor]
    exact group.users t ht o ho

theorem Boundary.Bounds.congr {b : Boundary} (bounds : Boundary.Bounds g' ms ms b)
    (tensors : g'.tensors = g.tensors) (ops : ∀ o ∈ ms, g'.op o = g.op o) :
    Boundary.Bounds g ms ms b := by
  have reads : ∀ t, Reads g' ms t ↔ Reads g ms t := fun t =>
    exists_congr fun o => and_congr_right fun ho => by rw [ops o ho]
  have writes : ∀ t, Writes g' ms t ↔ Writes g ms t := fun t =>
    exists_congr fun o => and_congr_right fun ho => by rw [ops o ho]
  have tensor : ∀ t, g'.tensor t = g.tensor t :=
    fun t => by rw [Arena.tensor_eq, tensors, Arena.tensor_eq]
  exact ⟨fun t => (bounds.reads t).trans (reads t), fun t => (bounds.writes t).trans (writes t),
    fun t => by rw [bounds.inputs, reads, tensor], fun t => by rw [bounds.outputs, writes, tensor]⟩

theorem relinked_links (group : Group g ts ms) {b : Boundary} (bounds : Boundary.Bounds g ms ms b)
    (o : OpId) (ht : t ∈ ts) :
    (∀ p, p ∈ (relinked o ms b t (g.tensor t)).src.ops ↔ p ∈ (g.tensor t).src.ops ∧ p ∉ ms ∨ p = o ∧
      Leaves g ms t) ∧ ∀ p, p ∈ (relinked o ms b t (g.tensor t)).dst.ops ↔
      p ∈ (g.tensor t).dst.ops ∧ p ∉ ms ∨ p = o ∧ Enters g ms t := by
  have sources : ¬ (t ∈ b.reads ∨ t ∈ b.writes) → ∀ p ∈ (g.tensor t).src.ops, p ∉ ms := by
    intro untouched p hp member
    exact untouched (Or.inr ((bounds.writes t).2 ⟨p, member, group.sources t ht p member hp⟩))
  have users : ¬ (t ∈ b.reads ∨ t ∈ b.writes) → ∀ p ∈ (g.tensor t).dst.ops, p ∉ ms := by
    intro untouched p hp member
    exact untouched (Or.inl ((bounds.reads t).2 ⟨p, member, group.users t ht p member hp⟩))
  have clear : ∀ p, (p ∈ (if t ∈ b.reads ∨ t ∈ b.writes then cleared ms (g.tensor t) else g.tensor
    t).src.ops ↔
        p ∈ (g.tensor t).src.ops ∧ p ∉ ms) ∧
      (p ∈ (if t ∈ b.reads ∨ t ∈ b.writes then cleared ms (g.tensor t) else g.tensor t).dst.ops ↔
        p ∈ (g.tensor t).dst.ops ∧ p ∉ ms) := by grind [cleared, mem_ofList]
  refine ⟨fun p => ?_, fun p => ?_⟩
  · grind [mem_outputs, relinked, withSource, withUser, mem_insert]
  · grind [mem_inputs, relinked, withSource, withUser, mem_insert]

theorem relinked_sole {b : Boundary} (bounds : Boundary.Bounds g ms ms b) (group : Group g ts ms)
    (o : OpId) (hp : p ∉ ms) (source : (g.tensor t).src.ops = [p]) :
    (relinked o ms b t (g.tensor t)).src.ops = [p] := by
  have stays : t ∉ b.outputs := by
    rw [mem_outputs bounds]
    rintro ⟨⟨q, hq, ht⟩, -⟩
    have := (group.writes q hq t ht).2
    grind
  unfold relinked
  rw [if_neg stays]
  split <;> split <;> simp [withUser, cleared, Links.ofList, source, hp, distinct]

theorem relinked_fields (o : OpId) (ms : List OpId) (b : Boundary) (t : TensorId) (x : Tensor) :
    relinked o ms b t x = { x with src := (relinked o ms b t x).src, dst :=
      (relinked o ms b t x).dst } := by
  unfold relinked
  by_cases touched : t ∈ b.reads ∨ t ∈ b.writes <;> by_cases input : t ∈ b.inputs <;>
    by_cases output : t ∈ b.outputs <;>
    simp only [touched, input, output, if_true, if_false] <;> rfl

/-- An arena with one operator more. -/
structure Grown (g g' : Arena) : Prop where
  dims : g'.dims = g.dims
  tensors : g'.tensors = g.tensors
  size : g'.ops.size = g.ops.size + 1
  old : ∀ p : OpId, p.idx < g.ops.size → g'.op p = g.op p

namespace Grown

theorem tensor (grown : Grown g g') (t : TensorId) : g'.tensor t = g.tensor t := by
  rw [Arena.tensor_eq, grown.tensors, Arena.tensor_eq]

theorem add (x : Operator) : Grown g { g with ops := g.ops.push x } :=
  ⟨rfl, rfl, by simp, fun _ hp => Arena.op_push_old hp⟩

theorem modify (grown : Grown g g') (f : Operator → Operator) :
    Grown g (g'.modifyOp ⟨g.ops.size⟩ f) := by
  refine ⟨grown.dims, grown.tensors, by simp [grown.size], fun p hp => ?_⟩
  rw [Arena.op_modifyOp_ne (by rintro rfl; exact Nat.lt_irrefl _ hp), grown.old p hp]

theorem new_modify (grown : Grown g g') (f : Operator → Operator) :
    (g'.modifyOp ⟨g.ops.size⟩ f).op ⟨g.ops.size⟩ = f (g'.op ⟨g.ops.size⟩) :=
  Arena.op_modifyOp_self (by simp [grown.size])

end Grown

theorem boundary_after (group : Group g ts ms) (grown : Grown g g') :
    ∃ b, ms.foldlM (Boundary.extend ms) default g' = .ok b g' ∧ Boundary.Bounds g ms ms b := by
  have ops : ∀ o ∈ ms, g'.op o = g.op o := fun o ho => grown.old o (group.lt_size ho)
  obtain ⟨b, run, bounds⟩ := Boundary.boundary_run (group.congr grown.tensors ops)
  exact ⟨b, run, bounds.congr grown.tensors ops⟩

theorem link_run (group : Group g ts ms) {b : Boundary} (bounds : Boundary.Bounds g ms ms b)
    (grown : Grown g g') (new : Represents g ms (g'.op ⟨g.ops.size⟩))
    (name : (g'.op ⟨g.ops.size⟩).name = none) :
    ∃ g₁ g₂, relink ⟨g.ops.size⟩ ms b g' = .ok () g₁ ∧ linkInputs ⟨g.ops.size⟩ g₁ = .ok () g₂ ∧
    Merged g ts ms g₂ := by
  have inside : ∀ t, t ∈ b.reads ∨ t ∈ b.writes → t ∈ ts := by
    rintro t (ht | ht)
    · obtain ⟨o, ho, ht⟩ := (bounds.reads t).1 ht
      exact (group.reads o ho t ht).1
    · obtain ⟨o, ho, ht⟩ := (bounds.writes t).1 ht
      exact (group.writes o ho t ht).1
  obtain ⟨g₁, run₁, rest₁, size₁, tensor₁⟩ := relink_run (g := g') ⟨g.ops.size⟩ ms (b := b)
    (fun t ht => (bounds.reads t).2 ((mem_inputs group bounds).1 ht).1)
    (fun t ht => (bounds.writes t).2 ((mem_outputs bounds).1 ht).1)
    (fun t ht => grown.tensors ▸ group.known t (inside t ht))
      (fun t ht => grown.tensor t ▸ group.loose t (inside t ht))
  have op₁ : g₁.op = g'.op := by rw [rest₁]; rfl
  have inputs : ∀ t, t ∈ (g₁.op ⟨g.ops.size⟩).inputList ↔ Enters g ms t := by
    rw [op₁]; exact new.inputs
  have entering : ∀ t, Enters g ms t → t ∈ ts := fun t ⟨⟨o, ho, ht⟩, _⟩ => (group.reads o ho t ht).1
  have loose₁ : ∀ t ∈ ts, Loose (g₁.tensor t) := by
    intro t ht
    rw [tensor₁, grown.tensor]
    exact loose_relinked (group.loose t ht)
  obtain ⟨g₂, n, run₂, rest₂, size₂, tensor₂⟩ := linkInputs_run (g := g₁) (o := ⟨g.ops.size⟩)
    (fun t ht => by
      rw [size₁, grown.tensors]
      exact group.known t (entering t ((inputs t).1 ht)))
    (fun t ht => loose₁ t (entering t ((inputs t).1 ht)))
  -- the inputs know the new operator already
  have tensor₃ : ∀ t, g₂.tensor t = relinked ⟨g.ops.size⟩ ms b t (g.tensor t) := by
    intro t
    rw [tensor₂, tensor₁, grown.tensor]
    split
    · next ht =>
      have enters := (inputs t).1 ht
      have known := ((relinked_links group bounds ⟨g.ops.size⟩ (entering t enters)).2
        ⟨g.ops.size⟩).2 (Or.inr ⟨rfl, enters⟩)
      unfold withUser
      rw [insert_of_mem known]
    · rfl
  have op₂ : g₂.op = g'.op := by rw [rest₂]; exact op₁
  have size : g₂.ops.size = g.ops.size + 1 := by rw [rest₂, rest₁]; exact grown.size
  refine ⟨g₁, _, run₁, run₂, ?_, ?_, ?_, fun p hp => ?_, ?_, fun t => ?_, fun t ht => ?_,
    fun t ht => ?_, fun t ht => ?_, fun t ht p hp source => ?_⟩
  · show g₂.dims = g.dims
    rw [rest₂, rest₁]
    exact grown.dims
  · rw [Arena.tensors_modifyOp, size₂, size₁, grown.tensors]
  · rw [Arena.ops_size_modifyOp, size]
  · rw [Arena.op_modifyOp_ne (by rintro rfl; exact Nat.lt_irrefl _ hp), op₂, grown.old p hp]
  · rw [Arena.op_modifyOp_self (by simp [size]), op₂]
    exact ⟨⟨new.kind, new.members, new.applied, new.inputs, new.outputs⟩, name⟩
  · grind [Arena.tensor_modifyOp, relinked_fields]
  · rw [Arena.tensor_modifyOp, tensor₃]
    exact loose_relinked (group.loose t ht)
  · rw [Arena.tensor_modifyOp, tensor₃]
    exact (relinked_links group bounds _ ht).1
  · rw [Arena.tensor_modifyOp, tensor₃]
    exact (relinked_links group bounds _ ht).2
  · grind [Arena.tensor_modifyOp, relinked_sole]

theorem newOp_run (cls : OpClass) (kind : String) :
    newOp cls kind [] g = .ok ⟨g.ops.size⟩ { g with ops := g.ops.push (.ofClass cls kind) } := rfl

theorem outputShapes_iff {b : Boundary} (bounds : Boundary.Bounds g ms ms b) (grown : Grown g g')
    {u : Unit} {g'' : Arena} :
    checkOutputShapes b.outputs g' = .ok u g'' ↔
    ((∃ t, Leaves g ms t) ∧ ∀ t u, Leaves g ms t → Leaves g ms u →
      Shape.same g.dim (g.tensor t).shape (g.tensor u).shape = true) ∧ g' = g'' := by
  have dim : g'.dim = g.dim := by
    unfold Arena.dim
    rw [grown.dims]
  rw [checkOutputShapes_ok, ← and_assoc]
  have some : b.outputs ≠ [] ↔ ∃ t, Leaves g ms t := by
    simp only [← mem_outputs bounds]
    exact ⟨exists_mem_of_ne_nil _, fun ⟨t, ht⟩ => ne_nil_of_mem ht⟩
  simp only [dim, grown.tensor, some, mem_outputs bounds]
  grind

/-- One operator takes the place of a group that can be fused. -/
theorem fuse_run (group : Group g ts ms) (fusable : Fusable g ms) :
    ∃ g', fuse ms g = .ok ⟨g.ops.size⟩ g' ∧ Merged g ts ms g' := by
  have start : Grown g { g with ops := g.ops.push (.ofClass .fusedElementwise "fused_elementwise")
    } := .add _
  have grown := start.modify fun x => { x with members := some ms }
  obtain ⟨b, run, bounds⟩ := boundary_after group grown
  suffices finish : ∀ g' : Arena, Grown g g' → Represents g ms (g'.op ⟨g.ops.size⟩) →
    (g'.op ⟨g.ops.size⟩).name = none →
      ∃ g₂, (do
      relink ⟨g.ops.size⟩ ms b
      linkInputs ⟨g.ops.size⟩
      require .fusedNoInputs !b.inputs.isEmpty
      let g₁ ← get
      require .fusedConstant (b.inputs.any fun t => !(g₁.tensor t).isNumber)
      return ⟨g.ops.size⟩ : Build OpId) g' = .ok ⟨g.ops.size⟩ g₂ ∧ Merged g ts ms g₂ by
    unfold fuse
    rw [distinct_eq_self group.nodup, bind_run (newOp_run _ _),
      bind_run (require_run (by simpa using group.nonempty)), bind_run (modifyOp_run _ _),
        bind_run run,
      bind_run (require_run ((consistent_iff group bounds).2 fusable.used)), bind_run get_run,
        bind_run (modifyOp_run _ _),
      bind_run ((outputShapes_iff (u := ()) bounds (grown.modify _)).2
        ⟨⟨fusable.leaves, fusable.shapes⟩, rfl⟩)]
    refine finish _ ((grown.modify _).modify _) ?_ ?_
    · rw [(grown.modify _).new_modify, grown.new_modify, start.new_modify, Arena.op_push_new]
      exact ⟨rfl, rfl, ⟨rfl, rfl⟩, fun t => mem_inputs group bounds, fun t => mem_outputs bounds⟩
    · rw [(grown.modify _).new_modify, grown.new_modify, start.new_modify, Arena.op_push_new]
      rfl
  intro g' grown new name
  obtain ⟨g₁, g₂, run₁, run₂, merged⟩ := link_run group bounds grown new name
  obtain ⟨t, enters⟩ := fusable.enters
  have ht := (mem_inputs group bounds).2 enters
  obtain ⟨o, ho, reads⟩ := enters.1
  have number : (g₂.tensor t).isNumber = false := by
    rw [merged.fields]
    exact (group.reads o ho t reads).2.2
  rw [bind_run run₁, bind_run run₂, bind_run (require_run (by simpa using ne_nil_of_mem ht)),
    bind_run get_run, bind_run (require_run (any_eq_true.2 ⟨t, ht, by simp [number]⟩))]
  exact ⟨g₂, rfl, merged⟩

theorem fusable_of_fuse (group : Group g ts ms) (run : fuse ms g = .ok o g') : Fusable g ms := by
  have start : Grown g { g with ops := g.ops.push (.ofClass .fusedElementwise "fused_elementwise")
    } := .add _
  have grown := start.modify fun x => { x with members := some ms }
  obtain ⟨b, formed, bounds⟩ := boundary_after group grown
  unfold fuse at run
  rw [distinct_eq_self group.nodup, bind_run (newOp_run _ _),
    bind_run (require_run (by simpa using group.nonempty)), bind_run (modifyOp_run _ _),
      bind_run formed] at run
  simp only [bind_ok, require_ok, get_ok, modifyOp_ok] at run
  obtain ⟨_, _, ⟨consistent, rfl⟩, _, _, ⟨rfl, rfl⟩, _, _, rfl, _, _, shapes, _, _, rfl, _, _, -, _,
    _, -, _, _, ⟨nonempty, rfl⟩, -⟩ := run
  obtain ⟨⟨leaves, shapes⟩, -⟩ := (outputShapes_iff bounds (grown.modify _)).1 shapes
  refine ⟨(consistent_iff group bounds).1 consistent, ?_, leaves, shapes⟩
  obtain ⟨t, ht⟩ := exists_mem_of_ne_nil b.inputs (by simpa using nonempty)
  exact ⟨t, (mem_inputs group bounds).1 ht⟩

end Elementwise

end TensorGraph

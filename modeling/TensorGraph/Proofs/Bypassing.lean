import TensorGraph.Proofs.ConcatMerging

/-!
# Bypassing an operator

An operator with one input and one output that hold the same is taken out of a graph: what used the
output uses the input, which takes over the mark of an output.
-/

namespace TensorGraph

open Build TensorGraph.Graph List

variable {g : Arena} {x y : TensorId} {o : OpId}

variable {α : Type}

variable {u : Unit}

/-! ## Putting one tensor in the place of another -/

namespace Build

/-- Of operators only the operands of elementwise ones change, and of tensors what they are a view
of. -/
def Frame.views : Frame where
  rel g g' := (∀ o, g'.op o = { g.op o with args := (g'.op o).args }) ∧
    ∀ t, g'.tensor t = { g.tensor t with viewOf := (g'.tensor t).viewOf }
  refl _ := ⟨fun _ => rfl, fun _ => rfl⟩
  trans h h' := ⟨fun o => by rw [h'.1, h.1], fun t => by rw [h'.2, h.2]⟩

instance views_setArgs (o : OpId) (args : Operator → Option (List TensorId)) :
    Within .views (modifyOp o fun x => { x with args := args x }) where
  keeps {g _ _} run := by
    rw [modifyOp_ok] at run
    rw [run]
    refine ⟨fun p => ?_, fun _ => rfl⟩
    rw [Arena.op_modifyOp_ite]
    split <;> rfl

instance views_setView (y : TensorId) (old new : TensorId) :
    Within .views (modifyTensor y fun t => if t.viewOf == some old then
      { t with viewOf := some new } else t) where
  keeps {g _ _} run := by
    rw [modifyTensor_ok] at run
    rw [run]
    refine ⟨fun _ => rfl, fun t => ?_⟩
    rw [Arena.tensor_modifyTensor_ite]
    split
    · split <;> rfl
    · rfl

/-- One tensor stands in the place of another among the inputs of an operator. -/
structure Swapped (o : OpId) (old new : TensorId) (g g' : Arena) : Prop where
  inputs : (g'.op o).inputList = (g.op o).inputList.map fun t => if t == old then new else t
  other : ∀ p ≠ o, (g'.op p).inputs = (g.op p).inputs
  op : ∀ p, g'.op p = { g.op p with inputs := (g'.op p).inputs, args := (g'.op p).args }
  tensor : ∀ t, g'.tensor t = { g.tensor t with viewOf := (g'.tensor t).viewOf }

theorem replaceInput_ok {old new : TensorId} {g' : Arena}
    (run : replaceInput o old new g = .ok u g') : Swapped o old new g g' := by
  unfold replaceInput at run
  simp only [bind_ok, op_ok, inputs_ok, modifyOp_ok] at run
  obtain ⟨xs, _, ⟨reads, rfl⟩, _, _, rfl, _, _, ⟨rfl, rfl⟩, run⟩ := run
  obtain ⟨op, tensor⟩ := Frame.views.keeps run
  have known : o.idx < g.ops.size := Arena.lt_of_some rfl reads
  have inputList : (g.op o).inputList = xs := by simp [Operator.inputList, reads]
  refine ⟨?_, fun p ne => ?_, fun p => ?_, tensor⟩
  · grind [Operator.inputList, op, Arena.op_modifyOp_self]
  · rw [op, Arena.op_modifyOp_ne ne]
  · rw [op]
    by_cases e : p = o
    · rw [e, Arena.op_modifyOp_self known]
    · rw [Arena.op_modifyOp_ne e]

end Build

namespace Graph

namespace Rewritten

variable {functions : Functions α} {val : TensorId → Block α} {ts : Graph} {g h h' : Arena}

theorem swap (r : Rewritten functions val ts g h) (same : val x = val y)
    (swapped : Swapped o y x h h') : Rewritten functions val ts g h' := by
  have inputs : ∀ p, (h'.op p).inputList.map val = (h.op p).inputList.map val := by
    intro p
    by_cases e : p = o
    · rw [e, swapped.inputs, map_map]
      refine map_congr_left fun t _ => ?_
      grind
    · unfold Operator.inputList
      rw [swapped.other p e]
  refine ⟨fun p => ?_, fun p => ?_, fun p => ?_, fun p hp => ?_, fun p hp concat => ?_, fun t => ?_,
    fun t ht => ?_⟩
  · rw [swapped.op]
    exact r.kind p
  · rw [swapped.op]
    exact r.params p
  · rw [swapped.op]
    exact r.outputs p
  · have holds := r.holds p hp
    unfold Holds at holds ⊢
    rw [inputs, swapped.op]
    exact holds
  · have copies := r.copies p hp concat
    rw [swapped.op]
    exact ⟨copies.masks, copies.accessors⟩
  · rw [swapped.tensor]
    exact r.src t
  · rw [swapped.tensor]
    exact r.mark t ht

theorem takeOver (r : Rewritten functions val ts g h) (same : val x = val y) (hy : y ∈ ts)
    (src : (h.tensor x).src = (g.tensor x).src) (run : Build.takeOver x y h = .ok u h') :
    Rewritten functions val ts g h' := by
  simp only [Build.takeOver, bind_ok, tensor_ok] at run
  obtain ⟨_, _, ⟨rfl, rfl⟩, run⟩ := run
  split at run
  · next output =>
    rw [modifyTensor_ok] at run
    rw [run]
    exact r.modifyTensor (fun _ => Or.inl src) fun _ _ => ⟨y, hy, output, rfl, same.symm⟩
  · obtain ⟨-, rfl⟩ := pure_ok.1 run
    exact r

end Rewritten

/-! ## Tensors that know their users -/

/-- A tensor comes earlier than another one: it has its last place in the graph before the last
place of the other. -/
def Earlier (ts : Graph) (x y : TensorId) : Prop := ts.reverse.idxOf y < ts.reverse.idxOf x

theorem earlier_of_mem {l r : Graph} (last : x ∉ r) (hy : y ∈ r) : Earlier (l ++ x :: r) x y := by
  have reversed : (l ++ x :: r).reverse = r.reverse ++ x :: l.reverse := by simp
  unfold Earlier
  grind

/-- What operators read knows them, and comes earlier than what they write. -/
structure Wired (ts : Graph) (R : OpId → Prop) (g : Arena) : Prop where
  knows : ∀ o, R o → ∀ x ∈ (g.op o).inputList, o ∈ (g.tensor x).dst.ops
  earlier : ∀ o, R o → ∀ x ∈ (g.op o).inputList, ∀ y ∈ (g.op o).outputList, Earlier ts x y

theorem Valid.wired {ts : Graph} (valid : Valid g ts) : Wired ts (InGraph g ts) g := by
  refine ⟨fun o ⟨t, ht, ho⟩ x hx => (valid.reads ht ho hx).2, fun o ⟨t, ht, ho⟩ x hx y hy => ?_⟩
  obtain ⟨mem, uses⟩ := valid.reads ht ho hx
  -- the last place of the input
  obtain ⟨r', l', split, last⟩ := eq_append_cons_of_mem (mem_reverse.2 mem)
  have split' : ts = l'.reverse ++ x :: r'.reverse := by grind
  have behind := ((valid.users _ x _ split' o uses).writes y hy).1
  grind [earlier_of_mem]

theorem Valid.outputs_mem {ts : Graph} (valid : Valid g ts) (ho : InGraph g ts o)
    (hx : x ∈ (g.op o).inputList) : ∀ y ∈ (g.op o).outputList, y ∈ ts := by
  obtain ⟨t, ht, source⟩ := ho
  obtain ⟨mem, uses⟩ := valid.reads ht source hx
  exact fun y hy => ((valid.uses mem uses).2.2 y hy).1

/-! ## Bypassing -/

section Bypass

variable {functions : Functions α} {val : TensorId → Block α} {ts : Graph} {g h h' : Arena}

variable {users : List OpId} {R : OpId → Prop}

/-- The run of a bypass of an operator that is no reshape: the input `x` gets the users of the
output `y`, which then read `x`, and takes over its mark. -/
theorem bypass_ok (kind : (h.op o).kind ≠ "reshape") (run : bypass o h = .ok u h') :
    ∃ x y h₁ h₂ h₃, (h.op o).inputList = [x] ∧ (h.op o).outputList = [y] ∧
      ((h.modifyTensor x fun t => { t with dst := t.dst.erase o }).tensor y).dst.ops.forM (addDst x)
        (h.modifyTensor x fun t => { t with dst := t.dst.erase o }) = .ok () h₁ ∧
      ((h.modifyTensor x fun t => { t with dst := t.dst.erase o }).tensor y).dst.ops.forM
        (fun p => replaceInput p y x) h₁ = .ok () h₂ ∧
      takeOver x y h₂ = .ok () h₃ ∧ detach y h₃ = .ok () h' := by
  unfold bypass at run
  simp only [bind_ok, op_ok, inputs_ok, get_ok] at run
  obtain ⟨_, _, ⟨rfl, rfl⟩, xs, _, ⟨hxs, rfl⟩, _, _, ⟨rfl, rfl⟩, run⟩ := run
  rw [if_neg (by simp [kind])] at run
  simp only [bind_ok, require_ok, outputs_ok, expect_ok, discardDst, tensor_ok, modifyTensor_ok,
    forIn_eq_forM] at run
  obtain ⟨_, _, ⟨one, rfl⟩, ys, _, ⟨hys, rfl⟩, _, _, ⟨one', rfl⟩, x, _, ⟨hx, rfl⟩, y, _,
    ⟨hy, rfl⟩, _, _, ⟨_, _, ⟨rfl, rfl⟩, _, _, ⟨-, rfl⟩, rfl⟩, _, _, ⟨rfl, rfl⟩, _, h₁, added, _, h₂,
    replaced, _, _, ⟨rfl, rfl⟩, run⟩ := run
  obtain ⟨x', rfl⟩ := length_eq_one_iff.1 (by simpa using one)
  obtain ⟨y', rfl⟩ := length_eq_one_iff.1 (by simpa using one')
  obtain rfl := Option.some.inj hx
  obtain rfl := Option.some.inj hy
  have rest : ∃ h₃, takeOver x' y' h₂ = .ok () h₃ ∧ detach y' h₃ = .ok () h' := by
    split at run
    · simp only [bind_ok, tensor_ok, require_ok] at run
      grind
    · grind [bind_ok]
  simp_all [Operator.inputList, Operator.outputList]

theorem addDst_dst {p : OpId} (run : addDst x p h = .ok u h') :
    (∀ o, h'.op o = h.op o) ∧ (∀ z q, q ∈ (h.tensor z).dst.ops → q ∈ (h'.tensor z).dst.ops) ∧
      (x.idx < h.tensors.size → p ∈ (h'.tensor x).dst.ops) ∧ h'.tensors.size = h.tensors.size := by
  obtain ⟨-, rfl⟩ := addDst_ok.1 run
  have insert : ∀ (l : Links) q, q ∈ (l.insert p).ops ↔ q ∈ l.ops ∨ q = p := fun l q =>
    Links.mem_insert
  refine ⟨fun _ => rfl, fun z q hq => ?_, fun known => ?_, Arena.tensors_size_modifyTensor ..⟩
  · rw [Arena.tensor_modifyTensor_ite]
    grind
  · simp_all

theorem addDsts_dst (known : x.idx < h.tensors.size) (run : users.forM (addDst x) h = .ok u h') :
    (∀ o, h'.op o = h.op o) ∧ (∀ z q, q ∈ (h.tensor z).dst.ops → q ∈ (h'.tensor z).dst.ops) ∧
      ∀ p ∈ users, p ∈ (h'.tensor x).dst.ops := by
  have kept := forM_keeps (fun a => (∀ o, a.op o = h.op o) ∧
      (∀ z q, q ∈ (h.tensor z).dst.ops → q ∈ (a.tensor z).dst.ops)) (fun p _ a a' _ kept run => by
    obtain ⟨op, more, -, -⟩ := addDst_dst run
    grind) ⟨fun _ => rfl, fun _ _ h => h⟩ run
  have added : ∀ p ∈ users, x.idx < h'.tensors.size → p ∈ (h'.tensor x).dst.ops := by
    refine forM_does (fun p a => x.idx < a.tensors.size → p ∈ (a.tensor x).dst.ops)
      (fun p _ a a' _ run known => ?_)
      (fun p _ q _ a a' _ has run known => ?_) run
    · obtain ⟨-, -, new, size⟩ := addDst_dst run
      exact new (size ▸ known)
    · obtain ⟨-, more, -, size⟩ := addDst_dst run
      exact more x p (has (size ▸ known))
  have size : h'.tensors.size = h.tensors.size :=
    forM_keeps (fun a => a.tensors.size = h.tensors.size)
      (fun p _ a a' _ kept run => (addDst_dst run).2.2.2.trans kept) rfl run
  grind

theorem replaceInputs_inputs (ne : x ≠ y)
    (run : users.forM (fun p => replaceInput p y x) h = .ok u h') :
    (∀ t, (h'.tensor t).dst = (h.tensor t).dst) ∧ (∀ p, (h'.op p).outputs = (h.op p).outputs) ∧
      (∀ p, ∀ z ∈ (h'.op p).inputList, z ∈ (h.op p).inputList ∨ z = x ∧ y ∈ (h.op p).inputList) ∧
      ∀ p ∈ users, y ∉ (h'.op p).inputList := by
  -- what an operator reads after one of the replacements
  have read : ∀ {a a' : Arena} {o : OpId}, Swapped o y x a a' → ∀ p, ∀ z ∈ (a'.op p).inputList,
      z ∈ (a.op p).inputList ∧ (p = o → z ≠ y) ∨ z = x ∧ y ∈ (a.op p).inputList := by
    intro a a' o swapped p z hz
    by_cases e : p = o
    · subst e
      rw [swapped.inputs] at hz
      grind
    · unfold Operator.inputList at hz ⊢
      rw [swapped.other p e] at hz
      exact Or.inl ⟨hz, fun e' => absurd e' e⟩
  have kept := forM_keeps (fun a => (∀ t, (a.tensor t).dst = (h.tensor t).dst) ∧
    (∀ p, (a.op p).outputs = (h.op p).outputs) ∧
      ∀ p, ∀ z ∈ (a.op p).inputList, z ∈ (h.op p).inputList ∨ z = x ∧ y ∈ (h.op p).inputList)
    (fun o _ a a' _ kept run => by
      have swapped := replaceInput_ok run
      refine ⟨fun t => ?_, fun p => ?_, fun p z hz => ?_⟩
      · rw [swapped.tensor]
        exact kept.1 t
      · rw [swapped.op]
        exact kept.2.1 p
      · grind)
    ⟨fun _ => rfl, fun _ => rfl, fun _ _ hz => Or.inl hz⟩ run
  refine ⟨kept.1, kept.2.1, kept.2.2, ?_⟩
  refine forM_does (fun p a => y ∉ (a.op p).inputList) (fun p _ a a' _ run hy => ?_)
    (fun p _ q _ a a' _ gone run hy => ?_) run
  · rcases read (replaceInput_ok run) p y hy with ⟨-, other⟩ | ⟨same, -⟩
    · exact other rfl rfl
    · exact ne same.symm
  · rcases read (replaceInput_ok run) p y hy with ⟨hy, -⟩ | ⟨same, -⟩
    · exact gone hy
    · exact ne same.symm

theorem takeOver_detach_links {h₁ : Arena} {v : Unit} (taken : takeOver x y h = .ok u h₁)
    (gone : detach y h₁ = .ok v h') : (∀ o, h'.op o = h.op o) ∧ ∀ z ≠ y, (h'.tensor z).dst =
    (h.tensor z).dst := by
  simp only [takeOver, bind_ok, tensor_ok] at taken
  obtain ⟨_, _, ⟨rfl, rfl⟩, taken⟩ := taken
  rw [detach, modifyTensor_ok] at gone
  subst gone
  split at taken
  · rw [modifyTensor_ok] at taken
    subst taken
    refine ⟨fun _ => rfl, fun z ne => ?_⟩
    grind [Arena.tensor_modifyTensor_ne, Arena.tensor_modifyTensor_ite]
  · simp_all [pure_ok, Arena.tensor_modifyTensor_ne]

/-- Taking a concatenation of one tensor out of a graph keeps the values, and tensors know the users
that are left. -/
theorem bypass_rewrites (r : Rewritten functions val ts g h) (w : Wired ts R h) (ho : R o)
    (inGraph : InGraph g ts o) (kind : (g.op o).kind = "concatenate")
    (written : ∀ y ∈ (g.op o).outputList, y ∈ ts) (run : bypass o h = .ok u h') :
    Rewritten functions val ts g h' ∧ Wired ts (fun p => R p ∧ p ≠ o) h' := by
  have concat : (h.op o).kind = "concatenate" := (r.kind o).trans kind
  obtain ⟨x, y, h₁, h₂, h₃, input, output, added, replaced, taken, gone⟩ :=
    bypass_ok (by rw [concat]; decide) run
  have uses : o ∈ (h.tensor x).dst.ops := w.knows o ho x (by simp [input])
  have known : x.idx < h.tensors.size := Arena.lt_of_dst uses
  have xy : Earlier ts x y := w.earlier o ho x (by simp [input]) y (by simp [output])
  have ne : x ≠ y := by
    rintro rfl
    exact absurd xy (Nat.lt_irrefl _)
  have same : val x = val y := by
    obtain ⟨k, b, -, joined, outputs⟩ := (Operator.meaning_concat concat).1 (r.holds o inGraph)
    rw [input, map_cons, map_nil] at joined
    rw [output, map_cons, map_nil] at outputs
    exact (Block.join?_singleton joined).trans (cons.inj outputs).1.symm
  have hy : y ∈ ts := by
    refine written y ?_
    unfold Operator.outputList at output ⊢
    rw [← r.outputs, output]
    exact mem_singleton.2 rfl
  have src : (h.tensor x).src = (g.tensor x).src := r.src_of_dst uses
  have users : ((h.modifyTensor x fun t => { t with dst := t.dst.erase o }).tensor y).dst.ops =
    (h.tensor y).dst.ops := by
    rw [Arena.tensor_modifyTensor_ne (Ne.symm ne)]
  rw [users] at added replaced
  have erased : ∀ z q, q ≠ o → q ∈ (h.tensor z).dst.ops →
      q ∈ ((h.modifyTensor x fun t => { t with dst := t.dst.erase o }).tensor z).dst.ops := by
    intro z q other hq
    rw [Arena.tensor_modifyTensor _ _ _ known]
    split
    · next e =>
      rw [← e]
      exact mem_filter.2 ⟨hq, by simpa using other⟩
    · exact hq
  constructor
  · -- the values
    have first : Rewritten functions val ts g h₁ ∧ (h₁.tensor x).src = (g.tensor x).src := by
      refine forM_keeps (fun a => Rewritten functions val ts g a ∧
        (a.tensor x).src = (g.tensor x).src)
        (fun p _ a a' _ kept run => ?_) ⟨r.setDst src (·.erase o), ?_⟩ added
      · have stays := (Frame.producers.keeps run).src x
        obtain ⟨-, rfl⟩ := addDst_ok.1 run
        exact ⟨kept.1.setDst kept.2 (·.insert p), stays.trans kept.2⟩
      · simp_all
    have second : Rewritten functions val ts g h₂ ∧ (h₂.tensor x).src = (g.tensor x).src := by
      refine forM_keeps (fun a => Rewritten functions val ts g a ∧
        (a.tensor x).src = (g.tensor x).src)
        (fun p _ a a' _ kept run => ?_) first replaced
      have swapped := replaceInput_ok run
      refine ⟨kept.1.swap same swapped, ?_⟩
      rw [swapped.tensor]
      exact kept.2
    exact (second.1.takeOver same hy second.2 taken).detach gone
  · -- the links
    obtain ⟨op₁, more, new⟩ := addDsts_dst (by rwa [Arena.tensors_size_modifyTensor]) added
    obtain ⟨dst₂, outputs₂, reads, notOld⟩ := replaceInputs_inputs ne replaced
    obtain ⟨op₃, dst₃⟩ := takeOver_detach_links taken gone
    have inputs₁ : ∀ p, (h₁.op p).inputList = (h.op p).inputList := fun p => by rw [op₁]; rfl
    constructor
    · rintro p ⟨hp, other⟩ z hz
      rw [op₃] at hz
      rcases reads p z hz with mem | ⟨rfl, mem⟩
      · rw [inputs₁] at mem
        have user := w.knows p hp z mem
        have old : z ≠ y := by
          rintro rfl
          exact notOld p user hz
        grind
      · rw [inputs₁] at mem
        rw [dst₃ z ne, dst₂]
        exact new p (w.knows p hp y mem)
    · rintro p ⟨hp, -⟩ z hz v hv
      rw [op₃] at hz hv
      have hv : v ∈ (h.op p).outputList := by simp_all [Operator.outputList]
      rcases reads p z hz with mem | ⟨rfl, mem⟩
      · exact w.earlier p hp z (inputs₁ p ▸ mem) v hv
      · exact Nat.lt_trans (w.earlier p hp y (inputs₁ p ▸ mem) v hv) xy

theorem bypasses_rewrite {os : List OpId} (nodup : os.Nodup) (r : Rewritten functions val ts g h)
    (w : Wired ts R h) (hos : ∀ o ∈ os, R o) (inGraph : ∀ o ∈ os, InGraph g ts o)
    (kind : ∀ o ∈ os, (g.op o).kind = "concatenate")
    (written : ∀ o ∈ os, ∀ y ∈ (g.op o).outputList, y ∈ ts) (run : os.forM bypass h = .ok u h') :
    Rewritten functions val ts g h' := by
  induction os generalizing h R with
  | nil => simp_all
  | cons o os ih =>
    simp only [List.forM, bind_ok] at run
    obtain ⟨_, h₁, first, rest⟩ := run
    obtain ⟨fresh, nodup⟩ := nodup_cons.1 nodup
    obtain ⟨r', w'⟩ := bypass_rewrites r w (hos o mem_cons_self) (inGraph o mem_cons_self)
      (kind o mem_cons_self) (written o mem_cons_self) first
    grind

end Bypass

end Graph

end TensorGraph

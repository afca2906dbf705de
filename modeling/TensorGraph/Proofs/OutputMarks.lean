import TensorGraph.Catalog
import TensorGraph.Graph.Prune
import TensorGraph.Proofs.Nodes
import TensorGraph.Proofs.ValidGraph

/-!
# Marks of outputs

A tensor is an output of the graph if it is marked as one, and then it goes by its name.
-/

namespace TensorGraph

open Build

variable {t : TensorId} {o : OpId} {ts : Graph}

def Arena.HasOutput (g : Arena) (t : TensorId) (n : String) : Prop := (g.tensor t).isOutput = true ∧
    (g.tensor t).name = some n

namespace Build

/-- Marks and names stay, and no tensor that is new is an output. -/
structure SameMarks (g g' : Arena) : Prop where
  size : g.tensors.size ≤ g'.tensors.size
  isOutput : ∀ t : TensorId, t.idx < g.tensors.size → (g'.tensor t).isOutput = (g.tensor t).isOutput
  name : ∀ t : TensorId, ∀ n, (g.tensor t).name = some n → (g'.tensor t).name = some n
  new : ∀ t : TensorId, g.tensors.size ≤ t.idx → (g'.tensor t).isOutput = false

theorem isOutput_of_le {g : Arena} {t : TensorId} (h : g.tensors.size ≤ t.idx) :
    (g.tensor t).isOutput = false := by
  rw [Arena.tensor_of_le h]
  rfl

theorem lt_of_hasOutput {g : Arena} {t : TensorId} {n : String} (h : g.HasOutput t n) :
    t.idx < g.tensors.size := by
  refine Nat.lt_of_not_le fun outside => ?_
  have := isOutput_of_le outside
  rw [h.1] at this
  cases this

def Frame.marks : Frame where
  rel := SameMarks
  refl g := ⟨Nat.le_refl _, fun _ _ => rfl, fun _ _ h => h, fun _ h => isOutput_of_le h⟩
  trans := by
    intro g g₁ g' h h'
    refine ⟨Nat.le_trans h.size h'.size, fun t ht => ?_, fun t n ht => h'.name t n (h.name t n ht),
      fun t ht => ?_⟩
    · rw [h'.isOutput t (Nat.lt_of_lt_of_le ht h.size), h.isOutput t ht]
    · by_cases known : t.idx < g₁.tensors.size
      · rw [h'.isOutput t known, h.new t ht]
      · exact h'.new t (Nat.le_of_not_lt known)

theorem SameMarks.hasOutput {g g' : Arena} (h : SameMarks g g') {t : TensorId} {n : String}
    (ht : g.HasOutput t n) :
    g'.HasOutput t n := ⟨(h.isOutput t (lt_of_hasOutput ht)).trans ht.1, h.name t n ht.2⟩

/-- A change of a tensor that keeps its mark and its name keeps all marks. -/
theorem sameMarks_modifyTensor (g : Arena) (t : TensorId) {f : Tensor → Tensor}
    (mark : (f (g.tensor t)).isOutput = (g.tensor t).isOutput)
    (name : ∀ n, (g.tensor t).name = some n → (f (g.tensor t)).name = some n) :
    SameMarks g (g.modifyTensor t f) := by
  have size : (g.modifyTensor t f).tensors.size = g.tensors.size :=
    Arena.tensors_size_modifyTensor ..
  refine ⟨Nat.le_of_eq size.symm, fun u _ => ?_, fun u n hu => ?_, fun u hu =>
    isOutput_of_le (by omega)⟩
  · rw [Arena.tensor_modifyTensor_ite]
    grind
  · rw [Arena.tensor_modifyTensor_ite]
    grind

theorem SameMarks.of_tensors {g g' : Arena} (same : g'.tensors = g.tensors) : SameMarks g g' := by
  have tensor (t : TensorId) : g'.tensor t = g.tensor t := by
    rw [Arena.tensor_eq, same, Arena.tensor_eq]
  exact ⟨by simp [same], fun t _ => by rw [tensor], fun t n h => by rw [tensor,
    h], fun t ht => by rw [tensor, isOutput_of_le ht]⟩

namespace Within

/-! ## Changing nodes -/

instance : SeesTensor .marks t fun x => (x.isOutput, x.name) where
  modify same := ⟨fun run => by
    obtain ⟨mark, name⟩ := Prod.mk.inj (same _)
    exact modifyTensor_ok.1 run ▸ sameMarks_modifyTensor _ t mark fun _ h => name.trans h⟩

instance : SeesOp .marks o fun _ => () :=
  ⟨fun _ => ⟨fun run => .of_tensors (by rw [modifyOp_ok.1 run]; rfl)⟩⟩

instance modifyDim (d : DimId) (f : Dim → Dim) : Within .marks (modifyDim d f) :=
  ⟨fun run => .of_tensors (by rw [modify_ok.1 run]; rfl)⟩

theorem addTensor {x : Tensor} (mark : x.isOutput = false) : Within .marks (addTensor x) where
  keeps {g _ _} run := by
    obtain ⟨_, _, ⟨rfl, rfl⟩, _, _, rfl, -, rfl⟩ := run
    refine ⟨by simp, fun t ht => ?_, fun t n ht => ?_, fun t ht => ?_⟩
    · rw [Arena.tensor_push, if_neg (by omega)]
    · rw [Arena.tensor_push, if_neg]
      · exact ht
      · intro new
        rw [Arena.tensor_of_le (Nat.le_of_eq new.symm)] at ht
        cases ht
    · grind [Arena.tensor_push, isOutput_of_le]

theorem tensor_bind {R : Frame} {t : TensorId} {f : Tensor → Build α}
    (rest : ∀ {g g' : Arena} {a : α}, f (g.tensor t) g = .ok a g' → R.rel g g') :
    Within R (Build.tensor t >>= f) where
  keeps run := by
    exact rest run

end Within

end Build

/-! ## Tidying up -/

namespace Graph

instance freshName_marks (s : String) : Within .marks (freshName s) where
  keeps run := by
    obtain ⟨_, _, ⟨rfl, rfl⟩, _, _, rfl, -, rfl⟩ := run
    exact .of_tensors rfl

instance modifyNamer_marks (f : Namer → Namer) : Within .marks (modifyNamer f) :=
  ⟨fun run => .of_tensors (by rw [modify_ok.1 run])⟩

theorem sameMarks_named {g g₁ g₂ g' : Arena} {t : TensorId} {s name : String} {f : Namer → Namer}
    {u v : Unit} (nameless : (g.tensor t).name.isNone = true) (fresh : freshName s g = .ok name g₁)
    (set : modifyTensor t (fun x => { x with name := some name }) g₁ = .ok u g₂)
    (count : modifyNamer f g₂ = .ok v g') :
    SameMarks g g' := by
  have same : g₁.tensors = g.tensors := by
    obtain ⟨_, _, ⟨rfl, rfl⟩, _, _, rfl, -, rfl⟩ := fresh
    rfl
  have nameless' : (g₁.tensor t).name = none := by grind [Arena.tensor, Option.isNone_iff_eq_none]
  rw [modifyTensor_ok] at set
  subst set
  refine Frame.marks.trans ((freshName_marks s).keeps fresh)
    (Frame.marks.trans ?_ ((modifyNamer_marks f).keeps count))
  refine sameMarks_modifyTensor _ t rfl fun n hn => ?_
  rw [nameless'] at hn
  cases hn

instance : Within .marks (nameSource t) := by
  refine Within.tensor_bind fun {g g' _} run => ?_
  split at run
  · next nameless =>
    simp only [bind_ok, get_ok] at run
    obtain ⟨_, _, ⟨rfl, rfl⟩, name, g₁, fresh, _, g₂, set, count⟩ := run
    exact sameMarks_named nameless fresh set count
  · exact (Within.pure ()).keeps run

instance (last : Option String) : Within .marks (nameProduced t last o) := by
  have second : ∀ last : Option String, Within .marks (do
      if (← tensor t).name.isNone then
        let f ← expect .unsetLabel last
        let k := (← get).namer.outputCount f
        let name ← freshName s!"{f}_{k}"
        modifyTensor t fun x => { x with name := some name }
        modifyNamer (·.setOutputCount f (k + 1))
      pure last) := by
    intro last
    refine Within.tensor_bind fun {g g' _} run => ?_
    split at run
    · next nameless =>
      simp only [bind_ok, get_ok, expect_ok, pure_ok] at run
      obtain ⟨_, _, ⟨-, rfl⟩, _, _, ⟨rfl, rfl⟩, name, g₁, fresh, _, g₂, set, _, _, count, -, rfl⟩ :=
        run
      exact sameMarks_named nameless fresh set count
    · exact (Within.pure last).keeps run
  refine .bind_of fun x => ?_
  split
  · exact second last
  · exact .bind_of fun _ => .bind_of fun _ => .bind_of fun _ => .bind_of fun _ => second _

instance : Within .marks (markParams ts) := by unfold markParams; exact .of_parts

instance (sources : List OpId) (n : Nat) (visited layer : List OpId) :
    Within .marks (pruneLayers sources n visited layer) := by
  induction n generalizing visited layer with
  | zero => unfold pruneLayers; infer_instance
  | succ n ih => unfold pruneLayers pruneLayer; exact .of_parts

instance (roots : List TensorId) : ReadOnly (sort roots) := .of_parts

instance (priority := low) readOnly {α : Type} {R : Frame} {x : Build α} [reads : ReadOnly x] :
    Within R x := .of_eq reads.keeps

instance : Within .marks (tidy ts) := by unfold tidy; exact .of_parts

end Graph

end TensorGraph

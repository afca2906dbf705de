import TensorGraph.Proofs.OptimizedNames
import TensorGraph.Proofs.Tidying

/-!
# Producers of tensors

Tidying up a graph leaves which operator produces which tensor and all shapes, and of the operators
it changes names only (`Frame.producers`).
-/

namespace TensorGraph

open Build

set_option synthInstance.maxSize 1024

variable {t : TensorId} {o : OpId} {ts : Graph}

namespace Build

/-- Producers and shapes stay, and of operators and dimensions only names change. -/
structure SameProducers (g g' : Arena) : Prop where
  src : ∀ t, (g'.tensor t).src = (g.tensor t).src
  shape : ∀ t, (g'.tensor t).shape = (g.tensor t).shape
  op : ∀ o, g'.op o = { g.op o with name := (g'.op o).name, firstName := (g'.op o).firstName }
  values : ∀ d, (g'.dim d).values = (g.dim d).values

def Frame.producers : Frame where
  rel := SameProducers
  refl _ := ⟨fun _ => rfl, fun _ => rfl, fun _ => rfl, fun _ => rfl⟩
  trans h h' := ⟨fun t => (h'.src t).trans (h.src t), fun t => (h'.shape t).trans (h.shape t),
    fun o => by rw [h'.op, h.op], fun d => (h'.values d).trans (h.values d)⟩

instance : Within.SeesTensor .producers t fun x => (x.src, x.shape) where
  modify same := ⟨fun {g _ _} run => by
    rw [modifyTensor_ok.1 run]
    have tensor := Arena.tensor_modifyTensor_ite g t
    simp only [Prod.mk.injEq] at same
    refine ⟨fun u => ?_, fun u => ?_, fun _ => rfl, fun _ => rfl⟩
    · grind
    · grind⟩

instance : Within.SeesOp .producers o fun x => { x with name := none, firstName := none } where
  modify {f} same := ⟨fun {g _ _} run => by
    rw [modifyOp_ok.1 run]
    refine ⟨fun _ => rfl, fun _ => rfl, fun p => ?_, fun _ => rfl⟩
    rw [Arena.op_modifyOp_ite]
    split
    · exact congrArg (fun y =>
        { y with name := (f (g.op p)).name, firstName := (f (g.op p)).firstName }) (same (g.op p))
    · rfl⟩

instance producers_nameDim (d : DimId) (nameless : Dim → Bool) (name : Option String) :
    Within .producers (modifyDim d fun v => if nameless v then { v with name := name } else v) where
  keeps {g _ _} run := by
    rw [modifyDim, modify_ok] at run
    rw [run]
    refine ⟨fun _ => rfl, fun _ => rfl, fun _ => rfl, fun e => ?_⟩
    simp only [Arena.dim, Arena.modifyDim, Array.getD_eq_getD_getElem?, Array.getElem?_modify]
    split
    · cases g.dims[e.idx]? with
      | none => rfl
      | some v =>
        simp only [Option.map_some, Option.getD_some]
        split <;> rfl
    · rfl

end Build

/-! ## Tidying up -/

namespace Graph

instance producers_freshName (s : String) : Within .producers (freshName s) where
  keeps run := by
    simp only [freshName, bind_ok, get_ok, modify_ok, pure_ok] at run
    obtain ⟨_, _, ⟨rfl, rfl⟩, _, _, rfl, -, rfl⟩ := run
    exact ⟨fun _ => rfl, fun _ => rfl, fun _ => rfl, fun _ => rfl⟩

instance producers_modifyNamer (f : Namer → Namer) : Within .producers (modifyNamer f) where
  keeps run := by
    rw [modifyNamer, modify_ok] at run
    rw [run]
    exact ⟨fun _ => rfl, fun _ => rfl, fun _ => rfl, fun _ => rfl⟩

instance producers_pruneLayers (sources : List OpId) (n : Nat) (visited layer : List OpId) :
    Within .producers (pruneLayers sources n visited layer) := by
  induction n generalizing visited layer with
  | zero => unfold pruneLayers; infer_instance
  | succ n ih => unfold pruneLayers pruneLayer; exact .of_parts

instance producers_tidy : Within .producers (tidy ts) := by unfold tidy; exact .of_parts

/-- Tidying keeps the tensors with links, and they pass the check. -/
theorem tidy_ok {g g' : Arena} {ts ts' : Graph} (run : tidy ts g = .ok ts' g') :
    ts.length = 1 ∧ ts' = ts ∧ g' = g ∨ ts' = ts.filter (fun t => isLinked (g.tensor t)) ∧
    Valid g' ts' := by
  unfold tidy at run
  grind [bind_ok, get_ok, pure_ok, check_ok]

end Graph

/-! ## Fewer producers -/

namespace Build

def Frame.fewer : Frame where
  rel g g' := ∀ t, ∀ o ∈ (g'.tensor t).src.ops, o ∈ (g.tensor t).src.ops
  refl _ := fun _ _ h => h
  trans h h' := fun t o ho => h t o (h' t o ho)

theorem fewer_modifyTensor {f : Tensor → Tensor} (src : ∀ x, ∀ o ∈ (f x).src.ops, o ∈ x.src.ops) :
    Within .fewer (modifyTensor t f) where
  keeps run u o ho := by
    rw [modifyTensor_ok.1 run, Arena.tensor_modifyTensor_ite] at ho
    grind

instance : Within.SeesTensor .fewer t Tensor.src :=
  ⟨fun same => fewer_modifyTensor fun x _ h => same x ▸ h⟩

instance : Within.SeesOp .fewer o fun _ => () :=
  ⟨fun _ => ⟨fun run => modifyOp_ok.1 run ▸ fun _ _ h => h⟩⟩

instance fewer_detach : Within .fewer (detach t) := fewer_modifyTensor fun _ => nofun

instance fewer_removeSrc : Within .fewer (removeSrc t o) := by
  have := fewer_modifyTensor (t := t) (f := fun x => { x with src := x.src.erase o }) fun _ _ =>
    List.mem_of_mem_filter
  exact .of_parts

instance fewer_tidy : Within .fewer (Graph.tidy ts) where
  keeps run t o ho := by rwa [← (Frame.producers.keeps run).src]

end Build

end TensorGraph

import TensorGraph.Proofs.Lists
import TensorGraph.Proofs.Steps

/-!
# Reading nodes after a change

A change of one node leaves all others as they are; outside the arena nothing can be changed.
-/

namespace TensorGraph

open List

variable {t : TensorId} {o p : OpId}

namespace Operator

theorem param?_setParam (o : Operator) (key : String) (v : Value) (other : String) :
    (o.setParam key v).param? other = if other == key then some v else o.param? other := by
  unfold param?
  rw [← lookup_setKey]
  unfold setParam
  split <;> rfl

@[simp] theorem inputs_setParam (o : Operator) (key : String) (v : Value) :
    (o.setParam key v).inputs = o.inputs := by
  unfold setParam
  split <;> rfl

@[simp] theorem inputList_setParam (o : Operator) (key : String) (v : Value) :
    (o.setParam key v).inputList = o.inputList := by
  rw [inputList, inputs_setParam, inputList]

end Operator

namespace Links

theorem sole?_eq_some {l : Links} : l.sole? = some o ↔ l.ops = [o] := by
  unfold Links.sole?
  grind

end Links

namespace Arena

variable {g : Arena}

variable {α : Type} {f : Tensor → Tensor} {u : TensorId} {x : Operator}

theorem tensor_eq (g : Arena) (t : TensorId) : g.tensor t = g.tensors.getD t.idx default := rfl

theorem op_eq (g : Arena) (o : OpId) : g.op o = g.ops.getD o.idx default := rfl

theorem getD_modify (xs : Array α) (i j : Nat) (f : α → α) (d : α) :
    (xs.modify i f).getD j d = if j = i ∧ i < xs.size then f (xs.getD j d) else xs.getD j d := by
  simp only [Array.getD_eq_getD_getElem?, Array.getElem?_modify]
  grind

theorem tensor_modifyTensor_ite (g : Arena) (t u : TensorId) (f : Tensor → Tensor) :
    (g.modifyTensor t f).tensor u = if u = t ∧ t.idx < g.tensors.size then f
    (g.tensor u) else g.tensor u := by
  obtain ⟨t⟩ := t
  obtain ⟨u⟩ := u
  simp only [tensor_eq, modifyTensor, getD_modify, TensorId.mk.injEq]

theorem tensor_modifyTensor (t u : TensorId) (f : Tensor → Tensor) (h : t.idx < g.tensors.size) :
    (g.modifyTensor t f).tensor u = if u = t then f (g.tensor t) else g.tensor u := by
  rw [tensor_modifyTensor_ite]
  by_cases e : u = t <;> simp [e, h]

@[simp] theorem tensor_modifyTensor_self (h : t.idx < g.tensors.size) :
    (g.modifyTensor t f).tensor t = f (g.tensor t) := by
  rw [tensor_modifyTensor t t f h, if_pos rfl]

theorem tensor_modifyTensor_ne (h : u ≠ t) :
    (g.modifyTensor t f).tensor u = g.tensor u := by
  rw [tensor_modifyTensor_ite, if_neg fun e => h e.1]

theorem tensor_modifyTensor_of_le (h : g.tensors.size ≤ t.idx) :
    (g.modifyTensor t f).tensor u = g.tensor u := by
  rw [tensor_modifyTensor_ite, if_neg fun e => Nat.not_lt.2 h e.2]

theorem modifyTensor_modifyTensor (t : TensorId) (f f' : Tensor → Tensor) :
    (g.modifyTensor t f).modifyTensor t f' = g.modifyTensor t fun x => f' (f x) := by
  simp only [modifyTensor, mk.injEq, true_and, and_true]
  grind

theorem modifyTensor_congr {f' : Tensor → Tensor} (h : f (g.tensor t) = f' (g.tensor t)) :
    g.modifyTensor t f = g.modifyTensor t f' := by
  simp only [modifyTensor, mk.injEq, true_and, and_true]
  refine Array.ext_getElem? fun i => ?_
  simp only [Array.getElem?_modify]
  split
  · next e =>
    subst e
    cases hx : g.tensors[t.idx]? with
    | none => rfl
    | some x => simp_all [tensor_eq, Array.getD_eq_getD_getElem?]
  · rfl

theorem modifyTensor_eq_self (h : f (g.tensor t) = g.tensor t) : g.modifyTensor t f = g := by
  have same : g.modifyTensor t f = g.modifyTensor t fun x => x := modifyTensor_congr h
  rw [same]
  simp only [modifyTensor]
  congr 1
  grind

theorem op_modifyOp_ite (g : Arena) (o p : OpId) (f : Operator → Operator) :
    (g.modifyOp o f).op p = if p = o ∧ o.idx < g.ops.size then f (g.op p) else g.op p := by
  obtain ⟨o⟩ := o
  obtain ⟨p⟩ := p
  simp only [op_eq, modifyOp, getD_modify, OpId.mk.injEq]

theorem op_modifyOp (o p : OpId) (f : Operator → Operator) (h : o.idx < g.ops.size) :
    (g.modifyOp o f).op p = if p = o then f (g.op o) else g.op p := by
  rw [op_modifyOp_ite]
  by_cases e : p = o <;> simp [e, h]

@[simp] theorem op_modifyOp_self {f : Operator → Operator} (h : o.idx < g.ops.size) :
    (g.modifyOp o f).op o = f (g.op o) := by
  rw [op_modifyOp o o f h, if_pos rfl]

theorem op_modifyOp_ne {f : Operator → Operator} (h : p ≠ o) : (g.modifyOp o f).op p = g.op p := by
  rw [op_modifyOp_ite, if_neg fun e => h e.1]

@[simp] theorem op_modifyTensor (t : TensorId) (f : Tensor → Tensor) (o : OpId) :
    (g.modifyTensor t f).op o = g.op o := rfl

@[simp] theorem tensor_modifyOp (o : OpId) (f : Operator → Operator) (t : TensorId) :
    (g.modifyOp o f).tensor t = g.tensor t := rfl

@[simp] theorem dim_modifyTensor (t : TensorId) (f : Tensor → Tensor) :
    (g.modifyTensor t f).dim = g.dim := rfl

@[simp] theorem dim_modifyOp (o : OpId) (f : Operator → Operator) : (g.modifyOp o f).dim = g.dim :=
  rfl

@[simp] theorem tensors_size_modifyTensor (t : TensorId) (f : Tensor → Tensor) :
    (g.modifyTensor t f).tensors.size = g.tensors.size := by
  simp [modifyTensor]

@[simp] theorem ops_size_modifyOp (o : OpId) (f : Operator → Operator) :
    (g.modifyOp o f).ops.size = g.ops.size := by
  simp [modifyOp]

@[simp] theorem ops_modifyTensor (t : TensorId) (f : Tensor → Tensor) :
    (g.modifyTensor t f).ops = g.ops := rfl

@[simp] theorem tensors_modifyOp (o : OpId) (f : Operator → Operator) :
    (g.modifyOp o f).tensors = g.tensors := rfl

/-! ## New nodes -/

@[simp] theorem op_push_old (h : p.idx < g.ops.size) : Arena.op { g with ops := g.ops.push x } p =
    g.op p := by
  simp [op_eq, Array.getD_eq_getD_getElem?, Array.getElem?_push, Nat.ne_of_lt h]

@[simp] theorem op_push_new : Arena.op { g with ops := g.ops.push x } ⟨g.ops.size⟩ = x := by
  simp [op_eq, Array.getD_eq_getD_getElem?]

theorem tensor_push (g : Arena) (x : Tensor) (t : TensorId) :
    Arena.tensor { g with tensors := g.tensors.push x } t = if t.idx = g.tensors.size then x else
    g.tensor t := by
  simp only [tensor_eq, Array.getD_eq_getD_getElem?, Array.getElem?_push]
  split <;> rfl

theorem op_of_le (h : g.ops.size ≤ p.idx) : g.op p = default := by
  simp [op_eq, Array.getD_eq_getD_getElem?, h]

theorem tensor_of_le (h : g.tensors.size ≤ t.idx) : g.tensor t = default := by
  rw [tensor_eq, Array.getD_eq_getD_getElem?, Array.getElem?_eq_none h, Option.getD_none]

theorem mem_inputList_modifyOp {f : Operator → Operator}
    (reads : t ∈ ((g.modifyOp o f).op o).inputList) : t ∈ (f (g.op o)).inputList := by
  by_cases known : o.idx < g.ops.size
  · rwa [op_modifyOp_self known] at reads
  · rw [op_of_le (by simpa using Nat.le_of_not_lt known)] at reads
    cases reads

theorem lt_of_some {f : Operator → Option α} {a : α} (none : f default = none)
    (known : f (g.op o) = some a) :
    o.idx < g.ops.size := by
  refine Nat.lt_of_not_le fun outside => ?_
  rw [op_of_le outside, none] at known
  cases known

theorem lt_of_applied (applied : (g.op o).inputs.isSome) : o.idx < g.ops.size := by
  obtain ⟨ts, reads⟩ := Option.isSome_iff_exists.1 applied
  exact lt_of_some rfl reads

theorem lt_of_dst (uses : o ∈ (g.tensor t).dst.ops) : t.idx < g.tensors.size := by
  refine Nat.lt_of_not_le fun outside => ?_
  rw [tensor_of_le outside] at uses
  cases uses

theorem lt_of_src (source : o ∈ (g.tensor t).src.ops) : t.idx < g.tensors.size := by
  refine Nat.lt_of_not_le fun outside => ?_
  rw [tensor_of_le outside] at source
  cases source

end Arena

namespace Build

variable {l : List TensorId} {F : Tensor → Tensor}

theorem forM_modifyTensor {g : Arena} {f : TensorId → Build Unit}
    (Q : Tensor → Prop) (turn : ∀ t ∈ l, ∀ h : Arena, Q (h.tensor t) →
      f t h = .ok () (h.modifyTensor t F))
    (kept : ∀ x, Q x → Q (F x)) (twice : ∀ x, F (F x) = F x)
    (known : ∀ t ∈ l, t.idx < g.tensors.size) (start : ∀ t ∈ l, Q (g.tensor t)) :
    ∃ g', l.forM f g = .ok () g' ∧ g' = { g with tensors := g'.tensors } ∧
    g'.tensors.size = g.tensors.size ∧
      ∀ u, g'.tensor u = if u ∈ l then F (g.tensor u) else g.tensor u := by
  induction l generalizing g with
  | nil => exact ⟨g, rfl, rfl, rfl, fun u => by simp⟩
  | cons t l ih =>
    have first := turn t mem_cons_self g (start t mem_cons_self)
    have read := Arena.tensor_modifyTensor (g := g) t (f := F) (h := known t mem_cons_self)
    obtain ⟨g', run, rest, size, tensors⟩ := ih (g := g.modifyTensor t F)
      (fun u hu => turn u (mem_cons_of_mem _ hu))
      (fun u hu => by simpa using known u (mem_cons_of_mem _ hu))
      (fun u hu => by grind)
    refine ⟨g', by rw [List.forM, bind_run first, run], rest, by simpa using size, fun u => ?_⟩
    grind

/-- A loop that changes each tensor of a list once. -/
theorem forM_modifyEach {g : Arena} {f : TensorId → Build Unit} (nodup : l.Nodup)
    (Q : Tensor → Prop) (turn : ∀ t ∈ l, ∀ h : Arena, Q (h.tensor t) →
      f t h = .ok () (h.modifyTensor t F))
    (known : ∀ t ∈ l, t.idx < g.tensors.size) (start : ∀ t ∈ l, Q (g.tensor t)) :
    ∃ g', l.forM f g = .ok () g' ∧ (∀ o, g'.op o = g.op o) ∧ g'.tensors.size = g.tensors.size ∧
      ∀ u, g'.tensor u = if u ∈ l then F (g.tensor u) else g.tensor u := by
  induction l generalizing g with
  | nil => simp_all
  | cons t l ih =>
    obtain ⟨fresh, nodup⟩ := nodup_cons.1 nodup
    have first := turn t mem_cons_self g (start t mem_cons_self)
    obtain ⟨g', run, op, size, tensor⟩ := ih (g := g.modifyTensor t F) nodup
      (fun u hu => turn u (mem_cons_of_mem _ hu))
        (fun u hu => by simpa using known u (mem_cons_of_mem _ hu))
      (fun u hu => by
        have ne : u ≠ t := by
          rintro rfl
          exact fresh hu
        grind [Arena.tensor_modifyTensor_ne, mem_cons_of_mem])
    refine ⟨g', by rw [List.forM, bind_run first, run], op, by simpa using size, fun u => ?_⟩
    rw [tensor, Arena.tensor_modifyTensor _ _ _ (known t mem_cons_self)]
    grind

/-! ## What stays of each node -/

section Stays

variable {γ : Type} {g : Arena}

def Frame.ofOps (q : Operator → γ) : Frame where
  rel g h := ∀ o, q (h.op o) = q (g.op o)
  refl _ _ := rfl
  trans first second o := (second o).trans (first o)

def Frame.ofTensors (q : Tensor → γ) : Frame where
  rel g h := ∀ t, q (h.tensor t) = q (g.tensor t)
  refl _ _ := rfl
  trans first second t := (second t).trans (first t)

instance (q : Operator → γ) : Within.SeesTensor (.ofOps q) t fun _ => () :=
  ⟨fun _ => ⟨fun run _ => modifyTensor_ok.1 run ▸ rfl⟩⟩

instance (q : Operator → γ) : Within.SeesOp (.ofOps q) o q where
  modify same := ⟨fun run p => by grind [modifyOp_ok, Arena.op_modifyOp_ite]⟩

instance (q : Tensor → γ) : Within.SeesTensor (.ofTensors q) t q where
  modify same := ⟨fun run u => by grind [modifyTensor_ok, Arena.tensor_modifyTensor_ite]⟩

instance (q : Tensor → γ) : Within.SeesOp (.ofTensors q) o fun _ => () :=
  ⟨fun _ => ⟨fun run _ => modifyOp_ok.1 run ▸ rfl⟩⟩

end Stays

end Build

/-! ## Small arenas -/

/-- Tensors of given shapes, sources and users, over dimensions of given sizes, and operators. -/
def Arena.ofNodes (sizes : List Nat) (tensors : List (List Nat × List Nat × List Nat))
    (ops : Array Operator) : Arena where
  dims := (sizes.map fun n : Nat => Dim.static n).toArray
  tensors := (tensors.map fun t => { Tensor.ofShape (t.1.map DimId.mk) with
    src := .ofList (t.2.1.map OpId.mk), dst := .ofList (t.2.2.map OpId.mk) }).toArray
  ops
  namer := ⟨0, 0, [], []⟩
  target := some ⟨.cuda, []⟩

def Operator.between (cls : OpClass) (xs ys : List Nat) : Operator :=
  { Operator.ofClass cls cls.label with inputs := some (xs.map TensorId.mk), outputs := some (ys.map
    TensorId.mk) }

end TensorGraph

import TensorGraph.Proofs.SlicedReads
import TensorGraph.Strided.View

/-!
# Reading before a view

A user of a viewed tensor may be made to read the tensor before the view, in the shape that this
has.
-/

namespace TensorGraph

open Build List

variable {g h : Arena} {t x y : TensorId} {o : OpId} {ts : List TensorId} {as : List Accessor}
  {i : Nat}

namespace Strided

theorem updateInputAccessor_run {f : DimTable → Accessor → Accessor × Option Fault} {a : Accessor}
    (known : (g.op o).inputAccessors = some as) (here : as[i]? = some a)
    (fits : (f g.dim a).2 = none) :
    updateInputAccessor o i f g = .ok () (g.modifyOp o fun p =>
      { p with inputAccessors := some (as.set i (f g.dim a).1) }) := by
  rw [updateInputAccessor, bind_run (op_run o), bind_run (expect_ok.2 ⟨known, rfl⟩),
    bind_run (expect_ok.2 ⟨here, rfl⟩), bind_run (show look g = .ok g.dim g from rfl)]
  dsimp only
  rw [fits]
  rfl

/-- While a user of a viewed tensor looks through its operands: it has passed the first `n`. -/
structure Reading (g : Arena) (o : OpId) (x y : TensorId) (ts : List TensorId) (as : List Accessor)
    (n : Nat) (b : Bool)
    (h : Arena) : Prop where
  dim : h.dim = g.dim
  loose : (h.tensor x).dst.fixed = false
  found : b = true ↔ y ∈ ts.take n
  inputs : ∃ xs, (h.op o).inputs = some xs ∧ ∀ j : Nat, xs[j]? = if j < n then ts[j]?.map fun t =>
    if t = y then x else t else ts[j]?
  accessors : ∃ bs, (h.op o).inputAccessors = some bs ∧ ∀ j : Nat, n ≤ j → bs[j]? = as[j]?

/-- A user of a viewed tensor can be made to read the tensor before the view exactly if the viewed
tensor is among the operands that it has accessors for; these then read the tensor before the view,
and other operands stay. -/
theorem readViewed_returns_iff (inputs : (g.op o).inputs = some ts)
    (known : (g.op o).inputAccessors = some as) (length : as.length ≤ ts.length)
    (plain : ∀ a ∈ as, (a.reshape g.dim (g.tensor x).shape).2 = none)
    (loose : (g.tensor x).dst.fixed = false) :
    ((∃ h, readViewed o x y g = .ok () h) ↔ y ∈ ts.take as.length) ∧ ∀ h, readViewed o x y g =
    .ok () h → ∀ j : Nat,
      (h.op o).inputList[j]? = if j < as.length then ts[j]?.map fun t =>
        if t = y then x else t else ts[j]? := by
  rw [readViewed, bind_run (op_run o), bind_run (expect_ok.2 ⟨known, rfl⟩),
    bind_run (show shape x g = .ok (g.tensor x).shape g from rfl)]
  generalize fold : (foldlM _ false as.zipIdx : Build Bool) = step
  obtain ⟨b, h, run, reading⟩ : ∃ b h, step g = .ok b h ∧ Reading g o x y ts as as.zipIdx.length
    b h := by
    rw [← fold]
    refine foldlM_arrives (fun done => Reading g o x y ts as done.length)
      (fun done e rest split b h reading => ?_)
      ⟨rfl, loose, by simp, ⟨ts, inputs, by simp⟩, as, known, fun _ _ => rfl⟩
    obtain ⟨a, i⟩ := e
    obtain ⟨xs, reads, now⟩ := reading.inputs
    obtain ⟨bs, strides, later⟩ := reading.accessors
    have inside : o.idx < h.ops.size := Arena.lt_of_some rfl reads
    obtain ⟨rfl, here⟩ : done.length = i ∧ as[done.length]? = some a := by
      have entry : as.zipIdx[done.length]? = some (a, i) := by simp [split]
      simpa [getElem?_zipIdx, and_comm] using entry
    obtain ⟨t, operand⟩ : ∃ t, ts[done.length]? = some t :=
      ⟨_, List.getElem?_eq_getElem ((List.getElem?_eq_some_iff.1 here).1.trans_le length)⟩
    have read : xs[done.length]? = some t := by rw [now, if_neg (lt_irrefl _), operand]
    have taken : ts.take (done.length + 1) = ts.take done.length ++ [t] := by
      rw [take_add_one, operand]; rfl
    dsimp only
    rw [bind_run (inputs_ok.2 ⟨reads, rfl⟩), bind_run (expect_ok.2 ⟨read, rfl⟩)]
    by_cases same : t = y
    · have fits : (a.reshape h.dim (g.tensor x).shape).2 = none := by
        rw [reading.dim]
        exact plain a (mem_of_getElem? here)
      rw [if_neg (by simpa using same), bind_run
        (updateInputAccessor_run strides ((later _ le_rfl).trans here) fits),
        bind_run (modifyOp_run _ _)]
      refine ⟨true, _, bind_ok.2 ⟨(), _, addDst_ok.2 ⟨reading.loose, rfl⟩, rfl⟩,
        ⟨reading.dim, ?_, ?_, ⟨xs.set done.length x, ?_, fun j => ?_⟩,
        bs.set done.length (a.reshape h.dim (g.tensor x).shape).1, ?_, fun j le => ?_⟩⟩
      · rw [Arena.tensor_modifyTensor_ite]
        unfold Links.insert
        repeat' split
        all_goals exact reading.loose
      · simp [taken, same]
      · simp [inside, reads]
      · grind
      · simp [inside]
      · grind
    · rw [if_pos (by simpa using same)]
      refine ⟨b, h, rfl, ⟨reading.dim, reading.loose, ?_, ⟨xs, reads, fun j => ?_⟩, bs, strides,
        fun j le => ?_⟩⟩
      · simp [taken, reading.found, Ne.symm same]
      · grind
      · grind
  rw [bind_run run]
  rw [length_zipIdx] at reading
  constructor
  · rw [← reading.found]
    simp [require_ok]
  · intro h run j
    obtain ⟨-, rfl⟩ := require_ok.1 run
    obtain ⟨xs, reads, now⟩ := reading.inputs
    rw [Operator.inputList, reads]
    exact now j

/-- A layer that scales by a view of a tensor has an accessor for its first operand only. -/
def scaledLayer : Arena :=
  .ofNodes [4, 8, 2] [([0, 1], [], [0]), ([2, 0], [], [1]), ([1], [1], [0]), ([1], [], [0]),
    ([0, 1], [0], [])]
    #[{ Operator.between .layernorm [0, 2, 3] [4] with inputAccessors := some [.ofShape [⟨0⟩, ⟨1⟩]]
      }, .between .reshape [1] [2]]

/-- It cannot be made to read the tensor before the view. -/
theorem readViewed_returns_iff_layer : Graph.Valid scaledLayer ((range 5).map .mk) ∧
    ¬∃ h, readViewed ⟨0⟩ ⟨1⟩ ⟨2⟩ scaledLayer = .ok () h := by
  refine ⟨(Graph.check_ok.1 rfl).1, ?_⟩
  rw [(readViewed_returns_iff rfl rfl (by decide) (by decide) rfl).1]
  decide

end Strided

end TensorGraph

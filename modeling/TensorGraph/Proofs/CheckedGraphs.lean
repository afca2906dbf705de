import Mathlib
import TensorGraph.Proofs.Tidying

/-!
# Graphs that pass the check

The check makes two walks and never looks for a cycle.  There is none all the same: every link leads
up in `height`.
-/

namespace TensorGraph.Graph

open List

variable {g : Arena} {ts : Graph}

/-- The links of the tensors of a list, from a source to its tensor and from a tensor to its
user. -/
inductive Link (g : Arena) (ts : Graph) : TensorId ⊕ OpId → TensorId ⊕ OpId → Prop
  | source {t : TensorId} {o : OpId} : t ∈ ts → o ∈ (g.tensor t).src.ops → Link g ts (.inr o)
    (.inl t)
  | user {t : TensorId} {o : OpId} : t ∈ ts → o ∈ (g.tensor t).dst.ops → Link g ts (.inl t) (.inr o)

/-- The height of a tensor is given by its first mention; an operator is right above its last
input. -/
def height (g : Arena) (ts : Graph) : TensorId ⊕ OpId → Nat
  | .inl t => 2 * ts.idxOf t + 1
  | .inr o => (g.op o).inputList.toFinset.sup fun x => 2 * ts.idxOf x + 2

namespace Valid

variable (valid : Valid g ts)
include valid

theorem height_lt {v w : TensorId ⊕ OpId} (link : Link g ts v w) :
    height g ts v < height g ts w := by
  cases link with
  | source ht ho =>
    refine (Finset.sup_lt_iff (Nat.succ_pos _)).2 fun x hx => ?_
    have before : ts.idxOf x < ts.idxOf _ := valid.before ht ho (mem_toFinset.1 hx)
    omega
  | user ht ho =>
    have read := mem_toFinset.2 (valid.uses ht ho).2.1
    exact Finset.le_sup (f := fun x => 2 * ts.idxOf x + 2) read

theorem acyclic (v : TensorId ⊕ OpId) : ¬ Relation.TransGen (Link g ts) v v := by
  have rises : ∀ w, Relation.TransGen (Link g ts) v w → height g ts v < height g ts w := by
    intro w path
    induction path with
    | single link => exact valid.height_lt link
    | tail _ link ih => exact ih.trans (valid.height_lt link)
  exact fun cycle => Nat.lt_irrefl _ (rises v cycle)

theorem agrees : Agrees g ts where
  applied _ ht _ ho := ho.elim (valid.applied ht) fun ho => (valid.uses ht ho).1
  source_writes _ ht _ ho := valid.writes ht ho
  source_reads _ ht _ ho _ hx := valid.reads ht ho hx
  user_reads _ ht _ ho := (valid.uses ht ho).2.1
  user_writes _ ht _ ho := (valid.uses ht ho).2.2

end Valid

/-- In a list that passes the check, tensors and operators agree on who reads and who writes what,
and the links have no cycle.  A list without repetition passes it if they agree and what is read
stands before what is written. -/
theorem check_agrees (raise : Bool) (g : Arena) (ts : Graph) :
    (∀ g', check raise ts g = .ok true g' → Agrees g ts ∧
      ∀ v, ¬ Relation.TransGen (Link g ts) v v) ∧
    (ts.Nodup → Agrees g ts →
      (∀ t ∈ ts, ∀ o ∈ (g.tensor t).src.ops, ∀ x ∈ (g.op o).inputList, Before ts x t) →
      check raise ts g = .ok true g) := by
  constructor
  · intro g' run
    have valid := ((check_passes (Or.inr rfl)).1 run).1
    exact ⟨valid.agrees, valid.acyclic⟩
  · intro nodup agrees before
    have ordered : Ordered g ts := fun t ht o ho =>
      ⟨(agrees.applied t ht o (Or.inl ho)).1, before t ht o ho⟩
    have valid := agrees.valid_filter ordered nodup (fun _ => true) fun _ _ _ => rfl
    rw [filter_true] at valid
    exact (check_passes (Or.inr rfl)).2 ⟨valid, rfl, rfl⟩

/-- Two chained operators pass the check in either way of reporting. -/
theorem check_agrees_chain :
    let g := Arena.ofNodes [4] [([0], [], [0]), ([0], [0], [1]), ([0], [1], [])]
      #[.between .elementwise [0] [1], .between .softmax [1] [2]]
    check false ((range 3).map .mk) g = .ok true g := by
  intro g
  have agrees := ((check_agrees true g ((range 3).map .mk)).1 g rfl).1
  exact (check_agrees false g _).2 (by decide) agrees (by decide)

end TensorGraph.Graph

import TensorGraph.Fusion.Concat
import TensorGraph.Proofs.Blocks
import TensorGraph.Proofs.Tidying

/-!
# Values of the tensors of a graph

When a program runs, each tensor of its graph holds a block.
-/

namespace TensorGraph

open List

variable {α : Type}

variable {v : Value} {k : Nat} {o : OpId}

/-! ## What operators compute -/

abbrev Functions (α : Type) := OpId → List (Block α) → Option (List (Block α))

namespace Value

def nat? : Value → Option Nat
  | .int n => if 0 ≤ n then some n.toNat else .none
  | _ => .none

def nats? : Value → Option (List Nat)
  | .list vs => vs.mapM nat?
  | _ => .none

theorem eq_of_not_ne {n : Int} (h : (v != .int n) = false) : v = .int n := by
  cases v with
  | int m =>
    have same : (m == n) = true := by
      have : (Value.int m != .int n) = !(m == n) := rfl
      simpa [this] using h
    rw [eq_of_beq same]
  | _ => cases h

theorem nat?_eq_some (h : v.nat? = some k) : ∃ n, v = .int n := by
  cases v with
  | int n => exact ⟨n, rfl⟩
  | _ => cases h

end Value

namespace Operator

variable {p : Operator}

def meaning (functions : Functions α) (o : OpId) (p : Operator) (xs : List (Block α)) :
    Option (List (Block α)) :=
  if p.kind = "concatenate" then do
    let k ← (p.param? "concat_dim").bind Value.nat?
    let y ← Block.join? k xs
    return [y]
  else if p.kind = "split" then
    match xs with
    | [x] => do
      let k ← (p.param? "split_dim").bind Value.nat?
      let ns ← (p.param? "split_sizes").bind Value.nats?
      Block.split? k ns x
    | _ => none
  else functions o xs

/-- All inputs of a concatenation are copied as they are. -/
structure CopiesAll (p : Operator) : Prop where
  masks : ∃ ms, p.inputMasks = some ms ∧ ms.all id = true
  accessors : ∃ as, p.inputAccessors = some as ∧ as.all (·.strideDim.isNone) = true

theorem meaning_concat {functions : Functions α} (kind : p.kind = "concatenate")
    {xs ys : List (Block α)} :
    p.meaning functions o xs = some ys ↔
      ∃ k y, (p.param? "concat_dim").bind Value.nat? = some k ∧ Block.join? k xs = some y ∧
        ys = [y] := by
  unfold meaning
  rw [if_pos kind]
  simp only [Option.bind_eq_bind, Option.bind_eq_some_iff, Option.pure_def, Option.some.injEq]
  grind

theorem meaning_split {functions : Functions α} (kind : p.kind = "split") {xs ys : List (Block α)}
    (h : p.meaning functions o xs = some ys) :
    ∃ k ns x, (p.param? "split_dim").bind Value.nat? = some k ∧ xs = [x] ∧
    Block.split? k ns x = some ys := by
  unfold meaning at h
  rw [if_neg (by simp [kind]), if_pos kind] at h
  grind [Option.bind_eq_bind, Option.bind_eq_some_iff]

end Operator

namespace Graph

variable {g : Arena}

/-! ## The values -/

def Holds (functions : Functions α) (val : TensorId → Block α) (g : Arena) (o : OpId) : Prop :=
  (g.op o).meaning functions o ((g.op o).inputList.map val) = some ((g.op o).outputList.map val)

/-- The blocks fit all operators of a graph, and those of the tensors that nothing produces are the
given ones. -/
structure Computes (functions : Functions α) (g : Arena) (ts : Graph)
    (given val : TensorId → Block α) : Prop where
  leaf : ∀ t ∈ ts, (g.tensor t).src.ops = [] → val t = given t
  made : ∀ o, InGraph g ts o → Holds functions val g o

/-- The given values determine those of all tensors. -/
theorem Computes.unique {functions : Functions α} {ts : Graph} {given val val' : TensorId → Block α}
    (valid : Valid g ts) (h : Computes functions g ts given val)
    (h' : Computes functions g ts given val') :
    ∀ t ∈ ts, val t = val' t := by
  -- along the order, since an operator reads tensors in front only
  suffices front : ∀ l r, ts = l ++ r → ∀ t ∈ l, val t = val' t from fun t ht =>
    front ts [] (by simp) t ht
  intro l
  induction l using reverseRecOn with
  | nil => exact fun r _ t ht => absurd ht (by simp)
  | append_singleton l t ih =>
    intro r split u hu
    have split' : ts = l ++ t :: r := by rw [split, append_assoc]; rfl
    rcases mem_append.1 hu with hu | hu
    · exact ih _ split' u hu
    · obtain rfl := mem_singleton.1 hu
      have mem : u ∈ ts := by simp [split]
      cases sources : (g.tensor u).src.ops with
      | nil => rw [h.leaf u mem sources, h'.leaf u mem sources]
      | cons o os =>
        have ho : o ∈ (g.tensor u).src.ops := by simp [sources]
        have fits := valid.sources l u r split' o ho
        have inputs : (g.op o).inputList.map val = (g.op o).inputList.map val' :=
          map_congr_left fun x hx => ih _ split' x (fits.reads x hx).1
        have here := h.made o ⟨u, mem, ho⟩
        have there := h'.made o ⟨u, mem, ho⟩
        unfold Holds at here there
        rw [inputs, there, Option.some.injEq] at here
        exact (map_inj_left.1 here u fits.writes).symm

/-! ## Parts and wholes -/

def Exchange (val : TensorId → Block α) (k : Nat) (xs ys : List TensorId) : Prop :=
  ∀ front back, Block.join? k (front ++ xs.map val ++ back) = Block.join? k
    (front ++ ys.map val ++ back)

theorem Exchange.of_concat {functions : Functions α} {val : TensorId → Block α}
    (kind : (g.op o).kind = "concatenate") (axis : (g.op o).param? "concat_dim" = some v)
    (holds : Holds functions val g o) :
    ∃ k, v.nat? = some k ∧ Exchange val k (g.op o).outputList (g.op o).inputList := by
  obtain ⟨k, y, known, joined, outputs⟩ := (Operator.meaning_concat kind).1 holds
  rw [axis] at known
  refine ⟨k, known, fun front back => ?_⟩
  rw [outputs, Block.join?_run joined]

theorem Exchange.of_split {functions : Functions α} {val : TensorId → Block α}
    (kind : (g.op o).kind = "split") (axis : (g.op o).param? "split_dim" = some v)
    (holds : Holds functions val g o) :
    ∃ k, v.nat? = some k ∧ Exchange val k (g.op o).outputList (g.op o).inputList := by
  obtain ⟨k, ns, x, known, input, parts⟩ := Operator.meaning_split kind holds
  rw [axis] at known
  refine ⟨k, known, fun front back => ?_⟩
  rw [input, Block.join?_run (Block.join?_split parts)]

theorem Exchange.contract {val : TensorId → Block α} {parts whole : List TensorId}
    (h : Exchange val k parts whole) (n : Nat) (ts : List TensorId) (front : List (Block α)) :
    Block.join? k (front ++ (ConcatFusion.contract parts whole n ts).map val) =
    Block.join? k (front ++ ts.map val) := by
  fun_induction ConcatFusion.contract parts whole n ts generalizing front with
  | case1 => rfl
  | case2 => rfl
  | case3 n t ts found ih =>
    simp only [Bool.and_eq_true] at found
    obtain ⟨rest, split⟩ := isPrefixOf_iff_prefix.1 found.2
    have dropped : (t :: ts).drop parts.length = rest := by rw [← split, drop_left]
    calc Block.join? k (front ++
      (whole ++ ConcatFusion.contract parts whole n ((t :: ts).drop parts.length)).map val)
      _ = Block.join? k ((front ++ whole.map val) ++
        (ConcatFusion.contract parts whole n ((t :: ts).drop parts.length)).map val) := by
        rw [map_append, append_assoc]
      _ = Block.join? k (front ++ whole.map val ++ rest.map val) := by rw [ih, dropped]
      _ = Block.join? k (front ++ parts.map val ++ rest.map val) := (h front (rest.map val)).symm
      _ = Block.join? k (front ++ (t :: ts).map val) := by grind
  | case4 n t ts _ ih =>
    have step := ih (front ++ [val t])
    simpa [append_assoc] using step

end Graph

end TensorGraph

import TensorGraph.Op.Scatter
import TensorGraph.Proofs.Bypassing
import TensorGraph.Proofs.FailingSteps
import TensorGraph.Proofs.OptimizedNames

/-!
# Users that are forgotten

When slices that are joined, reshaped and joined again become one operator, and when parallel
products do, the operands are made to know the new operators only.
-/

namespace TensorGraph

open Build List

variable {g h : Arena} {t x y : TensorId} {o : OpId} {M : Nat} {f : Tensor → Tensor}
  {P : OpId → Prop}

namespace Build

def UsedBy (P : OpId → Prop) (x : TensorId) (h : Arena) : Prop := ∀ p ∈ (h.tensor x).dst.ops, P p

/-- No operator below a number is known to use a tensor, and none that makes a tensor of a valid
graph reads it. -/
structure Forgets (M : Nat) (h : Arena) (x : TensorId) : Prop where
  users : ∀ p ∈ (h.tensor x).dst.ops, M ≤ p.idx
  readers : ∀ ts, Graph.Valid h ts → ∀ t ∈ ts, ∀ p ∈ (h.tensor t).src.ops, x ∈ (h.op p).inputList →
    M ≤ p.idx

theorem UsedBy.forgets (users : UsedBy (M ≤ ·.idx) x h) : Forgets M h x :=
  ⟨users, fun _ valid _ ht p makes reads => users p (valid.reads ht makes reads).2⟩

theorem Forgets.not_valid (forgets : Forgets M h x) (makes : o ∈ (h.tensor t).src.ops)
    (reads : x ∈ (h.op o).inputList) (old : o.idx < M) (ts : Graph) (ht : t ∈ ts) :
    ¬Graph.Valid h ts :=
  fun valid => absurd old (Nat.not_lt.2 (forgets.readers ts valid t ht o makes reads))

theorem usedBy_set (dst : ∀ z, ∀ p ∈ (f z).dst.ops, P p) (why : x = t ∨ UsedBy P x g) :
    UsedBy P x (g.modifyTensor t f) := by
  intro p hp
  rw [Arena.tensor_modifyTensor_ite] at hp
  split at hp
  · exact dst _ p hp
  · next e => exact why.elim (fun same => absurd ⟨same, same ▸ Arena.lt_of_dst hp⟩ e) (· p hp)

def Frame.usedBy (P : OpId → Prop) (x : TensorId) : Frame where
  rel g h := UsedBy P x g → UsedBy P x h
  refl _ := id
  trans first second := second ∘ first

theorem usedBy_modifyTensor (dst : t = x → ∀ z, ∀ p ∈ (f z).dst.ops, p ∈ z.dst.ops ∨ P p) :
    Within (.usedBy P x) (modifyTensor t f) where
  keeps run before p hp := by
    rw [modifyTensor_ok.1 run, Arena.tensor_modifyTensor_ite] at hp
    split at hp
    · next e => exact (dst e.1.symm _ p hp).elim (before p) id
    · exact before p hp

instance : Within.SeesTensor (.usedBy P x) t Tensor.dst :=
  ⟨fun same => usedBy_modifyTensor fun _ z _ h => .inl (same z ▸ h)⟩

instance : Within.SeesOp (.usedBy P x) o fun _ => () :=
  ⟨fun _ => ⟨fun run => modifyOp_ok.1 run ▸ id⟩⟩

instance : Within (.usedBy P x) (detach t) := usedBy_modifyTensor fun _ _ _ hp => by cases hp

instance : Within (.usedBy P x) (Scatter.unlink t) :=
  usedBy_modifyTensor fun _ _ _ hp => by cases hp

instance : Within (.usedBy P x) (removeDst t o) := by
  have := usedBy_modifyTensor (P := P) (x := x) (t := t)
    (f := fun z => { z with dst := z.dst.erase o })
    fun _ _ _ hp => .inl (mem_of_mem_filter hp)
  exact .of_parts

theorem usedBy_addDst (new : t = x → P o) : Within (.usedBy P x) (addDst t o) := by
  have := usedBy_modifyTensor (P := P) (x := x) (t := t)
    (f := fun z => { z with dst := z.dst.insert o }) fun same _ p hp => by
    grind [Links.mem_insert]
  exact .of_parts

instance [new : New M o] : Within (.usedBy (M ≤ ·.idx) x) (linkInputs o) := by
  have (t : TensorId) : Within (.usedBy (M ≤ ·.idx) x) (addDst t o) := usedBy_addDst fun _ => new.le
  exact .of_parts

instance [ne : Fact (y ≠ x)] : Within (.usedBy P x) (replaceTensor t y) := by
  have (o : OpId) : Within (.usedBy P x) (addDst y o) := usedBy_addDst fun same =>
    absurd same ne.out
  exact .of_parts

end Build

namespace Scatter

/-- After slices that are joined, reshaped and joined again have become one operator, no operator of
before is known to use what that reads. -/
theorem joinReshaped_forgets {cat reshape cat2 : OpId}
    (run : joinReshaped cat reshape cat2 g = .ok o h) :
    ∀ x ∈ (h.op o).inputList, Forgets g.ops.size h x := by
  simp only [joinReshaped, bind_ok, op_ok, inputs_ok, outputs_ok, modifyOp_ok, forIn_eq_forM,
    pure_ok] at run
  obtain ⟨_, _, ⟨-, rfl⟩, new, _, made, run⟩ := run
  iterate 11 obtain ⟨_, _, -, run⟩ := run
  obtain ⟨xs, _, -, ys, _, -, _, _, rfl, _, g₄, set, _, g₅, added, run⟩ := run
  obtain ⟨_, g₆, cut, _, _, ⟨-, rfl⟩, _, g₇, cut', _, _, ⟨-, rfl⟩, _, g₈, cut'', _, g₉, linked, rfl,
    rfl⟩ := run
  have fresh : New g.ops.size new := ⟨Creates.new (Nat.le_refl _) made⟩
  -- after the operands know the new operator only, links are cut or lead to it
  have rest (R : Frame) (adds : ∀ t, Within R (addSrc t new)) (cuts : ∀ t, Within R (unlink t))
    (links : Within R (linkInputs new)) :
      R.rel g₄ g₉ := R.trans (R.keeps added)
        (R.trans (R.keeps cut) (R.trans (R.keeps cut') (R.trans (R.keeps cut'') (R.keeps linked))))
  have same := (rest (.ofOps Operator.inputs) (fun _ => .of_parts) (fun _ => .of_parts) .of_parts
    new).trans (((Frame.ofOps Operator.inputs).keeps set) new)
  intro x hx
  rw [Operator.inputList, same, Arena.op_modifyOp_ite] at hx
  refine UsedBy.forgets (rest (.usedBy (g.ops.size ≤ ·.idx) x) (fun _ => .of_parts) inferInstance
    inferInstance ?_)
  have dst : ∀ z : Tensor, ∀ p ∈ ({ z with dst := .ofList [new] } : Tensor).dst.ops, g.ops.size ≤
    p.idx := by
    intro z p hp
    exact mem_singleton.1 hp ▸ fresh.le
  refine forM_does (UsedBy (g.ops.size ≤ ·.idx))
    (fun x _ a a' _ turn => modifyTensor_ok.1 turn ▸ usedBy_set dst (.inl rfl))
    (fun x _ t _ a a' _ kept turn => modifyTensor_ok.1 turn ▸ usedBy_set dst (.inr kept)) set x ?_
  split at hx
  · exact hx
  · next e =>
    rw [Arena.op_of_le (by simpa using e)] at hx
    cases hx

/-- A slice is joined, reshaped and joined with something else, and something else reads what it is
cut from. -/
def slicedJoins : Arena :=
  .ofNodes [2, 4, 1] [([0, 1], [], [0, 4]), ([0, 0], [0], [1]), ([0, 0], [1], [2]),
    ([0, 0, 2], [2], [3]), ([0, 0, 2], [], [3]),
      ([0, 1, 2], [3], []), ([0, 1], [4], [])]
    #[.between .dynamicSlice [0] [1],
      { Operator.between .concatenate [1] [2] with params := [("concat_dim", .int 1)] },
      .between .reshape [2] [3], { Operator.between .concatenate [3, 4] [5] with
        givenInputs := some [⟨3⟩, ⟨4⟩], inputMasks := some [true, true], params :=
          [("concat_dim", .int 1)]
        inputAccessors := some [.ofShape [⟨0⟩, ⟨0⟩, ⟨2⟩], .ofShape [⟨0⟩, ⟨0⟩, ⟨2⟩]] },
      .between .softmax [0] [6]]

theorem joinReshaped_forgets_softmax : Graph.Valid slicedJoins ((range 7).map .mk) ∧
    ∃ o h, joinReshaped ⟨1⟩ ⟨2⟩ ⟨3⟩ slicedJoins = .ok o h ∧ ⟨0⟩ ∈ (h.op ⟨4⟩).inputList ∧
    ∀ ts, ⟨6⟩ ∈ ts → ¬Graph.Valid h ts := by
  obtain ⟨o, h, run, test⟩ := exists_ok (g := slicedJoins) (x := joinReshaped ⟨1⟩ ⟨2⟩ ⟨3⟩)
    (P := fun o h =>
    (h.op o).inputList.contains ⟨0⟩ && (h.op ⟨4⟩).inputList.contains ⟨0⟩ &&
      (h.tensor ⟨6⟩).src.ops.contains ⟨4⟩) (by decide +kernel)
  simp only [Bool.and_eq_true, contains_iff_mem] at test
  obtain ⟨⟨mem, reads⟩, makes⟩ := test
  exact ⟨(Graph.check_ok.1 rfl).1, o, h, run, reads, (joinReshaped_forgets run _ mem).not_valid
    makes reads (by decide)⟩

end Scatter

namespace Parallel

instance (xs ws bs : List TensorId) : MakesNew (batchedProduct xs ws bs) := by
  unfold batchedProduct
  dsimp only
  repeat' first | infer_instance | split | refine .bind_of fun _ => ?_

/-- After products have become one, no operator of before is known to use their operands. -/
theorem merge_forgets {products : List OpId} {cat : OpId} {made : List TensorId}
    (run : merge products cat g = .ok made h) (mem : o ∈ products) (reads : x ∈ (g.op o).inputList)
    (known : x.idx < g.tensors.size) : Forgets g.ops.size h x := by
  simp only [merge, bind_ok] at run
  obtain ⟨_, g₁, cleared, triples, g₂, took, y, g₃, made, ts, _, read, whole, _, out, rest⟩ := run
  obtain ⟨-, rfl⟩ := inputs_ok.1 read
  obtain rfl := ReadOnly.keeps out
  simp only [← bind_assoc, forIn_eq_forM] at cleared
  -- first all operands of all products lose their users
  obtain ⟨ops, gone⟩ : g₁.ops = g.ops ∧ (o ∈ products → UsedBy (g.ops.size ≤ ·.idx) x g₁) := by
    refine forM_walks (fun done a => a.ops = g.ops ∧ (o ∈ done → UsedBy (g.ops.size ≤ ·.idx) x a))
      (fun done q _ _ a a' _ before turn => ?_) ⟨rfl, by simp⟩ cleared
    obtain ⟨ts, _, listed, turn⟩ := bind_ok.1 turn
    obtain ⟨operands, rfl⟩ := inputs_ok.1 listed
    obtain ⟨ops, gone⟩ := forM_walks (fun passed b => b.ops = g.ops ∧
      (x ∈ passed ∨ UsedBy (g.ops.size ≤ ·.idx) x a →
      UsedBy (g.ops.size ≤ ·.idx) x b)) (fun passed t _ _ b b' _ before turn => by
        obtain rfl := modifyTensor_ok.1 turn
        exact ⟨before.1, fun why => usedBy_set (fun _ _ hp => by cases hp) (by grind)⟩)
          ⟨before.1, by simp⟩ turn
    refine ⟨ops, fun ho => gone ?_⟩
    rcases mem_append.1 ho with ho | ho
    · exact .inr (before.2 ho)
    · rw [Operator.inputList, Arena.op_eq, ← before.1, ← Arena.op_eq, mem_singleton.1 ho,
        operands] at reads
      exact .inl reads
  have old := (Frame.marks.keeps cleared).size
  obtain rfl := ReadOnly.keeps took
  have ne : Fact (y ≠ x) := ⟨fun same => by
    have := (MakesNew.new made).1
    rw [same] at this
    omega⟩
  -- what is built from then on links new operators only
  have kept : UsedBy (g.ops.size ≤ ·.idx) x g₃ := fun p hp => Nat.le_of_not_lt fun low =>
    absurd
      (gone mem p (((((Frame.built g.ops.size).keeps made) (ops ▸ Nat.le_refl _)).dst x p low).1
      hp)) (Nat.not_le.2 low)
  have : Within (.usedBy (g.ops.size ≤ ·.idx) x) (addDst y cat) := usedBy_addDst fun same =>
    absurd same ne.out
  exact (((Frame.usedBy (g.ops.size ≤ ·.idx) x).keeps rest) kept).forgets

/-- Two products with a common weight, which something else reads too, are joined. -/
def commonWeight : Arena :=
  .ofNodes [4, 8, 16] [([0, 1], [], [0]), ([0, 1], [], [1]), ([1, 1], [], [0, 1, 3]),
    ([1], [], [0, 1]), ([0, 1], [0], [2]), ([0, 1], [1], [2]),
      ([0, 2], [2], []), ([1, 1], [3], [])]
    #[.between .gemmRcrBias [0, 2, 3] [4], .between .gemmRcrBias [1, 2, 3] [5],
      { Operator.between .concatenate [4, 5] [6] with params := [("concat_dim", .int 1)] },
        .between .softmax [2] [7]]

theorem merge_forgets_softmax : Graph.Valid commonWeight ((range 8).map .mk) ∧
    ∃ new h, merge [⟨0⟩, ⟨1⟩] ⟨2⟩ commonWeight = .ok new h ∧ ⟨2⟩ ∈ (h.op ⟨3⟩).inputList ∧
    ∀ ts, ⟨7⟩ ∈ ts → ¬Graph.Valid h ts := by
  obtain ⟨new, h, run, test⟩ := exists_ok (g := commonWeight) (x := merge [⟨0⟩, ⟨1⟩] ⟨2⟩)
    (P := fun _ h =>
    (h.op ⟨3⟩).inputList.contains ⟨2⟩ && (h.tensor ⟨7⟩).src.ops.contains ⟨3⟩) (by decide +kernel)
  simp only [Bool.and_eq_true, contains_iff_mem] at test
  obtain ⟨reads, makes⟩ := test
  have forgets := merge_forgets (o := ⟨0⟩) (x := ⟨2⟩) run (by decide) (by decide) (by decide)
  exact ⟨(Graph.check_ok.1 rfl).1, new, h, run, reads, forgets.not_valid makes reads (by decide)⟩

end Parallel

namespace Norm

theorem cutLinks_ok {ts : List TensorId} {u : Unit}
    (run : ts.forM (fun t => setSrc t .empty >>= fun _ => setDst t .empty) g = .ok u h)
    (mem : t ∈ ts) :
    (∀ p, p ∉ (h.tensor t).src.ops) ∧ UsedBy (M ≤ ·.idx) t h := by
  have cut {a a' : Arena} {u v : TensorId} {r : Unit}
    (why : u = v ∨ (∀ p, p ∉ (a.tensor u).src.ops) ∧ UsedBy (M ≤ ·.idx) u a)
      (turn : (setSrc v .empty >>= fun _ => setDst v .empty) a = .ok r a') :
      (∀ p, p ∉ (a'.tensor u).src.ops) ∧ UsedBy (M ≤ ·.idx) u a' := by
    simp only [bind_ok, setSrc, setDst, modifyTensor_ok] at turn
    grind [Arena.modifyTensor_modifyTensor, usedBy_set, Links.empty, Arena.tensor_modifyTensor_ite,
      Arena.lt_of_src]
  exact forM_does (fun t a => (∀ p, p ∉ (a.tensor t).src.ops) ∧ UsedBy (M ≤ ·.idx) t a)
    (fun _ _ _ _ _ => cut (.inl rfl))
    (fun _ _ _ _ _ _ _ before => cut (.inr before)) run t mem

/-- After a layer normalisation has been joined with a sigmoid of it and a product, nothing makes
the normalised tensor and its sigmoid any more, and no operator of before is known to use them. -/
theorem joinSigmoidMul_forgets {layer sigmoid mul : OpId}
    (run : joinSigmoidMul layer sigmoid mul g = .ok o h)
    (mem : (h.op sigmoid).inputList.head? = some t ∨ (h.op sigmoid).outputList.head? = some t) :
    (∀ p, p ∉ (h.tensor t).src.ops) ∧ Forgets g.ops.size h t := by
  simp only [joinSigmoidMul, bind_ok] at run
  obtain ⟨new, _, made, run⟩ := run
  iterate 9 obtain ⟨_, _, -, run⟩ := run
  split at run
  case' h_2 => exact absurd run (by simp [bind_ok])
  simp only [bind_ok, pure_ok] at run
  obtain ⟨_, _, -, _, _, -, _, _, -, _, _, -, a, k, first, b, _, last, _, k', cleared, _, _, linked,
    rfl, rfl⟩ := run
  obtain rfl := ReadOnly.keeps first
  obtain rfl := ReadOnly.keeps last
  have fresh : New g.ops.size new := ⟨Creates.new (Nat.le_refl _) made⟩
  let R := Frame.ofOps fun q => (q.inputs, q.outputs)
  obtain ⟨reads, writes⟩ := Prod.mk.inj (R.trans (R.keeps cleared) (R.keeps linked) sigmoid)
  simp only [← bind_assoc, forIn_eq_forM] at cleared
  have mem : t ∈ [a, b] := by
    simp only [inputAt, outputAt, bind_ok, inputs_ok, outputs_ok, expect_ok] at first last
    obtain ⟨xs, _, ⟨read, rfl⟩, head, -⟩ := first
    obtain ⟨ys, _, ⟨wrote, rfl⟩, head', -⟩ := last
    rw [Operator.inputList, reads, read, Operator.outputList, writes, wrote] at mem
    clear cleared
    rcases xs with _ | ⟨x, xs⟩ <;> rcases ys with _ | ⟨y, ys⟩ <;> grind [at?]
  obtain ⟨unmade, unused⟩ := cutLinks_ok cleared mem
  exact ⟨fun p hp => unmade p ((Frame.fewer.keeps linked) t p hp),
    (((Frame.usedBy (g.ops.size ≤ ·.idx) t).keeps linked) unused).forgets⟩

/-- A normalised tensor has two sigmoids, and each is multiplied with what was normalised. -/
def twoSigmoids : Arena :=
  .ofNodes [4, 8] [([0, 1], [], [0, 2, 4]), ([1], [], [0]), ([1], [], [0]), ([0, 1], [0], [1, 3]),
    ([0, 1], [1], [2]), ([0, 1], [2], []),
      ([0, 1], [3], [4]), ([0, 1], [4], [])]
    #[{ Operator.between .layernorm [0, 1, 2]
      [3] with params := [("gamma_constant", .none), ("beta_constant", .none),
        ("normalized_shape", .none), ("eps", .float 0.00001)] },
      .between .elementwise [3] [4], .between .elementwise [4, 0] [5], .between .elementwise [3]
        [6], .between .elementwise [6, 0] [7]]

theorem joinSigmoidMul_forgets_second : Graph.Valid twoSigmoids ((range 8).map .mk) ∧
    ∃ o h, joinSigmoidMul ⟨0⟩ ⟨1⟩ ⟨2⟩ twoSigmoids = .ok o h ∧ ⟨3⟩ ∈ (h.op ⟨3⟩).inputList ∧
    (h.tensor ⟨3⟩).src.ops = [] ∧
      ∀ ts, ⟨6⟩ ∈ ts → ¬Graph.Valid h ts := by
  obtain ⟨o, h, run, test⟩ := exists_ok (g := twoSigmoids) (x := joinSigmoidMul ⟨0⟩ ⟨1⟩ ⟨2⟩)
    (P := fun _ h =>
    (h.op ⟨3⟩).inputList.contains ⟨3⟩ && (h.op ⟨1⟩).inputList.head? == some ⟨3⟩ &&
      (h.tensor ⟨6⟩).src.ops.contains ⟨3⟩) (by decide +kernel)
  simp only [Bool.and_eq_true, contains_iff_mem, beq_iff_eq] at test
  obtain ⟨⟨reads, head⟩, makes⟩ := test
  obtain ⟨unmade, forgets⟩ := joinSigmoidMul_forgets run (.inl head)
  exact ⟨(Graph.check_ok.1 rfl).1, o, h, run, reads, eq_nil_iff_forall_not_mem.2 unmade,
    forgets.not_valid makes reads (by decide)⟩

end Norm

namespace Strided

/-- A group of products that comes to read its first operands straight out of the tensor before a
split is the only user of that tensor which is known, and no other can be noted. -/
theorem readSplitGroup_forgets {split : OpId} {u : Unit} (run : readSplitGroup split g = .ok u h) :
    h = g ∨ ∃ x o, inputAt split 0 g = .ok x g ∧
    (x.idx < h.tensors.size → (h.tensor x).dst = ⟨[o], true⟩) ∧
      ∀ ts, Graph.Valid h ts → ∀ t ∈ ts, ∀ p ∈ (h.tensor t).src.ops, x ∈ (h.op p).inputList →
        p = o := by
  unfold readSplitGroup at run
  obtain ⟨_, _, fusible, run⟩ := bind_ok.1 run
  obtain rfl := ReadOnly.keeps fusible
  split at run
  · exact .inl (pure_ok.1 run).2.symm
  obtain ⟨parts, _, listed, run⟩ := bind_ok.1 run
  obtain ⟨-, rfl⟩ := outputs_ok.1 listed
  obtain ⟨behind, _, found, run⟩ := bind_ok.1 run
  obtain rfl := ReadOnly.keeps found
  split at run
  case' h_2 => exact .inl (pure_ok.1 run).2.symm
  next o =>
  obtain ⟨firsts, _, read, run⟩ := bind_ok.1 run
  obtain rfl := ReadOnly.keeps read
  dsimp only at run
  split at run
  · exact .inl (pure_ok.1 run).2.symm
  obtain ⟨_, _, got, run⟩ := bind_ok.1 run
  obtain ⟨rfl, rfl⟩ := get_ok.1 got
  split at run
  · exact .inl (pure_ok.1 run).2.symm
  obtain ⟨x, _, input, run⟩ := bind_ok.1 run
  obtain rfl := ReadOnly.keeps input
  simp only [bind_ok] at run
  obtain ⟨_, _, -, _, _, -, _, _, -, _, _, -, _, _, -, _, k, -, set⟩ := run
  obtain rfl := modifyTensor_ok.1 set
  refine .inr ⟨x, o, input, fun known => ?_, fun ts valid t ht p makes reads => ?_⟩
  · rw [Arena.tensor_modifyTensor_self (by simpa using known)]
  · have uses := (valid.reads ht makes reads).2
    rw [Arena.tensor_modifyTensor_self (by simpa using Arena.lt_of_dst uses)] at uses
    exact mem_singleton.1 uses

/-- Two products read the halves of a tensor, which something else reads too. -/
def splitProducts : Arena :=
  .ofNodes [4, 16, 8] [([0, 1], [], [0, 2]), ([0, 2], [0], [1]), ([0, 2], [0], [1]),
    ([2, 2], [], [1]), ([2, 2], [], [1]),
      ([0, 2], [1], []), ([0, 2], [1], []), ([0, 1], [2], [])]
    #[{ Operator.between .split [0] [1, 2] with params := [("split_dim", .int 1)] },
      { Operator.between .groupGemmRcr [1, 3, 2, 4] [5, 6] with
        params := [("groups", .int 2)], inputAccessors :=
          some (replicate 4 (.ofShape [⟨0⟩, ⟨2⟩])) },
      .between .softmax [0] [7]]

theorem readSplitGroup_forgets_softmax : Graph.Valid splitProducts ((range 8).map .mk) ∧
    ∃ h, readSplitGroup ⟨0⟩ splitProducts = .ok () h ∧ ⟨0⟩ ∈ (h.op ⟨2⟩).inputList ∧ ∀ ts, ⟨7⟩ ∈ ts →
    ¬Graph.Valid h ts := by
  obtain ⟨_, h, run, test⟩ := exists_ok (g := splitProducts) (x := readSplitGroup ⟨0⟩)
    (P := fun _ h =>
    (h.op ⟨2⟩).inputList.contains ⟨0⟩ && (h.tensor ⟨7⟩).src.ops.contains ⟨2⟩ &&
      (h.tensor ⟨0⟩).dst.ops == [⟨1⟩]) (by decide +kernel)
  simp only [Bool.and_eq_true, contains_iff_mem, beq_iff_eq] at test
  obtain ⟨⟨reads, makes⟩, users⟩ := test
  refine ⟨(Graph.check_ok.1 rfl).1, h, run, reads, fun ts ht valid => ?_⟩
  obtain rfl | ⟨x, o, input, dst, only⟩ := readSplitGroup_forgets run
  · exact absurd users (by decide)
  · have first : inputAt ⟨0⟩ 0 splitProducts = .ok ⟨0⟩ splitProducts := rfl
    obtain rfl := (EStateM.Result.ok.inj (first.symm.trans input)).1
    obtain rfl := only ts valid _ ht _ makes reads
    rw [dst (Arena.lt_of_dst (by rw [users]; exact mem_singleton_self _))] at users
    exact absurd users (by decide)

end Strided

end TensorGraph

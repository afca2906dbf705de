import TensorGraph.Proofs.FailingSteps
import TensorGraph.Proofs.Places
import TensorGraph.Proofs.Producers

/-!
# Taking inputs of a concatenation away

A concatenation keeps its given inputs, a mask for each, and the inputs and accessors that are left
(`Copying`, which holds at first by `apply_copying`).
-/

namespace TensorGraph

namespace Concat

open Build List

variable {g h : Arena} {o : OpId} {ts given : List TensorId} {accs : List Accessor} {ms : List Bool}
  {j : Nat}

/-- A concatenation copies those of its given inputs whose mask is set, each with its accessor. -/
structure Copying (g : Arena) (o : OpId) (given : List TensorId) (accs : List Accessor)
    (ms : List Bool) : Prop where
  inputs : (g.op o).inputs = some (kept ms given)
  accessors : (g.op o).inputAccessors = some (kept ms accs)
  givens : (g.op o).givenInputs = some given
  masks : (g.op o).inputMasks = some ms
  length : ms.length = given.length
  length' : ms.length = accs.length

theorem exists_rank {k : Nat} (low : k < ms.count true) : ∃ j, ms[j]? = some true ∧
    rank ms j = k := by
  induction ms generalizing k with
  | nil => simp at low
  | cons m ms ih =>
    cases m with
    | false =>
      obtain ⟨j, mask, eq⟩ := ih (by simpa using low)
      exact ⟨j + 1, by simpa using mask, by simpa using eq⟩
    | true =>
      cases k with
      | zero => exact ⟨0, rfl, rfl⟩
      | succ k =>
        obtain ⟨j, mask, eq⟩ := ih (k := k) (by simpa using low)
        exact ⟨j + 1, by simpa using mask, by simpa using eq⟩

theorem getElem?_filter_zipIdx (n : Nat) (mask : ms[j]? = some true) :
    ((ms.zipIdx n).filter (·.1))[rank ms j]? = some (true, n + j) := by
  induction ms generalizing n j with
  | nil => cases mask
  | cons m ms ih =>
    cases j with
    | zero => simp_all
    | succ j =>
      have later := ih (n + 1) (by simpa using mask)
      cases m <;> simpa [rank, Nat.add_assoc, Nat.add_comm 1 j] using later

theorem givenIndex_run (givens : (g.op o).givenInputs = some given)
    (masks : (g.op o).inputMasks = some ms) (length : ms.length = given.length)
    (mask : ms[j]? = some true) : givenIndex o (rank ms j) g = .ok j g := by
  unfold givenIndex
  rw [bind_run (op_run o), masks, givens, expect_ok]
  refine ⟨?_, rfl⟩
  rw [Option.getD_some, Option.getD_some, ← length]
  simp [givenIndex?, getElem?_filter_zipIdx 0 mask]

/-- The inputs that are left, their accessors and the set masks agree in number, and each of the
first two belongs to the given input that the index points to. -/
theorem Copying.original (c : Copying g o given accs ms) :
    (kept ms given).length = (kept ms accs).length ∧ (kept ms given).length = ms.count true ∧
      ∀ k < (kept ms given).length, ∃ j, givenIndex o k g = .ok j g ∧
        (kept ms given)[k]? = given[j]? ∧ (kept ms accs)[k]? = accs[j]? := by
  have count := length_kept c.length
  refine ⟨count.trans (length_kept c.length').symm, count, fun k low => ?_⟩
  obtain ⟨j, mask, rfl⟩ := exists_rank (count ▸ low)
  exact ⟨j, givenIndex_run c.givens c.masks c.length mask, getElem?_kept mask, getElem?_kept mask⟩

theorem removeInputs_cases (c : Copying g o given accs ms) (is : List Int) :
    ∃ ks rest, is = ks.map Int.ofNat ++ rest ∧
      (rest = [] ∧ (∃ h, removeInputs o is g = .ok () h ∧ h.tensors = g.tensors ∧ h.dims = g.dims ∧
          (∀ p, p ≠ o → h.op p = g.op p) ∧ h.op o = { g.op o with
            inputs := some (kept (without ks 0 ms) given)
            inputMasks := some (without ks 0 ms)
            inputAccessors := some (kept (without ks 0 ms) accs) }) ∨
        ∃ f h, removeInputs o is g = .error f h ∧
          h.op o = { g.op o with inputMasks := some (without ks 0 ms) }) := by
  have known : o.idx < g.ops.size := Arena.lt_of_some rfl c.inputs
  have size := length_kept c.length
  have size' := length_kept c.length'
  have run : removeInputs o is g = removeInputs o is g := rfl
  conv at run => rhs; unfold removeInputs
  rw [bind_run (op_run o), bind_run (inputs_ok.2 ⟨c.inputs, rfl⟩), c.accessors, c.givens, c.masks,
    bind_run (expect_ok.2 ⟨rfl, rfl⟩), bind_run (expect_ok.2 ⟨rfl, rfl⟩),
      bind_run (expect_ok.2 ⟨rfl, rfl⟩),
    bind_run (require_run (by simp [size, size']))] at run
  by_cases many : is.length ≤ (kept ms given).length
  · rw [bind_run (require_run (by simpa using many)),
      bind_run (require_run (by simp [c.length]))] at run
    obtain ⟨ks, rest, pending, -, count, done⟩ := @Removal.walk ms (g.op o).name
      (kept ms given) (kept ms accs) ⟨[], [], [], 0, is⟩ given accs rfl rfl c.length c.length'
    refine ⟨ks, rest, pending, ?_⟩
    rcases done with ⟨q, walk⟩ | ⟨-, f, r, i, walk, length, masks⟩
    · replace walk : Removal.run (g.op o).name (kept ms given) (kept ms accs) is ms = _ := walk
      simp only [walk, nil_append] at run
      rw [bind_run (modifyOp_run o _)] at run
      have left : (kept (without ks 0 ms) given).length + is.length = (kept ms given).length +
        rest.length := by
        rw [length_kept ((length_without ks 0 ms).trans c.length), size, ← count,
          show is.length = _ from congrArg _ pending]
        simp [Nat.add_assoc]
      cases rest with
      | nil =>
        rw [bind_run (require_run (by simpa using left))] at run
        refine Or.inl ⟨rfl, _, run, rfl, rfl, fun p ne => ?_, ?_⟩
        · rw [Arena.op_modifyOp_ne ne, Arena.op_modifyOp_ne ne]
        · simp_all
      | cons i rest =>
        have fails : ((kept (without ks 0 ms) given).length + is.length == (kept ms given).length) =
          false := by simp [left]
        rw [fails] at run
        exact Or.inr ⟨_, _, run, Arena.op_modifyOp_self known⟩
    · replace walk : Removal.run (g.op o).name (kept ms given) (kept ms accs) is ms = _ := walk
      obtain rfl : i = r.masks.length := by simpa using length.symm
      simp only [walk] at run
      rw [masks, bind_run (modifyOp_run o _)] at run
      exact Or.inr ⟨_, _, run, Arena.op_modifyOp_self known⟩
  · have fails : decide (is.length ≤ (kept ms given).length) = false := by simpa using many
    rw [fails] at run
    exact ⟨[], is, rfl, Or.inr ⟨_, _, run, by rw [without_nil, ← c.masks]⟩⟩

/-- However often inputs have been taken away, those that are left, their accessors and the masks
agree.  The next call takes away exactly the inputs at its indices, or it raises and has closed the
masks of a front of them. -/
theorem removeInputs_sequence {calls : List (List Int)} (start : Copying g o given accs ms)
    (run : calls.forM (removeInputs o) g = .ok () h) (is : List Int) :
    ∃ ms, Copying h o given accs ms ∧ (kept ms given).length = (kept ms accs).length ∧
    (kept ms given).length = ms.count true ∧
      (∀ k < (kept ms given).length, ∃ j, givenIndex o k h = .ok j h ∧
        (kept ms given)[k]? = given[j]? ∧ (kept ms accs)[k]? = accs[j]?) ∧
      ∃ (ks : List Nat) (rest : List Int) (ms' : List Bool), is = ks.map Int.ofNat ++ rest ∧
        (∀ j : Nat, ms'[j]? = ms[j]?.map fun m => m && !ks.contains (rank ms j)) ∧
        (rest = [] ∧ (∃ h', removeInputs o is h = .ok () h' ∧ Copying h' o given accs ms') ∨
          ∃ f h', removeInputs o is h = .error f h' ∧
            h'.op o = { h.op o with inputMasks := some ms' }) := by
  have next : ∀ {g h : Arena} {ms ks}, Copying g o given accs ms → h.op o = { g.op o with
      inputs := some (kept (without ks 0 ms) given)
      inputMasks := some (without ks 0 ms)
      inputAccessors := some (kept (without ks 0 ms) accs) } →
        Copying h o given accs (without ks 0 ms) := fun c op =>
    ⟨by rw [op], by rw [op], by rw [op]; exact c.givens, by rw [op], (length_without
      ..).trans c.length,
      (length_without ..).trans c.length'⟩
  induction calls generalizing g ms with
  | nil =>
    obtain ⟨-, rfl⟩ := pure_ok.1 run
    obtain ⟨length, count, original⟩ := start.original
    obtain ⟨ks, rest, eq, done⟩ := removeInputs_cases start is
    refine ⟨ms, start, length, count, original, ks, rest, without ks 0 ms, eq,
      fun j => by simpa using getElem?_without ks 0 ms j, done.imp_left (.imp_right ?_)⟩
    rintro ⟨h', returns, -, -, -, op⟩
    exact ⟨h', returns, next start op⟩
  | cons call calls ih =>
    obtain ⟨_, g₁, first, run⟩ := bind_ok.1 run
    obtain ⟨ks, rest, -, ⟨-, g₂, returns, -, -, -, op⟩ | ⟨f, g₂, raises, -⟩⟩ :=
      removeInputs_cases start call
    · obtain ⟨-, rfl⟩ := EStateM.Result.ok.inj (returns.symm.trans first)
      exact ih (next start op) run
    · cases raises.symm.trans first

/-- Two of three inputs in the wrong order: the call raises, but the last input has lost its
mask. -/
theorem removeInputs_sequence_unordered :
    let accs := replicate 3 (Accessor.ofShape [])
    let cat := { Operator.between .concatenate [0, 1, 2] [3] with
      givenInputs := some [⟨0⟩, ⟨1⟩, ⟨2⟩], inputMasks := some [true, true, true], inputAccessors :=
        some accs }
    let g := Arena.ofNodes [] [] #[cat]
    ∃ ms, Copying g ⟨0⟩ [⟨0⟩, ⟨1⟩, ⟨2⟩] accs ms ∧ ∃ f h, removeInputs ⟨0⟩ [2, 0] g = .error f h ∧
    h.op ⟨0⟩ ≠ g.op ⟨0⟩ := by
  intro accs cat g
  have start : Copying g ⟨0⟩ [⟨0⟩, ⟨1⟩, ⟨2⟩] accs [true, true, true] :=
    ⟨rfl, rfl, rfl, rfl, rfl, rfl⟩
  obtain ⟨ms, c, -⟩ := removeInputs_sequence start
    (show ([] : List (List Int)).forM (removeInputs ⟨0⟩) g = .ok () g from rfl) [2, 0]
  refine ⟨ms, c, _, _, rfl, fun same => ?_⟩
  have masks := congrArg Operator.inputMasks same
  revert masks
  decide

end Concat

end TensorGraph

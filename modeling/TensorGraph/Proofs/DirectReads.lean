import TensorGraph.Proofs.GraphValues
import TensorGraph.Proofs.PartRuns
import TensorGraph.Proofs.Redirecting
import TensorGraph.Proofs.SlicedReads

/-!
# Reading straight out of a larger tensor

An operator that reads a part straight out of a larger tensor keeps the offset and the rows of that
tensor in an accessor.
-/

namespace TensorGraph

open Build List

variable {g h : Arena} {t x y : TensorId} {o cat slice : OpId} {a : Accessor} {as : List Accessor}
  {i : Nat} {u : Unit}

namespace Accessor

theorem two_le_widthOf (n : Int) : 2 ≤ widthOf n ↔ 2 ∣ n := by
  unfold widthOf widths
  grind

theorem two_le_width_iff {look : DimTable} {base view : List DimId} {dim start : Int} {b : Accessor}
    (piece : a.InOnePiece view) (run : a.rebase look base dim start = (b, none)) :
    ∃ p q w, view.at? dim = some p ∧ base.at? dim = some q ∧ b.width? = some w ∧
      (2 ≤ w ↔ 2 ∣ start * width look base dim ∧
        (0 < dim ∧ (look p).value * width look base dim < (look q).value * width look base dim →
        2 ∣ (look p).value * width look base dim ∧ 2 ∣ (look q).value * width look base dim)) := by
  obtain ⟨-, p, q, hp, hq, -, -, -, rfl⟩ := rebase_eq run
  rw [piece.stored] at hp
  unfold noteParts
  dsimp only
  split
  · next apart =>
    by_cases behind : 0 < dim
    · refine ⟨p, q, _, hp, hq, by simp [width?, behind]; rfl, ?_⟩
      simp only [le_min_iff, two_le_widthOf]
      grind
    · refine ⟨p, q, _, hp, hq, by simp [width?, behind, piece.contiguous]; rfl, ?_⟩
      rw [two_le_widthOf]
      grind
  · next apart =>
    refine ⟨p, q, _, hp, hq, by simp [width?, piece.contiguous]; rfl, ?_⟩
    rw [two_le_widthOf]
    grind

end Accessor

namespace Strided

open Accessor

theorem isAligned_even {offset : Int} (kind : (g.op o).kind ≠ "bmm_rcr_n1")
    (aligned : isAligned o offset g = .ok true h) :
    2 ∣ offset := by
  unfold isAligned at aligned
  rw [bind_run (op_run o)] at aligned
  rw [if_neg (by simpa using kind)] at aligned
  by_contra odd
  simp_all

/-- After an operator that passes the test of its alignment has come to read a part out of the
tensor before a split, it reads two elements at once if the rows of the part are all of the tensor,
or if both are even. -/
theorem readPart_width {dim start : Int} (kind : (g.op o).kind ≠ "bmm_rcr_n1")
    (aligned : isAligned o (start * width g.dim (g.tensor x).shape dim) g = .ok true g)
    (reads : (g.op o).inputList.findIdx? (· == t) = some i)
    (accessors : (g.op o).inputAccessors = some as)
    (fresh : as[i]? = some (.ofShape (g.tensor t).shape))
    (run : readPart x dim start t o g = .ok u h) :
    ∃ bs b p q w, (h.op o).inputAccessors = some bs ∧ bs[i]? = some b ∧ (g.tensor t).shape.at? dim =
    some p ∧
      (g.tensor x).shape.at? dim = some q ∧ b.width? = some w ∧
      let part := (g.dim p).value * width g.dim (g.tensor x).shape dim
      let whole := (g.dim q).value * width g.dim (g.tensor x).shape dim
      (2 ≤ w ↔ (0 < dim ∧ part < whole → 2 ∣ part ∧ 2 ∣ whole)) := by
  unfold readPart at run
  obtain ⟨ts, _, listed, run⟩ := bind_ok.1 run
  obtain ⟨inputs, rfl⟩ := inputs_ok.1 listed
  rw [Operator.inputList, inputs, Option.getD_some] at reads
  simp only [reads, bind_ok] at run
  obtain ⟨s, _, shown, _, k, updated, _, _, set, added⟩ := run
  obtain ⟨rfl, rfl⟩ := EStateM.Result.ok.inj (shown : EStateM.Result.ok _ _ = _)
  obtain ⟨as', a, b, known, here, rebased, rfl⟩ := updateInputAccessor_ok updated
  obtain rfl := Option.some.inj (accessors.symm.trans known)
  obtain rfl := Option.some.inj (fresh.symm.trans here)
  obtain ⟨-, rfl⟩ := addDst_ok.1 added
  obtain rfl := modifyOp_ok.1 set
  obtain ⟨p, q, w, hp, hq, width, wide⟩ := two_le_width_iff (inOnePiece_ofShape _) rebased
  have inside : o.idx < g.ops.size := Arena.lt_of_some rfl accessors
  refine ⟨as.set i b, b, p, q, w, ?_, List.getElem?_set_self (List.getElem?_eq_some_iff.1 here).1,
    hp, hq, width, ?_⟩
  · show (((g.modifyOp o _).modifyOp o _).op o).inputAccessors = _
    rw [Arena.op_modifyOp_self (by simpa using inside), Arena.op_modifyOp_self inside]
  · exact wide.trans (and_iff_right (isAligned_even kind aligned))

def oddRows : Arena :=
  .ofNodes [2, 4, 11, 8, 3] [([0, 1, 2], [], [0]), ([0, 1, 3], [0], [1]), ([0, 1, 4], [0], []),
    ([0, 3, 3], [], [1]), ([0, 1, 3], [1], [])]
    #[{ Operator.between .split [0] [1, 2] with params := [("split_dim", .int 2)] },
      { Operator.between .bmmRcr [1, 3] [4] with
        inputAccessors := some [.ofShape [⟨0⟩, ⟨1⟩, ⟨3⟩], .ofShape [⟨0⟩, ⟨3⟩, ⟨3⟩]] }]

theorem readPart_width_odd : Graph.Valid oddRows ((range 5).map .mk) ∧
    ∃ h bs b w, readPart ⟨0⟩ 2 0 ⟨1⟩ ⟨1⟩ oddRows = .ok () h ∧ (h.op ⟨1⟩).inputAccessors = some bs ∧
      bs[0]? = some b ∧ b.width? = some w ∧ ¬2 ≤ w := by
  obtain ⟨_, h, run, -⟩ := exists_ok (g := oddRows) (x := readPart ⟨0⟩ 2 0 ⟨1⟩ ⟨1⟩)
    (P := fun _ _ => true) (by decide)
  obtain ⟨bs, b, p, q, w, accessors, here, hp, hq, width, wide⟩ :=
    readPart_width (i := 0) (by decide) rfl rfl rfl rfl run
  refine ⟨(Graph.check_ok.1 rfl).1, h, bs, b, w, run, accessors, here, width, fun two => ?_⟩
  obtain rfl := Option.some.inj hp
  obtain rfl := Option.some.inj hq
  exact absurd (wide.1 two (by decide)).2 (by decide)

end Strided

namespace ConcatFusion

theorem inRuns_singleton (x : TensorId) (ts : List TensorId) : InRuns [x] ts := by
  induction ts with
  | nil => exact .nil
  | cons t ts ih =>
    by_cases same : t = x
    · subst same
      exact .run ih
    · exact .other (by simpa using same) ih

theorem copiesAll_of_merge (outs : (g.op o).outputs = some [x]) (apart : x ∉ (g.op o).inputList)
    (run : merge o cat g = .ok u h) : (g.op cat).CopiesAll := by
  unfold merge at run
  rw [bind_run (outputs_ok.2 ⟨outs, rfl⟩)] at run
  obtain ⟨whole, _, listed, run⟩ := bind_ok.1 run
  obtain ⟨ins, rfl⟩ := inputs_ok.1 listed
  obtain ⟨ts, _, listed', run⟩ := bind_ok.1 run
  obtain ⟨catIns, rfl⟩ := inputs_ok.1 listed'
  -- one result is always a run of its own, so the merge goes on to its checks
  have gone := ((contracts_contract whole (by simp) (Nat.lt_succ_self ts.length)).inRuns_iff_gone
    (by simp)
    (by rintro w hw hx; simp_all [Operator.inputList])).1 (inRuns_singleton x ts)
  rw [if_neg (by simpa using fun mem => gone x mem)] at run
  simp only [bind_ok, op_ok, expect_ok, require_ok] at run
  obtain ⟨_, _, set, _, _, ⟨rfl, rfl⟩, ms, _, ⟨masks, rfl⟩, _, _, ⟨all, rfl⟩, as, _,
    ⟨accessors, rfl⟩, _, _, ⟨unstrided, rfl⟩, -⟩ := run
  obtain rfl := modifyOp_ok.1 set
  rw [Arena.op_modifyOp_self (Arena.lt_of_some rfl catIns)] at masks accessors
  exact ⟨⟨ms, masks, all⟩, ⟨as, accessors, unstrided⟩⟩

/-- After a concatenation has come to read straight out of the tensor that a slice was cut from, it
can take over nothing from an operator that makes this tensor. -/
theorem readSlice_merge_fails (input : (g.op slice).inputs = some [x])
    (accessors : (g.op cat).inputAccessors = some as) (reads : y ∈ (g.op cat).inputList)
    (run : Strided.readSlice slice y cat g = .ok true h) (outs : (h.op o).outputs = some [x])
    (apart : x ∉ (h.op o).inputList) : ¬∃ u h', merge o cat h = .ok u h' := by
  rintro ⟨u, h', merged⟩
  -- the accessor that the slice left has a stride axis, and the merge asks for none
  obtain ⟨_, _, _, bs, -, -, known, rebased⟩ := Strided.readSlice_ok input accessors run
  obtain ⟨i, here⟩ := mem_iff_getElem?.1 reads
  obtain ⟨a, b, -, hb, done⟩ := rebased i here
  obtain ⟨as', known', unstrided⟩ := (copiesAll_of_merge outs apart merged).accessors
  obtain rfl := Option.some.inj (known.symm.trans known')
  have := all_eq_true.1 unstrided b (mem_of_getElem? hb)
  simp [(Accessor.rebase_ok done).2.2.1] at this

def slicedJoin : Arena :=
  .ofNodes [4, 8, 16, 12] [([0, 1], [], [0]), ([0, 1], [], [0]), ([0, 2], [0], [1]),
    ([0, 1], [1], [2]), ([0, 0], [], [2]), ([0, 3], [2], [])]
    #[{ Operator.between .concatenate [0, 1] [2] with params := [("concat_dim", .int 1)] },
      { Operator.between .dynamicSlice [2] [3] with
        params := [("start_indices", .ints [0, 4]), ("end_indices", .ints [Slice.openEnd, 12])] },
      { Operator.between .concatenate [3, 4] [5] with
        givenInputs := some [⟨3⟩, ⟨4⟩], inputMasks := some [true, true], params :=
          [("concat_dim", .int 1)]
        inputAccessors := some [.ofShape [⟨0⟩, ⟨1⟩], .ofShape [⟨0⟩, ⟨0⟩]] }]

theorem readSlice_merge_fails_half :
    Graph.Valid slicedJoin ((range 6).map .mk) ∧ ∃ h, Strided.readSlice ⟨1⟩ ⟨3⟩ ⟨2⟩ slicedJoin =
    .ok true h ∧ ¬∃ u h', merge ⟨0⟩ ⟨2⟩ h = .ok u h' := by
  obtain ⟨r, h, run, test⟩ := exists_ok (g := slicedJoin) (x := Strided.readSlice ⟨1⟩ ⟨3⟩ ⟨2⟩)
    (P := fun r h =>
    r && (h.op ⟨0⟩).outputs == some [⟨2⟩] && !(h.op ⟨0⟩).inputList.contains ⟨2⟩) (by decide +kernel)
  simp only [Bool.and_eq_true, beq_iff_eq, Bool.not_eq_true', contains_eq_mem,
    decide_eq_false_iff_not] at test
  obtain ⟨⟨rfl, outs⟩, apart⟩ := test
  exact ⟨(Graph.check_ok.1 rfl).1, h, run, readSlice_merge_fails rfl rfl (by decide) run outs apart⟩

end ConcatFusion

end TensorGraph

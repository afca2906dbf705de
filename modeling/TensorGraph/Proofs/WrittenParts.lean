import TensorGraph.Proofs.Redirecting
import TensorGraph.Proofs.RemovedInputs

/-!
# Parts of a concatenation that are written in place

A concatenation keeps the list of its given inputs, and a mask for each that says if it is still
copied (`Joining`).
-/

namespace TensorGraph

open Build List

variable {g h : Arena} {whole : TensorId} {given : List TensorId} {cat : OpId} {ms ms' : List Bool}
  {f n : Option String}
  {dim : Int} {j : Nat}

namespace Strided

open Concat

/-! ## One concatenation -/

theorem removeInputs_ok {ks : List Nat} {u : Unit}
    (inputs : (g.op cat).inputs = some (kept ms given))
    (givens : (g.op cat).givenInputs = some given) (masks : (g.op cat).inputMasks = some ms)
    (run : removeInputs cat (ks.map Int.ofNat) g = .ok u h) :
    h.tensors = g.tensors ∧ h.dims = g.dims ∧ (∀ p, p ≠ cat → h.op p = g.op p) ∧
      ∃ ms', h.op cat = { g.op cat with
          inputs := some (kept ms' given)
          inputMasks := some ms'
          inputAccessors := (h.op cat).inputAccessors } ∧
        ms'.length = ms.length ∧ ∀ j, ms'[j]? = ms[j]?.map fun m =>
          m && !ks.contains (rank ms j) := by
  have front := run
  unfold removeInputs at front
  rw [bind_run (op_run cat), bind_run (inputs_ok.2 ⟨inputs, rfl⟩)] at front
  simp only [bind_ok, expect_ok, require_ok, givens, masks, Option.some.injEq] at front
  obtain ⟨as, _, ⟨accessors, rfl⟩, _, _, ⟨rfl, rfl⟩, _, _, ⟨rfl, rfl⟩, _, _, ⟨same, rfl⟩, _, _, -,
    _, _, ⟨length, -⟩, -⟩ := front
  have length : ms.length = given.length := (beq_iff_eq.1 length).symm
  obtain ⟨accs, length', rfl⟩ := exists_kept ((beq_iff_eq.1 same).trans (length_kept length))
  obtain ⟨ks', rest, pending, ⟨rfl, h', returns, tensors, dims, others, closed⟩ | ⟨f, h',
    raises, -⟩⟩ :=
    removeInputs_cases ⟨inputs, accessors, givens, masks, length, length'⟩ (ks.map Int.ofNat)
  · obtain ⟨-, rfl⟩ := EStateM.Result.ok.inj (returns.symm.trans run)
    obtain rfl : ks = ks' := map_injective_iff.2 (fun _ _ => Int.ofNat.inj)
      (pending.trans (append_nil _))
    grind [dims, without, length_without, getElem?_without]
  · cases raises.symm.trans run

/-- A concatenation of given tensors, of which those are still copied whose mask is set. -/
structure Joining (g : Arena) (cat : OpId) (dim : Int) (whole : TensorId) (given : List TensorId)
    (ms : List Bool) : Prop where
  kind : (g.op cat).kind = "concatenate"
  axis : (g.op cat).param? "concat_dim" = some (.int dim)
  output : (g.op cat).outputs = some [whole]
  source : cat ∈ (g.tensor whole).src.ops
  givens : (g.op cat).givenInputs = some given
  masks : (g.op cat).inputMasks = some ms
  length : ms.length = given.length
  inputs : (g.op cat).inputs = some (kept ms given)

theorem not_writes_concat {x : Operator} (kind : x.kind = "concatenate") : writes x = false := by
  unfold writes isFreeGroup isLayerNorm isReduction
  rw [kind]
  generalize (x.param? "output_stride_dim").isNone = free
  cases free <;> cbv

namespace Joining

variable {g h : Arena} {cat : OpId} {dim : Int} {whole : TensorId} {given : List TensorId}
  {ms : List Bool}
  (joining : Joining g cat dim whole given ms)
include joining

theorem idle : writes (g.op cat) = false := not_writes_concat joining.kind

theorem held : Held g whole := ⟨cat, joining.source, joining.idle⟩

theorem axis_run : intParam cat "concat_dim" g = .ok dim g := by
  simp only [intParam, param, bind_ok, op_ok, expect_ok]
  exact ⟨_, _, ⟨_, _, ⟨rfl, rfl⟩, joining.axis, rfl⟩, rfl, rfl⟩

theorem whole_run : outputAt cat 0 g = .ok whole g := by
  simp only [outputAt, bind_ok, outputs_ok, expect_ok]
  exact ⟨_, _, ⟨joining.output, rfl⟩, rfl, rfl⟩

theorem redirected {as : Option (List Accessor)} (r : Redirects g h)
    (length : ms'.length = ms.length) (op : h.op cat = { g.op cat with
      name := n
      firstName := f
      inputs := some (kept ms' given)
      inputMasks := some ms'
      inputAccessors := as }) : Joining h cat dim whole given ms' := by
  refine ⟨?_, ?_, ?_, (r.src whole cat joining.idle).2 joining.source, ?_, ?_,
    length.trans joining.length, ?_⟩
  all_goals rw [op]
  · exact joining.kind
  · exact joining.axis
  · exact joining.output
  · exact joining.givens

theorem renamed (r : Redirects g h) (op : h.op cat = { g.op cat with name := n, firstName := f }) :
    Joining h cat dim whole given ms := by
  have same : h.op cat = { g.op cat with
      name := n
      firstName := f
      inputs := some (kept ms given)
      inputMasks := some ms
      inputAccessors := (g.op cat).inputAccessors } := by
    rw [op, ← joining.inputs, ← joining.masks]
  exact joining.redirected r rfl same

end Joining

def Moved (ms ms' : List Bool) (j : Nat) : Prop := ms[j]? = some true ∧ ms'[j]? = some false

instance (ms ms' : List Bool) (j : Nat) : Decidable (Moved ms ms' j) :=
  inferInstanceAs (Decidable (_ ∧ _))

/-- What has become of a concatenation: it copies fewer inputs, and each one that it does not copy
any more is written where the copied ones before it ended. -/
structure Lightened (g h : Arena) (cat : OpId) (dim : Int) (whole : TensorId)
    (given : List TensorId) (ms ms' : List Bool) : Prop where
  joining : Joining h cat dim whole given ms'
  fewer : ∀ j : Nat, ms'[j]? = some true → ms[j]? = some true
  moves : ∀ (j : Nat) t, given[j]? = some t → Moved ms ms' j →
    ∃ (o : OpId) (i : Nat), Makes g o i t ∧
    WritesAt h whole dim (place (kept ms (given.map (extent g dim))) (rank ms j)) o i

namespace Lightened

variable {g h : Arena} {cat : OpId} {dim : Int} {whole : TensorId} {given : List TensorId}
  {ms ms' : List Bool}

theorem later {h' : Arena} (l : Lightened g h cat dim whole given ms ms') (r : Redirects h h')
    (op : h'.op cat = { h.op cat with name := n, firstName := f }) :
    Lightened g h' cat dim whole given ms ms' := by
  refine ⟨l.joining.renamed r op, l.fewer, fun j t at_ moved => ?_⟩
  obtain ⟨o, i, makes, writes⟩ := l.moves j t at_ moved
  exact ⟨o, i, makes, r.kept _ _ _ _ _ l.joining.held writes⟩

theorem earlier {g₁ : Arena} (r : Redirects g g₁) (l : Lightened g₁ h cat dim whole given ms ms') :
    Lightened g h cat dim whole given ms ms' := by
  refine ⟨l.joining, l.fewer, fun j t at_ moved => ?_⟩
  obtain ⟨o, i, makes, writes⟩ := l.moves j t at_ moved
  rw [show extent g₁ dim = extent g dim from funext fun u => r.extent dim u] at writes
  exact ⟨o, i, r.before makes, writes⟩

end Lightened

theorem writeInto_ok {u : Unit} (joining : Joining g cat dim whole given ms)
    (run : writeInto cat g = .ok u h) :
    Redirects g h ∧ (∀ p, p ≠ cat → writes (g.op p) = false → h.op p = g.op p) ∧
      ∃ ms', Lightened g h cat dim whole given ms ms' := by
  unfold writeInto at run
  rw [bind_run joining.axis_run] at run
  obtain ⟨fixed, g₁, asked, run⟩ := bind_ok.1 run
  obtain rfl := ReadOnly.keeps asked
  cases fixed with
  | false =>
    -- nothing is moved
    obtain ⟨-, rfl⟩ := pure_ok.1 run
    refine ⟨.refl g, fun _ _ _ => rfl, ms, joining, fun _ h => h, fun j t _ moved => ?_⟩
    cases moved.1.symm.trans moved.2
  | true =>
    rw [if_pos rfl, bind_run (inputs_ok.2 ⟨joining.inputs, rfl⟩), bind_run joining.whole_run] at run
    obtain ⟨moved, h₁, loop, removed⟩ := bind_ok.1 run
    obtain ⟨ks, rfl, m⟩ := Moving.loop joining.held drop_zero (Moving.refl g) loop
    have cat_same := m.idle cat joining.idle
    obtain ⟨tensors, dims, others, ms', closed, length, each⟩ :=
      removeInputs_ok (cat_same ▸ joining.inputs) (cat_same ▸ joining.givens)
      (cat_same ▸ joining.masks) removed
    have r : Redirects h₁ h := by
      refine redirects_of_same (fun d => by unfold Arena.dim; rw [dims])
        (fun t => by unfold Arena.tensor; rw [tensors])
        (fun t => by unfold Arena.tensor; rw [tensors]) fun p => ?_
      by_cases e : p = cat
      · grind
      · grind
    rw [cat_same] at closed
    refine ⟨m.redirects.trans r, fun p ne idle => (others p ne).trans (m.idle p idle), ms',
      joining.redirected (m.redirects.trans r) length closed, fun j open_ =>
        ?_, fun j t at_ moved => ?_⟩
    · grind
    · -- a mask that has been closed is that of a part that has been moved
      have listed : rank ms j ∈ ks := by
        have after := moved.2
        rw [each j, moved.1] at after
        simpa using after
      obtain ⟨t', o, i, part, makes, writes⟩ := m.placed _ listed
      obtain rfl : t' = t := Option.some.inj (part.symm.trans ((getElem?_kept moved.1).trans at_))
      rw [map_kept] at writes
      exact ⟨o, i, makes, r.kept _ _ _ _ _ (m.redirects.held_iff.2 joining.held) writes⟩

/-! ## All concatenations -/

def Joined (g : Arena) (os : List OpId) : Prop :=
  ∀ p ∈ os, (g.op p).kind = "concatenate" → ∃ dim whole given ms, Joining g p dim whole given ms

theorem writeAll_ok {os : List OpId} {u : PUnit} (joined : Joined g os) (nodup : os.Nodup)
    (run : (forIn os PUnit.unit fun o _ => do
      if (← op o).kind == "concatenate" then
        writeInto o
        pure (ForInStep.yield PUnit.unit)
      else pure (ForInStep.yield PUnit.unit) : Build PUnit) g = .ok u h) :
    Redirects g h ∧ (∀ p, p ∉ os → writes (g.op p) = false → h.op p = g.op p) ∧
      ∀ p ∈ os, ∀ dim whole given ms, Joining g p dim whole given ms →
        ∃ ms', Lightened g h p dim whole given ms ms' := by
  induction os generalizing g with
  | nil =>
    obtain ⟨-, rfl⟩ := pure_ok.1 run
    exact ⟨.refl g, fun _ _ _ => rfl, by simp⟩
  | cons p os ih =>
    obtain ⟨fresh, nodup⟩ := nodup_cons.1 nodup
    rw [forIn_cons] at run
    obtain ⟨_, g₁, first, run⟩ := bind_ok.1 run
    rw [bind_run (op_run p)] at first
    by_cases concat : (g.op p).kind = "concatenate"
    · rw [if_pos (by simpa using concat)] at first
      obtain ⟨_, g₂, written, done⟩ := bind_ok.1 first
      obtain ⟨rfl, rfl⟩ := pure_ok.1 done
      obtain ⟨d, w, gs, ns, here⟩ := joined p mem_cons_self concat
      obtain ⟨r, others, -⟩ := writeInto_ok here written
      have other : ∀ q ∈ os, q ≠ p := fun q hq e => fresh (e ▸ hq)
      have joined₂ : Joined g₂ os := by
        intro q hq kind
        rw [r.kind] at kind
        obtain ⟨d, w, gs, ns, there⟩ := joined q (mem_cons_of_mem _ hq) kind
        exact ⟨d, w, gs, ns, there.renamed r (others q (other q hq) there.idle)⟩
      obtain ⟨r₁, rest, each⟩ := ih joined₂ nodup run
      refine ⟨r.trans r₁, fun q out idle => ?_, fun q hq dim whole given ms joining => ?_⟩
      · rw [rest q (fun hq => out (mem_cons_of_mem _ hq)) ((r.able q).trans idle)]
        exact others q (fun e => out (e ▸ mem_cons_self)) idle
      · rcases mem_cons.1 hq with rfl | hq
        · obtain ⟨-, -, ms', l⟩ := writeInto_ok joining written
          exact ⟨ms', l.later r₁ (rest q fresh l.joining.idle)⟩
        · obtain ⟨ms', l⟩ := each q hq dim whole given ms
            (joining.renamed r (others q (other q hq) joining.idle))
          exact ⟨ms', l.earlier r⟩
    · rw [if_neg (by simpa using concat)] at first
      obtain ⟨rfl, rfl⟩ := pure_ok.1 first
      obtain ⟨r, rest, each⟩ := ih (fun q hq => joined q (mem_cons_of_mem _ hq)) nodup run
      refine ⟨r, fun q out => rest q fun hq => out (mem_cons_of_mem _ hq),
        fun q hq dim whole given ms joining => ?_⟩
      rcases mem_cons.1 hq with rfl | hq
      · exact absurd joining.kind concat
      · exact each q hq dim whole given ms joining

theorem writeConcats_ok {ts ts' : Graph} (joined : Joined g (Graph.sources g ts))
    (run : writeConcats ts g = .ok ts' h) (mem : cat ∈ Graph.sources g ts)
    (joining : Joining g cat dim whole given ms) : Redirects g h ∧
    ∃ ms', Lightened g h cat dim whole given ms ms' := by
  unfold writeConcats at run
  rw [bind_run get_run] at run
  obtain ⟨_, h₁, loop, tidied⟩ := bind_ok.1 run
  obtain ⟨moved, -, each⟩ := writeAll_ok joined (nodup_distinct _) loop
  obtain ⟨ms', l⟩ := each cat mem dim whole given ms joining
  have same := Frame.producers.keeps tidied
  have r : Redirects h₁ h := by
    refine redirects_of_same same.values same.shape same.src fun p => ?_
    rw [same.op]
    exact ⟨rfl, rfl, rfl, rfl⟩
  exact ⟨moved.trans r, ms', l.later r (same.op cat)⟩

/-! ## Where the parts lie -/

/-- Where the data of each given input lies after a step: at its place if it is copied or was
written before, else where the copied inputs before it end. -/
def starts (sizes : List Int) (ms ms' : List Bool) (j : Nat) : Int :=
  if Moved ms ms' j then place (kept ms sizes) (rank ms j) else place sizes j

theorem starts_eq_iff {sizes : List Int} (pos : ∀ n ∈ sizes, 0 < n)
    (length : ms.length = sizes.length) (moved : Moved ms ms' j) :
    starts sizes ms ms' j = place sizes j ↔ ∀ i < j, ms[i]? = some true := by
  have bound : j < ms.length := (List.getElem?_eq_some_iff.1 moved.1).1
  rw [starts, if_pos moved, (place_kept pos length j).2.2]
  grind

theorem tiles_starts_iff {sizes : List Int} (pos : ∀ n ∈ sizes, 0 < n)
    (length : ms.length = sizes.length) :
    Tiles sizes (starts sizes ms ms') ↔ ∀ j, Moved ms ms' j → ∀ i < j, ms[i]? = some true := by
  rw [tiles_iff pos fun j _ => ?_]
  · constructor
    · intro placed j moved
      have bound : j < ms.length := (List.getElem?_eq_some_iff.1 moved.1).1
      grind [starts_eq_iff]
    · intro all j _
      by_cases moved : Moved ms ms' j
      · exact (starts_eq_iff pos length moved).2 (all j moved)
      · exact if_neg moved
  · unfold starts
    split
    · simp_all [place_kept]
    · exact ⟨by simpa [place] using place_mono pos (Nat.zero_le j), Int.le_refl _⟩

/-! ## Through a view -/

def elements (g : Arena) (dim : Int) (t : TensorId) : Int :=
  (((g.tensor t).shape.fromIdx dim).map fun d => (g.dim d).lower).prodInt

theorem elementsFrom_ok {s : List DimId} {n : Int} (run : elementsFrom s dim g = .ok n h) :
    g = h ∧ n = ((s.fromIdx dim).map fun d => (g.dim d).lower).prodInt := by
  unfold elementsFrom at run
  cases axes : s.fromIdx dim with
  | nil =>
    rw [axes] at run
    exact (throw_ok.1 run).elim
  | cons d ds =>
    rw [axes] at run
    obtain ⟨rfl, rfl⟩ := pure_ok.1 run
    exact ⟨rfl, rfl⟩

theorem sum_range_getD (sizes : List Int) (j : Nat) :
    ((range j).map fun i => sizes[i]?.getD 0).sum = place sizes j := by
  induction j with
  | zero => simp [place]
  | succ j ih =>
    rw [range_succ, map_append, sum_append, ih]
    grind [List.getElem?_eq_none_iff, place_of_length_le, Nat.le_succ_of_le, place_succ]

theorem offsetBefore_ok {n : Int} {v : TensorId → Int}
    (sizes : ∀ t ∈ given, Shape.allStatic g.dim (g.tensor t).shape dim = true →
      elements g dim t = v t)
    (givens : (g.op cat).givenInputs = some given) (run : offsetBefore cat j dim g = .ok n h) :
    n = place (given.map v) j := by
  unfold offsetBefore at run
  rw [bind_run (op_run cat), givens] at run
  simp only [bind_ok, expect_ok, Option.some.injEq] at run
  obtain ⟨_, _, ⟨rfl, rfl⟩, sums, h, measured, run⟩ := run
  obtain ⟨rfl, -⟩ := pure_ok.1 run
  refine (congrArg sumInt (mapM_reads (fun i b g' run => ?_) measured).2).trans
    ((sumInt_eq _).trans (sum_range_getD (given.map v) j))
  simp only [shape, look, bind_ok, expect_ok, tensor_ok, require_ok, get_ok, pure_ok] at run
  obtain ⟨t, _, ⟨found, rfl⟩, s, _, ⟨x, _, ⟨rfl, rfl⟩, rfl, rfl⟩, _, _, ⟨-, rfl⟩, _, _,
    ⟨_, _, ⟨rfl, rfl⟩, rfl, rfl⟩, _, _, ⟨static, rfl⟩, run⟩ := run
  obtain ⟨rfl, rfl⟩ := elementsFrom_ok run
  exact ⟨rfl, by simp [← sizes t (mem_of_getElem? found) static, elements, found]⟩

/-- A part that is written in place starts where the inputs that are still copied before it end, so
the parts fill the result exactly if nothing before a moved one had been taken away.  A part that is
written through a view starts behind all inputs that were given before it. -/
theorem writeConcats_tiles_iff {g h : Arena} {ts ts' : Graph}
    (joined : Joined g (Graph.sources g ts)) (run : writeConcats ts g = .ok ts' h) {cat : OpId}
    {dim : Int} {whole : TensorId} {given : List TensorId} {ms : List Bool}
    (mem : cat ∈ Graph.sources g ts) (joining : Joining g cat dim whole given ms)
    (pos : ∀ t ∈ given, 0 < extent g dim t) :
    ∃ ms' : List Bool, Joining h cat dim whole given ms' ∧ (∀ t ∈ given, 0 < extent h dim t) ∧
    (∀ j : Nat, ms'[j]? = some true → ms[j]? = some true) ∧
      (∀ (j : Nat) t, given[j]? = some t → Moved ms ms' j → ∃ (o : OpId) (i : Nat), Makes g o i t ∧
        WritesAt h whole dim (starts (given.map (extent g dim)) ms ms' j) o i ∧
        (starts (given.map (extent g dim)) ms ms' j = place (given.map (extent g dim)) j ↔
          ∀ i < j, ms[i]? = some true)) ∧
      (Tiles (given.map (extent g dim)) (starts (given.map (extent g dim)) ms ms') ↔
        ∀ j, Moved ms ms' j → ∀ i < j, ms[i]? = some true) ∧
      ∀ j : Nat, ms'[j]? = some true → givenIndex cat (rank ms' j) h = .ok j h ∧
        ∀ n h', offsetBefore cat j dim h = .ok n h' → n = place (given.map (elements h dim)) j := by
  obtain ⟨r, ms', l⟩ := writeConcats_ok joined run mem joining
  have sizes : ∀ n ∈ given.map (extent g dim), 0 < n := by
    intro n hn
    obtain ⟨t, mem, rfl⟩ := mem_map.1 hn
    exact pos t mem
  have length : ms.length = (given.map (extent g dim)).length := by rw [length_map, joining.length]
  refine ⟨ms', l.joining, fun t mem => r.extent dim t ▸ pos t mem, l.fewer, fun j t at_ moved => ?_,
    tiles_starts_iff sizes length, fun j mask =>
    ⟨givenIndex_run l.joining.givens l.joining.masks l.joining.length mask, fun n h' run =>
      offsetBefore_ok (fun _ _ _ => rfl) l.joining.givens run⟩⟩
  obtain ⟨o, i, makes, writes⟩ := l.moves j t at_ moved
  refine ⟨o, i, makes, ?_, starts_eq_iff sizes length moved⟩
  rw [starts, if_pos moved]
  exact writes

/-- A result `m` that is joined behind another part: `r`, which the join copies if it is asked
to. -/
def behindArena (copied : Bool) : Arena where
  dims := #[.static 3, .static 4, .static 7, .static 5]
  tensors :=
    let leaf (name : String) (d o : Nat) : Tensor :=
      { Tensor.ofShape [⟨d⟩, ⟨3⟩] with name := some name, isInput := true, dst := ⟨[⟨o⟩], false⟩ }
    let made (name : String) (d : Nat) (sources users : List OpId) : Tensor :=
      { Tensor.ofShape [⟨d⟩, ⟨3⟩] with name := some name, src := ⟨sources, false⟩, dst := ⟨users,
        false⟩ }
    #[leaf "x" 0 0, leaf "z" 1 1, if copied then made "r" 0 [⟨0⟩] [⟨2⟩] else made "r" 0 [] [],
      made "m" 1 [⟨1⟩] [⟨2⟩], { made "y" 2 (if copied then [⟨2⟩] else [⟨2⟩, ⟨0⟩])
      [] with isOutput := true }]
  ops :=
    #[{ Operator.ofClass .sliceReshapeScatter
      (if copied then "dynamic_slice" else "slice_reshape_scatter") with
        name := some "op_0"
        inputs := some [⟨0⟩]
        outputs := some (if copied then [⟨2⟩] else [⟨4⟩]) },
      { Operator.ofClass .fusedElementwise "fused_elementwise" with
        name := some "fused_elementwise_1"
        inputs := some [⟨1⟩]
        outputs := some [⟨3⟩]
        outputAccessors := some [.ofShape [⟨1⟩, ⟨3⟩]] },
      { Operator.ofClass .concatenate "concatenate" with
        name := some "concatenate_2"
        inputs := some (if copied then [⟨2⟩, ⟨3⟩] else [⟨3⟩])
        outputs := some [⟨4⟩]
        givenInputs := some [⟨2⟩, ⟨3⟩]
        inputMasks := some [copied, true]
        inputAccessors := some (if copied then [.ofShape [⟨0⟩, ⟨3⟩], .ofShape [⟨1⟩, ⟨3⟩]] else
          [.ofShape [⟨1⟩, ⟨3⟩]])
        params := [("concat_dim", .int 0)] }]
  namer := ⟨0, 0, [], []⟩
  target := some ⟨.cuda, []⟩

def behindGraph (copied : Bool) : Graph := if copied then [⟨0⟩, ⟨1⟩, ⟨2⟩, ⟨3⟩, ⟨4⟩] else
    [⟨0⟩, ⟨1⟩, ⟨3⟩, ⟨4⟩]

theorem joining_behind (copied : Bool) :
    Joining (behindArena copied) ⟨2⟩ 0 ⟨4⟩ [⟨2⟩, ⟨3⟩] [copied, true] := by
  cases copied <;> exact ⟨rfl, rfl, rfl, by decide, rfl, rfl, rfl, rfl⟩

theorem joined_behind (copied : Bool) :
    Joined (behindArena copied) (Graph.sources (behindArena copied) (behindGraph copied)) := by
  intro p hp kind
  have known : p = ⟨0⟩ ∨ p = ⟨1⟩ ∨ p = ⟨2⟩ := by
    have all : ∀ p ∈ Graph.sources (behindArena copied) (behindGraph copied), p = ⟨0⟩ ∨ p = ⟨1⟩ ∨
      p = ⟨2⟩ := by
      cases copied <;> decide
    exact all p hp
  rcases known with rfl | rfl | rfl
  · cases copied <;> exact absurd kind (by decide)
  · cases copied <;> exact absurd kind (by decide)
  · grind [joining_behind]

/-- A part behind one that is copied starts at its place; behind one that a scatter writes it starts
too early. -/
theorem writeConcats_tiles_iff_behind :
    (∃ ts' h, writeConcats (behindGraph true) (behindArena true) = .ok ts' h ∧
      WritesAt h ⟨4⟩ 0 3 ⟨1⟩ 0 ∧ Tiles [3, 4] (starts [3, 4] [true, true] [true, false])) ∧
    ∃ ts' h, writeConcats (behindGraph false) (behindArena false) = .ok ts' h ∧
    WritesAt h ⟨4⟩ 0 0 ⟨1⟩ 0 ∧
      ¬Tiles [3, 4] (starts [3, 4] [false, true] [false, false]) := by
  have each : ∀ copied : Bool, ∃ ts' h, writeConcats (behindGraph copied) (behindArena copied) =
    .ok ts' h ∧
      WritesAt h ⟨4⟩ 0 (starts [3, 4] [copied, true] [copied, false] 1) ⟨1⟩ 0 ∧
      (Tiles [3, 4] (starts [3, 4] [copied, true] [copied, false]) ↔
        ∀ j, Moved [copied, true] [copied, false] j → ∀ i < j, [copied, true][i]? = some true) := by
    intro copied
    have computed : (match writeConcats (behindGraph copied) (behindArena copied) with
      | .ok _ h => decide ((h.op ⟨2⟩).inputMasks = some [copied, false])
      | .error _ _ => false) = true := by cases copied <;> decide +kernel
    cases run : writeConcats (behindGraph copied) (behindArena copied) with
    | error => simp [run] at computed
    | ok ts' h =>
      rw [run] at computed
      obtain ⟨ms', joining, -, -, moves, tiles, -⟩ :=
        writeConcats_tiles_iff (joined_behind copied) run
        (by cases copied <;> decide) (joining_behind copied) (by cases copied <;> decide)
      obtain rfl : [copied, false] = ms' := Option.some.inj
        ((of_decide_eq_true computed).symm.trans joining.masks)
      obtain ⟨o, i, makes, writes, -⟩ := moves 1 ⟨3⟩ rfl ⟨rfl, rfl⟩
      obtain rfl : ⟨1⟩ = o := by
        have source := makes.source
        cases copied <;> exact head_eq_of_cons_eq source
      obtain rfl : 0 = i := by
        have output := makes.output
        cases i with
        | zero => rfl
        | succ i => cases copied <;> cases output
      have sizes : [⟨2⟩, ⟨3⟩].map (extent (behindArena copied) 0) = [3, 4] := by
        cases copied <;> rfl
      rw [sizes] at writes tiles
      exact ⟨ts', h, rfl, writes, tiles⟩
  obtain ⟨ts₁, h₁, run₁, writes₁, tiles₁⟩ := each true
  obtain ⟨ts₂, h₂, run₂, writes₂, tiles₂⟩ := each false
  refine ⟨⟨ts₁, h₁, run₁, writes₁, tiles₁.2 fun j moved i lt => ?_⟩, ts₂, h₂, run₂, writes₂,
    fun tiles => ?_⟩
  · have bound : j < 2 := (List.getElem?_eq_some_iff.1 moved.1).1
    obtain rfl : i = 0 := by omega
    rfl
  · exact absurd (tiles₂.1 tiles 1 ⟨rfl, rfl⟩ 0 (by decide)) (by decide)

end Strided

end TensorGraph

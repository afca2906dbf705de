import TensorGraph.Graph.Validity
import TensorGraph.Proofs.SortedGraph
import TensorGraph.Proofs.Steps

/-!
# What a passed check means

`check` walks over a graph twice, forwards over the sources of its tensors and backwards over their
users.
-/

namespace TensorGraph

open List

variable {t : TensorId} {o : OpId} {r : Bool}

namespace Graph

open Build

/-- A source of a tensor reads only tensors in front, which know it, and writes the tensor. -/
structure SourceFits (g : Arena) (front : List TensorId) (t : TensorId) (o : OpId) : Prop where
  applied : (g.op o).inputs.isSome ∧ (g.op o).outputs.isSome
  reads : ∀ x ∈ (g.op o).inputList, x ∈ front ∧ o ∈ (g.tensor x).dst.ops
  writes : t ∈ (g.op o).outputList

/-- A user of a tensor writes only tensors behind, which know it, and reads the tensor. -/
structure UserFits (g : Arena) (behind : List TensorId) (t : TensorId) (o : OpId) : Prop where
  applied : (g.op o).inputs.isSome ∧ (g.op o).outputs.isSome
  writes : ∀ y ∈ (g.op o).outputList, y ∈ behind ∧ o ∈ (g.tensor y).src.ops
  reads : t ∈ (g.op o).inputList

/-- All sources and users of the tensors of a graph fit. -/
structure Valid (g : Arena) (ts : Graph) : Prop where
  sources : ∀ l t r, ts = l ++ t :: r → ∀ o ∈ (g.tensor t).src.ops, SourceFits g l t o
  users : ∀ l t r, ts = l ++ t :: r → ∀ o ∈ (g.tensor t).dst.ops, UserFits g r t o

namespace Valid

variable {g : Arena} {ts : Graph} (valid : Valid g ts)
include valid

theorem applied (ht : t ∈ ts) (ho : o ∈ (g.tensor t).src.ops) : (g.op o).inputs.isSome ∧
    (g.op o).outputs.isSome := by
  obtain ⟨l, r, split⟩ := append_of_mem ht
  exact (valid.sources l t r split o ho).applied

theorem writes (ht : t ∈ ts) (ho : o ∈ (g.tensor t).src.ops) : t ∈ (g.op o).outputList := by
  obtain ⟨l, r, split⟩ := append_of_mem ht
  exact (valid.sources l t r split o ho).writes

theorem reads (ht : t ∈ ts) (ho : o ∈ (g.tensor t).src.ops) {x : TensorId}
    (hx : x ∈ (g.op o).inputList) : x ∈ ts ∧ o ∈ (g.tensor x).dst.ops := by
  obtain ⟨l, r, split⟩ := append_of_mem ht
  obtain ⟨mem, knows⟩ := (valid.sources l t r split o ho).reads x hx
  grind

theorem before (ht : t ∈ ts) (ho : o ∈ (g.tensor t).src.ops) {x : TensorId}
    (hx : x ∈ (g.op o).inputList) : Before ts x t := by
  obtain ⟨l, r, rfl, first⟩ := eq_append_cons_of_mem ht
  have front := ((valid.sources l t r rfl o ho).reads x hx).1
  unfold Before
  grind

theorem uses (ht : t ∈ ts) (ho : o ∈ (g.tensor t).dst.ops) :
    ((g.op o).inputs.isSome ∧ (g.op o).outputs.isSome) ∧ t ∈ (g.op o).inputList ∧
      ∀ y ∈ (g.op o).outputList, y ∈ ts ∧ o ∈ (g.tensor y).src.ops := by
  obtain ⟨l, r, split⟩ := append_of_mem ht
  obtain ⟨applied, writes, reads⟩ := valid.users l t r split o ho
  grind

end Valid

/-! ## Loops that check -/

section Loops

variable {α : Type} {g g' : Arena}

theorem foldlM_tests {C : α → Prop} {f : Bool → α → Build Bool} [∀ b a, ReadOnly (f b a)] {v : Bool}
    (test : ∀ b a g', f b a g = .ok v g' ↔ C a ∧ b = v ∧ g = g') (l : List α) {b : Bool} :
    l.foldlM f b g = .ok v g' ↔ (∀ a ∈ l, C a) ∧ b = v ∧ g = g' := by
  induction l generalizing b with
  | nil => simp
  | cons a l ih =>
    simp only [foldlM_cons, bind_ok, forall_mem_cons]
    constructor
    · rintro ⟨b', g₁, first, rest⟩
      obtain rfl := ReadOnly.keeps first
      obtain ⟨hl, rfl, rfl⟩ := ih.1 rest
      obtain ⟨ha, hb, -⟩ := (test _ _ _).1 first
      exact ⟨⟨ha, hl⟩, hb, rfl⟩
    · rintro ⟨⟨ha, hl⟩, rfl, rfl⟩
      exact ⟨b, g, (test _ _ _).2 ⟨ha, rfl, rfl⟩, ih.2 ⟨hl, rfl, rfl⟩⟩

theorem foldlM_tests_front {C : List α → α → Prop} {f : Bool × List α → α → Build (Bool × List α)}
    [∀ b a, ReadOnly (f b a)] {v : Bool} (test : ∀ b a seen g', f b a g = .ok (v, seen) g' ↔
    C b.2 a ∧ b.1 = v ∧ seen = a :: b.2 ∧ g = g') (l : List α) {b : Bool × List α} {seen : List α} :
    l.foldlM f b g = .ok (v, seen) g' ↔ (∀ front a back, l = front ++ a :: back →
      C (front.reverse ++ b.2) a) ∧ b.1 = v ∧ seen = l.reverse ++ b.2 ∧ g = g' := by
  induction l generalizing b with
  | nil =>
    obtain ⟨w, s⟩ := b
    simp [and_assoc, @eq_comm _ s]
  | cons a l ih =>
    simp only [foldlM_cons, bind_ok]
    constructor
    · rintro ⟨⟨w, s⟩, g₁, first, rest⟩
      obtain rfl := ReadOnly.keeps first
      obtain ⟨hl, rfl : w = v, rfl, rfl⟩ := ih.1 rest
      obtain ⟨ha, hb, rfl, -⟩ := (test _ _ _ _).1 first
      refine ⟨fun front x back split => ?_, hb, by simp, rfl⟩
      cases front with
      | nil => grind
      | cons y front => grind
    · rintro ⟨hl, hb, rfl, rfl⟩
      refine ⟨(v, a :: b.2), g, (test _ _ _ _).2 ⟨by simpa using hl [] a l rfl, hb, rfl, rfl⟩,
        ih.2 ⟨fun front x back split => ?_, rfl, by simp, rfl⟩⟩
      simpa using hl (a :: front) x back (by rw [split, cons_append])

end Loops

/-! ## The check -/

instance (f : Fault) (holds valid : Bool) :
    ReadOnly (note r f holds valid) := by unfold note; exact .of_parts

instance (seen : List TensorId) (valid : Bool) : ReadOnly (checkSource r seen t valid o) :=
  .of_parts

instance (seen : List TensorId) (valid : Bool) : ReadOnly (checkUser r seen t valid o) := .of_parts

section Check

variable {g g' : Arena} {valid v : Bool} {seen : List TensorId} (pass : r = true ∨ v = true)
include pass

theorem note_ok {f : Fault} {holds : Bool} : note r f holds valid g = .ok v g' ↔ holds = true ∧
    valid = v ∧ g = g' := by
  unfold note
  rcases pass with rfl | rfl <;> cases holds <;> simp
  cases r <;> simp

theorem notes_ok {P : TensorId → Bool} {Q : Tensor → Bool} {e : Tensor → Fault}
    {e' : Tensor → Fault} (ts : List TensorId) :
    (ts.foldlM (fun valid i => do
      let y ← tensor i
      let valid ← note r (e y) (P i) valid
      note r (e' y) (Q y) valid) valid : Build Bool) g = .ok v g' ↔
      (∀ i ∈ ts, P i = true ∧ Q (g.tensor i) = true) ∧ valid = v ∧ g = g' := by
  refine foldlM_tests (C := fun i => P i = true ∧ Q (g.tensor i) = true) (fun b i g' => ?_) ts
  simp only [bind_ok, tensor_ok]
  constructor
  · rintro ⟨_, _, ⟨rfl, rfl⟩, w, g₁, first, second⟩
    obtain ⟨hq, rfl, rfl⟩ := (note_ok pass).1 second
    obtain ⟨hp, rfl, rfl⟩ := (note_ok pass).1 first
    exact ⟨⟨hp, hq⟩, rfl, rfl⟩
  · rintro ⟨⟨hp, hq⟩, rfl, rfl⟩
    exact ⟨_, _, ⟨rfl, rfl⟩, b, g, (note_ok pass).2 ⟨hp, rfl, rfl⟩, (note_ok pass).2 ⟨hq, rfl, rfl⟩⟩

theorem checkSource_ok : checkSource r seen t valid o g = .ok v g' ↔ SourceFits g seen t o ∧
    valid = v ∧ g = g' := by
  unfold checkSource
  simp only [bind_ok, tensor_ok, op_ok, inputs_ok, outputs_ok, note_ok pass]
  constructor
  · rintro ⟨_, _, ⟨rfl, rfl⟩, _, _, ⟨rfl, rfl⟩, xs, _, ⟨hxs, rfl⟩, w, g₁, loop, ys, _, ⟨hys, rfl⟩,
      wrote, rfl, rfl⟩
    obtain ⟨reads, rfl, rfl⟩ := (notes_ok pass xs).1 loop
    refine ⟨⟨by simp [hxs, hys], fun x hx => ?_, by simpa [Operator.outputList, hys] using wrote⟩,
      rfl, rfl⟩
    grind [Operator.inputList]
  · rintro ⟨⟨⟨hxs, hys⟩, reads, writes⟩, rfl, rfl⟩
    obtain ⟨xs, hxs⟩ := Option.isSome_iff_exists.1 hxs
    obtain ⟨ys, hys⟩ := Option.isSome_iff_exists.1 hys
    refine ⟨_, _, ⟨rfl, rfl⟩, _, _, ⟨rfl, rfl⟩, xs, g, ⟨hxs, rfl⟩, valid, g,
      (notes_ok pass xs).2 ⟨?_, rfl, rfl⟩, ys, g, ⟨hys, rfl⟩, ?_⟩
    · simpa [Operator.inputList, hxs] using reads
    · simpa [Operator.outputList, hys] using writes

theorem checkUser_ok : checkUser r seen t valid o g = .ok v g' ↔ UserFits g seen t o ∧ valid = v ∧
    g = g' := by
  unfold checkUser
  simp only [bind_ok, tensor_ok, op_ok, inputs_ok, outputs_ok, note_ok pass]
  constructor
  · rintro ⟨_, _, ⟨rfl, rfl⟩, _, _, ⟨rfl, rfl⟩, ys, _, ⟨hys, rfl⟩, w, g₁, loop, xs, _, ⟨hxs, rfl⟩,
      read, rfl, rfl⟩
    obtain ⟨writes, rfl, rfl⟩ := (notes_ok pass ys).1 loop
    refine ⟨⟨by simp [hxs, hys], fun y hy => ?_, by simpa [Operator.inputList, hxs] using read⟩,
      rfl, rfl⟩
    grind [Operator.outputList]
  · rintro ⟨⟨⟨hxs, hys⟩, writes, reads⟩, rfl, rfl⟩
    obtain ⟨xs, hxs⟩ := Option.isSome_iff_exists.1 hxs
    obtain ⟨ys, hys⟩ := Option.isSome_iff_exists.1 hys
    refine ⟨_, _, ⟨rfl, rfl⟩, _, _, ⟨rfl, rfl⟩, ys, g, ⟨hys, rfl⟩, valid, g,
      (notes_ok pass ys).2 ⟨?_, rfl, rfl⟩, xs, g, ⟨hxs, rfl⟩, ?_⟩
    · simpa [Operator.outputList, hys] using writes
    · simpa [Operator.inputList, hxs] using reads

omit pass in
theorem links_ok {F : List TensorId → TensorId → OpId → Prop} (links : Tensor → List OpId)
    (f : List TensorId → TensorId → Bool → OpId → Build Bool)
    [∀ seen t v o, ReadOnly (f seen t v o)] (fits : ∀ seen t b o g', f seen t b o g = .ok v g' ↔
    F seen t o ∧ b = v ∧ g = g') (ts : List TensorId) :
    (ts.foldlM (fun (valid, seen) t => do
      let valid ← (links (← tensor t)).foldlM (f seen t) valid
      return (valid, t :: seen)) (valid, []) : Build (Bool × List TensorId)) g = .ok (v, seen) g' ↔
      (∀ front t back, ts = front ++ t :: back → ∀ o ∈ links (g.tensor t), F front.reverse t o) ∧
        valid = v ∧ seen = ts.reverse ∧ g = g' := by
  refine (foldlM_tests_front (C := fun seen t => ∀ o ∈ links (g.tensor t), F seen t o)
    (fun b t seen g' => ?_) ts).trans ?_
  · simp only [bind_ok, tensor_ok, pure_ok]
    constructor
    · rintro ⟨_, _, ⟨rfl, rfl⟩, v', g₁, loop, same, rfl⟩
      obtain ⟨rfl, rfl⟩ := Prod.mk.inj same
      obtain ⟨all, hb, rfl⟩ := (foldlM_tests (fun w o g' => fits b.2 t w o g') _).1 loop
      exact ⟨all, hb, rfl, rfl⟩
    · rintro ⟨all, hb, rfl, rfl⟩
      exact ⟨_, _, ⟨rfl, rfl⟩, v, g, (foldlM_tests (fun w o g' => fits b.2 t w o g') _).2
        ⟨all, hb, rfl⟩, rfl, rfl⟩
  · simp only [append_nil]

/-- The check passes exactly the valid graphs. -/
theorem check_passes {ts : Graph} : check r ts g = .ok v g' ↔ Valid g ts ∧ v = true ∧ g = g' := by
  have mono : ∀ {l l' : List TensorId} {t : TensorId} {o : OpId}, (∀ x, x ∈ l ↔ x ∈ l') →
      (SourceFits g l t o ↔ SourceFits g l' t o) ∧ (UserFits g l t o ↔ UserFits g l' t o) := by
    intro l l' t o same
    refine ⟨⟨fun h => ⟨h.1, ?_, h.3⟩, fun h => ⟨h.1, ?_, h.3⟩⟩,
      ⟨fun h => ⟨h.1, ?_, h.3⟩, fun h => ⟨h.1, ?_, h.3⟩⟩⟩
    · simpa only [same] using h.reads
    · simpa only [same] using h.reads
    · simpa only [same] using h.writes
    · simpa only [same] using h.writes
  unfold check
  simp only [bind_ok, pure_ok]
  constructor
  · rintro ⟨⟨b, front⟩, g₁, forwards, ⟨c, back⟩, g₂, backwards, rfl, rfl⟩
    obtain rfl := ReadOnly.keeps forwards
    obtain ⟨users, rfl, -, rfl⟩ := (links_ok (·.dst.ops) (checkUser r)
      (fun _ _ _ _ _ => checkUser_ok pass) ts.reverse).1 backwards
    obtain ⟨sources, rfl, -⟩ :=
      (links_ok (·.src.ops) (checkSource r) (fun _ _ _ _ _ => checkSource_ok pass) ts).1 forwards
    refine ⟨⟨fun l t r split o ho => ?_, fun l t r split o ho => ?_⟩, rfl, rfl⟩
    · grind
    · grind
  · rintro ⟨valid, rfl, rfl⟩
    refine ⟨_, g, (links_ok (·.src.ops) (checkSource r) (fun _ _ _ _ _ => checkSource_ok pass) ts).2
      ⟨?_, rfl, rfl, rfl⟩, _, g, (links_ok (·.dst.ops) (checkUser r)
      (fun _ _ _ _ _ => checkUser_ok pass) ts.reverse).2 ⟨?_, rfl, rfl, rfl⟩, rfl, rfl⟩
    · intro front t back split o ho
      exact (mono (by simp)).1.2 (valid.sources front t back split o ho)
    · intro front t back split o ho
      have : ts = back.reverse ++ t :: front.reverse := by grind
      exact valid.users _ t _ this o ho

omit pass in
theorem check_ok {ts : Graph} : check true ts g = .ok v g' ↔ Valid g ts ∧ v = true ∧ g = g' :=
  check_passes (Or.inl rfl)

end Check

end Graph

end TensorGraph

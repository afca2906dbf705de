import TensorGraph.Graph.Folding
import TensorGraph.Graph.Reach
import TensorGraph.Proofs.Sorting

/-!
# What is computed from constants only

Two procedures decide what is constant: a walk back from a tensor, which keeps its verdicts, and a
sweep along the sorted graph, which goes by names.  Where nothing computes an input they agree: the
sweep collects the name of `t` exactly if the walk answers `areConstant [t] = true`.
-/

namespace TensorGraph

namespace Graph

open Build List

/-- A tensor is computed from constants, and all tensors on the way to them satisfy a condition. -/
inductive FromConstants (g : Arena) (P : TensorId → Prop) : TensorId → Prop
  | bound {t : TensorId} (here : P t) (data : (g.tensor t).data.isSome) : FromConstants g P t
  | computed {t : TensorId} (here : P t) (sources : (g.tensor t).src.ops ≠ [])
      (reads : ∀ x, Needs g x t → FromConstants g P x) : FromConstants g P t

namespace FromConstants

variable {g : Arena} {P Q : TensorId → Prop} {t : TensorId}

theorem here (h : FromConstants g P t) : P t := by cases h <;> assumption

theorem iff_reads (free : (g.tensor t).data.isSome = false) (sources : (g.tensor t).src.ops ≠ [])
    (ok : P t) :
    FromConstants g P t ↔
    ∀ o ∈ (g.tensor t).src.ops, ∀ x ∈ (g.op o).inputList, FromConstants g P x := by
  constructor
  · intro h
    cases h with
    | bound _ data => simp [free] at data
    | computed _ _ reads => exact fun o ho x hx => reads x ⟨o, ho, hx⟩
  · exact fun h => .computed ok sources fun x ⟨o, ho, hx⟩ => h o ho x hx

theorem not_of_leaf (free : (g.tensor t).data.isSome = false) (leaf : (g.tensor t).src.ops = []) :
    ¬FromConstants g P t := by
  intro h
  cases h with
  | bound _ data => simp [free] at data
  | computed _ sources => exact sources leaf

theorem of_ordered {ts : Graph} (ordered : Ordered g ts) (all : ∀ u ∈ ts, FromConstants g P u → Q u)
    (ht : t ∈ ts) (h : FromConstants g P t) : FromConstants g Q t := by
  induction h with
  | bound here data => exact .bound (all _ ht (.bound here data)) data
  | computed here sources reads ih =>
    refine .computed (all _ ht (.computed here sources reads)) sources fun x needs => ih x needs ?_
    obtain ⟨o, ho, hx⟩ := needs
    exact ((ordered _ ht o ho).2 x hx).mem

end FromConstants

/-! ## Going backwards -/

section Backwards

variable {g : Arena}

def Sound (g : Arena) (seen : Verdicts) : Prop := ∀ t b, seen.lookup t = some b →
    (b = true ↔ FromConstants g (fun _ => True) t)

theorem Sound.cons {seen : Verdicts} (sound : Sound g seen) {t : TensorId} {b : Bool}
    (right : b = true ↔ FromConstants g (fun _ => True) t) : Sound g ((t, b) :: seen) := by
  intro u c h
  rw [lookup_cons] at h
  split at h
  · grind
  · exact sound u c h

theorem foldlM_asks {α : Type} {l : List α} {C : α → Prop}
    {f : Bool × Verdicts → α → Except Fault (Bool × Verdicts)}
    (stop : ∀ seen a, f (false, seen) a = .ok (false, seen)) (ask : ∀ a ∈ l, ∀ seen, Sound g seen →
    ∃ b seen', f (true, seen) a = .ok (b, seen') ∧ Sound g seen' ∧ (b = true ↔ C a))
    {seen : Verdicts} (sound : Sound g seen) :
    ∃ b seen', l.foldlM f (true, seen) = .ok (b, seen') ∧ Sound g seen' ∧
    (b = true ↔ ∀ a ∈ l, C a) := by
  have stopped : ∀ (l : List α) seen, l.foldlM f (false, seen) = .ok (false, seen) := by
    intro l seen
    induction l with
    | nil => rfl
    | cons a l ih => rw [foldlM_cons, stop]; exact ih
  induction l generalizing seen with
  | nil => exact ⟨true, seen, rfl, sound, by simp⟩
  | cons a l ih =>
    obtain ⟨b, seen₁, first, sound₁, right⟩ := ask a mem_cons_self seen sound
    rw [foldlM_cons, first]
    cases b with
    | false =>
      refine ⟨false, seen₁, stopped l seen₁, sound₁, ?_⟩
      grind
    | true =>
      obtain ⟨b, seen₂, rest, sound₂, right₂⟩ :=
        ih (fun c hc => ask c (mem_cons_of_mem _ hc)) sound₁
      refine ⟨b, seen₂, rest, sound₂, ?_⟩
      grind

def askTensor (g : Arena) (n : Nat) : Bool × Verdicts → TensorId → Except Fault (Bool × Verdicts)
  | (false, seen), _ => .ok (false, seen)
  | (true, seen), t => (decideConstant g n seen t).map fun seen => ((seen.lookup t).getD false,
    seen)

/-- Asks whether all that an operator reads is constant, unless an earlier answer was no. -/
def askSource (g : Arena) (n : Nat) : Bool × Verdicts → OpId → Except Fault (Bool × Verdicts)
  | (false, seen), _ => .ok (false, seen)
  | (true, seen), o =>
    match (g.op o).inputs with
    | some ts => ts.foldlM (askTensor g n) (true, seen)
    | none => .error .badType

theorem decideConstant_succ (g : Arena) (n : Nat) (seen : Verdicts) (t : TensorId) :
    decideConstant g (n + 1) seen t =
      if (seen.lookup t).isSome then .ok seen
      else if (g.tensor t).data.isSome then .ok ((t, true) :: seen)
      else if (g.tensor t).src.ops.isEmpty then .ok ((t, false) :: seen)
      else ((g.tensor t).src.ops.foldlM (askSource g n) (true, seen)).map fun (constant, seen) =>
        (t, constant) :: seen := by
  have tensors : (fun (constant, seen) i => do
      if !constant then return (constant, seen)
      let seen ← decideConstant g n seen i
      return ((seen.lookup i).getD false, seen)) = askTensor g n := by
    funext ⟨constant, seen⟩ i
    cases constant <;> rfl
  have sources : (fun (constant, seen) o => do
      if !constant then return (constant, seen)
      let ts ← match (g.op o).inputs with
        | some ts => .ok ts
        | none => .error .badType
      ts.foldlM (fun (constant, seen) i => do
        if !constant then return (constant, seen)
        let seen ← decideConstant g n seen i
        return ((seen.lookup i).getD false, seen)) (true, seen)) = askSource g n := by
    funext ⟨constant, seen⟩ o
    rw [tensors]
    cases constant with
    | false => rfl
    | true =>
      unfold askSource
      dsimp only
      cases (g.op o).inputs <;> rfl
  rw [← sources]
  rfl

/-- In a sorted graph the walk back from a tensor ends, with right verdicts and one for the
tensor. -/
theorem decideConstant_returns {ts : Graph} (ordered : Ordered g ts) (n : Nat) {seen : Verdicts}
    (sound : Sound g seen) {t : TensorId} (ht : t ∈ ts) (deep : ts.idxOf t < n) :
    ∃ seen' b, decideConstant g n seen t = .ok seen' ∧ Sound g seen' ∧ seen'.lookup t = some b := by
  induction n generalizing seen t with
  | zero => omega
  | succ n ih =>
    rw [decideConstant_succ]
    split
    · grind [Option.isSome_iff_exists]
    split
    · next data => exact ⟨_, true, rfl, sound.cons (iff_of_true rfl (.bound trivial data)), by simp⟩
    next free =>
    have free : (g.tensor t).data.isSome = false := by simpa using free
    split
    · next leaf =>
      have leaf : (g.tensor t).src.ops = [] := by simpa using leaf
      exact ⟨_, false, rfl, sound.cons
        (iff_of_false nofun (FromConstants.not_of_leaf free leaf)), by simp⟩
    next leaf =>
    have leaf : (g.tensor t).src.ops ≠ [] := by simpa using leaf
    have tensor :
        ∀ x, Before ts x t → ∀ seen, Sound g seen → ∃ b seen', askTensor g n (true, seen) x =
        .ok (b, seen') ∧ Sound g seen' ∧ (b = true ↔ FromConstants g (fun _ => True) x) := by
      intro x before seen sound
      obtain ⟨seen', b, run, sound', verdict⟩ :=
        ih sound before.mem (by unfold Before at before; omega)
      exact ⟨b, seen', by simp [askTensor, run, verdict, Except.map], sound', sound' x b verdict⟩
    have source :
        ∀ o ∈ (g.tensor t).src.ops, ∀ seen, Sound g seen →
        ∃ b seen', askSource g n (true, seen) o = .ok (b, seen') ∧ Sound g seen' ∧
        (b = true ↔ ∀ x ∈ (g.op o).inputList, FromConstants g (fun _ => True) x) := by
      intro o ho seen sound
      obtain ⟨applied, before⟩ := ordered t ht o ho
      obtain ⟨xs, inputs⟩ := Option.isSome_iff_exists.1 applied
      have list : (g.op o).inputList = xs := by rw [Operator.inputList, inputs]; rfl
      rw [list] at before ⊢
      simp only [askSource, inputs]
      exact foldlM_asks (fun _ _ => rfl) (fun x hx => tensor x (before x hx)) sound
    obtain ⟨b, seen', run, sound', right⟩ := foldlM_asks (fun _ _ => rfl) source sound
    refine ⟨(t, b) :: seen', b, by rw [run]; rfl, sound'.cons ?_, by simp⟩
    rw [right, FromConstants.iff_reads free leaf trivial]

theorem areConstant_ok {ts : Graph} (ordered : Ordered g ts) (nodup : ts.Nodup)
    (known : ∀ t ∈ ts, t.idx < g.tensors.size) {t : TensorId} (ht : t ∈ ts) :
    ∃ b, areConstant [t] g = .ok b g ∧ (b = true ↔ FromConstants g (fun _ => True) t) := by
  have deep : ts.idxOf t < g.tensors.size + 2 := by
    have := idxOf_lt_length_iff.2 ht
    have := length_le_size nodup known
    omega
  have nothing : Sound g [] := by simp [Sound]
  obtain ⟨seen, b, run, sound, verdict⟩ := decideConstant_returns ordered _ nothing ht deep
  refine ⟨b, ?_, sound t b verdict⟩
  unfold areConstant
  simp_all

end Backwards

/-! ## Going forwards -/

section Forwards

def Enlarged (g h : Arena) : Prop := ∃ new, h = { g with tensors := g.tensors ++ new }

namespace Enlarged

variable {g h : Arena}

theorem refl (g : Arena) : Enlarged g g := ⟨#[], by simp⟩

theorem op (enlarged : Enlarged g h) (o : OpId) : h.op o = g.op o := by
  obtain ⟨new, rfl⟩ := enlarged
  rfl

theorem tensor (enlarged : Enlarged g h) {t : TensorId} (known : t.idx < g.tensors.size) :
    h.tensor t = g.tensor t := by
  obtain ⟨new, rfl⟩ := enlarged
  simp [Arena.tensor, Array.getD_eq_getD_getElem?, Array.getElem?_append, known]

theorem push (enlarged : Enlarged g h) (x : Tensor) :
    Enlarged g { h with tensors := h.tensors.push x } := by
  obtain ⟨new, rfl⟩ := enlarged
  exact ⟨new.push x, by simp⟩

end Enlarged

theorem forIn_named {h : Arena} {os : List OpId} (applied : ∀ o ∈ os, (h.op o).inputs.isSome)
    (names : List (Option String)) (b : Bool) :
    (forIn os b fun o b =>
      if b = true then do
        let is ← inputs o
        let g ← get
        pure (ForInStep.yield (is.all fun i => names.contains (g.tensor i).name))
      else pure (ForInStep.yield b) : Build Bool) h =
      .ok (b && os.all fun o => (h.op o).inputList.all fun i => names.contains (h.tensor i).name)
        h := by
  induction os generalizing b with
  | nil =>
    rw [all_nil, Bool.and_true]
    rfl
  | cons o os ih =>
    have rest := ih fun p hp => applied p (mem_cons_of_mem _ hp)
    rw [forIn_cons, all_cons]
    cases b with
    | false =>
      exact rest false
    | true =>
      obtain ⟨is, inputs⟩ := Option.isSome_iff_exists.1 (applied o mem_cons_self)
      have turn : (do
          let is ← Build.inputs o
          let g ← get
          pure (ForInStep.yield (is.all fun i => names.contains (g.tensor i).name)) :
            Build (ForInStep Bool)) h =
          .ok (.yield (is.all fun i => names.contains (h.tensor i).name)) h := by simp [inputs]
      rw [if_pos rfl, bind_run turn, Operator.inputList, inputs]
      exact rest _

/-- What the walk has collected when it has passed the front of a graph. -/
structure Collected (g : Arena) (front : Graph) (acc : List (Option String) × Graph) (h : Arena) :
    Prop where
  enlarged : Enlarged g h
  names : ∀ n, n ∈ acc.1 ↔ ∃ t ∈ front, FromConstants g (fun t => (g.tensor t).isInput = false) t ∧
    (g.tensor t).name = n
  known : ∀ t ∈ acc.2, t.idx < h.tensors.size
  part : acc.2.map (fun t => (h.tensor t).name) = acc.1.reverse

namespace Collected

variable {g h : Arena} {front : Graph} {acc : List (Option String) × Graph} {t : TensorId}

theorem skip (collected : Collected g front acc h)
    (other : ¬FromConstants g (fun t => (g.tensor t).isInput = false) t) :
    Collected g (front ++ [t]) acc h := by
  refine ⟨collected.enlarged, fun n => ?_, collected.known, collected.part⟩
  rw [collected.names]
  constructor
  · grind
  · grind

theorem take (collected : Collected g front acc h)
    (constant : FromConstants g (fun t => (g.tensor t).isInput = false) t) {h' : Arena}
    (enlarged : Enlarged g h') (enlarged' : Enlarged h h') {u : TensorId}
    (known : u.idx < h'.tensors.size) (name : (h'.tensor u).name = (g.tensor t).name) :
    Collected g (front ++ [t]) ((g.tensor t).name :: acc.1, acc.2 ++ [u]) h' := by
  have size : h.tensors.size ≤ h'.tensors.size := by
    obtain ⟨new, rfl⟩ := enlarged'
    simp
  refine ⟨enlarged, fun n => ?_, fun v hv => ?_, ?_⟩
  · rw [mem_cons, collected.names]
    constructor
    · grind
    · grind
  · exact forall_mem_snoc.2 ⟨fun v hv => Nat.lt_of_lt_of_le (collected.known v hv) size, known⟩ v hv
  · rw [map_append, map_singleton, reverse_cons, name, ← collected.part]
    congr 1
    exact map_congr_left fun v hv => by rw [enlarged'.tensor (collected.known v hv)]

end Collected

theorem asOutput_run (h : Arena) (t : TensorId) :
    ∃ u h', asOutput t h = .ok u h' ∧ (∀ g, Enlarged g h → Enlarged g h') ∧
    u.idx < h'.tensors.size ∧
      (h'.tensor u).name = (h.tensor t).name := by
  refine ⟨⟨h.tensors.size⟩, { h with tensors := h.tensors.push _ }, rfl, fun g enlarged =>
    enlarged.push _, by simp, ?_⟩
  simp [Arena.tensor, Array.getD_eq_getD_getElem?]

/-- What is asked of a graph: it is sorted, its tensors go by different names, its parameters are
what nothing computes and is no input, and inputs have no contents. -/
structure Marked (g : Arena) (ts : Graph) : Prop where
  ordered : Ordered g ts
  known : ∀ t ∈ ts, t.idx < g.tensors.size
  names : (ts.map fun t => (g.tensor t).name).Nodup
  params : ∀ t ∈ ts, (g.tensor t).isParam = true ↔ (g.tensor t).isInput = false ∧
    (g.tensor t).src.ops = []
  inputs : ∀ t ∈ ts, (g.tensor t).isInput = true → (g.tensor t).data = none

theorem Marked.nodup {g : Arena} {ts : Graph} (marked : Marked g ts) : ts.Nodup :=
  .of_map _ marked.names

def collect (acc : List (Option String) × Graph) (t : TensorId) :
    Build (List (Option String) × Graph) := do
  let x ← tensor t
  if x.isInput then return acc
  if x.data.isSome then return (x.name :: acc.1, acc.2 ++ [t])
  if x.isParam then return acc
  let constant ← forIn x.src.ops true fun o b =>
    if b = true then do
      let is ← inputs o
      let g ← get
      pure (ForInStep.yield (is.all fun i => acc.1.contains (g.tensor i).name))
    else pure (ForInStep.yield b)
  if constant then return (x.name :: acc.1, acc.2 ++ [← asOutput t])
  return acc

theorem constantPart_eq (ts : Graph) : constantPart ts =
    (do return (← ts.foldlM collect ([], [])).2) := rfl

section Turn

variable {g h : Arena} {ts front back : Graph} {acc : List (Option String) × Graph} {t : TensorId}

theorem Collected.reads (collected : Collected g front acc h) (marked : Marked g ts)
    (split : ts = front ++ t :: back) {o : OpId} (ho : o ∈ (g.tensor t).src.ops) {x : TensorId}
    (hx : x ∈ (g.op o).inputList) :
    acc.1.contains (h.tensor x).name = true ↔
    FromConstants g (fun t => (g.tensor t).isInput = false) x := by
  have ht : t ∈ ts := by simp [split]
  have before : Before ts x t := (marked.ordered t ht o ho).2 x hx
  have inFront : x ∈ front := (split ▸ before).mem_front
  rw [contains_iff_mem, collected.enlarged.tensor (marked.known x before.mem), collected.names]
  constructor
  · rintro ⟨u, hu, constant, name⟩
    have : u = x := inj_on_of_nodup_map marked.names (by simp [split, hu]) before.mem name
    exact this ▸ constant
  · grind

theorem Collected.turn (collected : Collected g front acc h) (marked : Marked g ts)
    (split : ts = front ++ t :: back) :
    ∃ acc' h', collect acc t h = .ok acc' h' ∧ Collected g (front ++ [t]) acc' h' := by
  have ht : t ∈ ts := by simp [split]
  have known := marked.known t ht
  have same := collected.enlarged.tensor known
  unfold collect
  rw [bind_run (tensor_run t), same]
  by_cases input : (g.tensor t).isInput = true
  · rw [if_pos input]
    refine ⟨acc, h, rfl, collected.skip fun constant => ?_⟩
    rw [constant.here] at input
    cases input
  have input' : (g.tensor t).isInput = false := by simpa using input
  rw [if_neg input]
  by_cases data : (g.tensor t).data.isSome = true
  · rw [if_pos data]
    refine ⟨_, h, rfl, collected.take (.bound input' data) collected.enlarged (.refl h) ?_
      (by rw [same])⟩
    obtain ⟨new, rfl⟩ := collected.enlarged
    simp
    omega
  have free : (g.tensor t).data.isSome = false := by simpa using data
  rw [if_neg data]
  by_cases param : (g.tensor t).isParam = true
  · rw [if_pos param]
    exact ⟨acc, h, rfl, collected.skip (FromConstants.not_of_leaf free
      ((marked.params t ht).1 param).2)⟩
  have sources : (g.tensor t).src.ops ≠ [] := fun leaf =>
    param ((marked.params t ht).2 ⟨input', leaf⟩)
  have applied : ∀ o ∈ (g.tensor t).src.ops, (h.op o).inputs.isSome := by
    intro o ho
    rw [collected.enlarged.op]
    exact (marked.ordered t ht o ho).1
  have right : ((g.tensor t).src.ops.all fun o => (h.op o).inputList.all fun i =>
    acc.1.contains (h.tensor i).name) = true ↔
      FromConstants g (fun t => (g.tensor t).isInput = false) t := by
    rw [FromConstants.iff_reads free sources input', all_eq_true]
    refine forall₂_congr fun o ho => ?_
    rw [collected.enlarged.op, all_eq_true]
    exact forall₂_congr fun x hx => collected.reads marked split ho hx
  rw [if_neg param, bind_run (forIn_named applied acc.1 true), Bool.true_and]
  by_cases constant : FromConstants g (fun t => (g.tensor t).isInput = false) t
  · obtain ⟨u, h', run, enlarged, new, name⟩ := asOutput_run h t
    rw [if_pos (right.2 constant), bind_run run]
    exact ⟨_, h', rfl, collected.take constant (enlarged g collected.enlarged)
      (enlarged h (.refl h)) new (name.trans (by rw [same]))⟩
  · rw [if_neg fun all => constant (right.1 all)]
    exact ⟨acc, h, rfl, collected.skip constant⟩

end Turn

theorem constantPart_run {g : Arena} {ts : Graph} (marked : Marked g ts) :
    ∃ part h, constantPart ts g = .ok part h ∧ Enlarged g h ∧
    ∀ n, n ∈ part.map (fun t => (h.tensor t).name) ↔
    ∃ t ∈ ts, FromConstants g (fun t => (g.tensor t).isInput = false) t ∧
    (g.tensor t).name = n := by
  obtain ⟨acc, h, run, collected⟩ := foldlM_arrives (f := collect) (Collected g)
    (fun _ _ _ split _ _ collected => collected.turn marked split) (b := ([], []))
      ⟨.refl g, by simp, by simp, rfl⟩
  refine ⟨acc.2, h, ?_, collected.enlarged, fun n => ?_⟩
  · rw [constantPart_eq, bind_run run]
    rfl
  · rw [collected.part, mem_reverse, collected.names]

end Forwards

/-- In a sorted graph whose inputs nothing computes both procedures give an answer, the sweep leaves
all nodes of the graph as they are, and the names that it collects are those of the tensors that can
be computed beforehand. -/
theorem constantPart_names_iff {g : Arena} {ts : Graph} (marked : Marked g ts)
    (given : ∀ t ∈ ts, (g.tensor t).isInput = true → (g.tensor t).src.ops = []) :
    ∃ part h, constantPart ts g = .ok part h ∧ (∀ o, h.op o = g.op o) ∧
      (∀ t : TensorId, t.idx < g.tensors.size → h.tensor t = g.tensor t) ∧
      (∀ t ∈ ts, ∃ b, areConstant [t] g = .ok b g) ∧
      ∀ n, n ∈ part.map (fun t => (h.tensor t).name) ↔
        ∃ t ∈ ts, areConstant [t] g = .ok true g ∧ (g.tensor t).name = n := by
  obtain ⟨part, h, run, enlarged, names⟩ := constantPart_run marked
  have answer := fun t (ht : t ∈ ts) => areConstant_ok marked.ordered marked.nodup marked.known ht
  refine ⟨part, h, run, enlarged.op, fun t ht => enlarged.tensor ht, fun t ht => ?_, fun n => ?_⟩
  · obtain ⟨b, run, -⟩ := answer t ht
    exact ⟨b, run⟩
  · rw [names]
    refine exists_congr fun t => and_congr_right fun ht => and_congr_left fun _ => ?_
    obtain ⟨b, run, right⟩ := answer t ht
    rw [run, EStateM.Result.ok.injEq, and_iff_left rfl, right]
    constructor
    · exact FromConstants.of_ordered marked.ordered (fun _ _ _ => trivial) ht
    · refine FromConstants.of_ordered marked.ordered (fun u hu constant => ?_) ht
      -- an input is a leaf without contents
      refine Bool.eq_false_iff.2 fun input => ?_
      exact FromConstants.not_of_leaf (by simp [marked.inputs u hu input])
        (given u hu input) constant

instance (g : Arena) (ts : Graph) : Decidable (Marked g ts) :=
  decidable_of_iff ((∀ t ∈ ts, ∀ o ∈ (g.tensor t).src.ops, (g.op o).inputs.isSome ∧
    ∀ x ∈ (g.op o).inputList, Before ts x t) ∧
      (∀ t ∈ ts, t.idx < g.tensors.size) ∧ (ts.map fun t => (g.tensor t).name).Nodup ∧
      (∀ t ∈ ts, (g.tensor t).isParam = true ↔ (g.tensor t).isInput = false ∧
        (g.tensor t).src.ops = []) ∧
      ∀ t ∈ ts, (g.tensor t).isInput = true → (g.tensor t).data = none)
    ⟨fun ⟨a, b, c, d, e⟩ => ⟨a, b, c, d, e⟩, fun h =>
      ⟨h.ordered, h.known, h.names, h.params, h.inputs⟩⟩

/-- A constant `c`, `y = f c`, `z = f y`, an input `x` and `w = f z x`. -/
def foldingArena : Arena where
  dims := #[.static 4]
  tensors :=
    let made (name : String) (sources : List Nat) : Tensor :=
      { Tensor.ofShape [⟨0⟩] with name := some name, src := ⟨sources.map OpId.mk, false⟩ }
    #[{ made "c" [] with isParam := true, data := some ⟨8, "float16"⟩ }, made "y" [0], made "z" [1],
      { made "x" [] with isInput := true }, made "w" [2]]
  ops :=
    let applied (xs : List Nat) (y : Nat) : Operator :=
      { Operator.ofClass .elementwise
        "elementwise" with inputs := some (xs.map TensorId.mk), outputs := some [⟨y⟩] }
    #[applied [0] 1, applied [1] 2, applied [2, 3] 4]
  namer := ⟨0, 0, [], []⟩
  target := none

/-- `c`, `y` and `z` are collected. -/
theorem constantPart_names_iff_chain : Marked foldingArena [⟨0⟩, ⟨1⟩, ⟨2⟩, ⟨3⟩, ⟨4⟩] ∧
    ∃ part h, constantPart [⟨0⟩, ⟨1⟩, ⟨2⟩, ⟨3⟩, ⟨4⟩] foldingArena = .ok part h ∧
      h.tensor ⟨1⟩ = foldingArena.tensor ⟨1⟩ ∧
      ∀ n, n ∈ part.map (fun t => (h.tensor t).name) ↔ n ∈ [some "c", some "y", some "z"] := by
  have marked : Marked foldingArena [⟨0⟩, ⟨1⟩, ⟨2⟩, ⟨3⟩, ⟨4⟩] := by decide
  obtain ⟨part, h, run, -, tensors, -, agree⟩ := constantPart_names_iff marked (by decide)
  have c : areConstant [⟨0⟩] foldingArena = .ok true foldingArena := rfl
  have y : areConstant [⟨1⟩] foldingArena = .ok true foldingArena := rfl
  have z : areConstant [⟨2⟩] foldingArena = .ok true foldingArena := rfl
  have x : areConstant [⟨3⟩] foldingArena = .ok false foldingArena := rfl
  have w : areConstant [⟨4⟩] foldingArena = .ok false foldingArena := rfl
  refine ⟨marked, part, h, run, tensors ⟨1⟩ (by decide), fun n => ?_⟩
  rw [agree n]
  simp only [mem_cons, not_mem_nil, or_false, exists_eq_or_imp, exists_eq_left, c, y, z, x, w,
    EStateM.Result.ok.injEq, Bool.false_eq_true, false_and, and_true, true_and]
  exact or_congr eq_comm (or_congr eq_comm eq_comm)

end Graph

end TensorGraph

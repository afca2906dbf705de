import TensorGraph.Proofs.Places
import TensorGraph.Proofs.Producers
import TensorGraph.Proofs.Strides

/-!
# Redirected results

An operator that makes a tensor alone (`Makes`) can be redirected: it writes its result into a
larger tensor instead, from some position of an axis on (`WritesAt`).
-/

namespace TensorGraph

open Build List

variable {g h h' : Arena} {t w : TensorId} {ts : List TensorId} {o : OpId} {dim start : Int}
  {i : Nat}

/-! ## Where an accessor starts -/

namespace Accessor

/-- An accessor reaches a part of a tensor that starts at a position of an axis. -/
structure StartsAt (look : DimTable) (base : List DimId) (dim start : Int) (a : Accessor) :
    Prop where
  stored : a.storedShape = some base
  axis : a.strideDim = some dim
  offset : a.offset = start * width look base dim

theorem StartsAt.congr {look look' : DimTable} {base : List DimId} {a : Accessor}
    (values : ∀ d, (look' d).values = (look d).values) (starts : a.StartsAt look base dim start) :
    a.StartsAt look' base dim start := by
  refine ⟨starts.stored, starts.axis, starts.offset.trans ?_⟩
  simp only [width, Dim.value, values]

theorem rebase_startsAt {look : DimTable} {a b : Accessor} {base : List DimId}
    (run : a.rebase look base dim start = (b, none)) : b.StartsAt look base dim start := by
  obtain ⟨-, stored, axis, -⟩ := rebase_ok run
  obtain ⟨-, x, y, -, -, -, -, -, rfl⟩ := rebase_eq run
  exact ⟨stored, axis, (noteParts_keeps _ _).2.2.2.2⟩

end Accessor

namespace Strided

open Concat

/-! ## Moving one part -/

/-- An operator writes one of its results into a larger tensor, from a position of an axis on. -/
structure WritesAt (h : Arena) (whole : TensorId) (dim start : Int) (o : OpId) (i : Nat) :
    Prop where
  source : o ∈ (h.tensor whole).src.ops
  output : (h.op o).outputList[i]? = some whole
  accessor : ∃ as a, (h.op o).outputAccessors = some as ∧ as[i]? = some a ∧
    a.StartsAt h.dim (h.tensor whole).shape dim start

def extent (g : Arena) (dim : Int) (t : TensorId) : Int :=
  (((g.tensor t).shape.at? dim).map fun d => (g.dim d).value).getD 0

theorem sumInt_eq (ns : List Int) : ns.sumInt = ns.sum := by
  unfold sumInt
  rw [sum_eq_foldl]

theorem mapM_reads {α β : Type} {l : List α} {f : α → Build β} {v : α → β} {bs : List β}
    (each : ∀ a b g', f a g = .ok b g' → g = g' ∧ b = v a) (run : l.mapM f g = .ok bs h) :
    g = h ∧ bs = l.map v := by
  rw [← mapM'_eq_mapM] at run
  induction l generalizing bs with
  | nil => simp_all
  | cons a l ih =>
    simp only [mapM'_cons, bind_ok, pure_ok] at run
    grind

theorem extents_ok {sizes : List Int}
    (run : (ts.mapM fun u => do fixedSize (← axis (← shape u) dim) : Build (List Int)) g =
      .ok sizes h) :
    g = h ∧ sizes = ts.map (extent g dim) := by
  refine mapM_reads (fun t n g' run => ?_) run
  simp only [shape, axis, fixedSize, bind_ok, tensor_ok, dim_ok, expect_ok, require_ok,
    pure_ok] at run
  grind [extent]

def moveArena (h : Arena) (whole t : TensorId) (o : OpId) (i : Nat) (as : List Accessor) : Arena :=
  (((h.modifyOp o fun x => { x with outputAccessors := some as }).modifyTensor whole fun x =>
    { x with src := x.src.insert o }).modifyOp o fun x =>
      { x with outputs := x.outputs.map (·.set i whole) }).modifyTensor t fun x =>
      { x with src := .empty, dst := .empty, isInput := false, isOutput := false }

theorem op_moveArena (h : Arena) (whole t : TensorId) (o : OpId) (i : Nat) (as : List Accessor)
    (inside : o.idx < h.ops.size) (p : OpId) :
    (moveArena h whole t o i as).op p =
      if p = o then { h.op o with
        outputAccessors := some as, outputs := (h.op o).outputs.map (·.set i whole) }
      else h.op p := by
  show (((h.modifyOp o fun x => { x with outputAccessors := some as }).modifyTensor whole
    _).modifyOp o _).op p = _
  rw [Arena.op_modifyOp _ _ _ (by simpa using inside), Arena.op_modifyTensor, Arena.op_modifyTensor,
    Arena.op_modifyOp_self inside]
  by_cases e : p = o
  · simp [e]
  · simp [e, Arena.op_modifyOp_ne e]

theorem tensor_moveArena (h : Arena) (whole t : TensorId) (o : OpId) (i : Nat) (as : List Accessor)
    (ne : t ≠ whole) (low : t.idx < h.tensors.size) (known : whole.idx < h.tensors.size)
    (u : TensorId) :
    (moveArena h whole t o i as).tensor u =
      if u = t then { h.tensor t with
        src := .empty, dst := .empty, isInput := false, isOutput := false }
      else if u = whole then { h.tensor whole with src := (h.tensor whole).src.insert o } else
        h.tensor u := by
  unfold moveArena
  rw [Arena.tensor_modifyTensor _ _ _ (by simpa using low)]
  simp only [Arena.tensor_modifyOp]
  rw [Arena.tensor_modifyTensor_ne ne, Arena.tensor_modifyTensor _ _ _ (by simpa using known)]
  rfl

/-- An operator that can be redirected is the only one that produces a tensor. -/
structure Makes (g : Arena) (o : OpId) (i : Nat) (t : TensorId) : Prop where
  source : (g.tensor t).src.ops = [o]
  able : writes (g.op o) = true
  output : (g.op o).outputList[i]? = some t

def Held (g : Arena) (w : TensorId) : Prop := ∃ p ∈ (g.tensor w).src.ops, writes (g.op p) = false

theorem Held.ne (held : Held g w) (makes : Makes g o i t) : t ≠ w := by
  rintro rfl
  obtain ⟨p, mem, idle⟩ := held
  rw [makes.source, mem_singleton] at mem
  rw [mem, makes.able] at idle
  cases idle

/-- Results have been redirected into held tensors; all that is held stays as it is. -/
structure Redirects (g h : Arena) : Prop where
  values : ∀ d, (h.dim d).values = (g.dim d).values
  shape : ∀ t, (h.tensor t).shape = (g.tensor t).shape
  kind : ∀ p, (h.op p).kind = (g.op p).kind
  able : ∀ p, writes (h.op p) = writes (g.op p)
  src : ∀ t p, writes (g.op p) = false → (p ∈ (h.tensor t).src.ops ↔ p ∈ (g.tensor t).src.ops)
  made : ∀ t o, writes (g.op o) = true → (h.tensor t).src.ops = [o] → (g.tensor t).src.ops = [o]
  output : ∀ (o : OpId) (i : Nat) t, (h.op o).outputList[i]? = some t → (g.op o).outputList[i]? =
    some t ∨ Held g t
  kept : ∀ w dim start o i, Held g w → WritesAt g w dim start o i → WritesAt h w dim start o i

namespace Redirects

theorem refl (g : Arena) : Redirects g g :=
  ⟨fun _ => rfl, fun _ => rfl, fun _ => rfl, fun _ => rfl, fun _ _ _ => Iff.rfl, fun _ _ _ h => h,
    fun _ _ _ h => Or.inl h, fun _ _ _ _ _ _ h => h⟩

variable {g h : Arena} (r : Redirects g h)
include r

theorem held_iff : Held h w ↔ Held g w := by
  constructor
  · rintro ⟨p, mem, idle⟩
    rw [r.able] at idle
    exact ⟨p, (r.src w p idle).1 mem, idle⟩
  · rintro ⟨p, mem, idle⟩
    exact ⟨p, (r.src w p idle).2 mem, (r.able p).trans idle⟩

theorem trans (r' : Redirects h h') : Redirects g h' := by
  refine ⟨fun d => (r'.values d).trans (r.values d), fun t => (r'.shape t).trans (r.shape t),
    fun p => (r'.kind p).trans (r.kind p), fun p => (r'.able p).trans (r.able p), fun t p idle =>
    ?_, fun t o able source => ?_, fun o i t output => ?_,
    fun w dim start o i held writes => ?_⟩
  · exact (r'.src t p ((r.able p).trans idle)).trans (r.src t p idle)
  · exact r.made t o able (r'.made t o ((r.able o).trans able) source)
  · rcases r'.output o i t output with output | held
    · exact r.output o i t output
    · exact Or.inr (r.held_iff.1 held)
  · exact r'.kept w dim start o i (r.held_iff.2 held) (r.kept w dim start o i held writes)

theorem extent (dim : Int) (t : TensorId) : Strided.extent h dim t = Strided.extent g dim t := by
  unfold Strided.extent Dim.value
  rw [r.shape]
  simp only [r.values]

theorem before (makes : Makes h o i t) : Makes g o i t := by
  have able : writes (g.op o) = true := (r.able o).symm.trans makes.able
  have source := r.made t o able makes.source
  rcases r.output o i t makes.output with output | ⟨p, mem, idle⟩
  · exact ⟨source, able, output⟩
  · grind

end Redirects

theorem redirects_of_same (values : ∀ d, (h.dim d).values = (g.dim d).values)
    (shape : ∀ t, (h.tensor t).shape = (g.tensor t).shape)
    (src : ∀ t, (h.tensor t).src = (g.tensor t).src) (op : ∀ p, (h.op p).kind = (g.op p).kind ∧
    (h.op p).params = (g.op p).params ∧ (h.op p).outputs = (g.op p).outputs ∧
      (h.op p).outputAccessors = (g.op p).outputAccessors) : Redirects g h := by
  have able : ∀ p, writes (h.op p) = writes (g.op p) := by
    intro p
    unfold writes isFreeGroup isLayerNorm isReduction Operator.param?
    rw [(op p).1, (op p).2.1]
  have outputList : ∀ p, (h.op p).outputList = (g.op p).outputList := by
    grind [Operator.outputList, op]
  refine ⟨values, shape, fun p => (op p).1, able,
    fun t p
    _ => by rw [src], fun t o _ source => by rwa [src] at source, fun o i t output => Or.inl (by
    rwa [outputList] at output), fun w dim start o i _ writes => ?_⟩
  obtain ⟨as, a, accessors, found, starts⟩ := writes.accessor
  refine ⟨by rw [src]; exact writes.source, by rw [outputList]; exact writes.output, as, a, (op
    o).2.2.2.trans accessors, found, ?_⟩
  rw [shape]
  exact starts.congr values

/-- What `writePart?` moves: a result of an operator that has accessors, into a held tensor. -/
structure Moves (h : Arena) (whole t : TensorId) (o : OpId) (i : Nat) (as : List Accessor) :
    Prop extends Makes h o i t where
  accessors : (h.op o).outputAccessors = some as
  bound : i < as.length
  held : Held h whole

namespace Moves

variable {h : Arena} {whole t : TensorId} {o : OpId} {i : Nat} {as : List Accessor}
  (m : Moves h whole t o i as) (a : Accessor)
include m

theorem ne : t ≠ whole := m.held.ne m.toMakes

theorem op (p : OpId) : (moveArena h whole t o i (as.set i a)).op p =
    if p = o then { h.op o with
      outputAccessors := some (as.set i a), outputs := (h.op o).outputs.map (·.set i whole) }
    else h.op p := by
  exact op_moveArena h whole t o i (as.set i a) (Arena.lt_of_some rfl m.accessors) p

theorem tensor (u : TensorId) : (moveArena h whole t o i (as.set i a)).tensor u =
    if u = t then { h.tensor t with
      src := .empty, dst := .empty, isInput := false, isOutput := false }
    else if u = whole then { h.tensor whole with src := (h.tensor whole).src.insert o } else
    h.tensor u := by
  obtain ⟨p, mem, -⟩ := m.held
  exact tensor_moveArena h whole t o i _ m.ne
    (Arena.lt_of_src (show o ∈ (h.tensor t).src.ops by simp [m.source]))
    (Arena.lt_of_src mem) u

theorem shape (u : TensorId) :
    ((moveArena h whole t o i (as.set i a)).tensor u).shape = (h.tensor u).shape := by
  rw [m.tensor]
  grind

theorem mem_src (u : TensorId) (p : OpId) :
    p ∈ ((moveArena h whole t o i (as.set i a)).tensor u).src.ops ↔ u ≠ t ∧
    (p ∈ (h.tensor u).src.ops ∨ u = whole ∧ p = o) := by
  rw [m.tensor]
  grind [Links.empty, Links.mem_insert]

theorem getElem?_outputList (p : OpId) (j : Nat) :
    ((moveArena h whole t o i (as.set i a)).op p).outputList[j]? = if p = o ∧
    j = i then some whole else (h.op p).outputList[j]? := by
  rw [m.op]
  by_cases e : p = o
  · subst e
    have list :
        (((h.op p).outputs.map (·.set i whole)).getD []) = (h.op p).outputList.set i whole := by
      unfold Operator.outputList
      cases (h.op p).outputs <;> simp
    rw [if_pos rfl, Operator.outputList, list]
    by_cases e : j = i
    · subst e
      rw [List.getElem?_set_self (List.getElem?_eq_some_iff.1 m.output).1, if_pos ⟨rfl, rfl⟩]
    · grind
  · rw [if_neg e, if_neg fun h => e h.1]

theorem keeps {p : OpId} {j : Nat} (held : Held h w) (writes : WritesAt h w dim start p j) :
    WritesAt (moveArena h whole t o i (as.set i a)) w dim start p j := by
  have notMoved : t ≠ w := held.ne m.toMakes
  -- the result that is moved was another tensor
  have other : ¬(p = o ∧ j = i) := by
    rintro ⟨rfl, rfl⟩
    exact notMoved (Option.some.inj (m.output.symm.trans writes.output))
  refine ⟨(m.mem_src a w p).2 ⟨notMoved.symm, Or.inl writes.source⟩, ?_, ?_⟩
  · rw [m.getElem?_outputList, if_neg other]
    exact writes.output
  · obtain ⟨bs, b, accessors, found, start⟩ := writes.accessor
    rw [m.shape]
    by_cases e : p = o
    · subst e
      obtain rfl := Option.some.inj (m.accessors.symm.trans accessors)
      refine ⟨as.set i a, b, by rw [m.op, if_pos rfl], ?_, start⟩
      grind
    · exact ⟨bs, b, by rw [m.op, if_neg e]; exact accessors, found, start⟩

theorem writesAt (starts : a.StartsAt h.dim (h.tensor whole).shape dim start) :
    WritesAt (moveArena h whole t o i (as.set i a)) whole dim start o i := by
  refine ⟨(m.mem_src a whole o).2 ⟨m.ne.symm, Or.inr ⟨rfl, rfl⟩⟩, ?_, as.set i a, a, ?_,
    getElem?_set_self m.bound, ?_⟩
  · rw [m.getElem?_outputList, if_pos ⟨rfl, rfl⟩]
  · rw [m.op, if_pos rfl]
  · rw [m.shape]
    exact starts

theorem idle_ne {p : OpId} (idle : writes (h.op p) = false) : p ≠ o := by
  rintro rfl
  cases m.able.symm.trans idle

theorem redirects : Redirects h (moveArena h whole t o i (as.set i a)) := by
  have op : ∀ p, ((moveArena h whole t o i (as.set i a)).op p).kind = (h.op p).kind ∧
      Strided.writes ((moveArena h whole t o i (as.set i a)).op p) = Strided.writes (h.op p) := by
    intro p
    rw [m.op]
    split
    · next e => rw [e]; exact ⟨rfl, rfl⟩
    · exact ⟨rfl, rfl⟩
  refine ⟨fun _ => rfl, m.shape a, fun p => (op p).1, fun p => (op p).2, fun u p idle => ?_,
    fun u p able source => ?_, fun p j u output => ?_, fun w dim start p j => m.keeps a⟩
  · rw [m.mem_src]
    constructor
    · rintro ⟨-, mem | ⟨-, e⟩⟩
      · exact mem
      · exact absurd e (m.idle_ne idle)
    · intro mem
      exact ⟨fun e => m.idle_ne idle (by simpa [e, m.source] using mem), Or.inl mem⟩
  · -- the moved result has no producer, and the held one still has another
    have notMoved : u ≠ t := ((m.mem_src a u p).1 (by simp [source])).1
    by_cases e : u = whole
    · obtain ⟨q, mem, idle⟩ := m.held
      have also := (m.mem_src a whole q).2 ⟨m.ne.symm, Or.inl mem⟩
      grind
    · rw [m.tensor, if_neg notMoved, if_neg e] at source
      exact source
  · rw [m.getElem?_outputList] at output
    split at output
    · exact Or.inr (Option.some.inj output ▸ m.held)
    · exact Or.inl output

end Moves

theorem writer?_ok {cat : OpId} (run : writer? cat ts t g = .ok (some (o, i)) h) :
    Makes g o i t := by
  unfold writer? at run
  rw [bind_run (tensor_run _)] at run
  cases source : (g.tensor t).src.sole? with
  | none => simp_all
  | some p =>
    cases user : (g.tensor t).dst.sole? with
    | none => simp_all
    | some q =>
      simp only [source, user, bind_ok, op_ok] at run
      obtain ⟨_, _, ⟨rfl, rfl⟩, run⟩ := run
      split at run
      · cases (pure_ok.1 run).1
      next able =>
      simp only [bind_ok, outputs_ok, expect_ok] at run
      obtain ⟨ys, _, ⟨written, rfl⟩, k, _, ⟨found, rfl⟩, fits, g₁, asked, run⟩ := run
      split at run
      · cases (pure_ok.1 run).1
      split at run
      · cases (pure_ok.1 run).1
      obtain ⟨rfl, rfl⟩ := Prod.mk.inj (Option.some.inj (pure_ok.1 run).1)
      refine ⟨Links.sole?_eq_some.1 source, by simpa using able, ?_⟩
      grind [findIdx?_eq_some_iff_getElem, Operator.outputList, getElem?_eq_getElem]

theorem updateOutputAccessor_ok {f : DimTable → Accessor → Accessor × Option Fault} {u : Unit}
    (run : updateOutputAccessor o i f g = .ok u h) : ∃ as a b, (g.op o).outputAccessors = some as ∧
    as[i]? = some a ∧
      f g.dim a = (b, none) ∧ h = g.modifyOp o fun x =>
        { x with outputAccessors := some (as.set i b) } := by
  simp only [updateOutputAccessor, look, bind_ok, op_ok, expect_ok, get_ok, pure_ok,
    modifyOp_ok] at run
  obtain ⟨_, _, ⟨rfl, rfl⟩, as, _, ⟨accessors, rfl⟩, a, _, ⟨accessor, rfl⟩, _, _,
    ⟨_, _, ⟨rfl, rfl⟩, rfl, rfl⟩, _, _, rfl, checked⟩ := run
  refine ⟨as, a, (f g.dim a).1, accessors, accessor, ?_⟩
  cases fault : (f g.dim a).2 with
  | none =>
    simp only [fault] at checked
    exact ⟨Prod.ext rfl fault, (pure_ok.1 checked).2.symm⟩
  | some e => simp_all

theorem writePart?_ok {cat : OpId} {whole : TensorId} {k : Nat} {r : Option Int}
    (held : Held g whole) (run : writePart? cat dim whole ts t k g = .ok r h) :
    r = none ∧ g = h ∨ r = some (k : Int) ∧ ∃ o i as a, Moves g whole t o i as ∧
      a.StartsAt g.dim (g.tensor whole).shape dim (place (ts.map (extent g dim)) k) ∧
      h = moveArena g whole t o i (as.set i a) := by
  obtain ⟨found, g₁, search, run⟩ := bind_ok.1 run
  obtain rfl := ReadOnly.keeps search
  cases found with
  | none => simp_all
  | some found =>
    obtain ⟨o, i⟩ := found
    have makes := writer?_ok search
    simp only [bind_ok] at run
    obtain ⟨sizes, g₁, measured, target, g₂, shown, _, g₃, updated, _, g₄, added, _, g₅, set, _, g₆,
      detached, run⟩ := run
    obtain ⟨rfl, rfl⟩ := pure_ok.1 run
    obtain ⟨rfl, rfl⟩ := extents_ok measured
    obtain ⟨_, _, ⟨rfl, rfl⟩, rfl, rfl⟩ := shown
    obtain ⟨as, a, b, accessors, accessor, rebased, rfl⟩ := updateOutputAccessor_ok updated
    simp only [addSrc, bind_ok, tensor_ok, require_ok, modifyTensor_ok] at added
    obtain ⟨_, _, ⟨rfl, rfl⟩, _, _, ⟨-, rfl⟩, rfl⟩ := added
    rw [setOutput, modifyOp_ok] at set
    rw [detach, modifyTensor_ok] at detached
    subst set detached
    have starts := Accessor.rebase_startsAt rebased
    rw [sumInt_eq, List.map_take] at starts
    obtain ⟨bound, -⟩ := List.getElem?_eq_some_iff.1 accessor
    exact Or.inr ⟨rfl, o, i, as, b, ⟨makes, accessors, bound, held⟩, starts, rfl⟩

/-! ## Moving one part after the other -/

/-- The parts at some positions have been moved: from `g` to `h`. -/
structure Moving (g h : Arena) (dim : Int) (whole : TensorId) (ts : List TensorId) (ks : List Nat) :
    Prop where
  redirects : Redirects g h
  idle : ∀ p, writes (g.op p) = false → h.op p = g.op p
  placed : ∀ k ∈ ks, ∃ (t : TensorId) (o : OpId) (i : Nat), ts[k]? = some t ∧ Makes g o i t ∧
    WritesAt h whole dim (place (ts.map (extent g dim)) k) o i

section Loop

variable {g h : Arena} {cat : OpId} {dim : Int} {whole : TensorId} {ts : List TensorId}
  {ks : List Nat}

theorem Moving.refl (g : Arena) : Moving g g dim whole ts [] := ⟨.refl g, fun _ _ => rfl, by simp⟩

theorem Moving.step (m : Moving g h dim whole ts ks) (held : Held g whole) {k : Nat}
    (at_ : ts[k]? = some t) {r : Option Int} (run : writePart? cat dim whole ts t k h = .ok r h') :
    r = none ∧ Moving g h' dim whole ts ks ∨ r = some (k : Int) ∧
    Moving g h' dim whole ts (ks ++ [k]) := by
  have held' : Held h whole := m.redirects.held_iff.2 held
  rcases writePart?_ok held' run with ⟨rfl, rfl⟩ | ⟨rfl, o, i, as, a, move, starts, rfl⟩
  · exact Or.inl ⟨rfl, m⟩
  · refine Or.inr ⟨rfl, m.redirects.trans (move.redirects a), fun p idle => ?_, fun j hj => ?_⟩
    · rw [move.op, if_neg (move.idle_ne ((m.redirects.able p).trans idle))]
      exact m.idle p idle
    · rcases mem_append.1 hj with hj | hj
      · obtain ⟨t', o', i', part, makes, writes⟩ := m.placed j hj
        exact ⟨t', o', i', part, makes, move.keeps a held' writes⟩
      · obtain rfl := mem_singleton.1 hj
        refine ⟨t, o, i, at_, m.redirects.before move.toMakes, ?_⟩
        rw [show extent g dim = extent h dim from funext fun u => (m.redirects.extent dim u).symm]
        exact move.writesAt a starts

/-- The loop over the parts moves those that it reports. -/
theorem Moving.loop (held : Held g whole) {us : List TensorId} {n : Nat} (left : ts.drop n = us)
    (m : Moving g h dim whole ts ks) {moved : List Int}
    (run : ((us.zipIdx n).filterMapM fun (t, k) => writePart? cat dim whole ts t k : Build
    (List Int)) h = .ok moved h') :
    ∃ more, moved = more.map Int.ofNat ∧ Moving g h' dim whole ts (ks ++ more) := by
  induction us generalizing n ks h moved with
  | nil => simp_all
  | cons t us ih =>
    have at_ : ts[n]? = some t := by
      rw [← head?_drop, left]
      rfl
    have left : ts.drop (n + 1) = us := by
      rw [← tail_drop, left]
      rfl
    rw [zipIdx_cons, filterMapM_cons] at run
    obtain ⟨r, h₁, first, run⟩ := bind_ok.1 run
    rcases m.step held at_ first with ⟨rfl, m⟩ | ⟨rfl, m⟩
    · exact ih left m run
    · simp only [bind_ok, pure_ok] at run
      grind

end Loop

end Strided

end TensorGraph

import Mathlib
import TensorGraph.Graph.Memory
import TensorGraph.Proofs.FailingSteps

/-!
# Scratch memory

An operator can ask for scratch memory that it shares with the others and for some of its own.
-/

namespace TensorGraph

namespace Graph

open Build List

def sharedBytes? (g : Arena) (o : OpId) : Option Value := (g.op o).param? "workspace"

def ownBytes? (g : Arena) (o : OpId) : Option Value := (g.op o).param? "unique_workspace"

def ownPlace? (g : Arena) (o : OpId) : Option Value := (g.op o).param? "unique_workspace_offset"

/-- The memory of an operator's own: where it starts and how many bytes there are. -/
structure OwnScratch (g : Arena) (o : OpId) (start size : Int) : Prop where
  place : ownPlace? g o = some (.int start)
  bytes : ownBytes? g o = some (.int size)

/-- Some operators ask for whole numbers of bytes, and of their own for no negative ones. -/
structure ScratchSized (g : Arena) (os : List OpId) : Prop where
  shared : ∀ o ∈ os, ∀ v, sharedBytes? g o = some v → ∃ n, v = .int n
  own : ∀ o ∈ os, ∀ v, ownBytes? g o = some v → ∃ n, v = .int n ∧ 0 ≤ n

/-- The memory of some operators' own lies inside a block, and no two of them have a byte in
common. -/
structure ScratchFits (g : Arena) (size : Int) (os : Set OpId) : Prop where
  inside : ∀ o ∈ os, ∀ a n, OwnScratch g o a n → Set.Ico a (a + n) ⊆ Set.Ico 0 size
  apart : ∀ o ∈ os, ∀ p ∈ os, o ≠ p → ∀ a m b n, OwnScratch g o a m → OwnScratch g p b n →
    Disjoint (Set.Ico a (a + m)) (Set.Ico b (b + n))

/-! ## One operator after the other -/

def scratchFor (sizes : Number × Number) (o : OpId) : Build (Number × Number) := do
  let (shared, unique) := sizes
  let p ← op o
  let shared ← match p.param? "workspace" with
    | some v => do pure (Number.max shared (← expect .badType (Number.ofValue? v)))
    | none => pure shared
  match p.param? "unique_workspace", p.param? "unique_workspace_offset" with
  | some v, none =>
    setParam o "unique_workspace_offset" unique.toValue
    return (shared, unique + (← expect .badType (Number.ofValue? v)))
  | _, _ => return (shared, unique)

theorem scratch_eq (ts : Graph) : scratch ts =
    (get >>= fun g => (sourceSteps g ts).foldlM scratchFor (0, 0)) := rfl

theorem scratchFor_ok {h h' : Arena} {o : OpId} {s u : Int} {r : Number × Number}
    (run : scratchFor (.int s, .int u) o h = .ok r h')
    (shared : ∀ v, sharedBytes? h o = some v → ∃ n, v = .int n)
    (own : ∀ v, ownBytes? h o = some v → ∃ n, v = .int n ∧ 0 ≤ n) :
    ∃ s' u', r = (.int s', .int u') ∧ s ≤ s' ∧ (∀ n, sharedBytes? h o = some (.int n) → n ≤ s') ∧
      ((ownBytes? h o = none ∨ ownPlace? h o ≠ none) ∧ h' = h ∧ u' = u ∨
        ∃ n, ownBytes? h o = some (.int n) ∧ 0 ≤ n ∧ ownPlace? h o = none ∧ u' = u + n ∧
          h' = h.modifyOp o (·.setParam "unique_workspace_offset" (.int u))) := by
  unfold scratchFor at run
  simp only [bind_ok, op_ok] at run
  obtain ⟨_, _, ⟨rfl, rfl⟩, run⟩ := run
  -- what is shared comes first, and then the place, whatever is shared by then
  obtain ⟨s', larger, most, run⟩ : ∃ s', s ≤ s' ∧ (∀ n, sharedBytes? h o = some (.int n) → n ≤ s') ∧
      (match (h.op o).param? "unique_workspace", (h.op o).param? "unique_workspace_offset" with
        | some v, none => do
          setParam o "unique_workspace_offset" (Number.int u).toValue
          return (.int s', .int u + (← expect .badType (Number.ofValue? v)))
        | _, _ => return (.int s', .int u) : Build (Number × Number)) h = .ok r h' := by
    cases asked : (h.op o).param? "workspace" with
    | none =>
      simp only [asked, bind_ok, pure_ok] at run
      obtain ⟨_, _, ⟨rfl, rfl⟩, run⟩ := run
      exact ⟨s, Int.le_refl s, by simp [sharedBytes?, asked], run⟩
    | some v =>
      obtain ⟨n, rfl⟩ := shared v asked
      simp only [asked, bind_ok, expect_ok, pure_ok] at run
      obtain ⟨_, _, ⟨value, rfl⟩, _, _, ⟨rfl, rfl⟩, run⟩ := run
      cases value
      have larger : (Number.int s).max (.int n) = .int (max s n) := by
        show (if decide (s < n) then Number.int n else .int s) = _
        grind
      rw [larger] at run
      refine ⟨max s n, Int.le_max_left s n, fun m hm => ?_, run⟩
      cases asked.symm.trans hm
      exact Int.le_max_right s n
  unfold ownBytes? at own ⊢
  unfold ownPlace?
  cases asked : (h.op o).param? "unique_workspace" with
  | none =>
    simp only [asked, pure_ok] at run
    grind
  | some v =>
    obtain ⟨n, rfl, nonneg⟩ := own v asked
    cases placed : (h.op o).param? "unique_workspace_offset" with
    | some w =>
      simp only [asked, placed, pure_ok] at run
      grind
    | none =>
      simp only [asked, placed, setParam, bind_ok, modifyOp_ok, expect_ok, pure_ok] at run
      obtain ⟨_, _, rfl, m, _, ⟨value, rfl⟩, rfl, rfl⟩ := run
      cases value
      exact ⟨s', u + n, rfl, larger, most, Or.inr ⟨n, rfl, nonneg, rfl, rfl, rfl⟩⟩

/-- The arena `h` is `g` after the operators of a list have been given memory of their own: those
that had no place lie one behind the other from 0 to `u`. -/
structure Laid (g : Arena) (done : List OpId) (u : Int) (h : Arena) : Prop where
  params : ∀ o key, key ≠ "unique_workspace_offset" → (h.op o).param? key = (g.op o).param? key
  src : ∀ t, (h.tensor t).src = (g.tensor t).src
  kept : ∀ o, o ∉ done ∨ ownBytes? g o = none ∨ ownPlace? g o ≠ none → ownPlace? h o = ownPlace? g o
  nonneg : 0 ≤ u
  inside : ∀ o ∈ done, ownPlace? g o = none → ∀ n, ownBytes? g o = some (.int n) →
    ∃ a, ownPlace? h o = some (.int a) ∧ 0 ≤ a ∧ a + n ≤ u
  apart : ∀ o p, ownPlace? g o = none → ownPlace? g p = none → o ≠ p →
    ∀ a m b n, OwnScratch h o a m → OwnScratch h p b n →
    a + m ≤ b ∨ b + n ≤ a
  covers : ∀ x, 0 ≤ x → x < u → ∃ o ∈ done, ownPlace? g o = none ∧ ∃ a n, OwnScratch h o a n ∧
    a ≤ x ∧ x < a + n

namespace Laid

variable {g h : Arena} {done : List OpId} {u : Int}

theorem start (g : Arena) : Laid g [] 0 g where
  params _ _ _ := rfl
  src _ := rfl
  kept _ _ := rfl
  nonneg := Int.le_refl 0
  inside := by simp
  apart o p free _ _ a _ _ _ own _ := by
    rw [own.place] at free
    cases free
  covers x lower upper := by omega

theorem ownBytes (laid : Laid g done u h) (o : OpId) : ownBytes? h o = ownBytes? g o :=
  laid.params o _ (by decide)

theorem sharedBytes (laid : Laid g done u h) (o : OpId) : sharedBytes? h o = sharedBytes? g o :=
  laid.params o _ (by decide)

theorem ownPlace (laid : Laid g done u h) {o : OpId} {v : Value} (placed : ownPlace? g o = some v) :
    ownPlace? h o = some v := by
  rw [laid.kept o (Or.inr (Or.inr (by simp [placed]))), placed]

theorem sized (laid : Laid g done u h) {os : List OpId} (sized : ScratchSized g os) :
    ScratchSized h os :=
  ⟨fun o ho v hv => sized.shared o ho v (laid.sharedBytes o ▸ hv), fun o ho v hv =>
    sized.own o ho v (laid.ownBytes o ▸ hv)⟩

theorem congr {g₁ : Arena} (laid : Laid g₁ done u h) (op : ∀ o, g₁.op o = g.op o)
    (src : ∀ t, (g₁.tensor t).src = (g.tensor t).src) : Laid g done u h := by
  have place : ∀ o, ownPlace? g₁ o = ownPlace? g o := fun o => by unfold ownPlace?; rw [op]
  have bytes : ∀ o, ownBytes? g₁ o = ownBytes? g o := fun o => by unfold ownBytes?; rw [op]
  have kept := laid.kept
  have inside := laid.inside
  have apart := laid.apart
  have covers := laid.covers
  simp only [place, bytes] at kept inside apart covers
  exact ⟨fun o key ne => by rw [laid.params o key ne, op], fun t => (laid.src t).trans (src
    t), kept, laid.nonneg, inside,
    apart, covers⟩

theorem skip (laid : Laid g done u h) {o : OpId}
    (settled : ownBytes? h o = none ∨ ownPlace? h o ≠ none) :
    Laid g (done ++ [o]) u h := by
  refine ⟨laid.params, laid.src, fun p hp => ?_, laid.nonneg, fun p hp free n bytes => ?_,
    laid.apart, fun x lower upper => ?_⟩
  · exact laid.kept p (hp.imp_left fun new known => new (mem_append_left _ known))
  · by_cases known : p ∈ done
    · exact laid.inside p known free n bytes
    · obtain rfl : p = o := by simpa [known] using hp
      rw [laid.ownBytes, bytes, laid.kept p (Or.inl known), free] at settled
      simp at settled
  · obtain ⟨p, hp, rest⟩ := laid.covers x lower upper
    exact ⟨p, mem_append_left _ hp, rest⟩

theorem put (laid : Laid g done u h) {o : OpId} {n : Int} (bytes : ownBytes? h o = some (.int n))
    (nonneg : 0 ≤ n) (free : ownPlace? h o = none) :
    Laid g (done ++ [o]) (u + n)
    (h.modifyOp o (·.setParam "unique_workspace_offset" (.int u))) := by
  have known : o.idx < h.ops.size := by
    by_contra outside
    unfold ownBytes? at bytes
    rw [Arena.op_of_le (by omega)] at bytes
    cases bytes
  have bytes' : ownBytes? g o = some (.int n) := laid.ownBytes o ▸ bytes
  have free' : ownPlace? g o = none := by
    by_contra placed
    rw [laid.kept o (Or.inr (Or.inr placed))] at free
    exact placed free
  have new : o ∉ done := by
    intro mem
    obtain ⟨a, place, -⟩ := laid.inside o mem free' n bytes'
    rw [free] at place
    cases place
  have here := Arena.op_modifyOp_self (f := (·.setParam "unique_workspace_offset" (.int u))) known
  have there : ∀ p, p ≠ o → (h.modifyOp o (·.setParam "unique_workspace_offset" (.int u))).op p =
    h.op p :=
    fun p ne => Arena.op_modifyOp_ne ne
  have src : ∀ t, ((h.modifyOp o (·.setParam "unique_workspace_offset" (.int u))).tensor t).src =
    (g.tensor t).src := laid.src
  generalize h.modifyOp o (·.setParam "unique_workspace_offset" (.int u)) = h' at here there src ⊢
  have place : ownPlace? h' o = some (.int u) := by
    unfold ownPlace?
    rw [here, Operator.param?_setParam, if_pos (by decide)]
  have place' : ∀ p, p ≠ o → ownPlace? h' p = ownPlace? h p := by
    intro p ne
    unfold ownPlace?
    rw [there p ne]
  have params : ∀ p key, key ≠ "unique_workspace_offset" → (h'.op p).param? key =
    (g.op p).param? key := by
    intro p key ne
    rw [← laid.params p key ne]
    by_cases same : p = o
    · rw [same, here, Operator.param?_setParam, if_neg (by simpa using ne)]
    · rw [there p same]
  have own : ∀ p, p ≠ o → ∀ a m, OwnScratch h' p a m → OwnScratch h p a m := fun p ne a m own =>
    ⟨place' p ne ▸ own.place, by
      rw [laid.ownBytes]
      exact (params p _ (by decide)).symm.trans own.bytes⟩
  have own' : ∀ p, p ≠ o → ∀ a m, OwnScratch h p a m → OwnScratch h' p a m := fun p ne a m own =>
    ⟨(place' p ne).trans own.place, ((params p _ (by decide)).trans (laid.ownBytes p).symm).trans
      own.bytes⟩
  have ownHere : OwnScratch h' o u n := ⟨place, (params o _ (by decide)).trans bytes'⟩
  -- what has been given before ends where the new place starts
  have below : ∀ p, p ≠ o → ownPlace? g p = none → ∀ a m, OwnScratch h' p a m → a + m ≤ u := by
    intro p ne freeP a m ownP
    have ownP := own p ne a m ownP
    have mem : p ∈ done := by
      by_contra new
      have same := laid.kept p (Or.inl new)
      rw [ownP.place, freeP] at same
      cases same
    obtain ⟨b, hb, -, upper⟩ := laid.inside p mem freeP m (laid.ownBytes p ▸ ownP.bytes)
    rw [ownP.place] at hb
    cases hb
    exact upper
  have only : ∀ a m, OwnScratch h' o a m → a = u ∧ m = n := by
    intro a m ownO
    cases ownO.place.symm.trans place
    cases ownO.bytes.symm.trans ownHere.bytes
    exact ⟨rfl, rfl⟩
  refine ⟨params, src, fun p hp => ?_, by have := laid.nonneg; omega, fun p hp freeP m bytesP => ?_,
    fun p q freeP freeQ ne a l b m ownP ownQ => ?_, fun x lower upper => ?_⟩
  · have ne : p ≠ o := by
      rintro rfl
      simp [bytes', free'] at hp
    rw [place' p ne]
    exact laid.kept p (hp.imp_left fun new known => new (mem_append_left _ known))
  · by_cases same : p = o
    · subst same
      cases bytes'.symm.trans bytesP
      exact ⟨u, place, laid.nonneg, Int.le_refl _⟩
    · have mem : p ∈ done := by simpa [same] using hp
      obtain ⟨a, hp, lower, upper⟩ := laid.inside p mem freeP m bytesP
      grind
  · by_cases samep : p = o
    · grind
    · by_cases sameq : q = o
      · grind
      · exact laid.apart p q freeP freeQ ne a l b m (own p samep a l ownP) (own q sameq b m ownQ)
  · by_cases old : x < u
    · obtain ⟨p, hp, freeP, a, m, ownP, inP⟩ := laid.covers x lower old
      grind
    · grind

end Laid

theorem scratch_laid {g g' : Arena} {ts : Graph} {r : Number × Number}
    (run : scratch ts g = .ok r g') (sized : ScratchSized g (sourceSteps g ts)) :
    ∃ s u, r = (.int s, .int u) ∧ (∀ o ∈ sourceSteps g ts, ∀ n, sharedBytes? g o = some (.int n) →
      n ≤ s) ∧ Laid g (sourceSteps g ts) u g' := by
  rw [scratch_eq] at run
  simp only [bind_ok, get_ok] at run
  obtain ⟨_, _, ⟨rfl, rfl⟩, run⟩ := run
  refine foldlM_walks (fun done r h => ∃ s u, r = (.int s, .int u) ∧
    (∀ o ∈ done, ∀ n, sharedBytes? g o = some (.int n) → n ≤ s) ∧ Laid g done u h)
    (fun done o rest split r r' h h₁ before first => ?_) ⟨0, 0, rfl, by simp, .start g⟩ run
  obtain ⟨s, u, rfl, most, laid⟩ := before
  have mem : o ∈ sourceSteps g ts := by simp [split]
  obtain ⟨s', u', rfl, larger, asked, turn⟩ := scratchFor_ok first
    (fun v hv => sized.shared o mem v (laid.sharedBytes o ▸ hv))
      (fun v hv => sized.own o mem v (laid.ownBytes o ▸ hv))
  refine ⟨s', u', rfl, forall_mem_snoc.2 ⟨fun p hp n hn => Int.le_trans (most p hp n hn) larger,
    fun n hn => asked n ((laid.sharedBytes o).trans hn)⟩, ?_⟩
  · rcases turn with ⟨settled, rfl, rfl⟩ | ⟨n, bytes, nonneg, free, rfl, rfl⟩
    · exact laid.skip settled
    · exact laid.put bytes nonneg free

/-! ## Plans -/

def Frame.links : Frame where
  rel g g' := g'.ops = g.ops ∧ ∀ t, (g'.tensor t).src = (g.tensor t).src
  refl _ := ⟨rfl, fun _ => rfl⟩
  trans h h' := ⟨h'.1.trans h.1, fun t => (h'.2 t).trans (h.2 t)⟩

instance (t : TensorId) : Within.SeesTensor Frame.links t Tensor.src where
  modify same := ⟨fun run => by
    rw [modifyTensor_ok.1 run]
    refine ⟨rfl, fun u => ?_⟩
    rw [Arena.tensor_modifyTensor_ite]
    grind⟩

instance (steps i : Nat) (ls : Lifetimes) (t : TensorId) :
    Throughout .same (touch steps i ls t) := by
  unfold touch
  refine Throughout.bind_of fun x => ?_
  cases ls.lookup x.name <;> infer_instance

instance (ls : Lifetimes) : Throughout .same (joinViews ls) := by
  unfold joinViews
  refine Throughout.bind_of fun g => @Throughout.bind _ _ _ _ _ _
    (@Throughout.foldlM _ _ _ _ _ (fun s e => ?_) _)
  dsimp only
  cases s.1.lookup e.1 <;> infer_instance

instance (steps : List OpId) : Throughout .same
    (lifetimes steps) := by unfold lifetimes; infer_instance

instance (steps : List OpId) : ReadOnly (lifetimes steps) := Throughout.within

theorem sourceSteps_congr {g g' : Arena} (same : ∀ t, (g'.tensor t).src = (g.tensor t).src)
    (ts : Graph) :
    sourceSteps g' ts = sourceSteps g ts := by
  unfold sourceSteps
  simp only [same]

def planPlaced (placed : List Placed) (ts : Graph) : Build Plan := do
  for p in placed do
    modifyTensor p.life.tensor fun x => { x with offset := some p.offset }
  let blob := placed.foldl (fun n p => max n (p.offset + p.life.size)) 0
  let constants ← placeConstants ts
  placeViews ts
  let (shared, unique) ← scratch ts
  return ⟨blob, constants, shared, unique⟩

theorem plan_eq (ts : Graph) :
    plan ts = (get >>= fun g => lifetimes (sourceSteps g ts) >>= fun ls =>
      planPlaced (placeAll ls) ts) := rfl

theorem plan_laid {g g' : Arena} {ts : Graph} {p : Plan} (run : plan ts g = .ok p g')
    (sized : ScratchSized g (sourceSteps g ts)) :
    ∃ s u, p.shared = .int s ∧ p.unique = .int u ∧
      (∀ o ∈ sourceSteps g ts, ∀ n, sharedBytes? g o = some (.int n) → n ≤ s) ∧
        Laid g (sourceSteps g ts) u g' := by
  rw [plan_eq] at run
  unfold planPlaced at run
  simp only [bind_ok, get_ok, pure_ok] at run
  obtain ⟨_, _, ⟨rfl, rfl⟩, ls, _, lives, _, g₁, written, c, g₂, const, _, g₃, shown, ⟨sh, un⟩, _,
    scr, rfl, rfl⟩ := run
  obtain rfl := ReadOnly.keeps lives
  obtain ⟨ops, src⟩ : Frame.links.rel g g₃ :=
    Frame.links.trans (Frame.links.keeps written)
      (Frame.links.trans (Frame.links.keeps const) (Frame.links.keeps shown))
  have op : ∀ o, g₃.op o = g.op o := fun o => by rw [Arena.op_eq, ops, ← Arena.op_eq]
  have shared : ∀ o, sharedBytes? g₃ o = sharedBytes? g o :=
    fun o => by unfold sharedBytes?; rw [op]
  have own : ∀ o, ownBytes? g₃ o = ownBytes? g o := fun o => by unfold ownBytes?; rw [op]
  have sized₃ : ScratchSized g₃ (sourceSteps g₃ ts) := by
    rw [sourceSteps_congr src]
    exact ⟨fun o ho v hv => sized.shared o ho v (shared o ▸ hv), fun o ho v hv =>
      sized.own o ho v (own o ▸ hv)⟩
  obtain ⟨s, u, value, most, laid⟩ := scratch_laid scr sized₃
  cases value
  rw [sourceSteps_congr src] at most laid
  exact ⟨s, u, rfl, rfl, fun o ho n hn => most o ho n ((shared o).trans hn), laid.congr op src⟩

/-! ## Plans one after the other -/

/-- An arena in which graphs have been planned one after the other, and the operators that were
given a place then. -/
inductive PlannedBefore : Arena → Set OpId → Prop
  | start {g} (free : ∀ o, ownPlace? g o = none) : PlannedBefore g ∅
  | change {g g' os} (before : PlannedBefore g os) (places : ∀ o, ownPlace? g' o = ownPlace? g o) :
    PlannedBefore g' os
  | plan {g g' os ts p} (before : PlannedBefore g os) (sized : ScratchSized g (sourceSteps g ts))
      (run : plan ts g = .ok p g') : PlannedBefore g'
        (os ∪ {o | o ∈ sourceSteps g ts ∧ (ownBytes? g o).isSome})

theorem PlannedBefore.ownPlace {g : Arena} {os : Set OpId} (before : PlannedBefore g os)
    (o : OpId) :
    (o ∈ os → ∃ a, ownPlace? g o = some (.int a)) ∧ (o ∉ os → ownPlace? g o = none) := by
  induction before with
  | start free => exact ⟨False.elim, fun _ => free o⟩
  | change _ places ih => rwa [places]
  | @plan g g' os ts p before sized run ih =>
    obtain ⟨s, u, -, -, -, laid⟩ := plan_laid run sized
    by_cases old : o ∈ os
    · obtain ⟨a, ha⟩ := ih.1 old
      exact ⟨fun _ => ⟨a, laid.ownPlace ha⟩, fun new => absurd (Or.inl old) new⟩
    · have free := ih.2 old
      constructor
      · rintro (mem | ⟨mem, asked⟩)
        · exact absurd mem old
        · obtain ⟨v, hv⟩ := Option.isSome_iff_exists.1 asked
          obtain ⟨n, rfl, -⟩ := sized.own o mem v hv
          obtain ⟨a, ha, -⟩ := laid.inside o mem free n hv
          exact ⟨a, ha⟩
      · intro new
        have out : o ∉ sourceSteps g ts ∨ ownBytes? g o = none := by
          by_contra h
          simp_all
        rw [laid.kept o (out.imp_right Or.inl), free]

/-- A plan asks for as much shared memory as each operator does.  Of the memory that operators have
for themselves it places what has not been placed before, in disjoint parts of the block that it
asks for; all of it fits there if and only if no operator with a place from an earlier plan needs a
byte. -/
theorem plan_scratch_fits_iff {g g' : Arena} {os : Set OpId} {ts : Graph} {p : Plan}
    (before : PlannedBefore g os) (sized : ScratchSized g (sourceSteps g ts))
    (run : plan ts g = .ok p g') :
    ∃ shared unique : Int, p.shared = .int shared ∧ p.unique = .int unique ∧
      (∀ o ∈ sources g ts, ∀ n, sharedBytes? g o = some (.int n) → n ≤ shared) ∧
      (∀ o ∈ sources g ts, ∀ n, ownBytes? g o = some (.int n) → ∃ a, OwnScratch g' o a n) ∧
      ScratchFits g' unique {o | o ∈ sources g ts ∧ o ∉ os} ∧
      (ScratchFits g' unique {o | o ∈ sources g ts} ↔
        ∀ o ∈ sources g ts, o ∈ os → ∀ n, ownBytes? g o = some (.int n) → n = 0) := by
  obtain ⟨shared, unique, hs, hu, most, laid⟩ := plan_laid run sized
  have bytes := laid.ownBytes
  have free : ∀ o, o ∉ os → ownPlace? g o = none := fun o => (before.ownPlace o).2
  have mem : ∀ o, o ∈ sources g ts ↔ o ∈ sourceSteps g ts := fun o => mem_distinct
  -- what is new lies inside of the block
  have bound : ∀ o ∈ sourceSteps g ts, o ∉ os → ∀ a n, OwnScratch g' o a n → 0 ≤ a ∧
    a + n ≤ unique := by
    intro o ho new a n own
    obtain ⟨b, hb, lower, upper⟩ := laid.inside o ho (free o new) n ((bytes o).symm.trans own.bytes)
    cases own.place.symm.trans hb
    exact ⟨lower, upper⟩
  have apart : ∀ o p, o ∉ os → p ∉ os → o ≠ p → ∀ a m b n, OwnScratch g' o a m →
    OwnScratch g' p b n →
      Disjoint (Set.Ico a (a + m)) (Set.Ico b (b + n)) := by
    intro o p newO newP ne a m b n ownO ownP
    have := laid.apart o p (free o newO) (free p newP) ne a m b n ownO ownP
    rw [Set.disjoint_left]
    rintro x ⟨_, _⟩ ⟨_, _⟩
    omega
  have fits : ScratchFits g' unique {o | o ∈ sources g ts ∧ o ∉ os} := by
    refine ⟨fun o ho a n own => ?_, fun o ho p hp => apart o p ho.2 hp.2⟩
    obtain ⟨lower, upper⟩ := bound o ((mem o).1 ho.1) ho.2 a n own
    exact Set.Ico_subset_Ico lower upper
  refine ⟨shared, unique, hs, hu, fun o ho => most o ((mem o).1 ho), fun o ho n hn => ?_, fits, ?_⟩
  · by_cases old : o ∈ os
    · obtain ⟨a, ha⟩ := (before.ownPlace o).1 old
      exact ⟨a, laid.ownPlace ha, (bytes o).trans hn⟩
    · obtain ⟨a, ha, -⟩ := laid.inside o ((mem o).1 ho) (free o old) n hn
      exact ⟨a, ha, (bytes o).trans hn⟩
  · constructor
    · -- the new parts leave no byte of the block free
      intro all o ho old n hn
      obtain ⟨a, ha⟩ := (before.ownPlace o).1 old
      have own : OwnScratch g' o a n := ⟨laid.ownPlace ha, (bytes o).trans hn⟩
      obtain ⟨m, hm, nonneg⟩ := sized.own o ((mem o).1 ho) _ hn
      cases hm
      by_contra some
      have inside := all.inside o ho a n own (Set.left_mem_Ico.2 (by omega))
      obtain ⟨q, hq, freeQ, b, l, ownQ, lower, upper⟩ := laid.covers a inside.1 inside.2
      have ne : o ≠ q := by
        rintro rfl
        rw [ha] at freeQ
        cases freeQ
      have disjoint := all.apart o ho q ((mem q).2 hq) ne a n b l own ownQ
      exact Set.disjoint_left.1 disjoint (Set.left_mem_Ico.2 (by omega)) ⟨lower, upper⟩
    · intro none
      have empty : ∀ o ∈ sources g ts, o ∈ os → ∀ a n, OwnScratch g' o a n →
        Set.Ico a (a + n) = ∅ := by
        intro o ho old a n own
        rw [none o ho old n ((bytes o).symm.trans own.bytes), Int.add_zero, Set.Ico_self]
      refine ⟨fun o ho a n own => ?_, fun o ho p hp ne a m b n ownO ownP => ?_⟩
      · by_cases old : o ∈ os
        · rw [empty o ho old a n own]
          exact Set.empty_subset _
        · exact fits.inside o ⟨ho, old⟩ a n own
      · by_cases oldO : o ∈ os
        · rw [empty o ho oldO a m ownO]
          exact disjoint_bot_left
        · by_cases oldP : p ∈ os
          · rw [empty p hp oldP b n ownP]
            exact disjoint_bot_right
          · exact apart o p oldO oldP ne a m b n ownO ownP

/-- `a` is made of `x` and `b` of `a`, both with 96 bytes of scratch memory of their own. -/
def scratchArena : Arena where
  dims := #[.static 4]
  tensors :=
    let named (name : String) (sources : List Nat) : Tensor :=
      { Tensor.ofShape [⟨0⟩] with name := some name, src := ⟨sources.map OpId.mk, false⟩ }
    #[{ named "x" [] with isInput := true }, named "a" [0], named "b" [1]]
  ops :=
    let applied (x y : Nat) : Operator :=
      { Operator.ofClass .elementwise "elementwise" with
        inputs := some [⟨x⟩], outputs := some [⟨y⟩]
        params := [("workspace", .int 32), ("unique_workspace", .int 96)] }
    #[applied 0 1, applied 1 2]
  namer := ⟨0, 0, [], []⟩
  target := none

def scratchArenaPlanned : Arena :=
  match planPlaced [⟨⟨⟨0⟩, 0, 0, 64⟩, 0⟩, ⟨⟨⟨1⟩, 0, 0, 64⟩, 64⟩] [⟨0⟩, ⟨1⟩] scratchArena with
  | .ok _ g => g
  | .error _ g => g

theorem plan_scratchArena : ∃ p, plan [⟨0⟩, ⟨1⟩] scratchArena = .ok p scratchArenaPlanned := by
  have lives : lifetimes (sourceSteps scratchArena [⟨0⟩, ⟨1⟩]) scratchArena =
      .ok [⟨⟨0⟩, 0, 0, 64⟩, ⟨⟨1⟩, 0, 0, 64⟩] scratchArena := by cbv
  have places : placeAll [⟨⟨0⟩, 0, 0, 64⟩, ⟨⟨1⟩, 0, 0, 64⟩] =
    [⟨⟨⟨0⟩, 0, 0, 64⟩, 0⟩, ⟨⟨⟨1⟩, 0, 0, 64⟩, 64⟩] := by cbv
  have returns : (match planPlaced [⟨⟨⟨0⟩, 0, 0, 64⟩, 0⟩, ⟨⟨⟨1⟩, 0, 0, 64⟩, 64⟩] [⟨0⟩, ⟨1⟩]
    scratchArena with
      | .ok _ _ => true
      | .error _ _ => false) = true := by decide
  rw [plan_eq, bind_run get_run, bind_run lives, places]
  unfold scratchArenaPlanned
  grind

theorem plan_scratchArenaPlanned : ∃ p g, plan [⟨0⟩, ⟨1⟩, ⟨2⟩] scratchArenaPlanned = .ok p g := by
  have lives : (match lifetimes (sourceSteps scratchArenaPlanned [⟨0⟩, ⟨1⟩, ⟨2⟩])
    scratchArenaPlanned with
      | .ok ls _ => decide (ls = [⟨⟨0⟩, 0, 0, 64⟩, ⟨⟨1⟩, 0, 1, 64⟩, ⟨⟨2⟩, 1, 1, 64⟩])
      | .error _ _ => false) = true := by decide
  have places : placeAll [⟨⟨0⟩, 0, 0, 64⟩, ⟨⟨1⟩, 0, 1, 64⟩, ⟨⟨2⟩, 1, 1, 64⟩] =
      [⟨⟨⟨0⟩, 0, 0, 64⟩, 0⟩, ⟨⟨⟨2⟩, 1, 1, 64⟩, 0⟩, ⟨⟨⟨1⟩, 0, 1, 64⟩, 64⟩] := by cbv
  have returns : (match planPlaced [⟨⟨⟨0⟩, 0, 0, 64⟩, 0⟩, ⟨⟨⟨2⟩, 1, 1, 64⟩, 0⟩,
    ⟨⟨⟨1⟩, 0, 1, 64⟩, 64⟩] [⟨0⟩, ⟨1⟩, ⟨2⟩]
        scratchArenaPlanned with
      | .ok _ _ => true
      | .error _ _ => false) = true := by decide
  rw [plan_eq, bind_run get_run]
  split at lives
  · next ls g run =>
    obtain rfl := ReadOnly.keeps run
    rw [bind_run run, of_decide_eq_true lives, places]
    grind
  · cases lives

theorem scratchArena_sized (os : List OpId) : ScratchSized scratchArena os := by
  have asks : ∀ o, o.idx < 2 → sharedBytes? scratchArena o = some (.int 32) ∧
    ownBytes? scratchArena o = some (.int 96) := by
    rintro ⟨i⟩ hi
    match i, hi with
    | 0, _ => exact ⟨rfl, rfl⟩
    | 1, _ => exact ⟨rfl, rfl⟩
  have other : ∀ o, ¬ o.idx < 2 → scratchArena.op o = default := fun o ho =>
    Arena.op_of_le (show 2 ≤ o.idx from Nat.le_of_not_lt ho)
  refine ⟨fun o _ v hv => ?_, fun o _ v hv => ?_⟩
  · by_cases h : o.idx < 2
    · grind
    · unfold sharedBytes? at hv
      rw [other o h] at hv
      cases hv
  · by_cases h : o.idx < 2
    · grind
    · unfold ownBytes? at hv
      rw [other o h] at hv
      cases hv

theorem scratchArena_free (o : OpId) : ownPlace? scratchArena o = none := by
  obtain ⟨i⟩ := o
  match i with
  | 0 => rfl
  | 1 => rfl
  | i + 2 =>
    unfold ownPlace?
    rfl

/-- The plan up to `a` fits; when both operators are planned next, the first one stays where it is
and is not counted. -/
theorem plan_scratch_fits_iff_twice : ∃ p q g, plan [⟨0⟩, ⟨1⟩] scratchArena =
    .ok p scratchArenaPlanned ∧ plan [⟨0⟩, ⟨1⟩, ⟨2⟩] scratchArenaPlanned = .ok q g ∧
    (∃ n, p.unique = .int n ∧ ScratchFits scratchArenaPlanned n
      {o | o ∈ sources scratchArena [⟨0⟩, ⟨1⟩]}) ∧
    ∃ m n, q.shared = .int m ∧ 32 ≤ m ∧ q.unique = .int n ∧
      ¬ ScratchFits g n {o | o ∈ sources scratchArenaPlanned [⟨0⟩, ⟨1⟩, ⟨2⟩]} := by
  obtain ⟨p, run₁⟩ := plan_scratchArena
  obtain ⟨q, g, run₂⟩ := plan_scratchArenaPlanned
  have start : PlannedBefore scratchArena ∅ := .start scratchArena_free
  obtain ⟨-, n, -, hn, -, -, -, fits⟩ := plan_scratch_fits_iff start (scratchArena_sized _) run₁
  obtain ⟨_, _, -, -, -, laid⟩ := plan_laid run₁ (scratchArena_sized _)
  obtain ⟨m', n', hm', hn', most, -, -, fits'⟩ :=
    plan_scratch_fits_iff (start.plan (scratchArena_sized _) run₁)
      (laid.sized (scratchArena_sized _)) run₂
  have first : (⟨0⟩ : OpId) ∈ sources scratchArenaPlanned [⟨0⟩, ⟨1⟩, ⟨2⟩] := by
    refine mem_distinct.2 ?_
    show _ ∈ sourceSteps scratchArenaPlanned _
    rw [sourceSteps_congr laid.src]
    decide
  refine ⟨p, q, g, run₁, run₂, ⟨n, hn, fits.2 fun o _ mem => mem.elim⟩, m', n', hm', ?_, hn',
    fun all => ?_⟩
  · exact most ⟨0⟩ first 32 (laid.sharedBytes ⟨0⟩)
  · have zero := fits'.1 all ⟨0⟩ first (Or.inr ⟨by decide, rfl⟩) 96 (laid.ownBytes ⟨0⟩)
    omega

end Graph

end TensorGraph

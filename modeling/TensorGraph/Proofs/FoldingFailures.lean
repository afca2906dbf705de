import TensorGraph.Graph.ConstantFolding
import TensorGraph.Proofs.ConstantParts
import TensorGraph.Proofs.ScratchMemory

/-!
# Constant folding that fails

The constant part of a graph has copies of the computed tensors, but its constants and its operators
are those of the graph itself.
-/

namespace TensorGraph

open List

variable {g h : Arena} {ts : Graph} {c t : TensorId}

namespace Graph

open Build

variable {α : Type} {g' h' : Arena} {acc acc' : List (Option String) × Graph} {part l : Graph}
  {placed : List Placed}

/-! ## What may change -/

/-- An operator with other values of some settings. -/
structure SameBut (keys : Set String) (p q : Operator) : Prop where
  rest : { q with params := [] } = { p with params := [] }
  settings : ∀ key, key ∉ keys → q.param? key = p.param? key

namespace SameBut

variable {keys keys' : Set String} {p q r : Operator}

theorem refl (keys : Set String) (p : Operator) : SameBut keys p p := ⟨rfl, fun _ _ => rfl⟩

theorem trans (h : SameBut keys p q) (h' : SameBut keys q r) : SameBut keys p r :=
  ⟨h'.rest.trans h.rest, fun key other => (h'.settings key other).trans (h.settings key other)⟩

theorem mono (h : SameBut keys p q) (sub : keys ⊆ keys') : SameBut keys' p q :=
  ⟨h.rest, fun key other => h.settings key fun mem => other (sub mem)⟩

theorem setParam (p : Operator) {key : String} (mem : key ∈ keys) (v : Value) :
    SameBut keys p (p.setParam key v) := by
  refine ⟨?_, fun other apart => ?_⟩
  · unfold Operator.setParam
    split <;> rfl
  · have ne : other ≠ key := fun same => apart (same ▸ mem)
    rw [Operator.param?_setParam, if_neg (by simpa using ne)]

end SameBut

def unplaced (x : Tensor) : Tensor := { x with offset := none }

def Frame.settings (keys : Set String) : Frame where
  rel g g' := g'.dims = g.dims ∧ g'.tensors = g.tensors ∧ ∀ o, SameBut keys (g.op o) (g'.op o)
  refl _ := ⟨rfl, rfl, fun _ => .refl keys _⟩
  trans h h' := ⟨h'.1.trans h.1, h'.2.1.trans h.2.1, fun o => (h.2.2 o).trans (h'.2.2 o)⟩

/-- Of the first `n` tensors the places may change, but a tensor that is no view does not lose its
place; of operators, some settings and the place of their own memory. -/
def Frame.planning (n : Nat) (keys : Set String) : Frame where
  rel g g' := n ≤ g.tensors.size → n ≤ g'.tensors.size ∧ g'.dims = g.dims ∧
    (∀ t : TensorId, t.idx < n → unplaced (g'.tensor t) = unplaced (g.tensor t) ∧
      ((g.tensor t).viewOf = none → (g.tensor t).offset ≠ none → (g'.tensor t).offset ≠ none)) ∧
    ∀ o, SameBut (insert "unique_workspace_offset" keys) (g.op o) (g'.op o)
  refl _ size := ⟨size, rfl, fun _ _ => ⟨rfl, fun _ h => h⟩, fun _ => .refl _ _⟩
  trans {g g₁ g'} h h' size := by
    obtain ⟨size₁, dims, tensors, ops⟩ := h size
    obtain ⟨size', dims', tensors', ops'⟩ := h' size₁
    refine ⟨size', dims'.trans dims, fun t ht => ?_, fun o => (ops o).trans (ops' o)⟩
    obtain ⟨same, placed⟩ := tensors t ht
    obtain ⟨same', placed'⟩ := tensors' t ht
    have viewOf : (g₁.tensor t).viewOf = (g.tensor t).viewOf := congrArg (·.viewOf) same
    exact ⟨same'.trans same, fun own some => placed' (viewOf.trans own) (placed own some)⟩

/-- A machine whose steps change nothing but some settings of operators, wherever they fail. -/
structure Machine.Tame (m : Machine) (keys : Set String) : Prop where
  generate : ∀ part results memory, Throughout (Frame.settings keys)
    (m.generate part results memory)
  compile : Throughout (Frame.settings keys) m.compile
  load : Throughout (Frame.settings keys) m.load
  run : Throughout (Frame.settings keys) m.run

section Planning

variable {n : Nat} {keys : Set String}

theorem throughout_planning {x : Build α} (tame : Throughout (Frame.settings keys) x) :
    Throughout (Frame.planning n keys) x where
  keeps g size := by
    obtain ⟨dims, tensors, ops⟩ := tame.keeps g
    have tensor : ∀ t, (after (x g)).tensor t = g.tensor t :=
      fun t => by rw [Arena.tensor_eq, tensors, ← Arena.tensor_eq]
    refine ⟨tensors ▸ size, dims, fun t _ => ⟨by rw [tensor], fun _ some => by rwa [tensor]⟩,
      fun o => ?_⟩
    exact (ops o).mono (Set.subset_insert _ _)

theorem planning_modifyTensor {f : Tensor → Tensor}
    (same : unplaced (f (g.tensor t)) = unplaced (g.tensor t))
    (placed : (g.tensor t).viewOf = none → (g.tensor t).offset ≠ none →
    (f (g.tensor t)).offset ≠ none) :
    (Frame.planning n keys).rel g (g.modifyTensor t f) := by
  intro size
  refine ⟨by simpa using size, rfl, fun u hu => ?_, fun o => .refl _ _⟩
  by_cases e : u = t
  · grind [Arena.tensor_modifyTensor_self, Nat.lt_of_lt_of_le]
  · grind [Arena.tensor_modifyTensor_ne]

instance (t : TensorId) (a : Int) : Throughout (Frame.planning n keys)
    (modifyTensor t fun x => { x with offset := some a }) where
  keeps _ := planning_modifyTensor rfl fun _ _ => nofun

theorem throughout_modifyTensor (outside : n ≤ t.idx) (f : Tensor → Tensor) :
    Throughout (Frame.planning n keys) (modifyTensor t f) where
  keeps g size := by
    refine ⟨by simpa [modifyTensor_run] using size, rfl, fun u hu => ?_, fun o => .refl _ _⟩
    have ne : u ≠ t := by
      rintro rfl
      omega
    show unplaced ((g.modifyTensor t f).tensor u) = _ ∧
      (_ → _ → ((g.modifyTensor t f).tensor u).offset ≠ _)
    grind [Arena.tensor_modifyTensor_ne]

instance (o : OpId) (v : Value) : Throughout (Frame.planning n keys)
    (setParam o "unique_workspace_offset" v) where
  keeps g size := by
    refine ⟨size, rfl, fun t _ => ⟨rfl, fun _ h => h⟩, fun p => ?_⟩
    show SameBut _ _ ((g.modifyOp o (·.setParam "unique_workspace_offset" v)).op p)
    rw [Arena.op_modifyOp_ite]
    split
    · exact .setParam _ (Set.mem_insert _ _) v
    · exact .refl _ _

instance (ts : Graph) : Throughout (Frame.planning n keys)
    (placeConstants ts) := by unfold placeConstants; infer_instance

instance (ts : Graph) : Throughout (Frame.planning n keys) (placeViews ts) := by
  have turn : ∀ t, Throughout (Frame.planning n keys) (do
      if let some v := (← tensor t).viewOf then
        let offset := (← tensor v).offset
        modifyTensor t fun x => { x with offset := offset }) := by
    refine fun t => ⟨fun g => ?_⟩
    rw [bind_run (tensor_run t)]
    cases view : (g.tensor t).viewOf with
    | none => exact (Frame.planning n keys).refl g
    | some v =>
      refine planning_modifyTensor (t := t) rfl fun own => ?_
      rw [view] at own
      cases own
  unfold placeViews
  infer_instance

instance (sizes : Number × Number) (o : OpId) : Throughout (Frame.planning n keys)
    (scratchFor sizes o) := by
  unfold scratchFor
  refine Throughout.bind_of fun p => ?_
  cases p.param? "workspace" <;> cases p.param? "unique_workspace" <;>
    cases p.param? "unique_workspace_offset" <;>
    infer_instance

instance (ts : Graph) : Throughout (Frame.planning n keys)
    (scratch ts) := by rw [scratch_eq]; infer_instance

instance (placed : List Placed) (ts : Graph) : Throughout (Frame.planning n keys)
    (planPlaced placed ts) := by
  unfold planPlaced
  infer_instance

theorem Enlarged.planning (enlarged : Enlarged g g') : (Frame.planning n keys).rel g g' := by
  intro size
  refine ⟨?_, ?_, fun t ht => ?_, fun o => enlarged.op o ▸ .refl _ _⟩
  · obtain ⟨new, rfl⟩ := enlarged
    simp
    omega
  · obtain ⟨new, rfl⟩ := enlarged
    rfl
  · rw [enlarged.tensor (Nat.lt_of_lt_of_le ht size)]
    exact ⟨rfl, fun _ h => h⟩

theorem throughout_bindData (outside : n ≤ t.idx) (d : BoundData) :
    Throughout (Frame.planning n keys) (bindData t d) := by
  have := @throughout_modifyTensor t n keys outside
  unfold bindData
  infer_instance

theorem throughout_addTensor {x : Tensor} {f : TensorId → Build α}
    (rest : ∀ u : TensorId, n ≤ u.idx → Throughout (Frame.planning n keys) (f u)) :
    Throughout (Frame.planning n keys) (addTensor x >>= f) where
  keeps g size := by
    have add : addTensor x g = .ok ⟨g.tensors.size⟩ { g with tensors := g.tensors.push x } := rfl
    exact (Frame.planning n keys).trans ((Enlarged.refl g).push x).planning
      ((rest ⟨g.tensors.size⟩ size).keeps _) size

instance (outputs : List (Option String)) (t : TensorId) : Throughout (Frame.planning n keys)
    (constantFor outputs t) := by
  unfold constantFor
  refine Throughout.bind_of fun x => ?_
  obtain ⟨dtype, bytes⟩ := arrayDtype x.dtype
  refine Throughout.bind_of fun look => throughout_addTensor fun u new => ?_
  have bound := @throughout_bindData u n keys new
  infer_instance

end Planning

/-! ## The constants of the part -/

theorem FromConstants.exists_bound {P : TensorId → Prop} (ordered : Ordered g ts)
    (fed : ∀ t ∈ ts, ∀ o ∈ (g.tensor t).src.ops, (g.op o).inputList ≠ []) (ht : t ∈ ts)
    (h : FromConstants g P t) : ∃ c ∈ ts, P c ∧ (g.tensor c).data.isSome = true := by
  induction h with
  | bound here data => exact ⟨_, ht, here, data⟩
  | @computed t here sources reads ih =>
    obtain ⟨o, ho⟩ := exists_mem_of_ne_nil _ sources
    obtain ⟨x, hx⟩ := exists_mem_of_ne_nil _ (fed t ht o ho)
    exact ih x ⟨o, ho, hx⟩ ((ordered t ht o ho).2 x hx).mem

/-- A turn leaves a tensor out, takes it over or takes a copy without contents; a constant that is
no input is taken over. -/
theorem collect_cases (run : collect acc t h = .ok acc' h') :
    (acc' = acc ∧ h' = h ∧ ((h.tensor t).isInput = true ∨ (h.tensor t).data.isSome = false)) ∨
      (acc'.2 = acc.2 ++ [t] ∧ h' = h) ∨
      ((h.tensor t).data.isSome = false ∧ ∃ x : Tensor, x.data = none ∧ acc'.2 = acc.2 ++
        [⟨h.tensors.size⟩] ∧ h' = { h with tensors := h.tensors.push x }) := by
  unfold collect at run
  rw [bind_run (tensor_run _)] at run
  split at run
  · simp_all
  split at run
  · grind [pure_ok]
  next free =>
  have free : (h.tensor t).data.isSome = false := by simpa using free
  split at run
  · simp_all
  obtain ⟨constant, h₁, asked, run⟩ := bind_ok.1 run
  obtain rfl : h = h₁ := ReadOnly.keeps asked
  split at run
  · simp only [bind_ok, pure_ok] at run
    obtain ⟨u, _, copied, rfl, rfl⟩ := run
    obtain ⟨rfl, rfl⟩ := EStateM.Result.ok.inj (copied : EStateM.Result.ok _ _ = _)
    exact Or.inr (Or.inr ⟨free, _, rfl, rfl, rfl⟩)
  · grind [pure_ok]

def Taken (ts : Graph) (h : Arena) (u : TensorId) : Prop := u.idx < h.tensors.size ∧
    (u ∈ ts ∨ (h.tensor u).data = none)

theorem Taken.push {u : TensorId} (taken : Taken ts h u) (x : Tensor) :
    Taken ts { h with tensors := h.tensors.push x } u := by
  obtain ⟨known, origin⟩ := taken
  refine ⟨by simp; omega, origin.imp_right fun free => ?_⟩
  have old : Arena.tensor { h with tensors := h.tensors.push x } u = h.tensor u := by
    simp only [Arena.tensor, Array.getD_eq_getD_getElem?, Array.getElem?_push]
    rw [if_neg (Nat.ne_of_lt known)]
  rw [old, free]

theorem collected_constants (known : ∀ t ∈ ts, t.idx < g.tensors.size) {back : Graph}
    (sub : ∀ t ∈ back, t ∈ ts) (enlarged : Enlarged g h)
    (taken : ∀ u ∈ acc.2, Taken ts h u) (run : back.foldlM collect acc h = .ok acc' h') :
    (∀ u ∈ acc.2, u ∈ acc'.2) ∧ (∀ u ∈ acc'.2, Taken ts h' u) ∧
      ∀ t ∈ back, (g.tensor t).isInput = false → (g.tensor t).data.isSome = true → t ∈ acc'.2 := by
  induction back generalizing acc h with
  | nil => simp_all
  | cons t back ih =>
    obtain ⟨acc₁, h₁, first, rest⟩ := bind_ok.1 run
    have sub' := fun u hu => sub u (mem_cons_of_mem t hu)
    have ht := sub t mem_cons_self
    have same := enlarged.tensor (known t ht)
    have size : g.tensors.size ≤ h.tensors.size := by
      obtain ⟨new, rfl⟩ := enlarged
      simp
    -- the rest of the walk, whatever the turn did
    have finish : Enlarged g h₁ → (∀ u ∈ acc.2, u ∈ acc₁.2) → (∀ u ∈ acc₁.2, Taken ts h₁ u) →
        ((g.tensor t).isInput = false → (g.tensor t).data.isSome = true → t ∈ acc₁.2) →
        (∀ u ∈ acc.2, u ∈ acc'.2) ∧ (∀ u ∈ acc'.2, Taken ts h' u) ∧
          ∀ u ∈ t :: back, (g.tensor u).isInput = false → (g.tensor u).data.isSome = true →
            u ∈ acc'.2 := by
      intro enlarged₁ grows taken₁ here
      obtain ⟨grows', taken', later⟩ := ih sub' enlarged₁ taken₁ rest
      refine ⟨fun u hu => grows' u (grows u hu), taken', fun u hu input data => ?_⟩
      rcases mem_cons.1 hu with rfl | hu
      · exact grows' u (here input data)
      · exact later u hu input data
    rcases collect_cases first with ⟨rfl, rfl, out⟩ | ⟨grown, rfl⟩ | ⟨free, x, empty, grown, rfl⟩
    · refine finish enlarged (fun _ hu => hu) taken fun input data => ?_
      rw [same, input, data] at out
      simp at out
    · refine finish enlarged (fun u hu => ?_) (fun u hu => ?_) fun _ _ => ?_
      · rw [grown]
        exact mem_append_left _ hu
      · exact forall_mem_snoc.2 ⟨taken, Nat.lt_of_lt_of_le (known _ ht) size, Or.inl ht⟩ u
          (grown ▸ hu)
      · rw [grown]
        simp
    · refine finish (enlarged.push x) (fun u hu => ?_) (fun u hu => ?_) fun _ data => ?_
      · rw [grown]
        exact mem_append_left _ hu
      · rw [grown] at hu
        rcases mem_append.1 hu with hu | hu
        · exact (taken u hu).push x
        · obtain rfl := mem_singleton.1 hu
          refine ⟨by simp, Or.inr ?_⟩
          simp [Arena.tensor, Array.getD_eq_getD_getElem?, empty]
      · rw [same, data] at free
        cases free

theorem exists_constant (marked : Marked g ts)
    (fed : ∀ t ∈ ts, ∀ o ∈ (g.tensor t).src.ops, (g.op o).inputList ≠ [])
    (run : constantPart ts g = .ok part h) (some : part ≠ []) :
    Enlarged g h ∧ (∀ u ∈ part, Taken ts h u) ∧ ∃ c ∈ part, c ∈ ts ∧ (g.tensor c).data.isSome =
    true := by
  obtain ⟨part', h', run', enlarged, names⟩ := constantPart_run marked
  obtain ⟨rfl, rfl⟩ := EStateM.Result.ok.inj (run.symm.trans run')
  rw [constantPart_eq] at run
  simp only [bind_ok, pure_ok] at run
  obtain ⟨acc, _, walk, rfl, rfl⟩ := run
  obtain ⟨-, taken, constants⟩ :=
    collected_constants marked.known (fun _ ht => ht) (.refl g)
      (fun u hu => absurd hu not_mem_nil) walk
  obtain ⟨u, hu⟩ := exists_mem_of_ne_nil _ some
  obtain ⟨t, ht, constant, -⟩ := (names _).1 (mem_map_of_mem hu)
  obtain ⟨c, hc, input, data⟩ := constant.exists_bound marked.ordered fed ht
  grind

/-! ## Planning leaves its marks -/

def placeConstant (offset : Int) (t : TensorId) : Build Int := do
  if (← tensor t).data.isNone then return offset
  modifyTensor t fun x => { x with offset := some offset }
  return offset + (← sizeBytes t 64)

theorem placeConstants_eq (ts : Graph) : placeConstants ts = ts.foldlM placeConstant 0 := rfl

instance {n : Nat} {keys : Set String} (offset : Int) (t : TensorId) :
    Throughout (Frame.planning n keys) (placeConstant offset t) := by
  unfold placeConstant
  infer_instance

/-- A tensor that is no view and has a place. -/
structure HasPlace (g : Arena) (t : TensorId) : Prop where
  known : t.idx < g.tensors.size
  own : (g.tensor t).viewOf = none
  placed : (g.tensor t).offset ≠ none

theorem HasPlace.keeps {keys : Set String} (place : HasPlace g c)
    (rel : (Frame.planning (c.idx + 1) keys).rel g g') : HasPlace g' c := by
  obtain ⟨size, -, tensors, -⟩ := rel place.known
  obtain ⟨same, placed⟩ := tensors c (Nat.lt_succ_self _)
  exact ⟨size, (congrArg (·.viewOf) same).trans place.own, placed place.own place.placed⟩

theorem placeConstants_places {r : Graph} (first : ∀ t ∈ l, (g.tensor t).data = none)
    (data : (g.tensor c).data ≠ none) (own : (g.tensor c).viewOf = none)
    (known : c.idx < g.tensors.size) :
    HasPlace (after (placeConstants (l ++ c :: r) g)) c := by
  have skip : l.foldlM placeConstant 0 g = .ok 0 g := by
    simp_all [placeConstant, foldlM_reads, foldl_fixed]
  let g₁ := g.modifyTensor c fun x => { x with offset := some 0 }
  have here : g₁.tensor c = { g.tensor c with offset := some 0 } :=
    Arena.tensor_modifyTensor_self known
  have turn : (placeConstant 0 c >>= fun offset => r.foldlM placeConstant offset) g =
      ((do return 0 + (← sizeBytes c 64)) >>= fun offset => r.foldlM placeConstant offset) g₁ := by
    unfold placeConstant
    rw [bind_assoc, bind_run (tensor_run c), if_neg (by simpa using data), bind_assoc,
      bind_run (modifyTensor_run c _)]
  have place : HasPlace g₁ c :=
    ⟨by simpa [g₁] using known, by rw [here]; exact own, by rw [here]; nofun⟩
  rw [placeConstants_eq, foldlM_append, bind_run skip, foldlM_cons, turn]
  exact place.keeps (Throughout.keeps (R := Frame.planning (c.idx + 1) ∅) g₁)

theorem planPlaced_places {r : Graph}
    (first : ∀ t ∈ l, t.idx < g.tensors.size ∧ (g.tensor t).data = none)
    (data : (g.tensor c).data ≠ none) (own : (g.tensor c).viewOf = none)
    (known : c.idx < g.tensors.size) :
    HasPlace (after (planPlaced placed (l ++ c :: r) g)) c := by
  let put : Placed → Build Unit := fun p => modifyTensor p.life.tensor fun x =>
    { x with offset := some p.offset }
  obtain ⟨g₁, run, rel⟩ : ∃ g₁, placed.forM put g = .ok () g₁ ∧
    (Frame.planning g.tensors.size ∅).rel g g₁ :=
    forM_returns (fun h => (Frame.planning g.tensors.size ∅).rel g h)
      (fun p _ h rel => ⟨_, modifyTensor_run _ _,
        Frame.trans _ rel (planning_modifyTensor rfl fun _ _ => nofun)⟩)
      (Frame.refl _ g)
  obtain ⟨size, -, tensors, -⟩ := rel (Nat.le_refl _)
  have same : ∀ t : TensorId, t.idx < g.tensors.size → (g₁.tensor t).data = (g.tensor t).data ∧
      (g₁.tensor t).viewOf = (g.tensor t).viewOf := fun t ht =>
    ⟨congrArg (·.data) (tensors t ht).1, congrArg (·.viewOf) (tensors t ht).1⟩
  have place : HasPlace (after (placeConstants (l ++ c :: r) g₁)) c :=
    placeConstants_places (fun t ht => (same t (first t ht).1).1.trans (first t ht).2)
      ((same c known).1 ▸ data)
      ((same c known).2.trans own) (Nat.lt_of_lt_of_le known size)
  unfold planPlaced
  rw [forIn_eq_forM, bind_run run]
  refine place.keeps (Throughout.after_bind (R := Frame.planning (c.idx + 1) ∅)
    (fun constants => ?_) g₁)
  infer_instance

/-! ## Folding that fails -/

section Folding

variable {m : Machine} {keys : Set String} {ts : Graph} {g h : Arena} {f : Fault}

def computePart (m : Machine) (outputs : List (Option String)) (part results : Graph)
    (memory : Plan) :
    Build (List (Option String × TensorId)) := do
  m.generate part results memory
  m.compile
  m.load
  let g ← get
  let fresh ← (part.filter fun t => (g.tensor t).data.isNone).mapM (constantFor outputs)
  m.run
  return fresh

theorem throughout_computePart (tame : m.Tame keys) (n : Nat) (outputs : List (Option String))
    (part results : Graph) (memory : Plan) :
    Throughout (Frame.planning n keys) (computePart m outputs part results memory) := by
  have generate := throughout_planning (n := n) (tame.generate part results memory)
  have compile := throughout_planning (n := n) tame.compile
  have load := throughout_planning (n := n) tame.load
  have run := throughout_planning (n := n) tame.run
  refine Throughout.bind_of fun _ => ?_
  infer_instance

/-- A failure is one of the walk over a part that is not empty, or comes after its lives are
known. -/
theorem computeConstants_failed (marked : Marked g ts)
    (failed : computeConstants m ts g = .error f h) :
    ∃ part h₁, constantPart ts g = .ok part h₁ ∧ Enlarged g h₁ ∧ part ≠ [] ∧
    (lifetimes (sourceSteps h₁ part) h₁ = .error f h₁ ∧ h = h₁ ∨
      ∃ ls outputs results, lifetimes (sourceSteps h₁ part) h₁ = .ok ls h₁ ∧
      (planPlaced (placeAll ls) part >>= computePart m outputs part results) h₁ = .error f h) := by
  obtain ⟨part, h₁, found, enlarged, -⟩ := constantPart_run marked
  unfold computeConstants at failed
  rw [bind_run get_run, bind_run found, bind_run get_run] at failed
  split at failed
  · cases failed
  next results =>
  refine ⟨part, h₁, found, enlarged, ?_, ?_⟩
  · rintro rfl
    exact results rfl
  have reads := Throughout.keeps (R := .same) (x := lifetimes (sourceSteps h₁ part)) h₁
  rw [plan_eq, bind_assoc, bind_run get_run, bind_assoc] at failed
  cases lives : lifetimes (sourceSteps h₁ part) h₁ with
  | error f' h₂ =>
    rw [lives] at reads
    obtain rfl : h₁ = h₂ := reads
    grind [bind_failed]
  | ok ls h₂ =>
    rw [lives] at reads
    obtain rfl : h₁ = h₂ := reads
    rw [bind_run lives] at failed
    exact Or.inr ⟨ls, _, _, rfl, failed⟩

theorem computeConstants_planning (tame : m.Tame keys) (marked : Marked g ts)
    (failed : computeConstants m ts g = .error f h) (n : Nat) :
    (Frame.planning n keys).rel g h := by
  obtain ⟨part, h₁, -, enlarged, -, ⟨-, rfl⟩ | ⟨ls, outputs, results, -, rest⟩⟩ :=
    computeConstants_failed marked failed
  · exact enlarged.planning
  · have computed := throughout_computePart tame n outputs part results
    have kept : (Frame.planning n keys).rel h₁
        (after ((planPlaced (placeAll ls) part >>= computePart m outputs part results) h₁)) :=
          Throughout.keeps h₁
    rw [rest] at kept
    exact (Frame.planning n keys).trans enlarged.planning kept

theorem attempt_failed {step : Build α} (failed : step g = .error f h) :
    attempt step g = .ok none h := by
  have mapped : (some <$> step) g = .error f h := by
    exact bind_failed failed
  show EStateM.tryCatch (some <$> step) (fun _ => pure none) g = _
  unfold EStateM.tryCatch
  rw [mapped]
  rfl

def Intact (ts : Graph) (g h : Arena) : Prop := (∀ t ∈ ts, h.tensor t = g.tensor t) ∧
    ∀ o, h.op o = g.op o

theorem exists_hasPlace (tame : m.Tame keys) (marked : Marked g ts)
    (fed : ∀ t ∈ ts, ∀ o ∈ (g.tensor t).src.ops, (g.op o).inputList ≠ [])
    (solid : ∀ t ∈ ts, (g.tensor t).data ≠ none → (g.tensor t).viewOf = none) {h₁ : Arena}
    (found : constantPart ts g = .ok part h₁) (some : part ≠ []) {outputs : List (Option String)}
    {results : Graph} : ∃ c ∈ ts,
    HasPlace (after ((planPlaced placed part >>= computePart m outputs part results) h₁)) c := by
  obtain ⟨enlarged, taken, d, hd, hd', data⟩ := exists_constant marked fed found some
  -- the first tensor of the part that has contents
  obtain ⟨c, hc⟩ : ∃ c, part.find? (fun t => (h₁.tensor t).data.isSome) = .some c := by
    refine Option.isSome_iff_exists.1 (find?_isSome.2 ⟨d, hd, ?_⟩)
    rwa [enlarged.tensor (marked.known d hd')]
  obtain ⟨data, l, r, rfl, first⟩ := find?_eq_some_iff_append.1 hc
  have data : (h₁.tensor c).data ≠ none := Option.isSome_iff_ne_none.1 data
  obtain ⟨known, origin⟩ := taken c (by simp)
  have mem : c ∈ ts := origin.resolve_right data
  have same := enlarged.tensor (marked.known c mem)
  have place : HasPlace (after (planPlaced placed (l ++ c :: r) h₁)) c :=
    planPlaced_places (fun t ht => ⟨(taken t (by simp [ht])).1, by simpa using first t ht⟩) data
      (same ▸ solid c mem (same ▸ data)) known
  have computed := throughout_computePart tame (c.idx + 1) outputs (l ++ c :: r) results
  exact ⟨c, mem, place.keeps (Throughout.after_bind computed h₁)⟩

/-- If the constants of a graph cannot be computed, folding gives the graph back, and all that may
be different are the places of tensors and of operators' own memory and the settings that the
machine writes.  Nothing is different at all exactly if the lives of the tensors of the constant
part could not be found; a failure after that comes too late. -/
theorem foldConstants_failed_iff (tame : m.Tame keys) (marked : Marked g ts)
    (fed : ∀ t ∈ ts, ∀ o ∈ (g.tensor t).src.ops, (g.op o).inputList ≠ [])
    (solid : ∀ t ∈ ts, (g.tensor t).data ≠ none → (g.tensor t).viewOf = none)
    (unplanned : ∀ t ∈ ts, (g.tensor t).offset = none)
    (failed : computeConstants m ts g = .error f h) :
    foldConstants m ts g = .ok ts h ∧ h.dims = g.dims ∧
    (∀ t ∈ ts, unplaced (h.tensor t) = g.tensor t) ∧
      (∀ o, SameBut (insert "unique_workspace_offset" keys) (g.op o) (h.op o)) ∧
      (Intact ts g h ↔
        ∃ part, constantPart ts g = .ok part h ∧ lifetimes (sourceSteps h part) h =
          .error f h) := by
  obtain ⟨-, dims, tensors, ops⟩ := computeConstants_planning tame marked failed g.tensors.size
    (Nat.le_refl _)
  refine ⟨?_, dims, fun t ht => ?_, ops, ?_⟩
  · unfold foldConstants
    rw [bind_run (attempt_failed failed)]
    rfl
  · rw [(tensors t (marked.known t ht)).1, unplaced, ← unplanned t ht]
  obtain ⟨part, h₁, found, enlarged, some, ⟨lives, rfl⟩ | ⟨ls, outputs, results, lives, rest⟩⟩ :=
    computeConstants_failed marked failed
  · refine iff_of_true ⟨fun t ht => enlarged.tensor (marked.known t ht), enlarged.op⟩
      ⟨part, found, lives⟩
  · refine iff_of_false (fun intact => ?_) ?_
    · obtain ⟨c, mem, place⟩ := exists_hasPlace tame marked fed solid found some
      have placed := place.placed
      rw [rest, after_error, intact.1 c mem] at placed
      exact placed (unplanned c mem)
    · rintro ⟨part', found', lives'⟩
      obtain ⟨rfl, rfl⟩ := EStateM.Result.ok.inj (found.symm.trans found')
      cases lives.symm.trans lives'

end Folding

theorem Machine.reliable_tame : Machine.reliable.Tame ∅ where
  generate _ _ _ := by
    unfold Machine.reliable
    infer_instance
  compile := Throughout.pure ()
  load := Throughout.pure ()
  run := Throughout.pure ()

/-- Without a target no sources are generated; by then the constant of the chain has a place. -/
theorem foldConstants_failed_iff_untargeted : ∃ f h,
    computeConstants .reliable [⟨0⟩, ⟨1⟩, ⟨2⟩, ⟨3⟩, ⟨4⟩] foldingArena = .error f h ∧
      foldConstants .reliable [⟨0⟩, ⟨1⟩, ⟨2⟩, ⟨3⟩, ⟨4⟩] foldingArena =
        .ok [⟨0⟩, ⟨1⟩, ⟨2⟩, ⟨3⟩, ⟨4⟩] h ∧
      (h.tensor ⟨0⟩).offset.isSome = true ∧
      ¬∃ part, constantPart [⟨0⟩, ⟨1⟩, ⟨2⟩, ⟨3⟩, ⟨4⟩] foldingArena = .ok part h ∧
        lifetimes (sourceSteps h part) h = .error f h := by
  have fails : (match computeConstants .reliable [⟨0⟩, ⟨1⟩, ⟨2⟩, ⟨3⟩, ⟨4⟩] foldingArena with
      | .ok _ _ => false
      | .error _ h => (h.tensor ⟨0⟩).offset.isSome) = true := by cbv
  split at fails
  · cases fails
  next f h run =>
  obtain ⟨folded, -, -, -, intact⟩ :=
    foldConstants_failed_iff Machine.reliable_tame (by decide) (by decide) (by decide)
      (by decide) run
  refine ⟨f, h, run, folded, fails, intact.not.1 fun kept => ?_⟩
  rw [kept.1 ⟨0⟩ (by decide)] at fails
  cases fails

end Graph

end TensorGraph

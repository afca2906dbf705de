import TensorGraph.Constant

/-!
# Runs of steps

A step either fails or gives a value and a new arena.  The lemmas here say what a run that succeeds
consists of:

    (x >>= f) g = .ok b g'  ↔  ∃ a g₁, x g = .ok a g₁ ∧ f a g₁ = .ok b g'      (bind_ok)

They are rewritten with from the outside to the inside, so a run of a long step falls apart into
runs of its parts, and the steps that only read disappear.  A loop keeps what each of its turns
keeps (`forM_keeps`, `foldlM_keeps`).
-/

namespace TensorGraph

open List

theorem bind_eq_ok {α β ε : Type} {x : Except ε α} {f : α → Except ε β} {b : β}
    (run : x >>= f = .ok b) :
    ∃ a, x = .ok a ∧ f a = .ok b := by
  cases x with
  | error e => cases run
  | ok a => exact ⟨a, rfl, run⟩

namespace Build

variable {α β : Type} {g g' : Arena}

variable {f : Fault} {u : Unit} {b : Bool} {t : TensorId} {o : OpId} {ts : List TensorId}
  {l : List α}

/-! ## Single steps -/

@[simp] theorem bind_ok {x : Build α} {f : α → Build β} {b : β} :
    (x >>= f) g = .ok b g' ↔ ∃ a g₁, x g = .ok a g₁ ∧ f a g₁ = .ok b g' := by
  show EStateM.bind x f g = _ ↔ _
  unfold EStateM.bind
  cases x g <;> simp [and_assoc]

@[simp] theorem map_ok {x : Build α} {f : α → β} {b : β} :
    (f <$> x) g = .ok b g' ↔ ∃ a, x g = .ok a g' ∧ f a = b := by
  show EStateM.map f x g = _ ↔ _
  unfold EStateM.map
  cases x g with
  | error => simp
  | ok a h => grind

@[simp] theorem pure_ok {a b : α} : (pure a : Build α) g = .ok b g' ↔ a = b ∧ g = g' := by
  show EStateM.Result.ok a g = _ ↔ _
  simp

@[simp] theorem throw_ok {a : α} : (throw f : Build α) g = .ok a g' ↔ False := by
  show EStateM.Result.error f g = _ ↔ _
  simp

@[simp] theorem get_ok {a : Arena} : (get : Build Arena) g = .ok a g' ↔ g = a ∧ g = g' := by
  show EStateM.Result.ok g g = _ ↔ _
  simp

@[simp] theorem modify_ok {f : Arena → Arena} {u : PUnit} : (modify f : Build PUnit) g = .ok u g' ↔
    g' = f g := by
  show EStateM.Result.ok PUnit.unit (f g) = _ ↔ _
  simp [eq_comm]

@[simp] theorem expect_ok {o : Option α} {a : α} : expect f o g = .ok a g' ↔ o = some a ∧
    g = g' := by
  cases o <;> simp [expect, eq_comm]

@[simp] theorem require_ok : require f b g = .ok u g' ↔ b = true ∧ g = g' := by
  cases b <;> simp [require]

@[simp] theorem ofExcept_ok {e : Except Fault α} {a : α} :
    (ofExcept e : Build α) g = .ok a g' ↔ e = .ok a ∧ g = g' := by
  cases e <;> simp [ofExcept, eq_comm]

/-! ## Reading -/

@[simp] theorem dim_ok {d : DimId} {x : Dim} : dim d g = .ok x g' ↔ x = g.dim d ∧ g = g' := by
  simp [dim, and_assoc, and_comm, eq_comm (b := x)]

@[simp] theorem tensor_ok {x : Tensor} : tensor t g = .ok x g' ↔ x = g.tensor t ∧ g = g' := by
  simp [tensor, and_assoc, and_comm, eq_comm (b := x)]

@[simp] theorem op_ok {x : Operator} : op o g = .ok x g' ↔ x = g.op o ∧ g = g' := by
  simp [op, and_assoc, and_comm, eq_comm (b := x)]

@[simp] theorem inputs_ok : inputs o g = .ok ts g' ↔ (g.op o).inputs = some ts ∧ g = g' := by
  simp [inputs, and_assoc, and_comm]

@[simp] theorem outputs_ok :
    outputs o g = .ok ts g' ↔ (g.op o).outputs = some ts ∧ g = g' := by
  simp [outputs, and_assoc, and_comm]

@[simp] theorem sizeBytes_ok {n a : Int} :
    sizeBytes t a g = .ok n g' ↔ Dtype.alignedSize? g.dim (g.tensor t).shape (g.tensor t).dtype a =
    .ok n ∧ g = g' := by
  simp [sizeBytes, and_assoc, and_comm]

/-! ## Writing -/

@[simp] theorem modifyTensor_ok {f : Tensor → Tensor} :
    modifyTensor t f g = .ok u g' ↔ g' = g.modifyTensor t f := by
  simp [modifyTensor]

@[simp] theorem modifyOp_ok {f : Operator → Operator} :
    modifyOp o f g = .ok u g' ↔ g' = g.modifyOp o f := by
  simp [modifyOp]

theorem addDst_ok : addDst t o g = .ok u g' ↔
    (g.tensor t).dst.fixed = false ∧ g' = g.modifyTensor t fun x =>
    { x with dst := x.dst.insert o } := by
  simp [addDst, and_assoc]

theorem removeDst_ok : removeDst t o g = .ok u g' ↔
    o ∈ (g.tensor t).dst.ops ∧ g' = g.modifyTensor t fun x => { x with dst := x.dst.erase o } := by
  simp [removeDst, and_assoc]

/-! ## Loops -/

theorem forIn_eq_forM (l : List α) (f : α → Build Unit) :
    (forIn l PUnit.unit fun a _ => do
      f a
      pure (ForInStep.yield PUnit.unit)) = l.forM f := by
  induction l with
  | nil => rfl
  | cons a l ih => simp_all

theorem foldlM_walks {f : β → α → Build β} (P : List α → β → Arena → Prop)
    (turn : ∀ done a rest, l = done ++ a :: rest → ∀ (b b' : β) (h h' : Arena), P done b h →
      f b a h = .ok b' h' → P (done ++ [a]) b' h') {b b' : β} (start : P [] b g)
      (run : l.foldlM f b g = .ok b' g') : P l b' g' := by
  suffices walk : ∀ done rest b g, l = done ++ rest → P done b g → rest.foldlM f b g = .ok b' g' →
    P l b' g' from
    walk [] l b g rfl start run
  intro done rest b g split kept run
  induction rest generalizing g b done with
  | nil => simp_all
  | cons a rest ih =>
    simp only [foldlM_cons, bind_ok] at run
    grind

theorem foldlM_keeps {f : β → α → Build β} (P : β → Arena → Prop)
    (turn : ∀ a ∈ l, ∀ (b b' : β) (h h' : Arena), P b h → f b a h = .ok b' h' → P b' h') {b b' : β}
    (start : P b g) (run : l.foldlM f b g = .ok b' g') : P b' g' :=
  foldlM_walks (fun _ => P) (fun done a rest split => turn a (by simp [split])) start run

theorem forM_eq_foldlM (f : α → Build Unit) (l : List α) : l.forM f = l.foldlM (fun _ => f) () := by
  induction l with
  | nil => rfl
  | cons a l ih => exact bind_congr fun _ => ih

theorem forM_walks {f : α → Build Unit} (P : List α → Arena → Prop)
    (turn : ∀ done a rest, l = done ++ a :: rest → ∀ (h h' : Arena) (u : Unit), P done h →
      f a h = .ok u h' → P (done ++ [a]) h')
    (start : P [] g) (run : l.forM f g = .ok u g') : P l g' := by
  rw [forM_eq_foldlM] at run
  exact foldlM_walks (fun done _ => P done)
    (fun done a rest split _ u h h' => turn done a rest split h h' u) start run

theorem forM_keeps {f : α → Build Unit} (P : Arena → Prop)
    (turn : ∀ a ∈ l, ∀ (h h' : Arena) (u : Unit), P h → f a h = .ok u h' → P h') (start : P g)
    (run : l.forM f g = .ok u g') : P g' :=
  forM_walks (fun _ => P) (fun done a rest split => turn a (by simp [split])) start run

theorem forIn_keeps {f : α → Build Unit} (P : Arena → Prop)
    (turn : ∀ a ∈ l, ∀ (h h' : Arena) (u : Unit), P h → f a h = .ok u h' → P h') {u : PUnit}
    (start : P g) (run : (forIn l PUnit.unit fun a _ => do
      f a
      pure (ForInStep.yield PUnit.unit) : Build PUnit) g = .ok u g') : P g' := by
  rw [forIn_eq_forM] at run
  exact forM_keeps P turn start run

theorem forIn_turns {f : α → PUnit → Build (ForInStep PUnit)} (P : Arena → Prop)
    (turn : ∀ a ∈ l, ∀ (h h' : Arena) (r : ForInStep PUnit), P h → f a PUnit.unit h = .ok r h' →
      P h') {u : PUnit}
    (start : P g) (run : forIn l PUnit.unit f g = .ok u g') : P g' := by
  induction l generalizing g with
  | nil => simp_all
  | cons a l ih =>
    simp only [forIn_cons, bind_ok] at run
    obtain ⟨r, g₁, first, rest⟩ := run
    have kept := turn a mem_cons_self _ _ _ start first
    cases r with
    | done => simp_all
    | yield => grind

theorem forM_does {f : α → Build Unit} (Q : α → Arena → Prop)
    (does : ∀ a ∈ l, ∀ (h h' : Arena) (u : Unit), f a h = .ok u h' → Q a h')
    (keeps : ∀ a ∈ l, ∀ b ∈ l, ∀ (h h' : Arena) (u : Unit), Q a h → f b h = .ok u h' → Q a h')
    (run : l.forM f g = .ok u g') : ∀ a ∈ l, Q a g' := by
  refine forM_walks (fun done h => ∀ a ∈ done, Q a h)
    (fun done a rest split h h' u before run b hb => ?_) (by simp) run
  have member : ∀ c ∈ done ++ [a], c ∈ l := by grind
  rcases mem_append.1 hb with hb | hb
  · grind
  · grind

/-! ## Frames

What a step leaves as it is follows from its parts, so it is left to instances.  A frame is a
relation between arenas that steps can be chained in; in the smallest one a step only reads. -/

/-- A relation between the arenas before and after steps. -/
structure Frame where
  rel : Arena → Arena → Prop
  refl : ∀ g, rel g g
  trans : ∀ {g g₁ g'}, rel g g₁ → rel g₁ g' → rel g g'

/-- A step that stays within a frame. -/
class Within (R : Frame) (x : Build α) : Prop where
  keeps : ∀ {g g' : Arena} {a : α}, x g = .ok a g' → R.rel g g'

namespace Within

variable {R : Frame}

theorem of_eq {x : Build α} (h : ∀ {g g' : Arena} {a : α}, x g = .ok a g' → g = g') : Within R x :=
  ⟨fun run => h run ▸ R.refl _⟩

instance pure (a : α) : Within R (Pure.pure a : Build α) := of_eq fun run => (pure_ok.1 run).2

instance throw (f : Fault) : Within R (throw f : Build α) := of_eq fun run => (throw_ok.1 run).elim

instance get : Within R (get : Build Arena) := of_eq fun run => (get_ok.1 run).2

instance expect (f : Fault) (o : Option α) : Within R (expect f o) := of_eq fun run =>
    (expect_ok.1 run).2

instance require (f : Fault) (b : Bool) : Within R (require f b) := of_eq fun run =>
    (require_ok.1 run).2

instance ofExcept (e : Except Fault α) : Within R (ofExcept e : Build α) := of_eq fun run =>
    (ofExcept_ok.1 run).2

instance bind {x : Build α} {f : α → Build β} [rest : ∀ a, Within R (f a)] [first : Within R x] :
    Within R (x >>= f) where
  keeps run := by
    obtain ⟨a, g₁, run₁, run₂⟩ := bind_ok.1 run
    exact R.trans (first.keeps run₁) ((rest a).keeps run₂)

instance map {x : Build α} {f : α → β} [inner : Within R x] : Within R (f <$> x) where
  keeps run := by
    obtain ⟨a, run, -⟩ := map_ok.1 run
    exact inner.keeps run

instance ite {c : Prop} [Decidable c] {x y : Build α} [no : Within R y] [yes : Within R x] :
    Within R (if c then x else y) := by
  split
  · exact yes
  · exact no

-- tells by the type whether a step can be a new operator, before any definition is opened
theorem of_create {x : Build OpId} (step : Within R x) : Within R x := step

theorem of_newOp {c : OpClass} {kind : String} {settings : List (String × Value)}
    [step : Within R (newOp c kind settings)] :
    Within R (newOp c kind settings) := step

theorem mapM_of {f : α → Build β} (turn : ∀ a ∈ l, Within R (f a)) : Within R (l.mapM f) := by
  rw [← mapM'_eq_mapM]
  induction l with
  | nil =>
    rw [mapM'_nil]
    infer_instance
  | cons a l ih =>
    have first := turn a mem_cons_self
    have rest := ih fun b hb => turn b (mem_cons_of_mem a hb)
    rw [mapM'_cons]
    infer_instance

instance mapM {f : α → Build β} [turn : ∀ a, Within R (f a)] : Within R (l.mapM f) :=
  mapM_of fun a _ => turn a

theorem foldlM_of {f : β → α → Build β} (turn : ∀ a ∈ l, ∀ b, Within R (f b a)) (b : β) :
    Within R (l.foldlM f b) := by
  induction l generalizing b with
  | nil =>
    rw [foldlM_nil]
    infer_instance
  | cons a l ih =>
    have first := turn a mem_cons_self
    have rest := ih fun b hb => turn b (mem_cons_of_mem a hb)
    rw [foldlM_cons]
    infer_instance

instance foldlM {f : β → α → Build β} [turn : ∀ b a, Within R (f b a)] (b : β) :
    Within R (l.foldlM f b) :=
  foldlM_of (fun a _ b => turn b a) b

instance forM {f : α → Build Unit} [turn : ∀ a, Within R (f a)] : Within R (l.forM f) := by
  induction l with
  | nil => exact pure _
  | cons a l ih => exact bind

instance forIn {f : α → β → Build (ForInStep β)} [turn : ∀ a b, Within R (f a b)] (b : β) :
    Within R (forIn l b f) := by
  induction l generalizing b with
  | nil =>
    rw [forIn_nil]
    infer_instance
  | cons a l ih =>
    rw [forIn_cons]
    refine @bind _ _ _ _ _ (fun r => ?_) _
    cases r with
    | done b => exact pure _
    | yield b => exact ih b

instance filterM (l : List α) (p : α → Build Bool) [test : ∀ a, Within R (p a)] :
    Within R (l.filterM p) := by
  have aux : ∀ l acc, Within R (filterAuxM p l acc) := by
    intro l
    induction l with
    | nil => intro acc; unfold filterAuxM; infer_instance
    | cons a l ih => intro acc; unfold filterAuxM; infer_instance
  unfold List.filterM
  infer_instance

instance filterMapM (l : List α) (f : α → Build (Option β)) [turn : ∀ a, Within R (f a)] :
    Within R (l.filterMapM f) := by
  have aux : ∀ l acc, Within R (filterMapM.loop f l acc) := by
    intro l
    induction l with
    | nil => intro acc; unfold filterMapM.loop; infer_instance
    | cons a l ih =>
      intro acc
      unfold filterMapM.loop
      refine @bind _ _ _ _ _ (fun b => ?_) _
      split <;> infer_instance
  unfold List.filterMapM
  infer_instance

instance anyM (l : List α) (p : α → Build Bool) [test : ∀ a, Within R (p a)] :
    Within R (l.anyM p) := by
  induction l with
  | nil => unfold List.anyM; infer_instance
  | cons a l ih =>
    unfold List.anyM
    refine @bind _ _ _ _ _ (fun b => ?_) _
    split <;> infer_instance

instance allM (l : List α) (p : α → Build Bool) [test : ∀ a, Within R (p a)] :
    Within R (l.allM p) := by
  induction l with
  | nil => unfold List.allM; infer_instance
  | cons a l ih =>
    unfold List.allM
    refine @bind _ _ _ _ _ (fun b => ?_) _
    split <;> infer_instance

/-- What a frame sees of a tensor: as long as that stays, the tensor may be changed. -/
class SeesTensor (R : Frame) (t : TensorId) {γ : outParam Type} (sees : outParam (Tensor → γ)) :
  Prop where
  modify : ∀ {f : Tensor → Tensor}, (∀ x, sees (f x) = sees x) → Within R (Build.modifyTensor t f)

/-- What a frame sees of an operator. -/
class SeesOp (R : Frame) (o : OpId) {γ : outParam Type} (sees : outParam (Operator → γ)) :
  Prop where
  modify : ∀ {f : Operator → Operator}, (∀ x, sees (f x) = sees x) → Within R (Build.modifyOp o f)

/-- What is known of the result of a step in a frame. -/
class Known (R : Frame) (x : Build α) {σ : outParam Type} (result : outParam (σ → α)) : Prop where
  bind : ∀ {β : Type} {f : α → Build β}, (∀ s, Within R (f (result s))) → Within R x →
    Within R (x >>= f)

instance modifyTensor (t : TensorId) (f : Tensor → Tensor) [SeesTensor R t fun _ => ()] :
    Within R (modifyTensor t f) :=
  SeesTensor.modify fun _ => rfl

instance modifyOp (o : OpId) (f : Operator → Operator) [SeesOp R o fun _ => ()] :
    Within R (modifyOp o f) :=
  SeesOp.modify fun _ => rfl

/-- A step is taken apart into changes that the frame does not see and steps that instances are
known for. -/
theorem of_parts {x : Build α}
    (parts : Within R x := by
      repeat' first
        | intro _
        | with_reducible (first
          | refine Build.Within.Known.bind ?_ ?_ | refine @Build.Within.bind _ _ _ _ _ ?_ ?_
          | refine @Build.Within.map _ _ _ _ _ ?_ | refine @Build.Within.foldlM _ _ _ _ _ ?_ _
          | refine @Build.Within.mapM _ _ _ _ _ ?_ | refine @Build.Within.forM _ _ _ _ ?_
          | refine @Build.Within.forIn _ _ _ _ _ ?_ _ | refine @Build.Within.filterM _ _ _ _ ?_
          | refine @Build.Within.filterMapM _ _ _ _ _ ?_ | refine @Build.Within.anyM _ _ _ _ ?_
          | refine @Build.Within.allM _ _ _ _ ?_ | refine @Build.Within.ite _ _ _ _ _ _ ?_ ?_)
        | infer_instance | split
        | (refine Build.Within.of_create ?_; exact Build.Within.of_newOp)
        | refine Build.Within.Known.bind ?_ ?_ | refine @Build.Within.bind _ _ _ _ _ ?_ ?_
        | (refine Build.Within.SeesOp.modify ?_; exact fun _ => rfl)
        | (refine Build.Within.SeesTensor.modify ?_; exact fun _ => by first | rfl | (split <;>
          rfl))
        | refine @Build.Within.forM _ _ _ _ ?_ | refine @Build.Within.mapM _ _ _ _ _ ?_
        | refine @Build.Within.foldlM _ _ _ _ _ ?_ _ | dsimp only) : Within R x :=
  parts

theorem bind_of {x : Build α} {f : α → Build β} (rest : ∀ a, Within R (f a))
    (first : Within R x := by exact Build.Within.of_parts) :
    Within R (x >>= f) := bind

instance tensor (t : TensorId) : Within R (tensor t) := .of_parts

instance op (o : OpId) : Within R (op o) := .of_parts

instance dim (d : DimId) : Within R (dim d) := .of_parts

instance staticDim (n : Int) [new : Within R (addDim (.static n))] : Within R (staticDim n) := new

instance look : Within R look := .of_parts

instance shape (t : TensorId) : Within R (shape t) := .of_parts

instance dims (t : TensorId) : Within R (dims t) := .of_parts

instance inputs (o : OpId) : Within R (inputs o) := .of_parts

instance outputs (o : OpId) : Within R (outputs o) := .of_parts

instance inputAt (o : OpId) (i : Int) : Within R (inputAt o i) := .of_parts

instance outputAt (o : OpId) (i : Int) : Within R (outputAt o i) := .of_parts

instance param (o : OpId) (key : String) : Within R (param o key) := .of_parts

instance axis (s : List DimId) (i : Int) :
    Within R (axis s i) := by unfold Build.axis; exact .of_parts

instance fixedSize (d : DimId) : Within R (fixedSize d) := .of_parts

end Within

theorem Frame.keeps (R : Frame) {x : Build α} {a : α} (run : x g = .ok a g')
    (step : Within R x := by exact Build.Within.of_parts) : R.rel g g' := step.keeps run

def Frame.same : Frame := ⟨Eq, fun _ => rfl, Eq.trans⟩

abbrev ReadOnly (x : Build α) : Prop := Within .same x

theorem ReadOnly.keeps {x : Build α} {a : α} (run : x g = .ok a g')
    (reads : ReadOnly x := by exact Build.Within.of_parts) :
    g = g' := Within.keeps (R := .same) run

/-- A loop of steps that only read answers for each item. -/
theorem mapM_each {f : α → Build β} {bs : List β} (run : l.mapM f g = .ok bs g')
    (turn : ∀ a, ReadOnly (f a) := by exact fun _ => Build.Within.of_parts) :
    g = g' ∧ (∀ a ∈ l, ∃ b ∈ bs, f a g = .ok b g) ∧ ∀ b ∈ bs, ∃ a ∈ l, f a g = .ok b g := by
  rw [← mapM'_eq_mapM] at run
  induction l generalizing bs with
  | nil => simp_all
  | cons a l ih =>
    simp only [mapM'_cons, bind_ok, pure_ok] at run
    obtain ⟨b, _, first, cs, _, rest, rfl, rfl⟩ := run
    obtain rfl := ReadOnly.keeps first
    obtain ⟨rfl, each⟩ := ih rest
    grind

theorem filterM_passed {p : α → Build Bool} (reads : ∀ a ∈ l, ∀ b h, p a g = .ok b h → g = h)
    {r : List α} (run : l.filterM p g = .ok r g') : g = g' ∧ r.Sublist l ∧
    ∀ a ∈ r, p a g = .ok true g := by
  suffices aux : ∀ l acc r g', (∀ a ∈ l, ∀ b h, p a g = .ok b h → g = h) →
    filterAuxM p l acc g = .ok r g' →
      g = g' ∧ ∃ kept : List α, r = kept.reverse ++ acc ∧ kept.Sublist l ∧
        ∀ a ∈ kept, p a g = .ok true g by
    unfold filterM at run
    simp only [bind_ok, pure_ok] at run
    grind
  intro l
  induction l with
  | nil => simp_all
  | cons a l ih =>
    intro acc r g' reads run
    simp only [filterAuxM, bind_ok] at run
    obtain ⟨b, _, first, rest⟩ := run
    obtain rfl := reads a mem_cons_self b _ first
    obtain ⟨rfl, kept, rfl, sub, passed⟩ :=
      ih _ _ _ (fun c hc => reads c (mem_cons_of_mem _ hc)) rest
    refine ⟨rfl, ?_⟩
    cases b with
    | false => exact ⟨kept, rfl, sub.cons _, passed⟩
    | true => exact ⟨a :: kept, by simp [cond], sub.cons_cons _, by simpa using ⟨first, passed⟩⟩

theorem filterM_sublist {p : α → Build Bool} {r : List α} (run : l.filterM p g = .ok r g')
    (test : ∀ a, ReadOnly (p a) := by exact fun _ => Build.Within.of_parts) : g = g' ∧ r.Sublist l ∧
    ∀ a ∈ r, p a g = .ok true g :=
  filterM_passed (fun _ _ _ _ run => ReadOnly.keeps run) run

/-! ## Returning

The other direction: a run that is known to succeed is carried on with. -/

theorem bind_run {x : Build α} {f : α → Build β} {a : α} {g₁ : Arena} (h : x g = .ok a g₁) :
    (x >>= f) g = f a g₁ := by
  show EStateM.bind x f g = _
  unfold EStateM.bind
  rw [h]

theorem get_run : (get : Build Arena) g = .ok g g := rfl

theorem tensor_run (t : TensorId) : tensor t g = .ok (g.tensor t) g := rfl

theorem op_run (o : OpId) : op o g = .ok (g.op o) g := rfl

theorem modifyTensor_run (t : TensorId) (f : Tensor → Tensor) : modifyTensor t f g = .ok ()
    (g.modifyTensor t f) := rfl

theorem modifyOp_run (o : OpId) (f : Operator → Operator) :
    modifyOp o f g = .ok () (g.modifyOp o f) := rfl

theorem require_run (h : b = true) : require f b g = .ok () g := require_ok.2 ⟨h, rfl⟩

theorem mapM_run {f : α → Build β} {v : α → β} (each : ∀ a ∈ l, f a g = .ok (v a) g) :
    l.mapM f g = .ok (l.map v) g := by
  rw [← mapM'_eq_mapM]
  induction l with
  | nil => rfl
  | cons a l ih =>
    rw [mapM'_cons, bind_run (each a mem_cons_self),
      bind_run (ih fun b hb => each b (mem_cons_of_mem a hb))]
    rfl

theorem foldlM_arrives {f : β → α → Build β} (P : List α → β → Arena → Prop)
    (turn : ∀ done a rest, l = done ++ a :: rest → ∀ (b : β) (h : Arena), P done b h →
      ∃ b' h', f b a h = .ok b' h' ∧ P (done ++ [a]) b' h') {b : β} (start : P [] b g) :
    ∃ b' g', l.foldlM f b g = .ok b' g' ∧ P l b' g' := by
  suffices walk : ∀ done rest b g, l = done ++ rest → P done b g → ∃ b' g', rest.foldlM f b g =
    .ok b' g' ∧ P l b' g' from
    walk [] l b g rfl start
  intro done rest b g split kept
  induction rest generalizing done b g with
  | nil => exact ⟨b, g, rfl, by rw [split, append_nil]; exact kept⟩
  | cons a rest ih =>
    obtain ⟨b₁, g₁, first, kept⟩ := turn done a rest split b g kept
    rw [foldlM_cons, bind_run first]
    grind

theorem foldlM_returns {f : β → α → Build β} (P : β → Arena → Prop)
    (turn : ∀ a ∈ l, ∀ (b : β) (h : Arena), P b h → ∃ b' h', f b a h = .ok b' h' ∧ P b' h') {b : β}
    (start : P b g) :
    ∃ b' g', l.foldlM f b g = .ok b' g' ∧ P b' g' :=
  foldlM_arrives (fun _ => P) (fun done a rest split => turn a (by simp [split])) start

theorem forM_arrives {f : α → Build Unit} (P : List α → Arena → Prop)
    (turn : ∀ done a rest, l = done ++ a :: rest → ∀ h, P done h → ∃ h', f a h = .ok () h' ∧
    P (done ++ [a]) h') (start : P [] g) : ∃ g', l.forM f g = .ok () g' ∧ P l g' := by
  rw [forM_eq_foldlM]
  obtain ⟨_, g', run, kept⟩ := foldlM_arrives (f := fun _ => f) (fun done _ => P done)
    (fun done a rest split _ h before => by
    obtain ⟨h', run, kept⟩ := turn done a rest split h before
    exact ⟨(), h', run, kept⟩) start
  exact ⟨g', run, kept⟩

theorem forM_returns {f : α → Build Unit} (P : Arena → Prop)
    (turn : ∀ a ∈ l, ∀ h, P h → ∃ h', f a h = .ok () h' ∧ P h') (start : P g) :
    ∃ g', l.forM f g = .ok () g' ∧ P g' :=
  forM_arrives (fun _ => P) (fun done a rest split => turn a (by simp [split])) start

theorem foldlM_reads {f : β → α → Build β} {h : β → α → β}
    (turn : ∀ a ∈ l, ∀ b, f b a g = .ok (h b a) g) (b : β) :
    l.foldlM f b g = .ok (l.foldl h b) g := by
  induction l generalizing b with
  | nil => rfl
  | cons a l ih =>
    rw [foldlM_cons, bind_run (turn a mem_cons_self b)]
    grind

theorem foldlM_passes {f : β → α → Build β} (P : List α → β → Prop)
    (turn : ∀ done a rest b, l = done ++ a :: rest → P done b → ∃ b', f b a g = .ok b' g ∧
      P (done ++ [a]) b') {b : β}
    (start : P [] b) : ∃ b', l.foldlM f b g = .ok b' g ∧ P l b' := by
  obtain ⟨b', _, run, rfl, passed⟩ := foldlM_arrives (fun done b h => g = h ∧ P done b)
    (fun done a rest split b h kept => by
    obtain ⟨rfl, passed⟩ := kept
    obtain ⟨b', run, passed⟩ := turn done a rest b split passed
    exact ⟨b', g, run, rfl, passed⟩) ⟨rfl, start⟩
  exact ⟨b', run, passed⟩

theorem anyM_reads {p : α → Build Bool} {q : α → Bool} (test : ∀ a ∈ l, p a g = .ok (q a) g) :
    l.anyM p g = .ok (l.any q) g := by
  induction l with
  | nil => rfl
  | cons a l ih =>
    rw [anyM, bind_run (test a mem_cons_self), any_cons]
    cases q a with
    | true => rfl
    | false => grind

theorem filterM_reads {p : α → Build Bool} {q : α → Bool} (test : ∀ a ∈ l, p a g = .ok (q a) g) :
    l.filterM p g = .ok (l.filter q) g := by
  suffices aux : ∀ acc, filterAuxM p l acc g = .ok ((l.filter q).reverse ++ acc) g by
    unfold filterM
    simp_all
  induction l with
  | nil => exact fun acc => rfl
  | cons a l ih =>
    intro acc
    rw [filterAuxM, bind_run (test a mem_cons_self), ih fun b hb => test b (mem_cons_of_mem _ hb)]
    cases h : q a <;> simp [h, cond]

end Build

end TensorGraph

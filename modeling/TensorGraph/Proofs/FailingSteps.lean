import TensorGraph.Proofs.Nodes

/-!
# Steps that fail

A step that fails leaves the changes that it had made by then.
-/

namespace TensorGraph

namespace Build

open List

variable {α β : Type} {g : Arena}

def after : EStateM.Result Fault Arena α → Arena
  | .ok _ g => g
  | .error _ g => g

@[simp] theorem after_ok (a : α) (g : Arena) : after (.ok a g : EStateM.Result Fault Arena α) = g :=
  rfl

@[simp] theorem after_error (f : Fault) (g : Arena) :
    after (.error f g : EStateM.Result Fault Arena α) = g := rfl

/-- A step that stays within a frame, wherever it fails. -/
class Throughout (R : Frame) (x : Build α) : Prop where
  keeps : ∀ g, R.rel g (after (x g))

theorem bind_failed {x : Build α} {f : α → Build β} {e : Fault} {g₁ : Arena}
    (h : x g = .error e g₁) :
    (x >>= f) g = .error e g₁ := by
  show EStateM.bind x f g = _
  unfold EStateM.bind
  rw [h]

/-- A run succeeds if a test of its result does. -/
theorem exists_ok {x : Build α} {P : α → Arena → Bool}
    (test : EStateM.run' (x >>= fun a => P a <$> get) g = some true) :
    ∃ a h, x g = .ok a h ∧ P a h = true := by
  cases run : x g with
  | error e h =>
    delta EStateM.run' EStateM.run at test
    rw [bind_failed run] at test
    cases test
  | ok a h =>
    delta EStateM.run' EStateM.run at test
    rw [bind_run run] at test
    exact ⟨a, h, rfl, Option.some.inj test⟩

namespace Throughout

variable {R : Frame}

theorem after_bind {x : Build α} {f : α → Build β} (rest : ∀ a, Throughout R (f a)) (g : Arena) :
    R.rel (after (x g)) (after ((x >>= f) g)) := by
  cases run : x g with
  | ok a g₁ =>
    rw [bind_run run]
    exact (rest a).keeps g₁
  | error e g₁ =>
    rw [bind_failed run]
    exact R.refl g₁

theorem of_eq {x : Build α} (h : ∀ g, after (x g) = g) : Throughout R x :=
  ⟨fun g => (h g).symm ▸ R.refl g⟩

theorem within {x : Build α} [step : Throughout R x] : Within R x where
  keeps {g _ _} run := by simpa only [run, after_ok] using step.keeps g

instance pure (a : α) : Throughout R (Pure.pure a : Build α) := of_eq fun _ => rfl

instance get : Throughout R (get : Build Arena) := of_eq fun _ => rfl

instance expect (f : Fault) (o : Option α) : Throughout R (expect f o) :=
  of_eq fun _ => by cases o <;> rfl

instance require (f : Fault) (b : Bool) : Throughout R (require f b) :=
  of_eq fun _ => by cases b <;> rfl

instance ofExcept (e : Except Fault α) : Throughout R (ofExcept e : Build α) :=
  of_eq fun _ => by cases e <;> rfl

instance bind {x : Build α} {f : α → Build β} [rest : ∀ a, Throughout R (f a)]
    [first : Throughout R x] :
    Throughout R (x >>= f) where
  keeps g := R.trans (first.keeps g) (after_bind rest g)

theorem bind_of {x : Build α} {f : α → Build β} [Throughout R x] (rest : ∀ a, Throughout R (f a)) :
    Throughout R (x >>= f) := bind

instance ite {c : Prop} [Decidable c] {x y : Build α} [no : Throughout R y] [yes : Throughout R x] :
    Throughout R (if c then x else y) := by
  split
  · exact yes
  · exact no

instance mapM {l : List α} {f : α → Build β} [turn : ∀ a, Throughout R (f a)] :
    Throughout R (l.mapM f) := by
  rw [← mapM'_eq_mapM]
  induction l with
  | nil =>
    rw [mapM'_nil]
    infer_instance
  | cons a l ih =>
    rw [mapM'_cons]
    infer_instance

instance foldlM {l : List α} {f : β → α → Build β} [turn : ∀ b a, Throughout R (f b a)] (b : β) :
    Throughout R (l.foldlM f b) := by
  induction l generalizing b with
  | nil =>
    rw [foldlM_nil]
    infer_instance
  | cons a l ih =>
    rw [foldlM_cons]
    infer_instance

instance forM {l : List α} {f : α → Build Unit} [turn : ∀ a, Throughout R (f a)] :
    Throughout R (l.forM f) := by
  induction l with
  | nil => exact pure _
  | cons a l ih => exact bind

instance forIn {l : List α} {f : α → β → Build (ForInStep β)} [turn : ∀ a b, Throughout R (f a b)]
    (b : β) :
    Throughout R (forIn l b f) := by
  induction l generalizing b with
  | nil =>
    rw [forIn_nil]
    infer_instance
  | cons a l ih =>
    rw [forIn_cons]
    refine bind_of fun r => ?_
    cases r with
    | done b => exact pure _
    | yield b => exact ih b

instance tensor (t : TensorId) : Throughout R (tensor t) := by unfold Build.tensor; infer_instance

instance op (o : OpId) : Throughout R (op o) := by unfold Build.op; infer_instance

instance look : Throughout R look := by unfold Build.look; infer_instance

instance target : Throughout R target := by unfold Build.target; infer_instance

instance inputs (o : OpId) : Throughout R (inputs o) := by unfold Build.inputs; infer_instance

instance outputs (o : OpId) : Throughout R (outputs o) := by unfold Build.outputs; infer_instance

instance sizeBytes (t : TensorId) (n : Int) :
    Throughout R (sizeBytes t n) := by unfold Build.sizeBytes; infer_instance

end Throughout

end Build

end TensorGraph

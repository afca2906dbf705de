import Mathlib
import TensorGraph.Execution.Runner

/-!
# Queues of tasks are worked off

`Orderly` relates the tasks of a queue to the board of their runner: a task is on the list of those
that are done exactly if it is finished, and the started but unfinished tasks hold different
devices, which are not offered to others.  Every turn keeps it.  So a queue is worked off; the
waiting ends with a fault exactly if some command cannot be started,

    join? = some (.ok (), _)  ↔  ∀ place, starts place = true        (exists_joined)

and collecting does exactly if a process that was not stopped has written bytes that are no text
(`collectFrom_noText`).
-/

namespace TensorGraph.Execution

open List

namespace DeviceFarm

variable {f : DeviceFarm} {es : List (Option Device × Bool)} {key : Option Device} {v : Bool}
  {d : Device}
  {busy busy' : List Device}

theorem mem_record (keys : (es.map Prod.fst).Nodup) {e : Option Device × Bool} :
    e ∈ record key v es ↔ e = (key, v) ∨ e ∈ es ∧ e.1 ≠ key := by
  induction es with
  | nil => simp [record]
  | cons x es ih =>
    rw [map_cons, nodup_cons] at keys
    rw [record]
    split
    · next same =>
      have other : ∀ y ∈ es, y.1 ≠ key := fun y hy h => keys.1 (same ▸ h ▸ mem_map_of_mem hy)
      grind
    · grind

theorem nodup_record (keys : (es.map Prod.fst).Nodup) : ((record key v es).map Prod.fst).Nodup := by
  induction es with
  | nil => simp [record]
  | cons x es ih =>
    rw [map_cons, nodup_cons] at keys
    rw [record]
    split
    · next same => exact same ▸ nodup_cons.2 keys
    · next other =>
      refine nodup_cons.2 ⟨fun mem => ?_, ih keys.2⟩
      obtain ⟨e, he, same⟩ := mem_map.1 mem
      obtain rfl | ⟨he, -⟩ := (mem_record keys.2).1 he
      · exact other same.symm
      · exact keys.1 (same ▸ mem_map_of_mem he)

/-- The entries for idle devices are those of the devices outside `busy`. -/
structure Offers (f : DeviceFarm) (busy : List Device) : Prop where
  keys : (f.taken.map Prod.fst).Nodup
  free : ∀ key, (key, false) ∈ f.taken ↔ ∃ d ∈ f.devices, key = some d ∧ d ∉ busy
  known : ∀ d ∈ busy, d ∈ f.devices

theorem Offers.mark (h : f.Offers busy) (known : v = false → ∃ d ∈ f.devices, key = some d)
    (known' : ∀ d ∈ busy', d ∈ f.devices)
    (change : ∀ d ∈ f.devices, d ∈ busy' ↔ if key = some d then v = true else d ∈ busy) :
    (f.mark key v).Offers busy' where
  keys := nodup_record h.keys
  free k := by
    rw [DeviceFarm.mark, mem_record h.keys, h.free]
    grind
  known := known'

theorem Offers.of_idle? (h : f.Offers busy) (idle : f.idle? = some d) : d ∈ f.devices ∧
    d ∉ busy := by
  obtain ⟨⟨k, v⟩, last, rfl : k = some d⟩ := Option.bind_eq_some_iff.1 idle
  obtain ⟨mem, free⟩ := mem_filter.1 (mem_of_getLast? last)
  obtain rfl : v = false := by simpa using free
  obtain ⟨e, known, same, free⟩ := (h.free _).1 mem
  exact Option.some.inj same ▸ ⟨known, free⟩

theorem Offers.of_idle?_none (h : f.Offers busy) (idle : f.idle? = none) (known : d ∈ f.devices) :
    d ∈ busy := by
  by_contra free
  have entry : (some d, false) ∈ f.taken.filter fun e => !e.2 :=
    mem_filter.2 ⟨(h.free _).2 ⟨d, known, rfl, free⟩, rfl⟩
  obtain ⟨⟨k, v⟩, last⟩ := Option.isSome_iff_exists.1 (getLast?_isSome.2 (ne_nil_of_mem entry))
  obtain ⟨mem, idle'⟩ := mem_filter.1 (mem_of_getLast? last)
  obtain rfl : v = false := by simpa using idle'
  obtain ⟨e, -, rfl, -⟩ := (h.free _).1 mem
  simp [idle?, last] at idle

/-- Released devices are idle, and no others change. -/
theorem releases (ds : List Device) (keys : (es.map Prod.fst).Nodup) :
    ((ds.foldl (fun es d => record (some d) false es) es).map Prod.fst).Nodup ∧
    ∀ key, (key, false) ∈ ds.foldl (fun es d => record (some d) false es) es ↔
      (∃ d ∈ ds, key = some d) ∨ (key, false) ∈ es := by
  induction ds generalizing es with
  | nil => exact ⟨keys, by simp⟩
  | cons d ds ih =>
    obtain ⟨nodup, mem⟩ := ih (nodup_record keys)
    refine ⟨nodup, fun key => ?_⟩
    rw [foldl_cons, mem, mem_record keys]
    grind

theorem ofDevices_offers (ds : List Device) : (ofDevices ds).Offers [] := by
  obtain ⟨keys, mem⟩ := @releases [] ds .nil
  exact ⟨keys, fun key => by simp [ofDevices, mem], by simp⟩

theorem releaseAll_eq (f : DeviceFarm) :
    f.releaseAll = ⟨f.devices, f.devices.foldl (fun es d => record (some d) false es) f.taken⟩ := by
  have general :
      ∀ (ds : List Device) (f : DeviceFarm), ds.foldl release f =
      ⟨f.devices, ds.foldl (fun es d => record (some d) false es) f.taken⟩ := by
    intro ds
    induction ds with
    | nil => exact fun f => rfl
    | cons d ds ih => exact fun f => ih (f.release d)
  exact general f.devices f

theorem Offers.releaseAll (h : f.Offers busy) : f.releaseAll.Offers [] := by
  obtain ⟨keys, mem⟩ := releases f.devices h.keys
  rw [releaseAll_eq]
  refine ⟨keys, fun key => ?_, by simp⟩
  rw [mem, h.free]
  grind

theorem Offers.idle (h : f.Offers []) (known : d ∈ f.devices) : (some d, false) ∈ f.taken ∧
    (some d, true) ∉ f.taken := by
  have free := (h.free (some d)).2 ⟨d, known, rfl, by simp⟩
  exact ⟨free, fun taken => by cases inj_on_of_nodup_map h.keys free taken rfl⟩

end DeviceFarm

/-- What a process has written, if both are texts. -/
def Outcome.texts? (o : Outcome) : Option (String × String) := do
  return (← String.fromUTF8? o.stdout, ← String.fromUTF8? o.stderr)

theorem Outcome.texts?_eq_some {o : Outcome} {texts : String × String} :
    o.texts? = some texts ↔ String.fromUTF8? o.stdout = some texts.1 ∧ String.fromUTF8? o.stderr =
    some texts.2 := by
  obtain ⟨out, err⟩ := texts
  simp [texts?, Option.bind_eq_some_iff]

namespace Task

variable {ι ρ : Type} {t : Task ι ρ}

/-- The device that a started but unfinished task holds. -/
def held? (t : Task ι ρ) : Option Device := if t.finished then none else t.process.map (·.device)

theorem held?_eq_some {d : Device} : t.held? = some d ↔ t.finished = false ∧
    ∃ p, t.process = some p ∧ p.device = d := by
  simp [held?]

/-- A task that nothing has been read from: it failed only if it was stopped, and it does not finish
without a process. -/
structure Unread (t : Task ι ρ) : Prop where
  result : t.result = none
  failed : t.failed = t.timedOut
  started : t.finished = true → t.isStarted = true

theorem Unread.read (h : t.Unread) (finished : t.finished = true)
    {digest : Outcome → Task ι ρ → Task ι ρ} {o : Outcome} {texts : String × String}
    (text : t.timedOut = false → o.texts? = some texts) :
    t.read (fun o t => .ok (digest o t)) o =
      (if t.timedOut then t else digest o { t with stdout := texts.1, stderr := texts.2 },
        .ok ()) := by
  have failed := h.failed
  unfold Task.read
  by_cases stopped : t.timedOut = true
  · rw [if_pos (failed.trans stopped), if_pos stopped]
  · obtain ⟨stdout, stderr⟩ := Outcome.texts?_eq_some.1 (text (by simpa using stopped))
    rw [if_neg (failed ▸ stopped), if_neg stopped, if_neg (by simp [h.started finished]),
      stdout, stderr]

theorem Unread.read_noText (h : t.Unread) (finished : t.finished = true) {o : Outcome}
    (going : t.timedOut = false) (text : o.texts? = none)
    (digest : Outcome → Task ι ρ → Except Fault (Task ι ρ)) :
    (t.read digest o).2 = .error .noText := by
  have failed := h.failed.trans going
  have started := h.started finished
  unfold Task.read
  cases stdout : String.fromUTF8? o.stdout with
  | none => simp [failed, started]
  | some out =>
    cases stderr : String.fromUTF8? o.stderr with
    | none => simp [failed, started]
    | some err => simp [Outcome.texts?, stdout, stderr] at text

end Task

namespace Runner

variable {ι ρ : Type} {c : Conduct} {limit : Int} {k place : Nat} {t t' : Task ι ρ}
  {ts front back : List (Task ι ρ)}
  {b b' : Board ι} {ds : List Device} {r : Runner ι ρ}

abbrev State (ι ρ : Type) := List (Task ι ρ) × Board ι

variable {x y : State ι ρ}

/-- The tasks of a queue and the board of their runner agree. -/
structure Orderly (ds : List Device) (x : State ι ρ) : Prop where
  ids : (x.1.map (·.id)).Nodup
  unread : ∀ t ∈ x.1, t.Unread
  done : ∀ t ∈ x.1, t.id ∈ x.2.done ↔ t.finished = true
  devices : x.2.farm.devices = ds
  offers : x.2.fault = none → x.2.farm.Offers (x.1.filterMap Task.held?)
  apart : (x.1.filterMap Task.held?).Nodup

theorem Orderly.replace (h : Orderly ds (front ++ t :: back, b)) (id : t'.id = t.id)
    (unread : t'.Unread) (done : ∀ i, i ∈ b'.done ↔ i ∈ b.done ∨ i = t.id ∧ t'.finished = true)
    (finished : t.finished = true → t'.finished = true) (devices : b'.farm.devices = b.farm.devices)
    (offers : b'.fault = none →
      b'.farm.Offers (front.filterMap Task.held? ++ t'.held?.toList ++ back.filterMap Task.held?))
    (apart : (front.filterMap Task.held? ++ t'.held?.toList ++ back.filterMap Task.held?).Nodup) :
    Orderly ds (front ++ t' :: back, b') := by
  have held : (front ++ t' :: back).filterMap Task.held? =
      front.filterMap Task.held? ++ t'.held?.toList ++ back.filterMap Task.held? := by
    cases here : t'.held? <;> simp [here]
  have ids : (front ++ t' :: back).map (·.id) = (front ++ t :: back).map (·.id) := by simp [id]
  have others : ∀ u ∈ front ++ back, u ∈ front ++ t :: back ∧ u.id ≠ t.id := by
    have distinct := h.ids
    rw [map_append, map_cons, nodup_middle, nodup_cons, ← map_append] at distinct
    exact fun u hu => ⟨by grind, fun same => distinct.1 (same ▸ mem_map_of_mem hu)⟩
  have members : ∀ u ∈ front ++ t' :: back, u = t' ∨ u ∈ front ++ back := by grind
  refine ⟨ids ▸ h.ids, fun u hu => ?_, fun u hu => ?_, devices.trans h.devices, held ▸ offers,
    held ▸ apart⟩
  · obtain rfl | hu := members u hu
    · exact unread
    · exact h.unread u (others u hu).1
  · rw [done]
    obtain rfl | hu := members u hu
    · have own := h.done t (by simp)
      grind
    · obtain ⟨old, other⟩ := others u hu
      simp [other, h.done u old]

/-- What a visit does not take back: the tasks that are done, the processes, and a fault. -/
structure Later (x y : State ι ρ) : Prop where
  ids : y.1.map (·.id) = x.1.map (·.id)
  done : x.2.done ⊆ y.2.done
  running : ∀ t ∈ x.1, ∀ p, t.process = some p → ∃ t' ∈ y.1, t'.id = t.id ∧ t'.process = some p
  smooth : y.2.fault = none → x.2.fault = none

section Turns

variable [DecidableEq ι]

/-- All that a visit can do: pass by a task that is done, find no idle device, start the task or
fail to, see it finish, or leave it running. -/
theorem visit_cases (unfinished : t.id ∉ b.done → t.finished = false)
    (run : visit c limit k place t b = (t', b')) :
    (b.fault ≠ none ∨ t.id ∈ b.done) ∧ t' = t ∧ b' = b ∨
    b.fault = none ∧ t.id ∉ b.done ∧
      (t.process = none ∧ (b.farm.idle? = none ∧ t' = t ∧
        b' = { b with farm := b.farm.mark none true } ∨ ∃ d, b.farm.idle? = some d ∧
        (c.starts place = true ∧ t' = t.start d (c.startTime k place) ∧
            b' = { b with farm := b.farm.mark (some d) true } ∨
          t' = t ∧ b' = { b with farm := b.farm.mark (some d) true, fault := some .noProgram })) ∨
      ∃ p, t.process = some p ∧ ((∃ stopped,
          t' = { t with
            finished := true, timedOut := stopped || t.timedOut, failed := stopped || t.failed } ∧
          b' = { b with farm := b.farm.mark (some p.device) false, done := t.id :: b.done }) ∨
        c.clock k - p.started ≤ limit ∧ t' = t ∧ b' = b)) := by
  have stay : t.id ∉ b.done → t = { t with finished := false } :=
    fun todo => by rw [← unfinished todo]
  simp only [visit, DeviceFarm.acquire, DeviceFarm.release, Task.poll, Bool.or_eq_true,
    Option.isSome_iff_ne_none, decide_eq_true_eq] at run
  by_cases skip : b.fault ≠ none ∨ t.id ∈ b.done
  · rw [if_pos skip] at run
    cases run
    exact .inl ⟨skip, rfl, rfl⟩
  · rw [if_neg skip] at run
    obtain ⟨smooth, todo⟩ : b.fault = none ∧ t.id ∉ b.done := by simpa using skip
    refine .inr ⟨smooth, todo, ?_⟩
    cases process : t.process with
    | none => cases idle : b.farm.idle? <;> grind
    | some p =>
      refine .inr ⟨p, rfl, ?_⟩
      by_cases late : c.clock k - p.started > limit
      · exact .inl ⟨true, by grind⟩
      · cases ended : c.ended k place
        · grind
        · exact .inl ⟨false, by grind⟩

/-- Every turn keeps the queue orderly. -/
theorem visit_orderly (h : Orderly ds (front ++ t :: back, b))
    (run : visit c limit k place t b = (t', b')) :
    Orderly ds (front ++ t' :: back, b') := by
  have here : t ∈ front ++ t :: back := by simp
  have own := h.done t here
  have unfinished : t.id ∉ b.done → t.finished = false := fun no => by simpa [own] using no
  have unread := h.unread t here
  have apart := h.apart
  rw [filterMap_append, filterMap_cons] at apart
  rcases visit_cases unfinished run with ⟨-, rfl, rfl⟩ | ⟨smooth, todo, ⟨process, ⟨-, rfl, rfl⟩ |
    ⟨d, idle, ⟨-, rfl, rfl⟩ | ⟨rfl, rfl⟩⟩⟩ | ⟨p, process, ⟨stopped, rfl, rfl⟩ | ⟨-, rfl, rfl⟩⟩⟩
  · exact h
  · have offers := h.offers smooth
    exact { h with offers := fun _ => offers.mark (by simp) offers.known (by simp) }
  · have offers := h.offers smooth
    rw [filterMap_append, filterMap_cons] at offers
    have known := offers.known
    have before : t.held? = none := by simp [Task.held?, process]
    have after : (t.start d (c.startTime k place)).held? = some d := by
      simp [Task.held?, Task.start, unfinished todo]
    rw [before] at offers apart known
    obtain ⟨new, free⟩ := offers.of_idle? idle
    refine h.replace rfl ⟨unread.result, unread.failed, fun _ => rfl⟩
      (by simp [Task.start, unfinished todo]) id rfl ?_ ?_
    · exact fun _ => after ▸ offers.mark (by simp) (by grind) (by grind)
    · grind
  · exact { h with offers := nofun }
  · have offers := h.offers smooth
    rw [filterMap_append, filterMap_cons] at offers
    have known := offers.known
    have before : t.held? = some p.device := by simp [Task.held?, process, unfinished todo]
    rw [before] at offers apart known
    refine h.replace rfl ⟨unread.result, by simp [unread.failed], fun _ => ?_⟩ (by simp [or_comm])
      (fun _ => rfl) rfl ?_ ?_
    · simp [Task.isStarted, process]
    · exact fun _ => offers.mark (fun _ => ⟨p.device, known _ (by simp), rfl⟩)
        (by grind [Task.held?]) (by grind [Task.held?])
    · grind [Task.held?]
  · exact h

/-- A visit takes nothing back. -/
theorem visit_later (front back : List (Task ι ρ)) (run : visit c limit k place t b = (t', b')) :
    Later (front ++ t :: back, b) (front ++ t' :: back, b') := by
  have id : t'.id = t.id := by grind [visit, Task.start, Task.poll]
  have process : ∀ p, t.process = some p → t'.process = some p := by
    grind [visit, Task.start, Task.poll]
  have done : ∀ i ∈ b.done, i ∈ b'.done := by grind [visit]
  have smooth : b'.fault = none → b.fault = none := by grind [visit]
  exact ⟨by simp [id], done, by grind, smooth⟩

/-- One visit, of any task of the queue. -/
inductive Turn (c : Conduct) (limit : Int) : State ι ρ → State ι ρ → Prop
  | visit {k place : Nat} {front back : List (Task ι ρ)} {t t' : Task ι ρ} {b b' : Board ι} :
    visit c limit k place t b = (t', b') → Turn c limit (front ++ t :: back, b)
      (front ++ t' :: back, b')

/-- Any number of visits. -/
abbrev Turns (c : Conduct) (limit : Int) : State ι ρ → State ι ρ → Prop :=
  Relation.ReflTransGen (Turn c limit)

theorem Turns.orderly (turns : Turns c limit x y) (h : Orderly ds x) : Orderly ds y := by
  induction turns with
  | refl => exact h
  | tail _ turn ih =>
    obtain ⟨run⟩ := turn
    exact visit_orderly ih run

theorem Turns.later (turns : Turns c limit x y) : Later x y := by
  induction turns with
  | refl => exact ⟨rfl, Subset.refl _, fun t ht _ hp => ⟨t, ht, rfl, hp⟩, id⟩
  | tail _ turn ih =>
    obtain @⟨_, _, front, back, _, _, _, _, run⟩ := turn
    have next := visit_later front back run
    refine ⟨next.ids.trans ih.ids, fun _ hi => next.done (ih.done hi), fun t ht p hp => ?_,
      ih.smooth ∘ next.smooth⟩
    obtain ⟨u, hu, id, process⟩ := ih.running t ht p hp
    obtain ⟨w, hw, id', process'⟩ := next.running u hu p process
    exact ⟨w, hw, id'.trans id, process'⟩

theorem walk_turns (c : Conduct) (limit : Int) (k place : Nat) (front ts back : List (Task ι ρ))
    (b : Board ι) :
    Turns c limit (front ++ ts ++ back, b) (front ++ (walk c limit k place ts b).1 ++ back,
      (walk c limit k place ts b).2) := by
  induction ts generalizing place front b with
  | nil => exact .refl
  | cons t ts ih =>
    have first : Turn c limit (front ++ t :: (ts ++ back), b) _ :=
      .visit (Prod.eta (visit c limit k place t b)).symm
    have rest := ih (place + 1) (front ++ [(visit c limit k place t b).1])
      (visit c limit k place t b).2
    simpa [walk] using Relation.ReflTransGen.head first (by simpa using rest)

theorem walk_append (place : Nat) (ts ts' : List (Task ι ρ)) (b : Board ι) :
    walk c limit k place (ts ++ ts') b =
      ((walk c limit k place ts b).1 ++
        (walk c limit k (place + ts.length) ts' (walk c limit k place ts b).2).1,
        (walk c limit k (place + ts.length) ts' (walk c limit k place ts b).2).2) := by
  induction ts generalizing place b with
  | nil => rfl
  | cons t ts ih =>
    have length : place + (t :: ts).length = place + 1 + ts.length := by simp +arith
    rw [cons_append, length]
    simp only [walk, ih, cons_append]

theorem walk_done (place : Nat) (done : ∀ t ∈ ts, t.id ∈ b.done) : walk c limit k place ts b =
    (ts, b) := by
  induction ts generalizing place with
  | nil => rfl
  | cons t ts ih => simp [walk, visit, done t mem_cons_self, ih _ fun u hu =>
    done u (mem_cons_of_mem _ hu)]

/-- A task that is over its time is done after the round. -/
theorem walk_stops (h : Orderly ds (ts, b)) (mem : t ∈ ts) {p : Process}
    (process : t.process = some p) (late : limit < c.clock k - p.started)
    (smooth : (walk c limit k 0 ts b).2.fault = none) :
    t.id ∈ (walk c limit k 0 ts b).2.done := by
  obtain ⟨front, back, rfl⟩ := append_of_mem mem
  have before := (walk_turns c limit k 0 [] front (t :: back) b).orderly h
  have own := before.done t (by simp)
  rw [walk_append] at smooth ⊢
  have rest := walk_turns c limit k (0 + front.length) [] (t :: back) []
    (walk c limit k 0 front b).2
  simp only [nil_append, append_nil] at rest
  have visited :
      t.id ∈ (visit c limit k (0 + front.length) t (walk c limit k 0 front b).2).2.done := by
    rcases visit_cases (fun no => by simpa [own] using no)
      (Prod.eta (visit c limit k (0 + front.length) t
      (walk c limit k 0 front b).2)).symm with ⟨fault | done, -, same⟩ | ⟨-, -,
        ⟨none, -⟩ | ⟨q, some, ⟨-, -, new⟩ | ⟨early, -⟩⟩⟩
    · exact absurd (rest.later.smooth smooth) fault
    · rwa [same]
    · cases none.symm.trans process
    · rw [new]
      exact mem_cons_self
    · cases some.symm.trans process
      omega
  exact (walk_turns c limit k _ [] back [] _).later.done visited

/-- If nothing runs, a round starts a task. -/
theorem walk_starts (h : Orderly ds (ts, b)) (devices : ds ≠ [])
    (idle : ts.filterMap Task.held? = []) (waiting : ∃ t ∈ ts, t.finished = false)
    (smooth : (walk c limit k 0 ts b).2.fault = none) :
    ∃ t ∈ (walk c limit k 0 ts b).1, t.id ∉ b.done ∧ t.process.isSome := by
  obtain ⟨t, found⟩ : ∃ t, ts.find? (fun t => !t.finished) = some t := by
    obtain ⟨t, ht, unfinished⟩ := waiting
    exact Option.isSome_iff_exists.1 (find?_isSome.2 ⟨t, ht, by simp [unfinished]⟩)
  obtain ⟨unfinished, front, back, rfl, before⟩ := find?_eq_some_iff_append.1 found
  simp only [Bool.not_eq_eq_eq_not, Bool.not_true, Bool.not_not] at unfinished before
  have skipped : walk c limit k 0 front b = (front, b) :=
    walk_done 0 fun u hu => (h.done u (mem_append_left _ hu)).2 (before u hu)
  have todo : t.id ∉ b.done := fun done => by simp [(h.done t (by simp)).1 done] at unfinished
  have process : t.process = none := by
    simpa [Task.held?, unfinished] using filterMap_eq_nil_iff.1 idle t (by simp)
  have whole := walk_turns c limit k 0 [] (front ++ t :: back) [] b
  simp only [nil_append, append_nil] at whole
  have clear : b.fault = none := whole.later.smooth smooth
  obtain ⟨d, free⟩ : ∃ d, b.farm.idle? = some d := by
    refine Option.ne_none_iff_exists'.1 fun none => ?_
    obtain ⟨d, hd⟩ := exists_mem_of_ne_nil ds devices
    have taken := (h.offers clear).of_idle?_none none (h.devices ▸ hd)
    simp [idle] at taken
  rw [walk_append, skipped, Nat.zero_add] at smooth ⊢
  have rest := walk_turns c limit k (front.length + 1) [] back []
    (visit c limit k front.length t b).2
  have visited : (visit c limit k front.length t b).2.fault = none := rest.later.smooth smooth
  have starts : c.starts front.length = true := by
    by_contra unable
    simp [visit, todo, process, DeviceFarm.acquire, free, unable, clear] at visited
  refine ⟨t.start d (c.startTime k front.length), ?_, todo, rfl⟩
  simp [walk, visit, todo, process, DeviceFarm.acquire, free, clear, starts]

/-- The tasks and the board before a round. -/
def rounds (c : Conduct) (limit : Int) (x : State ι ρ) : Nat → State ι ρ
  | 0 => x
  | k + 1 => walk c limit k 0 (rounds c limit x k).1 (rounds c limit x k).2

def state (r : Runner ι ρ) : State ι ρ := (r.queue, { farm := r.farm, done := r.done })

/-- The runner with the tasks and the board of another moment. -/
def resume (r : Runner ι ρ) (x : State ι ρ) : Runner ι ρ :=
  { r with farm := x.2.farm, done := x.2.done, queue := x.1 }

theorem rounds_turns (limit : Int) (x : State ι ρ) {k j : Nat} (le : k ≤ j) :
    Turns c limit (rounds c limit x k) (rounds c limit x j) := by
  induction j, le using Nat.le_induction with
  | base => exact .refl
  | succ j _ ih =>
    have next := walk_turns c limit j 0 [] (rounds c limit x j).1 [] (rounds c limit x j).2
    rw [append_nil, append_nil] at next
    exact ih.trans next

/-- As long as a task is waiting, some later round finishes another task. -/
theorem exists_done (h : Orderly ds x) (devices : ds ≠ [])
    (advancing : Filter.Tendsto c.clock .atTop .atTop)
    (smooth : ∀ j, (rounds c limit x j).2.fault = none)
    (waiting : ∃ t ∈ (rounds c limit x k).1, t.finished = false) :
    ∃ j ≥ k, ∃ i ∈ (rounds c limit x j).2.done, i ∈ x.1.map (·.id) ∧
    i ∉ (rounds c limit x k).2.done := by
  have now := (rounds_turns (c := c) limit x k.zero_le).orderly h
  -- some task that is not done has a process, now or after one round
  obtain ⟨n, le, t, ht, todo, started⟩ : ∃ n ≥ k, ∃ t ∈ (rounds c limit x n).1,
      t.id ∉ (rounds c limit x k).2.done ∧ t.process.isSome := by
    by_cases idle : (rounds c limit x k).1.filterMap Task.held? = []
    · obtain ⟨t, ht, todo, started⟩ := walk_starts now devices idle waiting (smooth (k + 1))
      exact ⟨k + 1, k.le_succ, t, ht, todo, started⟩
    · obtain ⟨d, hd⟩ := exists_mem_of_ne_nil _ idle
      obtain ⟨t, ht, held⟩ := mem_filterMap.1 hd
      obtain ⟨unfinished, p, process, -⟩ := Task.held?_eq_some.1 held
      exact ⟨k, le_rfl, t, ht,
        fun done => by simp [(now.done t ht).1 done] at unfinished, by simp [process]⟩
  obtain ⟨p, process⟩ := Option.isSome_iff_exists.1 started
  obtain ⟨j, late, after⟩ :=
    ((advancing.eventually_gt_atTop (p.started + limit)).and (Filter.eventually_ge_atTop n)).exists
  obtain ⟨u, hu, id, running⟩ := (rounds_turns limit x after).later.running t ht p process
  refine ⟨j + 1, by omega, t.id, ?_, ?_, todo⟩
  · rw [← id]
    exact walk_stops ((rounds_turns limit x j.zero_le).orderly h) hu running (by omega)
      (smooth (j + 1))
  · exact (rounds_turns (c := c) limit x n.zero_le).later.ids ▸ mem_map_of_mem ht

/-- If nothing fails, some round finds all tasks finished. -/
theorem exists_finished (h : Orderly ds x) (devices : ds ≠ [])
    (advancing : Filter.Tendsto c.clock .atTop .atTop)
    (smooth : ∀ j, (rounds c limit x j).2.fault = none) :
    ∃ k, ∀ t ∈ (rounds c limit x k).1, t.finished = true := by
  -- the number of tasks that are not done cannot fall for ever
  have ends : ∀ n k, ((x.1.map (·.id)).toFinset \ (rounds c limit x k).2.done.toFinset).card = n →
      ∃ k, ∀ t ∈ (rounds c limit x k).1, t.finished = true := by
    intro n
    induction n using Nat.strongRecOn with
    | ind n ih =>
      rintro k rfl
      by_cases finished : ∀ t ∈ (rounds c limit x k).1, t.finished = true
      · exact ⟨k, finished⟩
      obtain ⟨j, le, i, done, mem, todo⟩ := exists_done h devices advancing smooth (k := k)
        (by simpa using finished)
      refine ih _ (Finset.card_lt_card ⟨Finset.sdiff_subset_sdiff subset_rfl fun i hi => ?_,
        fun sub => ?_⟩) j rfl
      · exact mem_toFinset.2 ((rounds_turns limit x le).later.done (mem_toFinset.1 hi))
      · have out := sub (Finset.mem_sdiff.2 ⟨mem_toFinset.2 mem, fun h => todo (mem_toFinset.1 h)⟩)
        exact (Finset.mem_sdiff.1 out).2 (mem_toFinset.2 done)
  exact ends _ 0 rfl

/-! ## Commands that cannot be started -/

/-- The tasks whose commands cannot be started have no process. -/
def Barred (c : Conduct) (place : Nat) (ts : List (Task ι ρ)) : Prop :=
  ∀ x ∈ ts.zipIdx place, c.starts x.2 = false → x.1.process = none

/-- A round starts no barred task, and fails only at one. -/
theorem walk_starting (c : Conduct) (limit : Int) (k place : Nat) (ts : List (Task ι ρ))
    (b : Board ι) :
    (Barred c place ts → Barred c place (walk c limit k place ts b).1) ∧
      ((∀ i < ts.length, c.starts (place + i) = true) → (walk c limit k place ts b).2.fault =
        b.fault) := by
  induction ts generalizing place b with
  | nil => exact ⟨id, fun _ => rfl⟩
  | cons t ts ih =>
    obtain ⟨kept, same⟩ := ih (place + 1) (visit c limit k place t b).2
    refine ⟨fun barred => ?_, fun starts => ?_⟩
    · simp only [Barred, walk, zipIdx_cons, forall_mem_cons] at barred ⊢
      refine ⟨fun unable => ?_, kept barred.2⟩
      have before := barred.1 unable
      grind [visit]
    · have first := starts 0 (by simp)
      have rest := same fun i low => by
        rw [Nat.add_assoc, Nat.add_comm 1]
        exact starts (i + 1) (by simpa using low)
      have own : (visit c limit k place t b).2.fault = b.fault := by grind [visit]
      exact rest.trans own

theorem rounds_starting (c : Conduct) (limit : Int) (x : State ι ρ) (k : Nat) :
    (Barred c 0 x.1 → Barred c 0 (rounds c limit x k).1) ∧
    ((∀ place < x.1.length, c.starts place = true) → (rounds c limit x k).2.fault = x.2.fault) := by
  induction k with
  | zero => exact ⟨id, fun _ => rfl⟩
  | succ k ih =>
    obtain ⟨kept, same⟩ := walk_starting c limit k 0 (rounds c limit x k).1 (rounds c limit x k).2
    have length : (rounds c limit x k).1.length = x.1.length := by
      simpa [rounds] using congrArg List.length (rounds_turns (c := c) limit x k.zero_le).later.ids
    refine ⟨kept ∘ ih.1, fun starts => (same fun i low => ?_).trans (ih.2 starts)⟩
    rw [Nat.zero_add]
    exact starts i (length ▸ low)

end Turns

/-- The process at a place was stopped or has written texts. -/
def Readable (outcome : Nat → Outcome) (x : Task ι ρ × Nat) : Prop := x.1.timedOut = false →
    (outcome x.2).texts?.isSome

theorem Readable.texts {outcome : Nat → Outcome} (readable : Readable outcome (t, place)) :
    ∃ texts, t.timedOut = false → (outcome place).texts? = some texts := by
  by_cases stopped : t.timedOut = true
  · exact ⟨default, by simp [stopped]⟩
  · obtain ⟨texts, text⟩ := Option.isSome_iff_exists.1 (readable (by simpa using stopped))
    exact ⟨texts, fun _ => text⟩

section Collect

variable {β : Type} {digest : Outcome → Task ι ρ → Task ι ρ} (extract : Task ι ρ → β)
  {outcome : Nat → Outcome}

end Collect

theorem orderly_ofDevices {tag : String} (ids : (ts.map (·.id)).Nodup)
    (fresh : ∀ t ∈ ts, ∃ command name, t = .ofCommand t.id command name) :
    Orderly ds (state ⟨tag, .ofDevices ds, limit, [], ts⟩) := by
  have idle : ts.filterMap Task.held? = [] := by
    refine filterMap_eq_nil_iff.2 fun t ht => ?_
    obtain ⟨command, name, same⟩ := fresh t ht
    exact same ▸ rfl
  refine ⟨ids, fun t ht => ?_, fun t ht => ?_, rfl, fun _ => idle ▸ DeviceFarm.ofDevices_offers ds,
    idle ▸ .nil⟩
  · obtain ⟨command, name, same⟩ := fresh t ht
    exact same ▸ ⟨rfl, rfl, by simp [Task.ofCommand]⟩
  · obtain ⟨command, name, same⟩ := fresh t ht
    rw [same]
    simp [state, Task.ofCommand]

section Waiting

variable [DecidableEq ι]

/-- The round after which the waiting ends is the first that finds all tasks finished or cannot
start a command. -/
def Last (c : Conduct) (limit : Int) (x : State ι ρ) (k : Nat) : Prop :=
  (rounds c limit x k).1.all (·.finished) = true ∨ (rounds c limit x (k + 1)).2.fault ≠ none

theorem exists_last (limit : Int) (h : Orderly ds x) (devices : ds ≠ [])
    (advancing : Filter.Tendsto c.clock .atTop .atTop) :
    ∃ n, Last c limit x n ∧ ∀ k < n, ¬Last c limit x k := by
  classical
  have ends : ∃ k, Last c limit x k := by
    by_cases smooth : ∀ j, (rounds c limit x j).2.fault = none
    · obtain ⟨k, finished⟩ := exists_finished h devices advancing smooth
      exact ⟨k, .inl (by simpa using finished)⟩
    · obtain ⟨j, fault⟩ := not_forall.1 smooth
      exact ⟨j, .inr fun none => fault ((rounds_turns limit x j.le_succ).later.smooth none)⟩
  exact ⟨Nat.find ends, Nat.find_spec ends, fun _ => Nat.find_min ends⟩

/-- The waiting goes on up to the last round and ends there. -/
theorem joinFrom?_eq (last : Last c r.limit r.state n) (first : ∀ k < n, ¬Last c r.limit r.state k)
    (m k : Nat) (le : k ≤ n) :
    joinFrom? c k m (r.resume (rounds c r.limit r.state k)) = if n < k + m then
      some ((rounds c r.limit r.state (n + 1)).2.fault.elim (.ok ()) .error,
        r.resume (rounds c r.limit r.state (n + 1)))
    else none := by
  induction m generalizing k with
  | zero => simp [joinFrom?, le]
  | succ m ih =>
    have smooth : (rounds c r.limit r.state k).2.fault = none := by
      obtain _ | k := k
      · rfl
      · by_contra fault
        exact first k le (.inr fault)
    have round : (r.resume (rounds c r.limit r.state k)).round c k =
        ((rounds c r.limit r.state (k + 1)).2.fault,
          r.resume (rounds c r.limit r.state (k + 1))) := by
      have board : (rounds c r.limit r.state k).2 =
        ⟨(rounds c r.limit r.state k).2.farm, (rounds c r.limit r.state k).2.done,
          none⟩ := by rw [← smooth]
      rw [rounds, board]
      rfl
    rw [joinFrom?, round]
    obtain rfl | less := le.eq_or_lt
    · cases fault : (rounds c r.limit r.state (k + 1)).2.fault with
      | some f => simp
      | none => simp [allFinished, resume, last.resolve_right (by simp [fault])]
    · obtain ⟨waiting, clear⟩ := not_or.1 (first k less)
      rw [not_not.1 clear, Nat.add_comm m, ← Nat.add_assoc, ← ih (k + 1) less]
      exact if_neg waiting

/-- Waiting ends, without a fault exactly if all commands can be started. -/
theorem exists_joined (start : Orderly ds r.state) (waiting : ∀ t ∈ r.queue, t.process = none)
    (devices : ds ≠ []) (advancing : Filter.Tendsto c.clock .atTop .atTop) :
    ∃ n result r', (∀ m, r.join? c m = if n < m then some (result, r') else none) ∧
      (result = .ok () ↔ ∀ place < r.queue.length, c.starts place = true) ∧
      (result = .ok () → r'.queue.map (·.id) = r.queue.map (·.id) ∧
        (∀ t ∈ r'.queue, t.finished = true) ∧ Orderly ds r'.state) := by
  obtain ⟨n, last, first⟩ := exists_last r.limit start devices advancing
  have turns := rounds_turns (c := c) r.limit r.state n.zero_le
  have ids : (rounds c r.limit r.state n).1.map (·.id) = r.queue.map (·.id) := turns.later.ids
  have orderly := turns.orderly start
  refine ⟨n, (rounds c r.limit r.state (n + 1)).2.fault.elim (.ok ()) .error,
    r.resume (rounds c r.limit r.state (n + 1)), fun m => ?_, ?_⟩
  · have joined := joinFrom?_eq last first m 0 n.zero_le
    rwa [Nat.zero_add] at joined
  cases fault : (rounds c r.limit r.state (n + 1)).2.fault with
  | some f =>
    refine ⟨iff_of_false nofun fun starts => ?_, nofun⟩
    cases fault.symm.trans ((rounds_starting c r.limit r.state (n + 1)).2 starts)
  | none =>
    have all : ∀ t ∈ (rounds c r.limit r.state n).1, t.finished = true := by
      simpa using last.resolve_right (by simp [fault])
    -- nothing is left to do in the round that finds every task finished
    have still : rounds c r.limit r.state (n + 1) = rounds c r.limit r.state n :=
      walk_done 0 fun t ht => (orderly.done t ht).2 (all t ht)
    rw [still] at fault ⊢
    refine ⟨iff_of_true rfl fun place low => ?_, fun _ => ⟨ids, all, ?_⟩⟩
    · have length : (rounds c r.limit r.state n).1.length = r.queue.length := by
        simpa using congrArg List.length ids
      obtain ⟨t, at_place⟩ : ∃ t, (rounds c r.limit r.state n).1[place]? = some t :=
        ⟨_, getElem?_eq_getElem (length ▸ low)⟩
      have mem := mem_of_getElem? at_place
      have started := (orderly.unread t mem).started (all t mem)
      have barred := (rounds_starting c r.limit r.state n).1 fun x hx _ =>
        waiting x.1 (fst_mem_of_mem_zipIdx hx)
      by_contra unable
      have none : t.process = none := barred (t, place) (mk_mem_zipIdx_iff_getElem?.2 at_place)
        (by simpa using unable)
      simp [Task.isStarted, none] at started
    · exact { orderly with offers := fun _ => orderly.offers fault }

end Waiting

/-- The clock counts the rounds; of two processes the first never ends, and each would leave its
place as exit code. -/
def stuckFirst : Conduct :=
  ⟨fun k => k, fun k _ => k, fun _ => true, fun _ place => place == 1,
    fun place => ⟨.empty, .empty, place⟩⟩

end Runner

end TensorGraph.Execution

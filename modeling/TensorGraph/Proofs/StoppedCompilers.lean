import Mathlib
import TensorGraph.Execution.Compile
import TensorGraph.Proofs.TaskQueues

/-!
# Compilers that are stopped

Compiling ends without a fault exactly if every file has a command, every command can be started,
and every one was stopped for its time or has ended with exit code 0 and has written texts.
-/

namespace TensorGraph.Execution.CompileRunner

open List Runner

variable (base : Text.Path) (compiler : Compiler) (binary : Option Compiler) {c : Conduct}

/-- The jobs are put into the queue as new tasks, numbered in order, if all of them have a
command. -/
theorem enqueue_queue (i : Nat) (jobs : List CompileJob) (r : CompileRunner) :
    ∃ q, (enqueue base compiler binary i jobs r).2 = { r with queue := r.queue ++ q } ∧
      (∀ t ∈ q, ∃ command name, t = .ofCommand t.id command name) ∧
        q.map (·.id) = range' i q.length ∧
      ((enqueue base compiler binary i jobs r).1 = .ok () ↔
        ∀ j ∈ jobs, ∃ line, j.line? base compiler binary = .ok line) ∧
      ((enqueue base compiler binary i jobs r).1 = .ok () → q.length = jobs.length) := by
  induction jobs generalizing i r with
  | nil => exact ⟨[], by simp [enqueue]⟩
  | cons j jobs ih =>
    cases command : j.line? base compiler binary with
    | error f => exact ⟨[], by simp [enqueue, command]⟩
    | ok line =>
      obtain ⟨q, queue, fresh, ids, result⟩ :=
        ih (i + 1) (r.push (.ofCommand i (.shell line) j.object))
      refine ⟨.ofCommand i (.shell line) j.object :: q, ?_, ?_, ?_, ?_⟩
      · simpa [enqueue, command, push] using queue
      · exact forall_mem_cons.2 ⟨⟨_, _, rfl⟩, fresh⟩
      · simp [ids, range'_succ, Task.ofCommand]
      · simpa [enqueue, command] using result

theorem collectFrom_ok_iff {ts : List CompileTask} (unread : ∀ t ∈ ts, t.Unread)
    (finished : ∀ t ∈ ts, t.finished = true) (place : Nat) :
    (∃ ys, (collectFrom digest extract c.outcome place ts).2 = .ok ys) ↔
      ∀ x ∈ ts.zipIdx place, x.1.timedOut = true ∨ (c.outcome x.2).code = 0 ∧
        (c.outcome x.2).texts?.isSome := by
  induction ts generalizing place with
  | nil => simp [collectFrom]
  | cons t ts ih =>
    have rest := ih (fun u hu => unread u (mem_cons_of_mem _ hu))
      (fun u hu => finished u (mem_cons_of_mem _ hu)) (place + 1)
    have own := unread t mem_cons_self
    have ended := finished t mem_cons_self
    have onward :
        (∃ ys, (collectFrom digest extract c.outcome (place + 1) ts).2.map (() :: ·) = .ok ys) ↔
        ∃ ys, (collectFrom digest extract c.outcome (place + 1) ts).2 = .ok ys := by
      cases (collectFrom digest extract c.outcome (place + 1) ts).2 <;> simp [Except.map]
    rw [zipIdx_cons, forall_mem_cons, ← rest, collectFrom]
    by_cases readable : Readable c.outcome (t, place)
    · obtain ⟨texts, text⟩ := readable.texts
      have read : t.read digest (c.outcome place) = _ := own.read ended text
      rw [read]
      by_cases stopped : t.timedOut = true
      · simp [stopped, own.result]
      · have text := readable (by simpa using stopped)
        by_cases code : (c.outcome place).code = 0
        · simpa [stopped, code, ended, extract, own.failed, text] using onward
        · simp [stopped, code, ended, extract]
    · obtain ⟨going, none⟩ := Classical.not_imp.1 readable
      have fault := own.read_noText ended going (by simpa using none) digest
      have unread : ¬(t.timedOut = true ∨ (c.outcome place).code = 0 ∧
        (c.outcome place).texts?.isSome = true) := by
        simp_all
      split
      · simp [unread]
      · next read => simp [read] at fault

/-- On at least one device and under a clock that keeps advancing, compiling comes to an end.  It
returns exactly if each file has a command, all commands can be started, and each was stopped for
its time or has ended with exit code 0 and has written texts. -/
theorem compileAll?_returns_iff {workers : Nat} (some : 0 < workers)
    (advancing : Filter.Tendsto c.clock .atTop .atTop) (limit : Int) (jobs : List CompileJob) :
    ∃ n, ∀ m > n, ∃ result r', compileAll? c m base compiler binary jobs (ofWorkers workers limit) =
      .some (result, r') ∧
      (result = .ok () ↔ (∀ j ∈ jobs, ∃ line, j.line? base compiler binary = .ok line) ∧
        (∀ place < jobs.length, c.starts place = true) ∧
        ∃ r₁, (enqueue base compiler binary 0 jobs (ofWorkers workers limit)).2.join? c m =
          .some (.ok (), r₁) ∧
          r₁.queue.map (·.id) = range jobs.length ∧ ∀ x ∈ r₁.queue.zipIdx, x.1.finished = true ∧
            (x.1.timedOut = true ∨ (c.outcome x.2).code = 0 ∧ (c.outcome x.2).texts?.isSome)) := by
  obtain ⟨q, queue, fresh, ids, commands, length⟩ :=
    enqueue_queue base compiler binary 0 jobs (ofWorkers workers limit)
  generalize run : enqueue base compiler binary 0 jobs (ofWorkers workers limit) =
    e at queue commands length
  obtain ⟨first, r⟩ := e
  obtain rfl : r = ⟨"builder", .ofCount workers, limit, [], q⟩ := queue
  cases first with
  | error f => exact ⟨0, fun m _ => ⟨.error f, _, by rw [compileAll?, run], by simp [← commands]⟩⟩
  | ok =>
    have devices : (List.range workers).map (fun i : Nat => (i : Int)) ≠ [] := by simp; omega
    have start : Orderly _ (state ⟨"builder", .ofCount workers, limit, [], q⟩) :=
      orderly_ofDevices (ids ▸ nodup_range') fresh
    have waiting : ∀ t ∈ q, t.process = none := fun t ht => by
      obtain ⟨command, name, same⟩ := fresh t ht
      exact same ▸ rfl
    obtain ⟨n, joined, r₁, join, starts, returned⟩ := exists_joined start waiting devices advancing
    rw [show q.length = jobs.length from length rfl] at starts
    refine ⟨n, fun m late => ?_⟩
    have join := (join m).trans (if_pos late)
    cases joined with
    | error f =>
      refine ⟨.error f, r₁, ?_, iff_of_false nofun fun all => ?_⟩
      · rw [compileAll?, run]
        exact congrArg (Option.map _) join
      · exact nomatch starts.2 all.2.1
    | ok =>
      obtain ⟨same, finished, last⟩ := returned rfl
      have unread : ∀ t ∈ r₁.queue, t.Unread := last.unread
      have collected := collectFrom_ok_iff (c := c) unread finished 0
      have numbered : r₁.queue.map (·.id) = range jobs.length := by
        rw [same, ids, length rfl, range_eq_range']
      have returned : (r₁.collect digest extract c.outcome).1.map (fun _ => ()) = .ok () ↔
          ∃ ys, (collectFrom digest extract c.outcome 0 r₁.queue).2 = .ok ys := by
        rw [collect]
        cases (collectFrom digest extract c.outcome 0 r₁.queue) with
        | mk queue result => cases result <;> simp [Except.map]
      refine ⟨_, (r₁.collect digest extract c.outcome).2, ?_,
        returned.trans (collected.trans ⟨fun all => ?_, ?_⟩)⟩
      · rw [compileAll?, run]
        exact congrArg (Option.map _) join
      · exact ⟨commands.1 rfl, starts.1 rfl, r₁, join, numbered, fun x hx =>
          ⟨finished _ (fst_mem_of_mem_zipIdx hx), all x hx⟩⟩
      · rintro ⟨-, -, r₂, join', -, all⟩ x hx
        obtain rfl : r₁ = r₂ := (Prod.mk.inj (Option.some.inj (join.symm.trans join'))).2
        exact (all x hx).2

/-- One process that does not end: it is stopped, and compiling returns all the same. -/
theorem compileAll?_returns_iff_stuck :
    (compileAll? stuckFirst 5 default ⟨"cc"⟩ none [⟨"a.cu", "a.o"⟩] (ofWorkers 1 1)).map
    (·.1.isOk) = some true ∧ ∃ n, ∀ m > n, ∃ result r', compileAll? stuckFirst m default ⟨"cc"⟩ none
    [⟨"a.cu", "a.o"⟩] (ofWorkers 1 1) =
      some (result, r') := by
  refine ⟨by decide +kernel, ?_⟩
  have advancing : Filter.Tendsto stuckFirst.clock .atTop .atTop := tendsto_natCast_atTop_atTop
  obtain ⟨n, runs⟩ := compileAll?_returns_iff default ⟨"cc"⟩ none (by decide : 0 < 1) advancing 1
    [⟨"a.cu", "a.o"⟩]
  refine ⟨n, fun m late => ?_⟩
  obtain ⟨result, r', run, -⟩ := runs m late
  exact ⟨result, r', run⟩

end TensorGraph.Execution.CompileRunner

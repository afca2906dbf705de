import Mathlib
import TensorGraph.Proofs.IndependentGroups

/-!
# Which dependencies are recorded

`descendants` lists, for each operator of a kind, operators of the kind that depend on it: only
such, but not always all.
-/

namespace TensorGraph.Grouping

open List Build Relation TensorGraph.Graph

variable {g : Arena} {ts : Graph} {kind : String} {t z : TensorId} {a b : OpId}

/-! ## Walks return -/

theorem foldlM_failed {α β : Type} {f : β → α → Except Fault β} {l : List α} {b : β} {e : Fault}
    (run : l.foldlM f b = .error e) : ∃ a ∈ l, ∃ b, f b a = .error e := by
  induction l generalizing b with
  | nil => cases run
  | cons a l ih =>
    rw [foldlM_cons] at run
    cases first : f b a with
    | error e' =>
      rw [first] at run
      cases run
      exact ⟨a, mem_cons_self, b, first⟩
    | ok b' =>
      rw [first] at run
      obtain ⟨x, hx, failed⟩ := ih run
      exact ⟨x, mem_cons_of_mem a hx, failed⟩

/-- A walk never goes deeper than there are tensors: those above the one it comes to all differ. -/
theorem walk_returns (valid : Valid g ts) (single : ∀ t ∈ ts, (g.tensor t).src.ops.length ≤ 1)
    (n : Nat) {above : List TensorId} (nodup : above.Nodup)
    (path : ∀ s ∈ above, TransGen (Next g) s t) (deep : g.tensors.size < n + above.length)
    (ht : t ∈ ts) (seen : Seen) (e : Fault) : walk g kind n seen t ≠ .error e := by
  induction n generalizing t above seen e with
  | zero =>
    have known : ∀ s ∈ above, s.idx < g.tensors.size := fun s hs => by
      obtain ⟨y, ⟨o, ho, -⟩, -⟩ := TransGen.head'_iff.1 (path s hs)
      exact Arena.lt_of_dst ho
    have := length_le_size nodup known
    omega
  | succ n ih =>
    intro run
    rw [walk] at run
    cases known : seen.lookup t with
    | some os => simp [known, pure, Except.pure] at run
    | none =>
      simp only [known] at run
      generalize loop : foldlM (m := Except Fault) _ (seen ++ [(t, [])], []) (g.tensor t).dst.ops =
        r at run
      cases r with
      | error e' =>
        obtain ⟨o, ho, acc, turn⟩ := foldlM_failed loop
        obtain ⟨ys, written⟩ := Option.isSome_iff_exists.1 (valid.uses ht ho).1.2
        simp only [written] at turn
        obtain ⟨y, hy, acc, turn⟩ := foldlM_failed turn
        have next : Next g t y := ⟨o, ho, by simpa [Operator.outputList, written] using hy⟩
        have fresh : t ∉ above := fun h => next_acyclic valid t ht (path t h)
        cases walks : walk g kind n acc.1 y with
        | ok r => simp [walks, bind, Except.bind, pure, Except.pure] at turn
        | error e'' =>
          exact ih (nodup_cons.2 ⟨fresh, nodup⟩)
            (forall_mem_cons.2 ⟨.single next, fun s hs => (path s hs).tail next⟩)
            (by simp only [length_cons]; omega) (next.before valid ht).1 acc.1 e'' walks
      | ok r =>
        have short := single t ht
        rcases sources : (g.tensor t).src.ops with _ | ⟨o, _ | ⟨p, rest⟩⟩
        · simp [sources, bind, Except.bind, pure, Except.pure] at run
        · simp [sources, bind, Except.bind, pure, Except.pure] at run
        · simp [sources] at short

theorem descendants_returns (valid : Valid g ts)
    (single : ∀ t ∈ ts, (g.tensor t).src.ops.length ≤ 1) :
    ∃ d, descendants kind ts g = .ok d g := by
  obtain ⟨seen, _, run, rfl⟩ : ∃ seen g', survey kind ts g = .ok seen g' ∧ g = g' := by
    rw [survey, bind_run get_run]
    refine foldlM_returns (fun _ h => g = h) ?_ rfl
    rintro t ht seen _ rfl
    cases walks : walk g kind (g.tensors.size + 1) seen t with
    | error e => exact absurd walks (walk_returns valid single _ nodup_nil (by simp) (by simp)
      ht seen e)
    | ok r => exact ⟨r.1, g, rfl, rfl⟩
  rw [descendants, bind_run run, bind_run get_run]
  exact ⟨_, rfl⟩

/-! ## Only true dependencies are recorded -/

theorem reaches_of_path (valid : Valid g ts) (ht : t ∈ ts) (source : a ∈ (g.tensor t).src.ops)
    (path : TransGen (Next g) t z) :
    z ∈ ts ∧ ∃ p ∈ (g.tensor z).src.ops, Reaches g a p := by
  induction path with
  | single next =>
    obtain ⟨o, ho, hz⟩ := next
    obtain ⟨-, reads, writes⟩ := valid.uses ht ho
    exact ⟨(writes _ hz).1, o, (writes _ hz).2, .single ⟨t, reads, source⟩⟩
  | tail _ next ih =>
    obtain ⟨hu, p, hp, reaches⟩ := ih
    obtain ⟨o, ho, hz⟩ := next
    obtain ⟨-, reads, writes⟩ := valid.uses hu ho
    exact ⟨(writes _ hz).1, o, (writes _ hz).2, reaches.tail ⟨_, reads, hp⟩⟩

theorem Noticed.reaches {order : List TensorId} (valid : Valid g ts) (inside : order ⊆ ts)
    (noticed : Noticed g kind order a b) :
    (g.op b).kind = kind ∧ Reaches g a b := by
  obtain ⟨t, ⟨l, r, rfl, source, -⟩, u, z, path, found, sole, same⟩ := noticed
  have source : a ∈ (g.tensor t).src.ops := by simp [source]
  obtain ⟨-, p, hp, reaches⟩ := reaches_of_path valid (inside (by simp)) source
    (TransGen.tail' path found.next)
  obtain rfl : p = b := by simpa [sole] using hp
  exact ⟨same, reaches⟩

/-- The record has an entry for every operator of the kind, and only operators of the kind that
depend on it are in it.  It holds all of them exactly if the walk came first to what each of them
makes on a way from the last tensor of the operator. -/
theorem descendants_exact_iff (valid : Valid g ts)
    (single : ∀ t ∈ ts, (g.tensor t).src.ops.length ≤ 1) :
    ∃ d seen, descendants kind ts g = .ok d g ∧ survey kind ts g = .ok seen g ∧
      ∀ a, InGraph g ts a → (g.op a).kind = kind → ∃ os, d.lookup a = some os ∧
        (∀ b ∈ os, b ≠ a ∧ (g.op b).kind = kind ∧ Reaches g a b) ∧
        ((∀ b, b ∈ os ↔ b ≠ a ∧ (g.op b).kind = kind ∧ Reaches g a b) ↔
          ∀ b, (g.op b).kind = kind → Reaches g a b → Noticed g kind seen.order a b) := by
  obtain ⟨d, run⟩ : ∃ d, descendants kind ts g = .ok d g := descendants_returns valid single
  obtain ⟨-, seen, walks, inside, entries, noticed⟩ := descendants_noticed valid run
  refine ⟨d, seen, run, walks, fun a ha same => ?_⟩
  obtain ⟨os, entry⟩ := entries a ha same
  have other : ∀ b, Reaches g a b → b ≠ a := by
    rintro b reaches rfl
    exact valid.ordered.not_reaches ha reaches
  have sound : ∀ b ∈ os, b ≠ a ∧ (g.op b).kind = kind ∧ Reaches g a b := by
    intro b hb
    obtain ⟨same, reaches⟩ := ((noticed a os entry b).1 hb).reaches valid inside
    exact ⟨other b reaches, same, reaches⟩
  refine ⟨os, entry, sound, fun exact b same reaches => ?_, fun all b =>
    ⟨sound b, fun ⟨_, same, reaches⟩ => ?_⟩⟩
  · exact (noticed a os entry b).1 ((exact b).2 ⟨other b reaches, same, reaches⟩)
  · exact (noticed a os entry b).2 (all b same reaches)

/-- The last product reads the results of the first two, but only for the first one it is
recorded. -/
theorem descendants_exact_iff_products :
    ∃ d seen, descendants "gemm_rcr" productGraph (productArena 1) = .ok d (productArena 1) ∧
      survey "gemm_rcr" productGraph (productArena 1) = .ok seen (productArena 1) ∧
      d.lookup ⟨0⟩ = some [⟨2⟩] ∧ d.lookup ⟨1⟩ = some [] ∧ Reaches (productArena 1) ⟨1⟩ ⟨2⟩ ∧
      ¬ ∀ b, ((productArena 1).op b).kind = "gemm_rcr" → Reaches (productArena 1) ⟨1⟩ b →
        Noticed (productArena 1) "gemm_rcr" seen.order ⟨1⟩ b := by
  obtain ⟨d, seen, run, walks, exact⟩ := @descendants_exact_iff _ _ "gemm_rcr"
    (complete_products (Or.inl rfl)).valid (by decide)
  have known : descendants "gemm_rcr" productGraph (productArena 1) =
    .ok [(⟨0⟩, [⟨2⟩]), (⟨2⟩, []), (⟨1⟩, [])] (productArena 1) := by cbv
  cases known.symm.trans run
  have reads : Reaches (productArena 1) ⟨1⟩ ⟨2⟩ := .single (by decide)
  refine ⟨_, seen, run, walks, rfl, rfl, reads, fun all => ?_⟩
  obtain ⟨os, entry, -, exact⟩ := exact ⟨1⟩ ⟨⟨5⟩, by decide, by decide⟩ rfl
  cases (rfl : _ = some []).symm.trans entry
  simpa using (exact.2 all ⟨2⟩).2 ⟨by decide, rfl, reads⟩

end TensorGraph.Grouping

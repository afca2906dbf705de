import TensorGraph.Proofs.LibraryPointers
import TensorGraph.Proofs.ViewMarks

/-!
# The numbers of outputs

`outputSlots` gives each output its position, and what a numbered tensor shows the same number,
unless it has one.
-/

namespace TensorGraph.Library

open TensorGraph.Graph List

def setNumber (m : List (String × Nat)) (k : String) (v : Nat) : List (String × Nat) :=
  if m.any (·.1 == k) then m.map fun e => if e.1 == k then (k, v) else e else m ++ [(k, v)]

theorem lookup_setNumber (m : List (String × Nat)) (k : String) (v : Nat) (j : String) :
    (setNumber m k v).lookup j = if j == k then some v else m.lookup j :=
  lookup_setKey m k v j

def shareNumber (g : Arena) (t : TensorId) (m : List (String × Nat)) : List (String × Nat) :=
  match (g.tensor t).viewOf with
  | none => m
  | some v =>
    match m.lookup (label g t), m.lookup (label g v) with
    | some i, none => setNumber m (label g v) i
    | _, _ => m

theorem outputSlots_eq (g : Arena) (ts outputs : List TensorId) :
    outputSlots g ts outputs =
      ts.foldr (shareNumber g) (outputs.zipIdx.foldl (fun m p => setNumber m (label g p.1) p.2)
        []) := by
  unfold outputSlots
  rw [foldl_reverse]
  rfl

theorem lookup_zipIdx {g : Arena} {l : List TensorId} (distinct : (l.map (label g)).Nodup) (k : Nat)
    (m : List (String × Nat)) :
    (∀ i t, l[i]? = some t →
      ((l.zipIdx k).foldl (fun m p => setNumber m (label g p.1) p.2) m).lookup (label g t) =
      some (k + i)) ∧ ∀ j ∉ l.map (label g),
    ((l.zipIdx k).foldl (fun m p => setNumber m (label g p.1) p.2) m).lookup j = m.lookup j := by
  induction l generalizing k m with
  | nil => simp
  | cons u l ih =>
    obtain ⟨fresh, distinct⟩ := nodup_cons.1 distinct
    obtain ⟨numbers, others⟩ := ih distinct (k + 1) (setNumber m (label g u) k)
    rw [zipIdx_cons, foldl_cons]
    refine ⟨fun i t ht => ?_, fun j hj => ?_⟩
    · grind [lookup_setNumber]
    · rw [others j fun h => hj (mem_cons_of_mem _ h), lookup_setNumber, if_neg]
      grind

/-- The numbers after the tensors of `back` have shared theirs: outputs have their own, what a
numbered view of `back` shows has one, and each comes from an output that is inside if the numbered
tensor is. -/
structure Numbered (g : Arena) (ts outputs back : List TensorId) (m : List (String × Nat)) :
    Prop where
  own : ∀ i t, outputs[i]? = some t → m.lookup (label g t) = some i
  shared : ∀ t ∈ back, ∀ v, (g.tensor t).viewOf = some v → ∀ i, m.lookup (label g t) = some i →
    ∃ j, m.lookup (label g v) = some j
  origin : ∀ v ∈ ts, ∀ i, m.lookup (label g v) = some i →
    ∃ t, outputs[i]? = some t ∧ Shows g t v ∧ ((g.tensor v).src.ops ≠ [] → Inside g v → Inside g t)

section Numbers

variable {g : Arena} {ts outputs : List TensorId} (distinct : (ts.map (label g)).Nodup)
  (before : ∀ t ∈ ts, ∀ v, (g.tensor t).viewOf = some v → Before ts v t)
  (produced : ∀ t ∈ ts, (g.tensor t).viewOf.isSome → (g.tensor t).src.ops ≠ [])
  (perm : outputs.Perm (ts.filter fun t => (g.tensor t).isOutput))
include distinct before produced perm

theorem numbered_suffix (front back : List TensorId) (split : ts = front ++ back) :
    Numbered g ts outputs back
      (back.foldr (shareNumber g) (outputs.zipIdx.foldl (fun m p => setNumber m (label g p.1) p.2)
        [])) := by
  have mem_outputs : ∀ {t}, t ∈ outputs ↔ t ∈ ts ∧ (g.tensor t).isOutput := by
    intro t
    rw [perm.mem_iff, mem_filter]
  have nodup : ts.Nodup := Nodup.of_map _ distinct
  have inj : ∀ {t u}, t ∈ ts → u ∈ ts → label g t = label g u → t = u := fun ht hu h =>
    inj_on_of_nodup_map distinct ht hu h
  induction back generalizing front with
  | nil =>
    have distinctOutputs : (outputs.map (label g)).Nodup :=
      (perm.map _).nodup_iff.2 (distinct.sublist (filter_sublist.map _))
    obtain ⟨numbers, others⟩ := lookup_zipIdx distinctOutputs 0 []
    refine ⟨fun i t ht => by simpa using numbers i t ht, by simp, fun v hv i hi => ?_⟩
    by_cases output : v ∈ outputs
    · obtain ⟨j, hj⟩ := getElem?_of_mem output
      have : i = j := by simpa [numbers j v hj] using hi.symm
      exact ⟨v, this ▸ hj, .refl, fun _ => id⟩
    · have unknown : label g v ∉ outputs.map (label g) := by grind
      simp [foldr_nil, others _ unknown] at hi
  | cons t back ih =>
    have ht : t ∈ ts := by simp [split]
    obtain ⟨own, shared, origin⟩ := ih (front ++ [t]) (by simp [split])
    rw [foldr_cons]
    generalize back.foldr (shareNumber g)
      (outputs.zipIdx.foldl (fun m p => setNumber m (label g p.1) p.2) []) = m
      at own shared origin
    -- nothing is shared unless the tensor shows one without a number
    have skip : (∀ v, (g.tensor t).viewOf = some v → ∀ i, m.lookup (label g t) = some i →
      ∃ j, m.lookup (label g v) = some j) →
        Numbered g ts outputs (t :: back) m := fun here =>
          ⟨own, forall_mem_cons.2 ⟨here, shared⟩, origin⟩
    unfold shareNumber
    cases hv : (g.tensor t).viewOf with
    | none => exact skip (by simp [hv])
    | some v =>
      have earlier := before t ht v hv
      have hvts := earlier.mem
      have vFront : v ∈ front := (split ▸ earlier : Before (front ++ t :: back) v t).mem_front
      have vBack : ∀ u ∈ t :: back, u ≠ v := by grind
      have known : ∀ u ∈ t :: back, u ∈ ts := fun u hu => by grind
      dsimp only
      cases hi : m.lookup (label g t) with
      | none => exact skip (by simp [hi])
      | some i =>
        cases hj : m.lookup (label g v) with
        | some j => exact skip (by simp [hv, hj])
        | none =>
          have inner : (g.tensor v).isOutput = false := by
            by_contra output
            obtain ⟨k, hk⟩ := getElem?_of_mem (mem_outputs.2 ⟨hvts, by simpa using output⟩)
            rw [own k v hk] at hj
            cases hj
          have kept : ∀ u ∈ ts, u ≠ v →
              (setNumber m (label g v) i).lookup (label g u) = m.lookup (label g u) := by
            intro u hu ne
            rw [lookup_setNumber, if_neg]
            simpa using fun h => ne (inj hu hvts h)
          have new : (setNumber m (label g v) i).lookup (label g v) = some i := by
            simp [lookup_setNumber]
          refine ⟨fun k u hu => ?_, fun u hu w huw k hk => ?_, fun u hu k hk => ?_⟩
          · grind
          · rw [kept u (known u hu) (vBack u hu)] at hk
            by_cases same : w = v
            · exact ⟨i, same ▸ new⟩
            · have hw : w ∈ ts := (before u (known u hu) w huw).mem
              rw [kept w hw same]
              rcases mem_cons.1 hu with rfl | hu
              · grind
              · exact shared u hu w huw k hk
          · by_cases same : u = v
            · subst same
              obtain rfl : i = k := by simpa [new] using hk
              obtain ⟨x, hx, chain, inside⟩ := origin t ht i hi
              refine ⟨x, hx, chain.tail hv, fun made insideU =>
                inside (produced t ht (by simp [hv])) ?_⟩
              exact (inside_view hv).2 ⟨made, inner, insideU⟩
            · rw [kept u hu same] at hk
              exact origin u hu k hk

omit distinct produced perm in
theorem Numbered.of_shows {m : List (String × Nat)} (h : Numbered g ts outputs ts m)
    {t v : TensorId} (ht : t ∈ ts) (chain : Shows g t v) {i : Nat}
    (hi : m.lookup (label g t) = some i) : ∃ j, m.lookup (label g v) = some j := by
  induction chain with
  | refl => exact ⟨i, hi⟩
  | tail chain hv ih =>
    obtain ⟨j, hj⟩ := ih
    exact h.shared _ (shows_mem before ht chain) _ hv j hj

/-- The numbers that are given are as `Numbered` says for all tensors. -/
theorem numbered : Numbered g ts outputs ts (outputSlots g ts outputs) := by
  rw [outputSlots_eq]
  exact numbered_suffix distinct before produced perm [] ts rfl

end Numbers

end TensorGraph.Library

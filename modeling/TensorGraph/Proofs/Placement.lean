import TensorGraph.Graph.Memory

/-!
# Placed lifetimes do not collide

`placeAll` gives every lifetime a place.
-/

namespace TensorGraph

namespace Graph

open List

variable {p : Placed} {size : Int} {rivals ps : List Placed} {s : Gap} {l : Lifetime}

/-- The size of a lifetime is a multiple of 64 that is not negative. -/
structure Lifetime.Sized (l : Lifetime) : Prop where
  nonneg : 0 ≤ l.size
  aligned : 64 ∣ l.size

theorem Lifetime.overlaps_comm (a b : Lifetime) : a.overlaps b = b.overlaps a := by
  unfold Lifetime.overlaps
  rw [Nat.max_comm, Nat.min_comm]

namespace Placed

def stop (p : Placed) : Int := p.offset + p.life.size

def Separate (p q : Placed) : Prop := p.stop ≤ q.offset ∨ q.stop ≤ p.offset

def Apart (p q : Placed) : Prop := p.life.overlaps q.life → p.Separate q

theorem Apart.symm {q : Placed} (h : p.Apart q) : q.Apart p := by
  intro both
  rw [Lifetime.overlaps_comm] at both
  exact (h both).symm

instance : Std.Symm Placed.Apart := ⟨fun _ _ => Apart.symm⟩

end Placed

/-! ## The search for a gap -/

/-- The state of the search for a gap of a given size, behind some rivals. -/
structure Gap.Sound (size : Int) (rivals : List Placed) (s : Gap) : Prop where
  nonneg : 0 ≤ s.passed
  aligned : 64 ∣ s.passed
  behind : ∀ r ∈ rivals, r.stop ≤ s.passed
  bestNonneg : ∀ b, s.best = some b → 0 ≤ b ∧ 64 ∣ b
  free : ∀ b, s.best = some b → ∀ r ∈ rivals, r.stop ≤ b ∨ b + size ≤ r.offset
  fits : ∀ b, s.best = some b → ∃ r ∈ rivals, b + size ≤ r.offset

theorem Gap.sound_start (size width : Int) : Gap.Sound size [] ⟨0, none, width⟩ := by
  constructor <;> simp

theorem Gap.sound_pass (sound : Gap.Sound size rivals s)
    (start : 0 ≤ p.offset ∧ 64 ∣ p.offset) (sized : p.life.Sized)
    (later : ∀ r ∈ rivals, r.offset ≤ p.offset) :
    Gap.Sound size (rivals ++ [p]) (s.pass size p) := by
  -- the end of what has been passed does not depend on whether the gap before `p` is taken
  have ends : (s.pass size p).passed = max s.passed p.stop := by grind [Gap.pass, Placed.stop]
  have hstop : 0 ≤ p.stop ∧ 64 ∣ p.stop := by
    have := sized.nonneg
    have := sized.aligned
    unfold Placed.stop
    omega
  have hbest : ∀ b, (s.pass size p).best = some b →
      (b = s.passed ∧ size ≤ p.offset - s.passed) ∨ s.best = some b := by
    intro b hb
    unfold Gap.pass at hb
    grind
  have hpassed := sound.nonneg
  have haligned := sound.aligned
  constructor
  · omega
  · grind
  · intro r hr
    rcases mem_append.1 hr with hr | hr
    · have := sound.behind r hr
      omega
    · rw [mem_singleton.1 hr]
      omega
  · intro b hb
    rcases hbest b hb with ⟨rfl, -⟩ | hb
    · exact ⟨hpassed, haligned⟩
    · exact sound.bestNonneg b hb
  · intro b hb r hr
    rcases mem_append.1 hr with hr | hr
    · rcases hbest b hb with ⟨rfl, -⟩ | hb
      · exact Or.inl (sound.behind r hr)
      · exact sound.free b hb r hr
    · rw [mem_singleton.1 hr]
      rcases hbest b hb with ⟨rfl, fit⟩ | hb
      · right; omega
      · obtain ⟨q, hq, fit⟩ := sound.fits b hb
        have := later q hq
        right; omega
  · intro b hb
    rcases hbest b hb with ⟨rfl, fit⟩ | hb
    · exact ⟨p, by simp, by omega⟩
    · obtain ⟨q, hq, fit⟩ := sound.fits b hb
      exact ⟨q, by simp [hq], fit⟩

theorem Gap.sound_foldl (rest : List Placed) (sound : Gap.Sound size rivals s)
    (start : ∀ p ∈ rest, 0 ≤ p.offset ∧ 64 ∣ p.offset) (sized : ∀ p ∈ rest, p.life.Sized)
    (ordered : (rivals ++ rest).Pairwise fun p q => p.offset ≤ q.offset) :
    Gap.Sound size (rivals ++ rest) (rest.foldl (Gap.pass size) s) := by
  induction rest generalizing rivals s with
  | nil => simpa using sound
  | cons p rest ih =>
    have later : ∀ r ∈ rivals, r.offset ≤ p.offset := fun r hr =>
      (pairwise_append.1 ordered).2.2 r hr p mem_cons_self
    have step := Gap.sound_pass sound (start p mem_cons_self) (sized p mem_cons_self) later
    have := ih step (fun q hq => start q (mem_cons_of_mem _ hq))
      (fun q hq => sized q (mem_cons_of_mem _ hq))
      (by simpa using ordered)
    simpa using this

/-! ## Layouts -/

/-- What holds of the placed lifetimes at any time. -/
structure Layout (ps : List Placed) : Prop where
  ordered : ps.Pairwise fun p q => p.offset ≤ q.offset
  apart : ps.Pairwise Placed.Apart
  start : ∀ p ∈ ps, 0 ≤ p.offset ∧ 64 ∣ p.offset

theorem place_free (layout : Layout ps) (sized : ∀ p ∈ ps, p.life.Sized) :
    (0 ≤ place ps l ∧ 64 ∣ place ps l) ∧
      ∀ p ∈ ps, l.overlaps p.life → p.stop ≤ place ps l ∨ place ps l + l.size ≤ p.offset := by
  have sound := Gap.sound_foldl (ps.filter fun p => l.overlaps p.life)
    (Gap.sound_start l.size 0x7FFFFFFFFFFFFFFF) (fun p hp => layout.start p (mem_filter.1 hp).1)
    (fun p hp => sized p (mem_filter.1 hp).1) (by simpa using layout.ordered.filter _)
  unfold place
  dsimp only
  generalize foldl (Gap.pass l.size) _ _ = s at sound
  cases hb : s.best with
  | none =>
    refine ⟨⟨sound.nonneg, sound.aligned⟩, fun p hp both => Or.inl ?_⟩
    exact sound.behind p (mem_filter.2 ⟨hp, both⟩)
  | some b =>
    refine ⟨sound.bestNonneg b hb, fun p hp both => ?_⟩
    exact sound.free b hb p (mem_filter.2 ⟨hp, both⟩)

theorem insertPlaced_perm (p : Placed) (ps : List Placed) : (insertPlaced p ps).Perm (p :: ps) := by
  induction ps with
  | nil => rfl
  | cons q ps ih =>
    unfold insertPlaced
    grind

theorem insertPlaced_ordered (h : ps.Pairwise fun p q => p.offset ≤ q.offset) :
    (insertPlaced p ps).Pairwise fun p q => p.offset ≤ q.offset := by
  induction ps with
  | nil => simp [insertPlaced]
  | cons q ps ih =>
    obtain ⟨first, rest⟩ := pairwise_cons.1 h
    unfold insertPlaced
    split
    · next before =>
      refine pairwise_cons.2 ⟨fun r hr => ?_, h⟩
      grind
    · next behind =>
      refine pairwise_cons.2 ⟨fun r hr => ?_, ih rest⟩
      rcases mem_cons.1 ((insertPlaced_perm p ps).mem_iff.1 hr) with rfl | hr
      · omega
      · exact first r hr

theorem layout_insertPlaced (layout : Layout ps) (sized : ∀ p ∈ ps, p.life.Sized) :
    Layout (insertPlaced ⟨l, place ps l⟩ ps) := by
  obtain ⟨start, free⟩ := place_free (l := l) layout sized
  have perm := insertPlaced_perm ⟨l, place ps l⟩ ps
  constructor
  · exact insertPlaced_ordered layout.ordered
  · refine (perm.pairwise_iff fun h => Placed.Apart.symm h).2
      (pairwise_cons.2 ⟨fun p hp both => ?_, layout.apart⟩)
    exact (free p hp both).symm
  · intro p hp
    rcases mem_cons.1 (perm.mem_iff.1 hp) with rfl | hp
    · exact start
    · exact layout.start p hp

theorem layout_foldl (ls : List Lifetime) (layout : Layout ps) (sized : ∀ p ∈ ps, p.life.Sized)
    (more : ∀ l ∈ ls, l.Sized) :
    let qs := ls.foldl (fun placed l => insertPlaced ⟨l, place placed l⟩ placed) ps
    Layout qs ∧ (qs.map (·.life)).Perm (ls ++ ps.map (·.life)) := by
  induction ls generalizing ps with
  | nil => exact ⟨layout, Perm.refl _⟩
  | cons l ls ih =>
    have perm := insertPlaced_perm ⟨l, place ps l⟩ ps
    have sized' : ∀ p ∈ insertPlaced ⟨l, place ps l⟩ ps, p.life.Sized := by grind
    obtain ⟨layout', lives⟩ := ih (layout_insertPlaced layout sized) sized' fun k hk =>
      more k (mem_cons_of_mem _ hk)
    grind

/-- All lifetimes are placed, and those that overlap lie apart. -/
theorem layout_placeAll {ls : List Lifetime} (sized : ∀ l ∈ ls, l.Sized) :
    Layout (placeAll ls) ∧ ((placeAll ls).map (·.life)).Perm ls := by
  have sort := mergeSort_perm ls fun a b => decide (b.size ≤ a.size)
  have start : Layout [] := ⟨Pairwise.nil, Pairwise.nil, by simp⟩
  obtain ⟨layout, lives⟩ := layout_foldl (ls.mergeSort fun a b => b.size ≤ a.size) start (by simp)
    fun l hl => sized l (sort.mem_iff.1 hl)
  refine ⟨layout, lives.trans ?_⟩
  simpa using sort

theorem stop_le_foldl_max (ps : List Placed) (n : Int) :
    n ≤ ps.foldl (fun n p => max n (p.offset + p.life.size)) n ∧
      ∀ p ∈ ps, p.stop ≤ ps.foldl (fun n p => max n (p.offset + p.life.size)) n := by
  induction ps generalizing n with
  | nil => simp
  | cons q ps ih =>
    obtain ⟨lower, ends⟩ := ih (max n (q.offset + q.life.size))
    refine ⟨by rw [foldl_cons]; omega, fun p hp => ?_⟩
    rw [foldl_cons]
    rcases mem_cons.1 hp with rfl | hp
    · unfold Placed.stop; omega
    · exact ends p hp

end Graph

end TensorGraph

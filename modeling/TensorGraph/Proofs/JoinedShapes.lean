import TensorGraph.Proofs.FusedElementwise

/-!
# Joined shapes

The shapes of the operands of an elementwise operator are joined one after the other.
-/

namespace TensorGraph

open List

variable {look : DimTable} {g : Arena} {a b u : DimId} {as bs us : List DimId}
  {r r' : Option (List DimId)} {ts ts' : List TensorId}

namespace Shape

def Yields (look : DimTable) (a b : DimId) : Prop := (look a).same (look b) ∨ (look a).isFixed 1

/-- A shape can be repeated along axes to become another one; both are read from the last axis
on. -/
def Spreads (look : DimTable) : List DimId → List DimId → Prop
  | [], _ => True
  | _ :: _, [] => False
  | a :: as, b :: bs => Yields look a b ∧ Spreads look as bs

theorem spreads_refl : Spreads look as as := by
  induction as with
  | nil => trivial
  | cons a as ih => exact ⟨.inl (Dim.same_refl _), ih⟩

theorem same_of_forall₂ (h : Forall₂ (fun a b => (look a).same (look b)) as bs) :
    Shape.same look as bs := by
  induction h with
  | nil => rfl
  | cons first _ ih => simp [Shape.same, first, ih]

theorem Spreads.same (h : Spreads look as bs) (h' : Spreads look bs as) :
    Forall₂ (fun a b => (look a).same (look b)) as bs := by
  induction as generalizing bs with
  | nil =>
    cases bs with
    | nil => exact .nil
    | cons => exact h'.elim
  | cons a as ih =>
    cases bs with
    | nil => exact h.elim
    | cons b bs =>
      refine .cons ?_ (ih h.2 h'.2)
      rcases h.1, h'.1 with ⟨same | one, same' | one'⟩
      · exact same
      · exact same
      · exact Dim.same_symm same'
      · simp_all [Dim.isFixed, Bool.and_eq_true, beq_iff_eq, Dim.same_iff, symm]

theorem yields_both :
    Yields look a u ∧ Yields look b u ↔ ∃ c ∈ broadcastDim? look a b, Yields look c u := by
  unfold broadcastDim? Yields
  split
  · grind [same, Dim.same_iff, Dim.isFixed, Dim.same_trans, Dim.same_symm]
  · grind [same, Dim.same_trans, Dim.same_symm]

theorem spreads_both : Spreads look as us ∧ Spreads look bs us ↔
    ∃ cs ∈ broadcastReversed? look as bs, Spreads look cs us := by
  fun_induction broadcastReversed? look as bs generalizing us with
  | case1 => simp [Spreads]
  | case2 => simp [Spreads]
  | case3 a as b bs ih =>
    cases us with
    | nil => grind [broadcastDim?, broadcastReversed?, Spreads]
    | cons u us =>
      rw [Spreads, Spreads, and_and_and_comm, yields_both, ih]
      cases broadcastDim? look a b <;> cases broadcastReversed? look as bs <;> simp [Spreads]

def SameResult (look : DimTable) : Option (List DimId) → Option (List DimId) → Prop
  | some s, some s' => Shape.same look s s'
  | none, none => True
  | _, _ => False

end Shape

namespace Elementwise

open Shape Build

/-- Operands whose shapes are joined in groups. -/
inductive Grouping
  | one (t : TensorId)
  | join (x y : Grouping)

namespace Grouping

def members : Grouping → List TensorId
  | one t => [t]
  | join x y => x.members ++ y.members

def shape? (g : Arena) : Grouping → Option (List DimId)
  | one t => some (g.tensor t).shape
  | join x y => (x.shape? g).bind fun s => (y.shape? g).bind (broadcast? g.dim s)

theorem members_ne_nil (x : Grouping) : x.members ≠ [] := by
  induction x with
  | one => simp [members]
  | join => simp_all [members]

end Grouping

def joinedShape? (f : Value) (ts : List TensorId) (g : Arena) : Option (List DimId) :=
  match joinShapes f ts g with
  | .ok s _ => some s
  | .error .. => none

def IsJoin (g : Arena) (ts : List TensorId) (r : Option (List DimId)) : Prop :=
  ∀ us, (∀ t ∈ ts, Spreads g.dim (g.tensor t).shape.reverse us) ↔
    ∃ s ∈ r, Spreads g.dim s.reverse us

theorem isJoin_one (t : TensorId) : IsJoin g [t] (some (g.tensor t).shape) := fun us => by simp

theorem IsJoin.append (h : IsJoin g ts r) (h' : IsJoin g ts' r') :
    IsJoin g (ts ++ ts') (r.bind fun s => r'.bind (broadcast? g.dim s)) := fun us => by
  rw [forall_mem_append, h us, h' us]
  cases r <;> cases r' <;> simp [broadcast?, spreads_both]

theorem IsJoin.unique (h : IsJoin g ts r) (h' : IsJoin g ts' r') (members : ∀ t, t ∈ ts' ↔ t ∈ ts) :
    SameResult g.dim r r' := by
  have bounds (us : List DimId) : (∃ s ∈ r, Spreads g.dim s.reverse us) ↔
    ∃ s ∈ r', Spreads g.dim s.reverse us := by
    rw [← h us, ← h' us]
    simp [members]
  cases r with
  | none =>
    cases r' with
    | none => trivial
    | some s' => simpa using (bounds s'.reverse).2 ⟨s', rfl, spreads_refl⟩
  | some s =>
    cases r' with
    | none => simpa using (bounds s.reverse).1 ⟨s, rfl, spreads_refl⟩
    | some s' =>
      have up : Spreads g.dim s'.reverse s.reverse := by simpa using (bounds s.reverse).1 ⟨s, rfl,
        spreads_refl⟩
      have down : Spreads g.dim s.reverse s'.reverse := by simp_all [spreads_refl]
      have pairs := rel_reverse (down.same up)
      rw [reverse_reverse, reverse_reverse] at pairs
      exact same_of_forall₂ pairs

theorem isJoin_grouping (x : Grouping) : IsJoin g x.members (x.shape? g) := by
  induction x with
  | one t => exact isJoin_one t
  | join x y hx hy => exact hx.append hy

theorem isJoin_joinedShape? (f : Value) (ne : ts ≠ []) : IsJoin g ts (joinedShape? f ts g) := by
  obtain ⟨t, rest, rfl⟩ := exists_cons_of_ne_nil ne
  have walk (rest : List TensorId) :
      ∀ (done : List TensorId) (r : Option (List DimId)), IsJoin g done r →
      IsJoin g (done ++ rest) (r.bind fun s =>
        rest.foldlM (fun s u => broadcast? g.dim s (g.tensor u).shape) s) := by
    induction rest with
    | nil => intro done r h; simpa using h
    | cons u rest ih =>
      intro done r h
      have next := ih _ _ (h.append (isJoin_one u))
      cases r <;> simpa using next
  have all := walk rest [t] _ (isJoin_one t)
  have value : joinedShape? f (t :: rest) g = rest.foldlM
    (fun s u => broadcast? g.dim s (g.tensor u).shape) (g.tensor t).shape := by
    unfold joinedShape?
    rw [show joinShapes f (t :: rest) g = expect .notBroadcastable _ g from rfl]
    cases rest.foldlM (fun s u => broadcast? g.dim s (g.tensor u).shape) (g.tensor t).shape <;> rfl
  rwa [value]

/-- Joining operands in another order, with repetitions or in groups succeeds for the same operands
and gives the same shape. -/
theorem joinedShape?_regrouped {f : Value} {x : Grouping} (same : ∀ t, t ∈ ts' ↔ t ∈ ts)
    (grouped : ∀ t, t ∈ x.members ↔ t ∈ ts) :
    SameResult g.dim (joinedShape? f ts g) (joinedShape? f ts' g) ∧
    SameResult g.dim (joinedShape? f ts g) (x.shape? g) := by
  obtain ⟨t, ht⟩ := exists_mem_of_ne_nil _ x.members_ne_nil
  replace ht := (grouped t).1 ht
  have all := isJoin_joinedShape? (g := g) f (ne_nil_of_mem ht)
  exact ⟨all.unique (isJoin_joinedShape? f (ne_nil_of_mem ((same t).2 ht))) same,
    all.unique (isJoin_grouping x) grouped⟩

/-- A column, a row and a matrix. -/
theorem joinedShape?_regrouped_matrix :
    let g := Arena.ofNodes [4, 1, 3] [([0, 1], [], []), ([2], [], []), ([0, 2], [], [])] #[]
    joinedShape? .none [⟨0⟩, ⟨1⟩] g = some [⟨0⟩, ⟨2⟩] ∧
      SameResult g.dim (joinedShape? .none [⟨0⟩, ⟨1⟩, ⟨2⟩] g)
        (joinedShape? .none [⟨2⟩, ⟨0⟩, ⟨1⟩, ⟨0⟩] g) := by
  intro g
  exact ⟨rfl, (joinedShape?_regrouped (x := .join (.one ⟨0⟩) (.join (.one ⟨1⟩) (.one ⟨2⟩)))
    (by grind [Grouping.members]) (fun t => Iff.rfl)).1⟩

end Elementwise

end TensorGraph

import Mathlib
import TensorGraph.Graph.Naming
import TensorGraph.Proofs.Lists

/-!
# Numbered names

A generated name is a stem with a number behind it, and stem and number can be told from it, since
digits have no underscore (`numbered_inj`).
-/

namespace TensorGraph

open List

def numbered (stem : String) (k : Nat) : String := s!"{stem}_{k}"

theorem numbered_tensor (k : Nat) : s!"tensor_{k}" = numbered "tensor" k := rfl

theorem toList_numbered (stem : String) (k : Nat) :
    (numbered stem k).toList = stem.toList ++ '_' :: Nat.toDigits 10 k := by
  have parts : numbered stem k = stem ++ "_" ++ k.repr := rfl
  simp_all

theorem isDigit_toDigits (k : Nat) : ∀ c ∈ (Nat.toDigits 10 k).reverse, c.isDigit = true :=
  fun _ hc => Nat.isDigit_of_mem_toDigits (by decide) (by decide) (mem_reverse.1 hc)

theorem reverse_numbered (stem : String) (k : Nat) :
    (numbered stem k).toList.reverse.takeWhile Char.isDigit = (Nat.toDigits 10 k).reverse ∧
      (numbered stem k).toList.reverse.dropWhile Char.isDigit = '_' :: stem.toList.reverse := by
  have digits := isDigit_toDigits k
  rw [toList_numbered, reverse_append, reverse_cons, append_assoc, takeWhile_append_of_pos digits,
    dropWhile_append_of_pos digits]
  simp

/-- Stem and number can be told from a numbered name. -/
theorem numbered_inj {s t : String} {j k : Nat} (same : numbered s j = numbered t k) :
    s = t ∧ j = k := by
  obtain ⟨digits, stem⟩ := reverse_numbered s j
  obtain ⟨digits', stem'⟩ := reverse_numbered t k
  rw [same] at digits stem
  constructor
  · simp_all [String.toList_inj]
  · have : Nat.toDigits 10 j = Nat.toDigits 10 k := reverse_injective (digits.symm.trans digits')
    have := congrArg (Nat.ofDigitChars 10 · 0) this
    grind [Nat.ofDigitChars_toDigits]

/-! ## Identifiers -/

def isNameChar (c : Char) : Bool := c.isAlphanum || c == '_'

def IsIdentifier (s : String) : Prop :=
  s.toList ≠ [] ∧ s.toList.all isNameChar = true ∧ s.toList.head?.any Char.isDigit = false

instance (s : String) : Decidable (IsIdentifier s) := by unfold IsIdentifier; infer_instance

theorem isDecimal_of_isNameChar {c : Char} (char : isNameChar c = true) :
    Text.isDecimal c = c.isDigit := by
  have low : c.toNat < 128 := by
    rcases Bool.or_eq_true_iff.1 char with word | score
    · simp only [Char.isAlphanum, Char.isAlpha, Char.isUpper, Char.isLower, Char.isDigit,
        Bool.or_eq_true, Bool.and_eq_true, decide_eq_true_eq, ge_iff_le, UInt32.le_iff_toNat_le,
        Char.toNat_val, Char.reduceToNat] at word
      omega
    · rw [eq_of_beq score]
      decide
  have high : ∀ r ∈ Text.digitRanges, 128 ≤ r.1 := by decide
  have outside : Text.inRanges Text.digitRanges c = false := any_eq_false.2 fun r hr => by
    have := high r hr
    simp
    omega
  rw [Text.isDecimal, outside, Bool.or_false]

namespace IsIdentifier

variable {s : String} (h : IsIdentifier s)
include h

theorem append {t : String} (more : t.toList.all isNameChar = true) : IsIdentifier (s ++ t) := by
  obtain ⟨some, chars, front⟩ := h
  obtain ⟨c, cs, hs⟩ := exists_cons_of_ne_nil some
  unfold IsIdentifier
  simp_all

theorem append_number {t : String} (more : t.toList.all isNameChar = true) (k : Nat) :
    IsIdentifier (s ++ t ++ k.repr) := by
  refine (h.append more).append (all_eq_true.2 fun c hc => ?_)
  have digit := Nat.isDigit_of_mem_toDigits (by decide) (by decide) (Nat.toList_repr ▸ hc)
  simp [isNameChar, Char.isAlphanum, digit]

theorem numbered (k : Nat) : IsIdentifier (numbered s k) := h.append_number (t := "_") (by decide) k

theorem identifier_eq : Text.identifier s = s := by
  obtain ⟨some, chars, front⟩ := h
  obtain ⟨c, cs, hs⟩ := exists_cons_of_ne_nil some
  have body : s.toList.map (fun c => if Text.isWord c then c else '_') = s.toList := by
    refine map_congr_left (g := id) (fun c hc => ?_) |>.trans (map_id _)
    have char : (c.isAlphanum || c == '_') = true := all_eq_true.1 chars c hc
    rw [Text.isWord, char, Bool.true_or]
    rfl
  have first : Text.isDecimal c = false := by grind [isDecimal_of_isNameChar, all_eq_true]
  unfold Text.identifier
  dsimp only
  rw [body]
  simp only [hs, first, Bool.false_eq_true, if_false]
  rw [← hs, String.ofList_toList]

end IsIdentifier

/-! ## Plain stems -/

/-- An identifier that does not end in an underscore and digits, and is not the stem that tensors
are numbered by. -/
structure Plain (stem : String) : Prop where
  identifier : IsIdentifier stem
  unnumbered : (stem.toList.reverse.dropWhile Char.isDigit).head? ≠ some '_'
  other : stem ≠ "tensor"

instance (stem : String) : Decidable (Plain stem) :=
  decidable_of_iff (IsIdentifier stem ∧ (stem.toList.reverse.dropWhile Char.isDigit).head? ≠
    some '_' ∧ stem ≠ "tensor")
    ⟨fun ⟨a, b, c⟩ => ⟨a, b, c⟩, fun h => ⟨h.identifier, h.unnumbered, h.other⟩⟩

theorem Plain.ne_numbered {stem : String} (plain : Plain stem) (s : String) (k : Nat) :
    stem ≠ numbered s k := by
  rintro rfl
  apply plain.unnumbered
  rw [(reverse_numbered s k).2]
  rfl

theorem OpClass.mem_all (c : OpClass) : c ∈ all := by
  cases c <;> exact contains_iff_mem.1 rfl

theorem OpClass.label_plain (c : OpClass) : Plain c.label :=
  (by decide +kernel : ∀ c ∈ all, Plain c.label) c c.mem_all

/-! ## Requests -/

namespace Namer

variable {n : Namer}

theorem fresh_eq {s : String} (identifier : IsIdentifier s) (free : s ∉ n.used) :
    n.fresh s = (s, { n with used := n.used ++ [s] }) := by
  unfold fresh
  rw [identifier.identifier_eq, if_neg (by simpa using free)]

@[simp] theorem ops_setOutputCount (op : String) (k : Nat) :
    (n.setOutputCount op k).ops = n.ops := by
  unfold setOutputCount
  split <;> rfl

@[simp] theorem tensors_setOutputCount (op : String) (k : Nat) :
    (n.setOutputCount op k).tensors = n.tensors := by
  unfold setOutputCount
  split <;> rfl

@[simp] theorem used_setOutputCount (op : String) (k : Nat) :
    (n.setOutputCount op k).used = n.used := by
  unfold setOutputCount
  split <;> rfl

theorem outputCount_setOutputCount (op f : String) (k : Nat) :
    (n.setOutputCount op k).outputCount f = if f = op then k else n.outputCount f := by
  have outputs : (n.setOutputCount op k).outputs =
      if n.outputs.any (·.1 == op) then n.outputs.map fun e => if e.1 == op then (op, k) else e
      else n.outputs ++ [(op, k)] := by
    unfold setOutputCount
    split <;> rfl
  unfold outputCount
  rw [outputs, lookup_setKey]
  by_cases same : f = op <;> simp [same]

end Namer

end TensorGraph

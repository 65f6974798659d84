import Mathlib.Data.List.DropRight
import Mathlib.Data.Nat.Notation

/-!
# Numbered names
A name of bounded length is made another one by a separator and a number at its end. What is kept of the name
is the longest prefix that leaves room for them.
-/

namespace NumberedNames

/-- The digits at the end of a name. -/
def trailingDigits (name : List Char) : List Char := name.rtakeWhile Char.isDigit

/-- A prefix of the base name that leaves room for a separator and the digits. -/
structure LeavesRoom (maxLength : ℕ) (base digits pre : List Char) : Prop where
  isPrefix : pre <+: base
  room : pre.length + (1 + digits.length) ≤ maxLength

/-- The name is short enough and starts with every prefix of the base name that leaves room for a separator
and the digits that the name ends with. -/
structure Recognisable (maxLength : ℕ) (base name : List Char) : Prop where
  fits : name.length ≤ maxLength
  startsWith : ∀ pre, LeavesRoom maxLength base (trailingDigits name) pre → pre <+: name

/-! ## Names that are cut to a length

The longest prefix that leaves room is the one as long as the room. A name that is cut elsewhere starts with it
only if what is put behind the cut repeats what was cut off. -/

variable {maxLength cut : ℕ} {base digits name rest : List Char} {sep : Char}

theorem trailingDigits_append (hsep : sep.isDigit = false) (hdigits : ∀ c ∈ digits, c.isDigit = true) :
    trailingDigits (rest ++ sep :: digits) = digits := by
  unfold trailingDigits
  induction digits using List.reverseRecOn with
  | nil =>
    rw [List.rtakeWhile_concat_neg]
    simp [hsep]
  | append_singleton digits c ih =>
    have hc : c.isDigit = true := hdigits c (by simp)
    have hinit : ∀ c ∈ digits, c.isDigit = true := fun c hc => hdigits c (by simp [hc])
    have hassoc : rest ++ sep :: (digits ++ [c]) = (rest ++ sep :: digits) ++ [c] := by simp
    rw [hassoc, List.rtakeWhile_concat_pos _ _ _ hc, ih hinit]

/-- To start with every prefix that leaves room is to start with the longest. -/
theorem startsWith_iff (hroom : 1 + digits.length ≤ maxLength) :
    (∀ pre, LeavesRoom maxLength base digits pre → pre <+: name) ↔
      base.take (maxLength - (1 + digits.length)) <+: name := by
  constructor
  · intro h
    refine h _ ⟨List.take_prefix _ _, ?_⟩
    rw [List.length_take]
    omega
  · intro h pre hpre
    have hlength := hpre.room
    have hlongest : pre <+: base.take (maxLength - (1 + digits.length)) := by
      refine List.prefix_of_prefix_length_le hpre.isPrefix (List.take_prefix _ _) ?_
      have hle := hpre.isPrefix.length_le
      rw [List.length_take]
      omega
    exact hlongest.trans h

/-- What is put behind a cut has to repeat what was cut off. -/
theorem take_prefix_iff (cut room : ℕ) (base rest : List Char) :
    base.take room <+: base.take cut ++ rest ↔ (base.take room).drop cut <+: rest := by
  rcases Nat.le_total room cut with h | h
  · have hshort : (base.take room).length ≤ cut := by
      rw [List.length_take]
      omega
    have hpre : base.take room <+: base.take cut := List.take_prefix_take_left h
    rw [List.drop_eq_nil_of_le hshort]
    exact iff_of_true (hpre.trans (List.prefix_append _ _)) List.nil_prefix
  · have hsplit : base.take cut ++ (base.take room).drop cut = base.take room := by
      have htake : (base.take room).take cut = base.take cut := by
        rw [List.take_take, Nat.min_eq_left h]
      rw [← htake]
      exact List.take_append_drop cut (base.take room)
    refine Iff.trans ?_ (List.prefix_append_right_inj (base.take cut))
    rw [hsplit]

/-- A name that was not cut is recognisable if it is short enough. -/
theorem recognisable_append (hfits : base.length + (1 + digits.length) ≤ maxLength) :
    Recognisable maxLength base (base ++ sep :: digits) := by
  refine ⟨?_, fun pre hpre => ?_⟩
  · rw [List.length_append, List.length_cons]
    omega
  · exact hpre.isPrefix.trans (List.prefix_append _ _)

/-- A name that was cut. -/
theorem recognisable_cut_iff (hsep : sep.isDigit = false) (hdigits : ∀ c ∈ digits, c.isDigit = true)
    (hcut : cut ≤ base.length) :
    Recognisable maxLength base (base.take cut ++ sep :: digits) ↔ cut + (1 + digits.length) ≤ maxLength ∧
      (base.take (maxLength - (1 + digits.length))).drop cut <+: sep :: digits := by
  have hlength : (base.take cut ++ sep :: digits).length = cut + (1 + digits.length) := by
    rw [List.length_append, List.length_cons, List.length_take]
    omega
  constructor
  · rintro ⟨hfits, hstarts⟩
    rw [hlength] at hfits
    rw [trailingDigits_append hsep hdigits, startsWith_iff (by omega), take_prefix_iff] at hstarts
    exact ⟨hfits, hstarts⟩
  · rintro ⟨hfits, hstarts⟩
    refine ⟨hlength.trans_le hfits, ?_⟩
    rw [trailingDigits_append hsep hdigits, startsWith_iff (by omega), take_prefix_iff]
    exact hstarts

end NumberedNames

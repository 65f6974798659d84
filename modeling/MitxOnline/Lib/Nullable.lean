import Mathlib.Data.List.Basic
import Mathlib.Order.Bounds.Basic

/-!
# Filters over nullable columns

A comparison with a null column is neither true nor false, and a filter selects the rows for which its
condition is true. So a filter and the filter of the opposite comparisons need not cover a table: they
both pass over the rows for which the comparisons are unknown.
-/

namespace Nullable

/-- The truth value of a condition; `none` is unknown. -/
abbrev Truth := Option Bool

variable {α : Type}

/-- A comparison with a nullable column. -/
def compare (p : α → Bool) (column : Option α) : Truth := column.map p

/-- The condition of a column that is never null. -/
def known (b : Bool) : Truth := some b

/-- `IS NULL` -/
def isNull (column : Option α) : Truth := known column.isNone

/-- `IS NOT NULL` -/
def isNotNull (column : Option α) : Truth := known column.isSome

/-- `AND`: false if either side is, unknown if neither side is false and one is unknown. -/
def Truth.and : Truth → Truth → Truth
  | some false, _ => some false
  | _, some false => some false
  | some true, b => b
  | none, _ => none

/-- `OR`: true if either side is, unknown if neither side is true and one is unknown. -/
def Truth.or : Truth → Truth → Truth
  | some true, _ => some true
  | _, some true => some true
  | some false, b => b
  | none, _ => none

/-- A filter selects the rows for which its condition is true. -/
def selects (t : Truth) : Bool := t == some true

/-- The rows that a filter selects. -/
def filter (condition : α → Truth) (rows : List α) : List α := rows.filter (selects ∘ condition)

@[simp] theorem selects_known (b : Bool) : selects (known b) = b := by
  cases b <;> rfl

@[simp] theorem selects_compare (p : α → Bool) (column : Option α) :
    selects (compare p column) = column.any p := by
  cases column <;> simp [compare, selects]

@[simp] theorem selects_isNull (column : Option α) : selects (isNull column) = column.isNone := by
  simp [isNull]

@[simp] theorem selects_isNotNull (column : Option α) :
    selects (isNotNull column) = column.isSome := by
  simp [isNotNull]

@[simp] theorem selects_and (a b : Truth) : selects (a.and b) = (selects a && selects b) := by
  rcases a with _ | _ | _ <;> rcases b with _ | _ | _ <;> rfl

@[simp] theorem selects_or (a b : Truth) : selects (a.or b) = (selects a || selects b) := by
  rcases a with _ | _ | _ <;> rcases b with _ | _ | _ <;> rfl

theorem mem_filter {condition : α → Truth} {rows : List α} {a : α} :
    a ∈ filter condition rows ↔ a ∈ rows ∧ selects (condition a) = true := by
  simp [filter]

/-! ## Orders -/

section Orders

variable {β : Type}

/-- Rows in the order of a nullable column: nulls come last. -/
def NullsLast [LE β] : Option β → Option β → Prop
  | _, none => True
  | none, some _ => False
  | some x, some y => x ≤ y

instance [LE β] [DecidableLE β] : DecidableRel (NullsLast : Option β → Option β → Prop) := fun x y =>
  match x, y with
  | none, none => isTrue trivial
  | some _, none => isTrue trivial
  | none, some _ => isFalse id
  | some x, some y => inferInstanceAs (Decidable (x ≤ y))

variable [PartialOrder β]

theorem NullsLast.trans {a b c : Option β} (hab : NullsLast a b) (hbc : NullsLast b c) : NullsLast a c := by
  cases c with
  | none => cases a <;> trivial
  | some z =>
    cases b with
    | none => exact hbc.elim
    | some y =>
      cases a with
      | none => exact hab.elim
      | some x => exact le_trans hab hbc

/-- The first of the rows has the least value of the column, if there is one. -/
theorem isLeast_of_sorted {column : α → Option β} {first : α} {rest : List α} {x : β}
    (hsorted : (first :: rest).Pairwise fun a b => NullsLast (column a) (column b)) :
    IsLeast {y | ∃ a ∈ first :: rest, column a = some y} x ↔ column first = some x := by
  have hfirst := (List.pairwise_cons.mp hsorted).1
  constructor
  · rintro ⟨⟨a, ha, hx⟩, hle⟩
    rcases List.mem_cons.mp ha with rfl | ha
    · exact hx
    · have hlast := hfirst a ha
      rw [hx] at hlast
      cases hcolumn : column first with
      | none =>
        rw [hcolumn] at hlast
        exact hlast.elim
      | some z =>
        rw [hcolumn] at hlast
        have hxz : x ≤ z := hle ⟨first, List.mem_cons_self, hcolumn⟩
        rw [le_antisymm hlast hxz]
  · intro hx
    refine ⟨⟨first, List.mem_cons_self, hx⟩, fun y => ?_⟩
    rintro ⟨a, ha, hy⟩
    rcases List.mem_cons.mp ha with rfl | ha
    · rw [hx] at hy
      exact (Option.some.inj hy).le
    · have hlast := hfirst a ha
      rw [hx, hy] at hlast
      exact hlast

theorem NullsLast.total {γ : Type} [LinearOrder γ] (a b : Option γ) : NullsLast a b ∨ NullsLast b a := by
  cases a with
  | none => exact .inr (by cases b <;> trivial)
  | some x =>
    cases b with
    | none => exact .inl trivial
    | some y => exact le_total x y

end Orders

end Nullable

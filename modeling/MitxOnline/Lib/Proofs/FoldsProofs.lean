import Mathlib.Algebra.BigOperators.Group.Multiset.Basic
import Mathlib.Algebra.GroupWithZero.Nat
import Mathlib.Algebra.Order.BigOperators.Group.List
import Mathlib.Order.Lattice

/-!
# Minima, sums and counts over lists

A loop that keeps the smallest value it has seen, a loop in which each round changes one row, sums of
differences and of values that are not negative, and the number of elements with a weight or outside another
list.
-/

namespace Folds

variable {α β : Type}

section Min

variable [LinearOrder β]

theorem le_foldl_min_iff (f : α → β) (xs : List α) (init x : β) :
    x ≤ xs.foldl (fun best a => min (f a) best) init ↔ x ≤ init ∧ ∀ a ∈ xs, x ≤ f a := by
  induction xs generalizing init with
  | nil => simp
  | cons a xs ih =>
    rw [List.foldl_cons, ih, le_min_iff, List.forall_mem_cons]
    tauto

/-- The smallest value is the initial one or that of an element. -/
theorem foldl_min_cases (f : α → β) (xs : List α) (init : β) :
    xs.foldl (fun best a => min (f a) best) init = init ∨
      ∃ a ∈ xs, xs.foldl (fun best a => min (f a) best) init = f a := by
  induction xs generalizing init with
  | nil => exact Or.inl rfl
  | cons a xs ih =>
    rw [List.foldl_cons]
    rcases ih (min (f a) init) with h | ⟨b, hb, h⟩
    · rcases min_choice (f a) init with hmin | hmin
      · exact Or.inr ⟨a, List.mem_cons_self, h.trans hmin⟩
      · exact Or.inl (h.trans hmin)
    · exact Or.inr ⟨b, List.mem_cons_of_mem a hb, h⟩

end Min

section Rows

/-- Where each round changes its own row and no other, a loop over different keys changes the rows of its
keys once. -/
theorem foldl_row {σ : Type} [DecidableEq α] {step : σ → α → σ} (row : σ → α → β) (f : α → β → β)
    (hstep : ∀ s k i, row (step s k) i = if i = k then f k (row s k) else row s i) {keys : List α}
    (hkeys : keys.Nodup) (s : σ) (i : α) :
    row (keys.foldl step s) i = if i ∈ keys then f i (row s i) else row s i := by
  induction keys generalizing s with
  | nil => rfl
  | cons k rest ih =>
    obtain ⟨hk, hrest⟩ := List.nodup_cons.mp hkeys
    rw [List.foldl_cons, ih hrest, hstep]
    by_cases hi : i = k
    · subst hi
      simp [hk]
    · simp [hi]

end Rows

section Sum

theorem sum_map_sub [AddCommGroup β] (xs : List α) (f g : α → β) :
    (xs.map fun a => f a - g a).sum = (xs.map f).sum - (xs.map g).sum := by
  have h := Multiset.sum_map_sub (m := (xs : Multiset α)) (f := f) (g := g)
  simpa using h

theorem sum_map_eq_zero_iff [AddCommGroup β] [PartialOrder β] [IsOrderedAddMonoid β] {xs : List α}
    {f : α → β} (h : ∀ a ∈ xs, 0 ≤ f a) : (xs.map f).sum = 0 ↔ ∀ a ∈ xs, f a = 0 := by
  have hpos : ∀ x ∈ xs.map f, 0 ≤ x := by
    intro x hx
    obtain ⟨a, ha, rfl⟩ := List.mem_map.mp hx
    exact h a ha
  constructor
  · intro hsum a ha
    exact List.all_zero_of_le_zero_le_of_sum_eq_zero hpos hsum (List.mem_map_of_mem ha)
  · intro hall
    apply List.sum_eq_zero
    intro x hx
    obtain ⟨a, ha, rfl⟩ := List.mem_map.mp hx
    exact hall a ha

end Sum

section Count

/-- A list has at most as many elements of positive weight as its weights add up to. -/
theorem length_filter_pos_le_sum (w : α → ℕ) (xs : List α) :
    (xs.filter fun a => decide (0 < w a)).length ≤ (xs.map w).sum := by
  induction xs with
  | nil => simp
  | cons a xs ih =>
    rw [List.map_cons, List.sum_cons, List.filter_cons]
    by_cases ha : 0 < w a
    · rw [if_pos (by simpa using ha), List.length_cons]
      omega
    · rw [if_neg (by simpa using ha)]
      omega

/-- They are equally many exactly if no weight is larger than one. -/
theorem sum_eq_length_filter_pos_iff (w : α → ℕ) (xs : List α) :
    (xs.map w).sum = (xs.filter fun a => decide (0 < w a)).length ↔ ∀ a ∈ xs, w a ≤ 1 := by
  induction xs with
  | nil => simp
  | cons a xs ih =>
    have hle := length_filter_pos_le_sum w xs
    rw [List.map_cons, List.sum_cons, List.filter_cons, List.forall_mem_cons, ← ih]
    by_cases ha : 0 < w a
    · rw [if_pos (by simpa using ha), List.length_cons]
      omega
    · rw [if_neg (by simpa using ha)]
      omega

/-- The weight of a list without repetitions is that of a part and of what is outside. -/
theorem sum_filter_notMem [DecidableEq α] (w : α → ℕ) {xs ys : List α} (hxs : xs.Nodup)
    (hys : ys.Nodup) (h : ∀ a ∈ ys, a ∈ xs) :
    ((xs.filter fun a => decide (a ∉ ys)).map w).sum + (ys.map w).sum = (xs.map w).sum := by
  have hperm : (xs.filter fun a => decide (a ∈ ys)).Perm ys := by
    refine (List.perm_ext_iff_of_nodup (hxs.filter _) hys).mpr fun a => ?_
    rw [List.mem_filter, decide_eq_true_iff]
    constructor
    · exact And.right
    · intro ha
      exact ⟨h a ha, ha⟩
  have hsplit := List.sum_map_filter_add_sum_map_filter_not (fun a => a ∈ ys) w xs
  rw [(hperm.map w).sum_eq] at hsplit
  omega

/-- The elements outside a part of a list without repetitions are those that the part leaves. -/
theorem length_filter_notMem [DecidableEq α] {xs ys : List α} (hxs : xs.Nodup) (hys : ys.Nodup)
    (h : ∀ a ∈ ys, a ∈ xs) : (xs.filter fun a => decide (a ∉ ys)).length + ys.length = xs.length := by
  have hsum := sum_filter_notMem (fun _ => 1) hxs hys h
  simpa using hsum

end Count

end Folds

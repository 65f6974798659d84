import Mathlib.Algebra.Order.Group.Unbundled.Abs
import Mathlib.Data.List.Sort
import Mathlib.Algebra.Order.Group.Defs
import Mathlib.Algebra.Order.Group.Unbundled.Basic

/-!
# Times in sliding windows, and sorted sets

A rate limit bounds how many times lie in any window. A limiter hands out times one after the other and
keeps those that still count in a sorted set.
-/

namespace SlidingWindow

variable {τ : Type}

section Limits

variable [AddCommGroup τ] [LinearOrder τ]

/-- Every half-open interval of length `window` contains at most `m` of the times. -/
def AtMost (window : τ) (m : ℕ) (times : List τ) : Prop :=
  ∀ a, times.countP (fun t => decide (a ≤ t ∧ t < a + window)) ≤ m ∧
    times.countP (fun t => decide (a < t ∧ t ≤ a + window)) ≤ m

/-- Any two of the times, and so consecutive ones, are at least `delay` apart. -/
def Spaced (delay : τ) (times : List τ) : Prop := times.Pairwise fun s t => delay ≤ |s - t|

/-- Times, newest first: each is `delay` or more after the one before it and `window` or more after the
`m`-th before it. -/
def Paced (window delay : τ) (m : ℕ) : List τ → Prop
  | [] => True
  | t :: older =>
    (∀ s ∈ older.head?, s + delay ≤ t) ∧ (∀ s ∈ older[m - 1]?, s + window ≤ t) ∧
      Paced window delay m older

end Limits

/-- A sorted set: its scores in increasing order. Its members are not looked at. -/
structure SortedSet (τ : Type) [LinearOrder τ] where
  scores : List τ
  sorted : scores.Pairwise (· ≤ ·)

namespace SortedSet

variable [LinearOrder τ]

/-- A key that does not exist. -/
def empty : SortedSet τ := ⟨[], List.Pairwise.nil⟩

theorem sorted_add (s : SortedSet τ) (t : τ) :
    (s.scores.orderedInsert (· ≤ ·) t).Pairwise (· ≤ ·) := s.sorted.orderedInsert t s.scores

theorem sorted_removeUpTo (s : SortedSet τ) (bound : τ) :
    (s.scores.filter fun t => decide (bound < t)).Pairwise (· ≤ ·) := s.sorted.filter _

/-- `ZADD` of a new member. -/
def add (s : SortedSet τ) (t : τ) : SortedSet τ :=
  ⟨s.scores.orderedInsert (· ≤ ·) t, s.sorted_add t⟩

/-- `ZREMRANGEBYSCORE` from `-inf` to the bound. -/
def removeUpTo (s : SortedSet τ) (bound : τ) : SortedSet τ :=
  ⟨s.scores.filter fun t => decide (bound < t), s.sorted_removeUpTo bound⟩

/-- `ZCARD` -/
def card (s : SortedSet τ) : ℕ := s.scores.length

/-- `ZRANGE key 0 0 WITHSCORES` -/
def lowest (s : SortedSet τ) : Option τ := s.scores.head?

/-- `ZRANGE key -1 -1 WITHSCORES` -/
def highest (s : SortedSet τ) : Option τ := s.scores.getLast?

end SortedSet

/-!
## Paced times respect their limits

A paced list decreases, so of the times before its head only the first `m - 1` can lie in one window
with it.
-/

variable [LinearOrder τ]

/-- From position `n` on, a decreasing list is at most its entry at `n`. -/
theorem le_of_mem_drop {times : List τ} {t : τ} (h : times.Pairwise (· ≥ ·)) {n : ℕ} (ht : t ∈ times.drop n) :
    ∃ s ∈ times[n]?, t ≤ s := by
  cases hdrop : times.drop n with
  | nil => rw [hdrop] at ht; cases ht
  | cons s rest =>
    have hs : times[n]? = some s := by
      rw [← List.head?_drop, hdrop, List.head?_cons]
    refine ⟨s, hs, ?_⟩
    have hpair : (s :: rest).Pairwise (· ≥ ·) := hdrop ▸ h.sublist (List.drop_sublist n times)
    rw [hdrop] at ht
    rcases List.mem_cons.mp ht with rfl | ht
    · exact le_rfl
    · exact (List.pairwise_cons.mp hpair).1 t ht

section Limits

variable [AddCommGroup τ] [IsOrderedAddMonoid τ] {window delay s t : τ} {m : ℕ} {older times : List τ}

/-- The times of a paced list are at least `delay` apart, and the newest comes first. -/
theorem Paced.pairwise (hdelay : 0 ≤ delay) (h : Paced window delay m times) :
    times.Pairwise fun t s => s + delay ≤ t := by
  induction times with
  | nil => exact List.Pairwise.nil
  | cons t older ih =>
    obtain ⟨hnewest, -, holder⟩ := h
    refine List.pairwise_cons.mpr ⟨fun s hs => ?_, ih holder⟩
    cases older with
    | nil => cases hs
    | cons u rest =>
      have hut : u + delay ≤ t := hnewest u rfl
      rcases List.mem_cons.mp hs with rfl | hs
      · exact hut
      · have hsu : s + delay ≤ u := (List.pairwise_cons.mp (ih holder)).1 s hs
        calc s + delay ≤ u := hsu
          _ ≤ u + delay := le_add_of_nonneg_right hdelay
          _ ≤ t := hut

/-- Paced times decrease. -/
theorem Paced.decreasing (hdelay : 0 ≤ delay) (h : Paced window delay m times) :
    times.Pairwise (· ≥ ·) :=
  (h.pairwise hdelay).imp fun hst => (le_add_of_nonneg_right hdelay).trans hst

theorem Paced.spaced (hdelay : 0 ≤ delay) (h : Paced window delay m times) : Spaced delay times :=
  (h.pairwise hdelay).imp fun hst => (le_sub_iff_add_le'.mpr hst).trans (le_abs_self _)

/-- A set of times that never holds two that are `window` apart holds at most `m` of a paced list. -/
theorem Paced.countP_le (hdelay : 0 ≤ delay) (hm : 0 < m) (h : Paced window delay m times)
    {p : τ → Bool} (hp : ∀ s t, s + window ≤ t → p t = true → p s = false) : times.countP p ≤ m := by
  induction times with
  | nil => exact Nat.zero_le m
  | cons t older ih =>
    obtain ⟨-, hwindow, holder⟩ := h
    cases hpt : p t with
    | false =>
      rw [List.countP_cons_of_neg (by simp [hpt])]
      exact ih holder
    | true =>
      -- what is `m` or more positions before `t` is not in the set with `t`
      have hout : (older.drop (m - 1)).countP p = 0 := by
        rw [List.countP_eq_zero]
        intro s hs
        obtain ⟨u, hu, hsu⟩ := le_of_mem_drop (holder.decreasing hdelay) hs
        have hst : s + window ≤ t := (add_le_add_left hsu window).trans (hwindow u hu)
        simp [hp s t hst hpt]
      have hin : (older.take (m - 1)).countP p ≤ m - 1 :=
        List.countP_le_length.trans (List.length_take_le _ _)
      have hsplit : older.countP p = (older.take (m - 1)).countP p + (older.drop (m - 1)).countP p := by
        rw [← List.countP_append, List.take_append_drop]
      rw [List.countP_cons_of_pos hpt]
      omega

theorem Paced.atMost (hdelay : 0 ≤ delay) (hm : 0 < m) (h : Paced window delay m times) :
    AtMost window m times := by
  intro a
  constructor
  · refine h.countP_le hdelay hm fun s t hst ht => decide_eq_false ?_
    rintro ⟨has, -⟩
    have hat : a + window ≤ t := (add_le_add_left has window).trans hst
    exact absurd (of_decide_eq_true ht).2 (not_lt.mpr hat)
  · refine h.countP_le hdelay hm fun s t hst ht => decide_eq_false ?_
    rintro ⟨has, -⟩
    have hat : a + window < t := (add_lt_add_left has window).trans_le hst
    exact absurd (of_decide_eq_true ht).2 (not_le.mpr hat)

end Limits

namespace SortedSet

variable {set : SortedSet τ} {s t bound : τ}

/-- The scores up to a bound come first. -/
theorem filter_append_removeUpTo (set : SortedSet τ) (bound : τ) :
    set.scores = (set.scores.filter fun t => decide (t ≤ bound)) ++ (set.removeUpTo bound).scores := by
  obtain ⟨scores, sorted⟩ := set
  simp only [removeUpTo]
  induction scores with
  | nil => rfl
  | cons t rest ih =>
    obtain ⟨hlt, hrest⟩ := List.pairwise_cons.mp sorted
    by_cases ht : t ≤ bound
    · rw [List.filter_cons_of_pos (by simpa using ht), List.filter_cons_of_neg (by simpa using ht)]
      exact congrArg (t :: ·) (ih hrest)
    · have hall : ∀ s ∈ t :: rest, bound < s := by
        intro s hs
        rcases List.mem_cons.mp hs with rfl | hs
        · exact not_le.mp ht
        · exact (not_le.mp ht).trans_le (hlt s hs)
      have hlow : ((t :: rest).filter fun s => decide (s ≤ bound)) = [] :=
        List.filter_eq_nil_iff.mpr fun s hs => by simpa using hall s hs
      have hhigh : ((t :: rest).filter fun s => decide (bound < s)) = t :: rest :=
        List.filter_eq_self.mpr fun s hs => by simpa using hall s hs
      rw [hlow, hhigh, List.nil_append]

/-- A new highest score comes last. -/
theorem add_of_highest (h : ∀ s ∈ set.scores, s ≤ t) : (set.add t).scores = set.scores ++ [t] := by
  have hperm : (set.add t).scores.Perm (set.scores ++ [t]) :=
    (List.perm_orderedInsert _ _ _).trans (List.perm_append_singleton _ _).symm
  refine hperm.eq_of_pairwise' (set.add t).sorted (List.pairwise_append.mpr ⟨set.sorted, ?_, ?_⟩)
  · exact List.pairwise_singleton _ _
  · intro s hs u hu
    rw [List.mem_singleton.mp hu]
    exact h s hs

theorem le_highest (h : set.highest = some t) : ∀ s ∈ set.scores, s ≤ t := by
  intro s hs
  obtain ⟨init, hscores⟩ := List.getLast?_eq_some_iff.mp h
  have hpair := set.sorted
  rw [hscores] at hs hpair
  rcases List.mem_append.mp hs with hs | hs
  · exact (List.pairwise_append.mp hpair).2.2 s hs t (List.mem_singleton_self t)
  · exact (List.mem_singleton.mp hs).le

theorem highest_none (h : set.highest = none) : set.scores = [] := List.getLast?_eq_none_iff.mp h

end SortedSet

end SlidingWindow

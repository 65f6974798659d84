import Mathlib.Algebra.GroupWithZero.Nat
import Mathlib.Data.List.Sort

/-!
# Drawing from a list with multiplicities

A query that joins a table with another lists a row once for each of its partners, one copy after the
other. A draw takes rows from the front of such a list.
-/

namespace Draws

variable {α : Type}

/-- Each element as often as `m` says, one copy after the other. -/
def expand (m : α → ℕ) (l : List α) : List α := l.flatMap fun a => List.replicate (m a) a

theorem mem_expand {m : α → ℕ} {l : List α} {a : α} : a ∈ expand m l ↔ a ∈ l ∧ 0 < m a := by
  unfold expand
  simp only [List.mem_flatMap, List.mem_replicate]
  constructor
  · rintro ⟨b, hb, hpos, rfl⟩
    exact ⟨hb, Nat.pos_of_ne_zero hpos⟩
  · rintro ⟨ha, hpos⟩
    exact ⟨a, ha, Nat.ne_of_gt hpos, rfl⟩

theorem expand_cons (m : α → ℕ) (a : α) (l : List α) :
    expand m (a :: l) = List.replicate (m a) a ++ expand m l := rfl

/-- A test on the copies is a test on the elements. -/
theorem filter_expand (m : α → ℕ) (p : α → Bool) (l : List α) :
    (expand m l).filter p = expand m (l.filter p) := by
  induction l with
  | nil => rfl
  | cons a l ih =>
    rw [expand_cons, List.filter_append, ih]
    cases hp : p a with
    | true => rw [List.filter_replicate_of_pos hp, List.filter_cons_of_pos hp, expand_cons]
    | false =>
      have hp' : ¬p a = true := by simp [hp]
      rw [List.filter_replicate_of_neg hp', List.filter_cons_of_neg hp', List.nil_append]

variable [LinearOrder α]

/-- The number of copies of smaller elements. -/
def before (m : α → ℕ) (l : List α) (a : α) : ℕ := ((l.filter (· < a)).map m).sum

/-! ## What a draw takes

From a sorted list, a draw reaches an element if there are fewer copies of smaller elements than are
drawn, and takes it twice unless it has one copy only or the draw ends with its first one. -/

variable {m : α → ℕ} {a b : α} {l : List α} {n : ℕ}

/-- Nothing is smaller than the first element of a sorted list. -/
theorem before_head (h : (a :: l).Pairwise (· < ·)) : before m (a :: l) a = 0 := by
  unfold before
  have hnone : (a :: l).filter (· < a) = [] := by
    refine List.filter_eq_nil_iff.mpr fun b hb => ?_
    rcases List.mem_cons.mp hb with rfl | hb
    · simp
    · simpa using le_of_lt (List.rel_of_pairwise_cons h hb)
  rw [hnone]
  rfl

/-- The copies of the first element come before those of the others. -/
theorem before_tail (h : (a :: l).Pairwise (· < ·)) (hb : b ∈ l) :
    before m (a :: l) b = m a + before m l b := by
  have hab : a < b := List.rel_of_pairwise_cons h hb
  unfold before
  rw [List.filter_cons_of_pos (by simpa using hab), List.map_cons, List.sum_cons]

/-- A draw takes the elements that have fewer copies before them than it takes. -/
theorem mem_take_expand (h : l.Pairwise (· < ·)) :
    b ∈ (expand m l).take n ↔ b ∈ l ∧ 0 < m b ∧ before m l b < n := by
  induction l generalizing n with
  | nil => simp [expand]
  | cons a l ih =>
    have hl := List.Pairwise.of_cons h
    rw [expand_cons, List.take_append, List.mem_append, List.length_replicate, ih hl,
      List.take_replicate, List.mem_replicate, List.mem_cons]
    constructor
    · rintro (⟨hne, rfl⟩ | ⟨hb, hpos, hlt⟩)
      · rw [before_head h]
        exact ⟨.inl rfl, by omega, by omega⟩
      · rw [before_tail h hb]
        exact ⟨.inr hb, hpos, by omega⟩
    · rintro ⟨rfl | hb, hpos, hlt⟩
      · rw [before_head h] at hlt
        exact .inl ⟨by omega, rfl⟩
      · rw [before_tail h hb] at hlt
        exact .inr ⟨hb, hpos, by omega⟩

/-- A draw takes nothing twice exactly if every element that it reaches has one copy or is reached at its
end. -/
theorem nodup_take_expand_iff (h : l.Pairwise (· < ·)) :
    ((expand m l).take n).Nodup ↔
      ∀ b ∈ l, 0 < m b → before m l b < n → m b = 1 ∨ before m l b + 1 = n := by
  induction l generalizing n with
  | nil => simp [expand]
  | cons a l ih =>
    have hl := List.Pairwise.of_cons h
    have hdisjoint : List.Disjoint (List.replicate (min n (m a)) a) ((expand m l).take (n - m a)) := by
      intro b hb hb'
      obtain rfl := (List.mem_replicate.mp hb).2
      have hmem := (mem_expand.mp (List.mem_of_mem_take hb')).1
      exact lt_irrefl b (List.rel_of_pairwise_cons h hmem)
    rw [expand_cons, List.take_append, List.length_replicate, List.take_replicate, List.nodup_append',
      ih hl, List.nodup_replicate, List.forall_mem_cons, before_head h, and_iff_left hdisjoint]
    refine and_congr ⟨fun hmin hpos hlt => by omega, fun hhead => ?_⟩ ?_
    · rcases Nat.eq_zero_or_pos (m a) with hzero | hpos
      · omega
      · rcases Nat.eq_zero_or_pos n with hn | hn
        · omega
        · have hcopies := hhead hpos hn
          omega
    · refine forall₂_congr fun b hb => ?_
      rw [before_tail h hb]
      constructor
      · intro hrest hpos hlt
        have hcopies := hrest hpos (by omega)
        omega
      · intro hrest hpos hlt
        have hcopies := hrest hpos (by omega)
        omega

end Draws

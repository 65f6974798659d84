import Mathlib.Data.List.Basic
import Mathlib.Order.Basic
import Mathlib.Order.Lattice

/-!
# Ladders
A ladder has rungs of some heights, and whoever reaches up to `x` gets to the highest rung that is not
above `x`. Where there are several ladders in a row, the first one with a rung within reach is climbed.
-/

namespace Ladder

variable {α β γ : Type} [LinearOrder α] (height : β → α)

/-- The highest rung within reach; of rungs of one height the one that is listed first. -/
def highest (rungs : List β) (x : α) : Option β :=
  ((rungs.filter fun r => decide (height r ≤ x)).mergeSort
    fun r s => decide (height s ≤ height r)).head?

/-- The highest rung of the first ladder that has one within reach. -/
def climb (rungs : γ → List β) (ladders : List γ) (x : α) : Option β :=
  ladders.findSome? fun c => highest height (rungs c) x

/-- No rung within reach is higher than `r`, which is within reach itself. -/
structure IsHighest (rungs : List β) (x : α) (r : β) : Prop where
  mem : r ∈ rungs
  reached : height r ≤ x
  le : ∀ s ∈ rungs, height s ≤ x → height s ≤ height r

/-- `r` is a highest rung within reach of the first ladder that has a rung within reach. -/
inductive Climbs (rungs : γ → List β) (x : α) : List γ → β → Prop where
  | here {c : γ} {ladders : List γ} {r : β} (h : IsHighest height (rungs c) x r) :
      Climbs rungs x (c :: ladders) r
  | later {c : γ} {ladders : List γ} {r : β} (hc : ∀ s ∈ rungs c, x < height s)
      (h : Climbs rungs x ladders r) : Climbs rungs x (c :: ladders) r

/-! ## What a ladder gets one to

`highest` and `climb` find what `IsHighest` and `Climbs` describe, and the description says that a
longer reach never ends on a lower rung, even where it ends on an earlier ladder. -/

variable {height} {rungs rungs' : γ → List β}
  {l l' : List β} {ladders : List γ} {x y : α} {r s : β}

theorem highest_eq_none_iff : highest height l x = none ↔ ∀ s ∈ l, x < height s := by
  have hempty (sorted : List β) : sorted.head? = none ↔ sorted.length = 0 := by
    cases sorted <;> simp
  rw [highest, hempty, List.length_mergeSort, List.length_eq_zero_iff, List.filter_eq_nil_iff]
  simp

/-- The first of the rungs within reach, in decreasing order, is the highest of them. -/
theorem isHighest_of_highest (h : highest height l x = some r) : IsHighest height l x r := by
  unfold highest at h
  set reached := l.filter fun s => decide (height s ≤ x) with hreached
  obtain ⟨rest, hsorted⟩ := List.head?_eq_some_iff.mp h
  have hmem (s : β) : s ∈ r :: rest ↔ s ∈ l ∧ height s ≤ x := by
    rw [← hsorted, List.mem_mergeSort, hreached, List.mem_filter, decide_eq_true_iff]
  have hpairwise : (reached.mergeSort fun s t => decide (height t ≤ height s)).Pairwise fun s t =>
      decide (height t ≤ height s) = true := by
    refine List.pairwise_mergeSort (fun a b c hab hbc => ?_) (fun a b => ?_) reached
    · simp only [decide_eq_true_iff] at hab hbc ⊢
      exact hbc.trans hab
    · simpa using le_total (height b) (height a)
  rw [hsorted, List.pairwise_cons] at hpairwise
  obtain ⟨hr, hrx⟩ := (hmem r).mp (List.mem_cons_self ..)
  refine ⟨hr, hrx, fun s hs hsx => ?_⟩
  rcases List.mem_cons.mp ((hmem s).mpr ⟨hs, hsx⟩) with rfl | hrest
  · exact le_refl _
  · exact of_decide_eq_true (hpairwise.1 s hrest)

theorem IsHighest.mono (hr : IsHighest height l x r) (hs : IsHighest height l y s) (hxy : x ≤ y) :
    height r ≤ height s :=
  hs.le r hr.mem (hr.reached.trans hxy)

theorem IsHighest.congr (h : IsHighest height l x r) (hmem : ∀ s, s ∈ l ↔ s ∈ l') :
    IsHighest height l' x r :=
  ⟨(hmem r).mp h.mem, h.reached, fun s hs => h.le s ((hmem s).mpr hs)⟩

theorem climb_eq_none_iff :
    climb height rungs ladders x = none ↔ ∀ c ∈ ladders, ∀ s ∈ rungs c, x < height s := by
  rw [climb, List.findSome?_eq_none_iff]
  simp only [highest_eq_none_iff]

theorem climbs_of_climb (h : climb height rungs ladders x = some r) :
    Climbs height rungs x ladders r := by
  induction ladders with
  | nil => cases h
  | cons c ladders ih =>
    rw [climb, List.findSome?_cons] at h
    cases hc : highest height (rungs c) x with
    | none =>
      rw [hc] at h
      exact .later (highest_eq_none_iff.mp hc) (ih h)
    | some s =>
      rw [hc] at h
      obtain rfl : s = r := Option.some.inj h
      exact .here (isHighest_of_highest hc)

theorem Climbs.reached (h : Climbs height rungs x ladders r) : height r ≤ x := by
  induction h with
  | here h => exact h.reached
  | later _ _ ih => exact ih

theorem Climbs.mem (h : Climbs height rungs x ladders r) : ∃ c ∈ ladders, r ∈ rungs c := by
  induction h with
  | here h => exact ⟨_, List.mem_cons_self, h.mem⟩
  | later _ _ ih =>
    obtain ⟨c, hc, hr⟩ := ih
    exact ⟨c, List.mem_cons_of_mem _ hc, hr⟩

theorem Climbs.congr (h : Climbs height rungs x ladders r)
    (hmem : ∀ c s, s ∈ rungs c ↔ s ∈ rungs' c) : Climbs height rungs' x ladders r := by
  induction h with
  | here h => exact .here (h.congr (hmem _))
  | later hc _ ih => exact .later (fun s hs => hc s ((hmem _ s).mpr hs)) ih

/-- A longer reach ends at least as high. It may end on an earlier ladder, but only on a rung that the
shorter reach did not get to. -/
theorem Climbs.mono (hr : Climbs height rungs x ladders r) (hs : Climbs height rungs y ladders s)
    (hxy : x ≤ y) : height r ≤ height s := by
  induction hr with
  | here hr =>
    cases hs with
    | here hs => exact hr.mono hs hxy
    | later hc _ =>
      have hreached : height _ ≤ y := hr.reached.trans hxy
      exact absurd (hc _ hr.mem) (not_lt_of_ge hreached)
  | later hc hr ih =>
    cases hs with
    | here hs =>
      have hbelow : x < height s := hc s hs.mem
      exact hr.reached.trans hbelow.le
    | later _ hs => exact ih hs

end Ladder

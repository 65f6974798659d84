import Mathlib.Data.List.Pairwise
import Mathlib.Data.List.Sort
import Mathlib.Order.Lattice

/-!
# Paging by the last key

A loop takes the items of a query in pages: each page holds the first items after the last one seen. What is
done with an item may change what the query answers for the next page.
-/

namespace Paging

variable {σ κ : Type} [LinearOrder κ]

/-- The page after `last`. -/
def page (items : σ → List κ) (size : ℕ) (last : κ) (s : σ) : List κ :=
  ((items s).filter fun i => decide (last < i)).take size

/-- The loop over the pages; `none` where the fuel runs out. -/
def pages (items : σ → List κ) (visit : σ → κ → σ) (size : ℕ) : ℕ → κ → σ → Option σ
  | 0, _, _ => none
  | fuel + 1, last, s =>
    match page items size last s with
    | [] => some s
    | i :: rest => pages items visit size fuel ((i :: rest).getLast (by simp)) ((i :: rest).foldl visit s)

/-- Visiting an item of the query changes what the query says of no other item. -/
def OwnItemOnly (items : σ → List κ) (visit : σ → κ → σ) : Prop :=
  ∀ s i k, i ∈ items s → k ≠ i → (k ∈ items (visit s i) ↔ k ∈ items s)

/-! ## Pages are one pass

If the query lists its items in increasing order, and visiting an item changes what it says of no other, then
the pages together visit every item once, in order, whatever their size. -/

variable {items : σ → List κ} {visit : σ → κ → σ} {s : σ} {last : κ}
  {size : ℕ} {xs first rest : List κ}

omit [LinearOrder κ] in
/-- What the query says of other items after a part of a page. -/
theorem mem_items_foldl (hown : OwnItemOnly items visit) (hnodup : xs.Nodup) (hitems : ∀ i ∈ xs, i ∈ items s)
    {k : κ} (hk : k ∉ xs) : k ∈ items (xs.foldl visit s) ↔ k ∈ items s := by
  induction xs generalizing s with
  | nil => exact Iff.rfl
  | cons i rest ih =>
    obtain ⟨hi, hrest⟩ := List.nodup_cons.mp hnodup
    obtain ⟨hki, hkrest⟩ := not_or.mp (mt List.mem_cons.mpr hk)
    have hitem := hitems i List.mem_cons_self
    have hstill : ∀ j ∈ rest, j ∈ items (visit s i) := by
      intro j hj
      have hne : j ≠ i := fun h => hi (h ▸ hj)
      exact (hown s i j hitem hne).mpr (hitems j (List.mem_cons_of_mem i hj))
    rw [List.foldl_cons, ih hrest hstill hkrest]
    exact hown s i k hitem hki

/-- After a page, the query has the rest. -/
theorem filter_after_page (hsorted : ∀ s, (items s).Pairwise (· < ·)) (hown : OwnItemOnly items visit)
    (hsplit : ((items s).filter fun i => decide (last < i)) = first ++ rest) {final : κ}
    (hfinal : final ∈ first) (hle : ∀ i ∈ first, i ≤ final) :
    ((items (first.foldl visit s)).filter fun i => decide (final < i)) = rest := by
  have hpairwise : (first ++ rest).Pairwise (· < ·) := hsplit ▸ (hsorted s).filter _
  obtain ⟨hfirst, hrest, hbefore⟩ := List.pairwise_append.mp hpairwise
  have hmem : ∀ i, i ∈ first ++ rest ↔ i ∈ items s ∧ last < i := by
    intro i
    rw [← hsplit, List.mem_filter, decide_eq_true_iff]
  have hlast : last < final := ((hmem final).mp (List.mem_append_left rest hfinal)).2
  refine ((hsorted _).filter _).eq_of_mem_iff hrest fun k => ?_
  rw [List.mem_filter, decide_eq_true_iff]
  constructor
  · rintro ⟨hk, hlater⟩
    have hnot : k ∉ first := fun hmem => absurd (hle k hmem) (not_le.mpr hlater)
    have hk' := (mem_items_foldl hown hfirst.nodup
      (fun i hi => ((hmem i).mp (List.mem_append_left rest hi)).1) hnot).mp hk
    exact (List.mem_append.mp ((hmem k).mpr ⟨hk', hlast.trans hlater⟩)).resolve_left hnot
  · intro hk
    have hlater := hbefore final hfinal k hk
    have hnot : k ∉ first := fun hmem => absurd (hle k hmem) (not_le.mpr hlater)
    refine ⟨(mem_items_foldl hown hfirst.nodup
      (fun i hi => ((hmem i).mp (List.mem_append_left rest hi)).1) hnot).mpr ?_, hlater⟩
    exact ((hmem k).mp (List.mem_append_right first hk)).1

/-- The pages together are one pass over the items after `last`, and the loop ends. -/
theorem pages_eq_foldl (hsorted : ∀ s, (items s).Pairwise (· < ·)) (hown : OwnItemOnly items visit)
    (hsize : 0 < size) (fuel : ℕ) (last : κ) (s : σ)
    (hfuel : ((items s).filter fun i => decide (last < i)).length < fuel) :
    pages items visit size fuel last s =
      some (((items s).filter fun i => decide (last < i)).foldl visit s) := by
  induction fuel generalizing last s with
  | zero => omega
  | succ fuel ih =>
    rw [pages]
    generalize hleft : ((items s).filter fun i => decide (last < i)) = left at hfuel ⊢
    have hpairwise : left.Pairwise (· < ·) := hleft ▸ (hsorted s).filter _
    rcases hpage : page items size last s with _ | ⟨i, batch⟩
    · have hempty : left = [] := by
        rw [page, hleft] at hpage
        rcases List.take_eq_nil_iff.mp hpage with h | h
        · omega
        · exact h
      rw [hempty]
      rfl
    · have hsplit : left = (i :: batch) ++ left.drop size := by
        rw [page, hleft] at hpage
        rw [← hpage, List.take_append_drop]
      generalize left.drop size = rest at hsplit
      subst hsplit
      have hbatch : (i :: batch).Pairwise (· < ·) := (List.pairwise_append.mp hpairwise).1
      have hle : ∀ j ∈ i :: batch, j ≤ (i :: batch).getLast (by simp) := fun j hj =>
        (hbatch.imp le_of_lt).rel_getLast hj
      have hafter := filter_after_page hsorted hown hleft (List.getLast_mem (by simp)) hle
      have hshorter : rest.length < fuel := by
        simp only [List.length_append, List.length_cons] at hfuel
        omega
      dsimp only
      rw [ih _ _ (by rw [hafter]; exact hshorter), hafter, List.foldl_append]

end Paging

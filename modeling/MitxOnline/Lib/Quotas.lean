import Mathlib.Data.Finset.Card

/-!
# Quotas
A quota requires some elements and asks for a number of electives. It is met by every choice that has
the required elements and enough of the electives, so it is known from the smallest choices that meet it
and the largest ones that do not.
-/

namespace Quotas

structure Quota (α : Type) where
  required : Finset α
  electives : Finset α
  minimum : ℕ
  deriving DecidableEq

variable {α : Type} [DecidableEq α]

/-- A choice has the required elements and enough electives. -/
def Quota.Met (q : Quota α) (choice : Finset α) : Prop :=
  q.required ⊆ choice ∧ q.minimum ≤ (q.electives ∩ choice).card

/-- A test of the choices from `all` tells the smallest choices that meet the quota from the largest ones
that do not. -/
structure Quota.BorderOf (q : Quota α) (all : Finset α) (test : Finset α → Prop) : Prop where
  whole : test all
  enough : ∀ chosen ⊆ q.electives ∩ all, chosen.card = q.minimum → test (q.required ∪ chosen)
  required : ∀ a ∈ q.required, ¬test (all.erase a)
  tooFew : ∀ chosen ⊆ q.electives ∩ all, chosen.card < q.minimum →
    ¬test (all \ q.electives ∪ chosen)

/-! ## Tests that are quotas

A monotone test of choices is the test of a quota exactly if it agrees with the quota at its border. -/

variable {q : Quota α} {all choice more : Finset α}
  {test : Finset α → Prop}

theorem Quota.Met.mono (h : q.Met choice) (hsub : choice ⊆ more) : q.Met more := by
  refine ⟨h.1.trans hsub, h.2.trans ?_⟩
  exact Finset.card_le_card (Finset.inter_subset_inter_left hsub)

/-- Where the whole meets the quota, a monotone test agrees with the quota if it does at the border. -/
theorem Quota.BorderOf.met_iff (h : q.BorderOf all test)
    (hmono : ∀ choice more, choice ⊆ more → more ⊆ all → test choice → test more)
    (hchoice : choice ⊆ all) : q.Met choice ↔ test choice := by
  constructor
  · rintro ⟨hrequired, hminimum⟩
    obtain ⟨chosen, hchosen, hcard⟩ := Finset.exists_subset_card_eq hminimum
    obtain ⟨helectives, hsub⟩ := Finset.subset_inter_iff.mp hchosen
    have hborder : test (q.required ∪ chosen) :=
      h.enough chosen (Finset.subset_inter helectives (hsub.trans hchoice)) hcard
    exact hmono _ _ (Finset.union_subset hrequired hsub) hchoice hborder
  · intro htest
    refine ⟨fun a ha => ?_, ?_⟩
    · by_contra hnot
      have herase : choice ⊆ all.erase a := Finset.subset_erase.mpr ⟨hchoice, hnot⟩
      exact h.required a ha (hmono _ _ herase (Finset.erase_subset a all) htest)
    · by_contra hfew
      have hsub : q.electives ∩ choice ⊆ q.electives ∩ all :=
        Finset.inter_subset_inter_left hchoice
      refine h.tooFew _ hsub (Nat.lt_of_not_le hfew) (hmono choice _ ?_ ?_ htest)
      · intro a ha
        by_cases helective : a ∈ q.electives
        · exact Finset.mem_union_right _ (Finset.mem_inter.mpr ⟨helective, ha⟩)
        · exact Finset.mem_union_left _ (Finset.mem_sdiff.mpr ⟨hchoice ha, helective⟩)
      · exact Finset.union_subset Finset.sdiff_subset (hsub.trans Finset.inter_subset_right)

/-- A test that agrees with the quota does so at the border. -/
theorem Quota.borderOf_of_met_iff (hall : q.Met all) (h : ∀ choice ⊆ all, q.Met choice ↔ test choice) :
    q.BorderOf all test := by
  refine ⟨(h all subset_rfl).mp hall, fun chosen hchosen hcard => ?_, fun a ha htest => ?_,
    fun chosen hchosen hcard htest => ?_⟩
  · obtain ⟨helectives, hsub⟩ := Finset.subset_inter_iff.mp hchosen
    refine (h _ (Finset.union_subset hall.1 hsub)).mp ⟨Finset.subset_union_left, ?_⟩
    rw [← hcard]
    exact Finset.card_le_card (Finset.subset_inter helectives Finset.subset_union_right)
  · have hmet := (h _ (Finset.erase_subset a all)).mpr htest
    exact Finset.notMem_erase a all (hmet.1 ha)
  · have hsub : all \ q.electives ∪ chosen ⊆ all :=
      Finset.union_subset Finset.sdiff_subset (hchosen.trans Finset.inter_subset_right)
    have hmet := (h _ hsub).mpr htest
    have hle : (q.electives ∩ (all \ q.electives ∪ chosen)).card ≤ chosen.card := by
      refine Finset.card_le_card fun a ha => ?_
      obtain ⟨helective, hunion⟩ := Finset.mem_inter.mp ha
      rcases Finset.mem_union.mp hunion with hdiff | hchosen
      · exact absurd helective (Finset.mem_sdiff.mp hdiff).2
      · exact hchosen
    exact absurd (hmet.2.trans hle) (Nat.not_le_of_lt hcard)

/-- A test that is monotone once the whole passes is the test of a quota exactly if the whole meets the
quota and the border agrees, or nothing meets the quota and nothing passes. -/
theorem Quota.met_iff_test_iff
    (hmono : test all → ∀ choice more, choice ⊆ more → more ⊆ all → test choice → test more) :
    (∀ choice ⊆ all, q.Met choice ↔ test choice) ↔
      q.Met all ∧ q.BorderOf all test ∨ ¬q.Met all ∧ ∀ choice ⊆ all, ¬test choice := by
  constructor
  · intro h
    by_cases hall : q.Met all
    · exact Or.inl ⟨hall, borderOf_of_met_iff hall h⟩
    · exact Or.inr ⟨hall, fun choice hchoice htest => hall (((h choice hchoice).mpr htest).mono hchoice)⟩
  · rintro (⟨hall, hborder⟩ | ⟨hall, hnone⟩) choice hchoice
    · exact hborder.met_iff (hmono hborder.whole) hchoice
    · exact ⟨fun hmet => absurd (hmet.mono hchoice) hall, fun htest => absurd htest (hnone choice hchoice)⟩

end Quotas

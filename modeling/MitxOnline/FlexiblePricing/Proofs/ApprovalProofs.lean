import MitxOnline.FlexiblePricing.Approval
import MitxOnline.Lib.Search
import MitxOnline.Lib.Ladders

/-!
# The discount of a request that was approved

Both functions search the same coursewares with the same test; one passes over the requests whose
discount is not valid today. So what the second finds is approved, and what the first finds is what the
second finds if its discount is valid, as long as neither meets a request without a tier.
-/

namespace MitxOnline

open Nullable Search

variable {fin : Finaid} {now : Instant} {user : UserId} {courseware c : Courseware}
  {f : FlexiblePrice} {tier : TierId} {coursewares : List Courseware}

/-! ## The tests on one request -/

theorem selects_dateFilter :
    selects (f.dateFilter fin now) =
      f.tier.all fun tier => (fin.discount (fin.tier tier).discount).datesValid now := by
  rcases htier : f.tier with _ | tier
  · simp [FlexiblePrice.dateFilter, htier]
  · rcases hact : (fin.discount (fin.tier tier).discount).activationDate with _ | activation <;>
      rcases hexp : (fin.discount (fin.tier tier).discount).expirationDate with _ | expiration <;>
      simp [FlexiblePrice.dateFilter, Discount.datesValid, htier, hact, hexp]

/-- The discount of a tier can be used today. -/
def Finaid.dateValid (fin : Finaid) (now : Instant) (tier : TierId) : Bool :=
  (fin.discount (fin.tier tier).discount).datesValid now

theorem approvedTier_eq_some :
    f.approvedTier fin = .ok (some tier) ↔
      f.tier = some tier ∧ (fin.tier tier).current = true ∧
        (f.status = .approved ∨ f.status = .autoApproved) := by
  unfold FlexiblePrice.approvedTier
  rcases f.tier with _ | tier'
  · simp
  · dsimp only
    split_ifs with h
    · constructor
      · intro heq
        obtain rfl : tier' = tier := by simpa using heq
        exact ⟨rfl, h⟩
      · rintro ⟨heq, -⟩
        obtain rfl : tier' = tier := by simpa using heq
        rfl
    · constructor
      · intro heq
        simp at heq
      · rintro ⟨heq, hrest⟩
        obtain rfl : tier' = tier := by simpa using heq
        exact absurd hrest h

theorem approvedTier_eq_error {e : FinaidError} (h : f.approvedTier fin = .error e) :
    f.tier = none := by
  unfold FlexiblePrice.approvedTier at h
  rcases hf : f.tier with _ | tier
  · rfl
  · rw [hf] at h
    dsimp only at h
    split_ifs at h

/-- A courseware with a request that has no tier. -/
def Finaid.Untiered (fin : Finaid) (user : UserId) (c : Courseware) : Prop :=
  ∃ f ∈ fin.flexiblePrice user c, f.tier = none

/-- A courseware with an approved request whose tier is current. -/
def Finaid.ApprovedAs (fin : Finaid) (user : UserId) (c : Courseware) (tier : TierId) : Prop :=
  ∃ f ∈ fin.flexiblePrice user c, f.tier = some tier ∧ (fin.tier tier).current = true ∧
    (f.status = .approved ∨ f.status = .autoApproved)

theorem approvedFor_eq_some :
    approvedFor fin user c = .ok (some tier) ↔ fin.ApprovedAs user c tier := by
  unfold approvedFor Finaid.ApprovedAs
  rcases fin.flexiblePrice user c with _ | f
  · simp
  · simp [approvedTier_eq_some]

theorem approvedFor_eq_error_iff :
    (∃ e, approvedFor fin user c = .error e) ↔ fin.Untiered user c := by
  unfold approvedFor Finaid.Untiered
  rcases fin.flexiblePrice user c with _ | f
  · simp
  · constructor
    · rintro ⟨e, he⟩
      exact ⟨f, rfl, approvedTier_eq_error he⟩
    · rintro ⟨f', hf', htier⟩
      obtain rfl : f = f' := by simpa using hf'
      exact ⟨.attributeError "'NoneType' object has no attribute 'current'",
        by simp only [FlexiblePrice.approvedTier, htier]⟩

/-- The second test is the first, but passes over tiers whose discount is not valid. -/
theorem discountFor_eq (fin : Finaid) (now : Instant) (user : UserId) (c : Courseware) :
    discountFor fin now user c =
      match approvedFor fin user c with
      | .ok (some tier) => .ok (if fin.dateValid now tier = true then some tier else none)
      | answer => answer := by
  unfold discountFor approvedFor
  rcases fin.flexiblePrice user c with _ | f
  · rfl
  · rw [Option.filter_some, selects_dateFilter]
    rcases happ : f.approvedTier fin with e | _ | tier
    · -- without a tier the filter passes
      rw [approvedTier_eq_error happ]
      simp [happ]
    · split_ifs <;> simp [happ]
    · obtain ⟨htier, -⟩ := approvedTier_eq_some.mp happ
      rw [htier, Option.all_some]
      by_cases hvalid : (fin.discount (fin.tier tier).discount).datesValid now = true
      · simp [happ, hvalid, Finaid.dateValid]
      · simp [happ, hvalid, Finaid.dateValid]

theorem discountFor_eq_none (h : approvedFor fin user c = .ok none) :
    discountFor fin now user c = .ok none := by
  rw [discountFor_eq, h]

theorem discountFor_eq_error {e : FinaidError} :
    discountFor fin now user c = .error e ↔ approvedFor fin user c = .error e := by
  rw [discountFor_eq]
  rcases approvedFor fin user c with e' | _ | tier <;> simp

theorem discountFor_eq_some :
    discountFor fin now user c = .ok (some tier) ↔
      fin.ApprovedAs user c tier ∧ fin.dateValid now tier = true := by
  rw [discountFor_eq, ← approvedFor_eq_some]
  rcases approvedFor fin user c with e | _ | tier'
  · simp
  · simp
  · dsimp only
    split_ifs with hvalid
    · constructor
      · intro h
        obtain rfl : tier' = tier := by simpa using h
        exact ⟨rfl, hvalid⟩
      · exact And.left
    · constructor
      · intro h
        simp at h
      · rintro ⟨h, hvalid'⟩
        obtain rfl : tier' = tier := by simpa using h
        exact absurd hvalid' hvalid

/-! ## The two searches -/

/-- No request without a tier comes before the approved request whose discount can be used. -/
def Finaid.TiersFirst (fin : Finaid) (now : Instant) (user : UserId) (coursewares : List Courseware) :
    Prop :=
  ∀ pre c post, coursewares = pre ++ c :: post → fin.Untiered user c →
    ∃ c' ∈ pre, ∃ tier, fin.ApprovedAs user c' tier ∧ fin.dateValid now tier = true

theorem search_discountFor_ne_error (h : fin.TiersFirst now user coursewares) (e : FinaidError) :
    search (discountFor fin now user) coursewares ≠ .error e := by
  intro herror
  obtain ⟨c, ⟨pre, post, heq, hpre⟩, hc⟩ := search_eq_error herror
  obtain ⟨c', hc', tier, happ⟩ := h pre c post heq
    (approvedFor_eq_error_iff.mp ⟨e, discountFor_eq_error.mp hc⟩)
  have hsome := discountFor_eq_some.mpr happ
  rw [hpre c' hc'] at hsome
  cases hsome

/-- A request without a tier that comes too early ends the search with an exception. -/
theorem tiersFirst_of_search_discountFor
    (h : ∀ e, search (discountFor fin now user) coursewares ≠ .error e) :
    fin.TiersFirst now user coursewares := by
  rintro pre c post rfl huntiered
  by_contra hnone
  obtain ⟨e, he⟩ := approvedFor_eq_error_iff.mpr huntiered
  have hc : discountFor fin now user c = .error e := discountFor_eq_error.mpr he
  rcases search_cases (discountFor fin now user) pre with ⟨-, hall⟩ | ⟨a, hreach, ha, -⟩
  · -- nothing before it ends the search
    have hreach : Reaches (discountFor fin now user) (pre ++ c :: post) c :=
      ⟨pre, post, rfl, hall⟩
    exact h e ((search_eq_of_reaches hreach (by rw [hc]; simp)).trans hc)
  · rcases hfound : discountFor fin now user a with e' | _ | tier
    · exact h e' ((search_eq_of_reaches (hreach.append _) ha).trans hfound)
    · exact ha hfound
    · exact hnone ⟨a, hreach.mem, tier, discountFor_eq_some.mp hfound⟩

/-- If the search for a discount raises nothing, neither does the search for an approval. -/
theorem search_approvedFor_ne_error (h : fin.TiersFirst now user coursewares) (e : FinaidError) :
    search (approvedFor fin user) coursewares ≠ .error e := by
  intro herror
  obtain ⟨c, hreach, hc⟩ := search_eq_error herror
  have hreach' : Reaches (discountFor fin now user) coursewares c :=
    hreach.imp fun _ => discountFor_eq_none
  have hc' : discountFor fin now user c = .error e := discountFor_eq_error.mpr hc
  exact search_discountFor_ne_error h e ((search_eq_of_reaches hreach' (by rw [hc']; simp)).trans hc')

/-- What has a discount is approved. -/
theorem search_approvedFor_isSome (h : fin.TiersFirst now user coursewares)
    (hdiscount : search (discountFor fin now user) coursewares = .ok (some tier)) :
    ∃ tier', search (approvedFor fin user) coursewares = .ok (some tier') := by
  obtain ⟨c, hreach, hc⟩ := search_eq_some hdiscount
  have happ : approvedFor fin user c = .ok (some tier) :=
    approvedFor_eq_some.mpr (discountFor_eq_some.mp hc).1
  rcases search_cases (approvedFor fin user) coursewares with ⟨-, hall⟩ | ⟨a, -, ha, heq⟩
  · have := hall c hreach.mem
    rw [happ] at this
    cases this
  · rcases hfound : approvedFor fin user a with e | _ | tier'
    · exact absurd (heq.trans hfound) (search_approvedFor_ne_error h e)
    · exact absurd hfound ha
    · exact ⟨tier', heq.trans hfound⟩

/-! ## Coursewares -/

/-- The coursewares whose requests count for a courseware. -/
def Finaid.eligible (fin : Finaid) : Courseware → List Courseware
  | .courseRun r => fin.eligibleForCourse (fin.course r)
  | .course c => fin.eligibleForCourse c
  | .program p => [.program p]
  | .programRun r => .program (fin.program r) :: (fin.related (fin.program r)).map .program

/-- The program of a program run has no related programs. -/
def Finaid.Unrelated (fin : Finaid) (courseware : Courseware) : Prop :=
  ∀ r, courseware = .programRun r → fin.related (fin.program r) = []

theorem getOrderedEligibleCoursewares_of_unrelated (h : fin.Unrelated courseware) :
    getOrderedEligibleCoursewares fin courseware = .ok (fin.eligible courseware) := by
  cases courseware with
  | courseRun r => rfl
  | course c => rfl
  | program p => rfl
  | programRun r => simp [getOrderedEligibleCoursewares, Finaid.eligible, h r rfl]

theorem unrelated_of_getOrderedEligibleCoursewares (h : getOrderedEligibleCoursewares fin courseware = .ok coursewares) :
    fin.Unrelated courseware := by
  rintro r rfl
  unfold getOrderedEligibleCoursewares at h
  rcases hrelated : fin.related (fin.program r) with _ | ⟨p, ps⟩
  · rfl
  · simp only [hrelated] at h
    cases h

/-- The first approved request that counts for the courseware has this tier. -/
def Finaid.ApprovedThrough (fin : Finaid) (user : UserId) (courseware : Courseware) (tier : TierId) :
    Prop :=
  ∃ c, Reaches (approvedFor fin user) (fin.eligible courseware) c ∧ fin.ApprovedAs user c tier

/-- Neither function raises, a discount is only returned if the courseware is approved, and the discount
of the tier it is approved through is returned if it can be used today. -/
def Finaid.Agrees (fin : Finaid) (now : Instant) (courseware : Courseware) (user : Option UserId) :
    Prop :=
  ∃ approved discount,
    isCoursewareFlexiblePriceApproved fin courseware user = .ok approved ∧
    determineCoursewareFlexiblePriceDiscount fin now (some courseware) user = .ok discount ∧
    (discount.isSome = true → approved = true) ∧
    ∀ u ∈ user, ∀ tier, fin.ApprovedThrough u courseware tier → fin.dateValid now tier = true →
      discount = some (fin.tier tier).discount

theorem agrees_of_tiersFirst (hunrelated : fin.Unrelated courseware)
    (htiers : fin.TiersFirst now user (fin.eligible courseware)) :
    fin.Agrees now courseware (some user) := by
  have hordered := getOrderedEligibleCoursewares_of_unrelated hunrelated
  rcases happ : search (approvedFor fin user) (fin.eligible courseware) with e | approved
  · exact absurd happ (search_approvedFor_ne_error htiers e)
  rcases hdisc : search (discountFor fin now user) (fin.eligible courseware) with e | discount
  · exact absurd hdisc (search_discountFor_ne_error htiers e)
  refine ⟨approved.isSome, discount.map fun tier => (fin.tier tier).discount, ?_, ?_, ?_, ?_⟩
  · simp [isCoursewareFlexiblePriceApproved, hordered, happ, bind, Except.bind]
  · simp [determineCoursewareFlexiblePriceDiscount, hordered, hdisc, bind, Except.bind]
  · intro hsome
    rw [Option.isSome_map] at hsome
    obtain ⟨tier, rfl⟩ := Option.isSome_iff_exists.mp hsome
    obtain ⟨tier', htier'⟩ := search_approvedFor_isSome htiers hdisc
    obtain rfl : approved = some tier' := by simpa [happ] using htier'
    rfl
  · rintro u hu tier ⟨c, hreach, hc⟩ hvalid
    obtain rfl : user = u := by simpa using hu
    have hfound : discountFor fin now user c = .ok (some tier) := discountFor_eq_some.mpr ⟨hc, hvalid⟩
    have hreach' : Reaches (discountFor fin now user) (fin.eligible courseware) c :=
      hreach.imp fun _ => discountFor_eq_none
    have heq := search_eq_of_reaches hreach' (by rw [hfound]; simp)
    rw [hdisc, hfound] at heq
    obtain rfl : discount = some tier := by simpa using heq
    rfl

theorem tiersFirst_of_agrees (h : fin.Agrees now courseware (some user)) :
    fin.Unrelated courseware ∧ fin.TiersFirst now user (fin.eligible courseware) := by
  obtain ⟨approved, discount, -, hdisc, -⟩ := h
  rcases hordered : getOrderedEligibleCoursewares fin courseware with e | coursewares
  · simp [determineCoursewareFlexiblePriceDiscount, hordered, bind, Except.bind] at hdisc
  have hunrelated := unrelated_of_getOrderedEligibleCoursewares hordered
  refine ⟨hunrelated, tiersFirst_of_search_discountFor fun e he => ?_⟩
  have hok := getOrderedEligibleCoursewares_of_unrelated hunrelated
  simp [determineCoursewareFlexiblePriceDiscount, hok, he, bind, Except.bind] at hdisc

/-- Approval and discount agree for a user who is not anonymous exactly when the courseware is not a run
of a program with related programs and no request without a tier comes before the approved request whose
discount is returned. -/
theorem finaid_agrees_iff (fin : Finaid) (now : Instant) (courseware : Courseware)
    (user : Option UserId) :
    fin.Agrees now courseware user ↔
      ∀ u ∈ user, fin.Unrelated courseware ∧ fin.TiersFirst now u (fin.eligible courseware) := by
  cases user with
  | none =>
    simp only [Option.mem_def, reduceCtorEq, false_imp_iff, implies_true, iff_true]
    exact ⟨false, none, rfl, rfl, by simp, by simp⟩
  | some user =>
    simp only [Option.mem_some_iff, forall_eq']
    exact ⟨tiersFirst_of_agrees, fun h => agrees_of_tiersFirst h.1 h.2⟩

/-! ## Program runs of related programs -/

/-- Programs 1 and 2 are related; nobody has asked for assistance. -/
def relatedPrograms : Finaid where
  course r := r
  programs _ := []
  program r := r
  relatedPrograms := [(1, 2)]
  tier _ := ⟨0, true⟩
  discount _ := ⟨⟨0⟩, .dollarsOff, .unlimited, none, none, none, none, [], []⟩
  flexiblePrice _ _ := none

/-- For a run of program 1 both functions raise. -/
theorem not_finaid_agrees :
    ¬ ∀ (fin : Finaid) (now : Instant) (courseware : Courseware) (user : Option UserId),
      fin.Agrees now courseware user := by
  intro h
  obtain ⟨approved, discount, happ, -⟩ := h relatedPrograms 0 (.programRun 1) (some 7)
  cases happ

/-!
## The selected tier

For a courseware whose eligible coursewares can be listed, the tier is the one that climbing their
current tiers gets to.
-/

open Ladder

variable {α : Type} {tiers tiers' : List (IncomeTier α)}
  {courseware c : Courseware} {income a b : α} {tier tier' : IncomeTier α}

theorem mem_currentTiers :
    tier ∈ currentTiers tiers c ↔ tier ∈ tiers ∧ tier.current = true ∧ tier.courseware = c := by
  rw [currentTiers, List.mem_filter, Bool.and_eq_true, decide_eq_true_iff]

theorem mem_currentTiers_of_perm (h : tiers'.Perm tiers) :
    tier ∈ currentTiers tiers' c ↔ tier ∈ currentTiers tiers c := by
  rw [mem_currentTiers, mem_currentTiers, h.mem_iff]

variable [LinearOrder α]

/-! ## What one call does -/

/-- The tier is the current one with the greatest threshold that the income reaches, of the first
eligible courseware that has one. -/
def Finaid.IsTierFor (fin : Finaid) (tiers : List (IncomeTier α)) (courseware : Courseware) (income : α)
    (tier : IncomeTier α) : Prop :=
  Climbs (·.incomeThresholdUsd) (currentTiers tiers) income (fin.eligible courseware) tier

/-- No eligible courseware has a current tier whose threshold the income reaches. -/
def Finaid.NoTierFor (fin : Finaid) (tiers : List (IncomeTier α)) (courseware : Courseware)
    (income : α) : Prop :=
  ∀ c ∈ fin.eligible courseware, ∀ tier ∈ currentTiers tiers c, income < tier.incomeThresholdUsd

theorem isTierFor_of_eq_ok (h : determineTierCourseware fin tiers courseware income = .ok tier) :
    fin.IsTierFor tiers courseware income tier := by
  unfold determineTierCourseware at h
  cases heligible : getOrderedEligibleCoursewares fin courseware with
  | error e =>
    rw [heligible] at h
    cases h
  | ok eligible =>
    have hunrelated := unrelated_of_getOrderedEligibleCoursewares heligible
    rw [getOrderedEligibleCoursewares_of_unrelated hunrelated] at h
    dsimp only at h
    split at h
    · obtain rfl := Except.ok.inj h
      exact climbs_of_climb ‹_›
    · cases h

theorem noTierFor_of_eq_error {e : TierError} (hunrelated : fin.Unrelated courseware)
    (h : determineTierCourseware fin tiers courseware income = .error e) :
    fin.NoTierFor tiers courseware income := by
  unfold determineTierCourseware at h
  rw [getOrderedEligibleCoursewares_of_unrelated hunrelated] at h
  dsimp only at h
  split at h
  · cases h
  · exact climb_eq_none_iff.mp ‹_›

variable (tiers) in
/-- For a run of a program with related programs every call raises. -/
theorem eq_error_of_not_unrelated (h : ¬fin.Unrelated courseware) (income : α) :
    ∃ e, determineTierCourseware fin tiers courseware income = .error e := by
  cases heligible : getOrderedEligibleCoursewares fin courseware with
  | error e => exact ⟨.ineligible e, by rw [determineTierCourseware, heligible]⟩
  | ok eligible => exact absurd (unrelated_of_getOrderedEligibleCoursewares heligible) h

theorem Finaid.IsTierFor.of_perm (h : fin.IsTierFor tiers' courseware income tier)
    (hperm : tiers'.Perm tiers) : fin.IsTierFor tiers courseware income tier :=
  h.congr fun _ _ => mem_currentTiers_of_perm hperm

/-! ## All incomes -/

/-- The income is at least the lowest current threshold. -/
def ReachesLowest (tiers : List (IncomeTier α)) (income : α) : Prop :=
  ∃ tier ∈ tiers, tier.current = true ∧ tier.incomeThresholdUsd ≤ income

/-- Every income that reaches the lowest current threshold gets the highest tier it reaches, the call
fails only if there is none, and a higher income never gets a tier with a lower threshold, in whatever
order the database reads the tiers for it. -/
structure Finaid.SelectsHighestTier (fin : Finaid) (tiers : List (IncomeTier α))
    (courseware : Courseware) : Prop where
  returns : ∀ income tier, ReachesLowest tiers income →
    determineTierCourseware fin tiers courseware income = .ok tier →
      fin.IsTierFor tiers courseware income tier
  fails : ∀ income e, ReachesLowest tiers income →
    determineTierCourseware fin tiers courseware income = .error e →
      fin.NoTierFor tiers courseware income
  monotone : ∀ tiers' a b tier tier', tiers'.Perm tiers → ReachesLowest tiers a → a ≤ b →
    determineTierCourseware fin tiers courseware a = .ok tier →
    determineTierCourseware fin tiers' courseware b = .ok tier' →
      tier.incomeThresholdUsd ≤ tier'.incomeThresholdUsd

theorem selectsHighestTier_of_fails
    (hfails : ∀ income e, ReachesLowest tiers income →
      determineTierCourseware fin tiers courseware income = .error e →
        fin.NoTierFor tiers courseware income) : fin.SelectsHighestTier tiers courseware where
  returns _ _ _ h := isTierFor_of_eq_ok h
  fails := hfails
  monotone tiers' a b tier tier' hperm _ hab ha hb := by
    have htier : fin.IsTierFor tiers courseware a tier := isTierFor_of_eq_ok ha
    have htier' : fin.IsTierFor tiers courseware b tier' := (isTierFor_of_eq_ok hb).of_perm hperm
    exact htier.mono htier' hab

/-- The highest tier is selected for every income exactly when the courseware is not a run of a program
with related programs, or none of these programs has a current tier. -/
theorem selectsHighestTier_iff (fin : Finaid) (tiers : List (IncomeTier α)) (courseware : Courseware) :
    fin.SelectsHighestTier tiers courseware ↔
      fin.Unrelated courseware ∨ ∀ c ∈ fin.eligible courseware, currentTiers tiers c = [] := by
  constructor
  · intro h
    refine or_iff_not_imp_left.mpr fun hrelated c hc => List.eq_nil_iff_forall_not_mem.mpr ?_
    intro tier htier
    -- the income is the threshold of the tier
    obtain ⟨e, he⟩ := eq_error_of_not_unrelated tiers hrelated tier.incomeThresholdUsd
    obtain ⟨hmem, hcurrent, -⟩ := mem_currentTiers.mp htier
    have hreaches : ReachesLowest tiers tier.incomeThresholdUsd :=
      ⟨tier, hmem, hcurrent, le_refl _⟩
    have hnone := h.fails tier.incomeThresholdUsd e hreaches he
    exact lt_irrefl _ (hnone c hc tier htier)
  · rintro (hunrelated | hempty)
    · exact selectsHighestTier_of_fails fun _ _ _ => noTierFor_of_eq_error hunrelated
    · refine selectsHighestTier_of_fails fun income _ _ _ c hc tier htier => ?_
      rw [hempty c hc] at htier
      cases htier

/-- A run of program 1, which is related to program 2, gets no tier, though both have one for every
income from 0 on. -/
theorem not_selectsHighestTier :
    ¬ ∀ (fin : Finaid) (tiers : List (IncomeTier ℤ)) (courseware : Courseware),
      fin.SelectsHighestTier tiers courseware := by
  intro h
  have hfails := (h relatedPrograms
    [⟨⟨0, true⟩, 1, .program 1, 0⟩, ⟨⟨0, true⟩, 2, .program 2, 0⟩] (.programRun 1)).fails 1000
    (.ineligible (.typeError "'Program' object is not subscriptable"))
    ⟨_, List.mem_cons_self .., rfl, by decide⟩ rfl
  have hnone := hfails (.program 1) (List.mem_cons_self ..) ⟨⟨0, true⟩, 1, .program 1, 0⟩
    (mem_currentTiers.mpr ⟨List.mem_cons_self .., rfl, rfl⟩)
  exact absurd hnone (by decide)

end MitxOnline

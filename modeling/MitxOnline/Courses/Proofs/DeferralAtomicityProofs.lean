import MitxOnline.Courses.Proofs.DeferralStepsProofs
import MitxOnline.Courses.Proofs.DeferralsProofs

/-!
# Deferrals that stop halfway

A deferral is not one transaction: what was written before a failure stays. A call that fails leaves the
enrollments and payments of the learner as they were unless it fails in one of four places after a write.
-/

namespace MitxOnline

open Autocommit

variable {answer : List RunId → Option Error} {unenroll : Unenrollments} {cat : RunCatalog}
  {now : Instant} {user : UserId} {s s' : Store} {toRun r : RunId} {d : Deferral}
  {e t : CourseRunEnrollment}

/-- The call raises, or it returns no enrollment although one was asked for. -/
def DeferralFails (answer : List RunId → Option Error) (cat : RunCatalog) (d : Deferral)
    (outcome : Outcome Store Error) : Prop :=
  outcome.error.isSome = true ∨
    d.toRun = none ∧ enrollSuccess (Faults.edx answer) cat.toCatalog d.fromRun = false ∧
      d.keepFailedEnrollments = false

/-- The columns of an enrollment that a learner sees. -/
def CourseRunEnrollment.status (row : CourseRunEnrollment) : EnrollmentMode × Bool × Option String :=
  (row.enrollmentMode, row.active, row.changeStatus)

/-- The enrollments and the payment records of the learner are the same. -/
structure SameForLearner (user : UserId) (s s' : Store) : Prop where
  enrollments : ∀ r, (s'.enrollments user r).map (·.status) = (s.enrollments user r).map (·.status)
  payments : s'.paidCourseRuns.filter (·.user == user) = s.paidCourseRuns.filter (·.user == user)

theorem SameForLearner.refl (user : UserId) (s : Store) : SameForLearner user s s :=
  ⟨fun _ => rfl, rfl⟩

/-- The calls that fail after a write. -/
inductive StopsHalfway (answer : List RunId → Option Error) (unenroll : Unenrollments)
    (cat : RunCatalog) (user : UserId) (d : Deferral) (toRun : RunId) (e : CourseRunEnrollment)
    (s : Store) : Prop
  /-- The audit enrollment in the new run is deactivated, but edX still has it. -/
  | deactivation {t : CourseRunEnrollment} (audit : s.activeEnrollment user toRun .audit = some t)
      (fails : DeactivationFails unenroll d.keepFailedEnrollments toRun t)
      (keeps : d.keepFailedEnrollments = true)
  /-- The audit enrollment in the new run is deactivated, then edX refuses the learner there. -/
  | enrollment {t : CourseRunEnrollment} (audit : s.activeEnrollment user toRun .audit = some t)
      (deactivated : ¬DeactivationFails unenroll d.keepFailedEnrollments toRun t)
      (refused : edxRequestSuccess (Faults.edx answer) cat.toCatalog d.keepFailedEnrollments toRun = none)
  /-- The learner becomes verified in the new run, then edX refuses the downgrade in the old one. -/
  | downgrade (deactivates : Deactivates unenroll user d.keepFailedEnrollments toRun s)
      (taken : (edxRequestSuccess (Faults.edx answer) cat.toCatalog d.keepFailedEnrollments
        toRun).isSome = true)
      (refused : ¬Downgrades answer cat d.keepFailedEnrollments d.fromRun e)
      (changes : ∀ row, s.enrollments user toRun = some row → ¬row.IsPlainVerified)
  /-- The enrollments are written, then the payment cannot be moved. -/
  | payment (audit : s.activeEnrollment user toRun .audit = none)
      (taken : (edxRequestSuccess (Faults.edx answer) cat.toCatalog d.keepFailedEnrollments
        toRun).isSome = true)
      (downgrades : Downgrades answer cat d.keepFailedEnrollments d.fromRun e)
      (clashes : PaymentClashes user d.fromRun toRun s)

/-! ## What is changed -/

theorem CourseRunEnrollment.status_eq_iff :
    e.status = (.verified, true, none) ↔ e.IsPlainVerified := by
  unfold CourseRunEnrollment.status
  constructor
  · intro h
    obtain ⟨hmode, hrest⟩ := Prod.mk.inj h
    obtain ⟨hactive, hstatus⟩ := Prod.mk.inj hrest
    exact ⟨hactive, hmode, hstatus⟩
  · intro h
    rw [h.verified, h.active, h.changeStatus]

theorem activeEnrollment_eq_some {mode : EnrollmentMode} (h : s.activeEnrollment user r mode = some t) :
    s.enrollments user r = some t ∧ t.active = true ∧ t.enrollmentMode = mode := by
  obtain ⟨hrow, hactive⟩ := Option.filter_eq_some_iff.mp h
  rw [Bool.and_eq_true, beq_iff_eq] at hactive
  exact ⟨hrow, hactive.1, hactive.2⟩

theorem activeEnrollment_eq_none {mode : EnrollmentMode} (hrow : s.enrollments user r = some e)
    (hmode : e.enrollmentMode ≠ mode) : s.activeEnrollment user r mode = none := by
  unfold Store.activeEnrollment
  rw [hrow, Option.filter_some, if_neg]
  simp [hmode]

/-- A row that the learner sees is the same for them afterwards. -/
theorem SameForLearner.status {row row' : CourseRunEnrollment} (h : SameForLearner user s s')
    (hrow : s.enrollments user r = some row) (hrow' : s'.enrollments user r = some row') :
    row'.status = row.status := by
  have hstatus := h.enrollments r
  rw [hrow, hrow'] at hstatus
  exact Option.some.inj hstatus

/-- An audit enrollment that was deactivated shows. -/
theorem not_same_of_deactivatedIn (h : s.activeEnrollment user toRun .audit = some t) :
    ¬SameForLearner user s (deactivatedIn unenroll user toRun t s) := by
  intro hsame
  obtain ⟨hrow, hactive, -⟩ := activeEnrollment_eq_some h
  have hstatus := hsame.status hrow (if_pos ⟨rfl, rfl⟩)
  have hinactive := congrArg (fun status => status.2.1) hstatus
  change false = t.active at hinactive
  rw [hactive] at hinactive
  cases hinactive

/-- A new verified enrollment shows unless there was one before. -/
theorem SameForLearner.newRow (h : SameForLearner user s s')
    (hnew : ∃ row, s'.enrollments user toRun = some row ∧ row.IsPlainVerified) :
    ∃ row, s.enrollments user toRun = some row ∧ row.IsPlainVerified := by
  obtain ⟨row', hrow', hplain⟩ := hnew
  have hstatus := h.enrollments toRun
  rw [hrow'] at hstatus
  obtain ⟨row, hrow, hsame⟩ := Option.map_eq_some_iff.mp hstatus.symm
  exact ⟨row, hrow, CourseRunEnrollment.status_eq_iff.mp
    (hsame.trans (CourseRunEnrollment.status_eq_iff.mpr hplain))⟩

/-- A downgrade shows: an enrollment that is not marked is marked or reactivated. -/
theorem downgraded_status_ne (success : Bool)
    (h : e.changeStatus ≠ some enrollChangeStatusDeferred) : (e.downgraded success).status ≠ e.status := by
  intro hsame
  have hactive := congrArg (fun status => status.2.1) hsame
  have hstatus := congrArg (fun status => status.2.2) hsame
  rw [CourseRunEnrollment.downgraded, if_neg h] at hactive hstatus
  change (recordedRow _ _ _ _).active = e.active at hactive
  rw [recordedRow_active] at hactive
  change (CourseRunEnrollment.withMode _ _).changeStatus = e.changeStatus at hstatus
  rw [CourseRunEnrollment.withMode, if_pos hactive.symm] at hstatus
  exact h hstatus.symm

/-- All enrollments are written: that shows if the learner was not verified in the new run after an
earlier deferral. -/
theorem not_same_of_writes {fromRun : RunId} {s₃ : Store}
    (henrollment : s.enrollments user fromRun = some e)
    (hbefore : ¬DeferredBefore user toRun e s)
    (h : WritesEnrollments unenroll user fromRun toRun e s s₃) : ¬SameForLearner user s s₃ := by
  intro hsame
  obtain ⟨success, hold⟩ := h.oldRow
  by_cases hdeferred : e.changeStatus = some enrollChangeStatusDeferred
  · obtain ⟨row, hrow, hplain⟩ := hsame.newRow h.newRow
    refine hbefore ⟨hdeferred, ?_⟩
    unfold Store.activeEnrollment
    rw [hrow, Option.filter_some, if_pos]
    · rfl
    · rw [hplain.active, hplain.verified]
      rfl
  · exact downgraded_status_ne success hdeferred (hsame.status henrollment hold)

/-- A learner who is verified in the new run already sees no change when enrolled there again. -/
theorem same_of_enrolledVerified {row : CourseRunEnrollment} {s₂ : Store}
    (hrow : s.enrollments user toRun = some row) (hplain : row.IsPlainVerified)
    (h : EnrolledVerified unenroll user toRun s s₂) : SameForLearner user s s₂ := by
  constructor
  · intro r
    by_cases hr : r = toRun
    · obtain ⟨row', hrow', hplain'⟩ := h.newRow
      rw [hr, hrow, hrow', Option.map_some, Option.map_some, CourseRunEnrollment.status_eq_iff.mpr hplain,
        CourseRunEnrollment.status_eq_iff.mpr hplain']
    · rw [h.others user r (Or.inr hr)]
  · have haudit : s.activeEnrollment user toRun .audit = none := by
      refine activeEnrollment_eq_none hrow ?_
      rw [hplain.verified]
      exact EnrollmentMode.noConfusion
    rw [h.paid, afterDeactivation_paidCourseRuns, haudit]
    rfl

/-! ## Where a deferral fails -/

/-- A payment that clashes after the enrollments were written clashed before, and no audit enrollment
was deactivated, since that would have deleted the clashing payment. -/
theorem paymentClashes_iff {fromRun : RunId} {s₃ : Store}
    (h : WritesEnrollments unenroll user fromRun toRun e s s₃) :
    PaymentClashes user fromRun toRun s₃ ↔
      s.activeEnrollment user toRun .audit = none ∧ PaymentClashes user fromRun toRun s := by
  have hpaid := h.paid.trans afterDeactivation_paidCourseRuns
  cases haudit : s.activeEnrollment user toRun .audit with
  | none =>
    rw [haudit] at hpaid
    rw [and_iff_right rfl]
    unfold PaymentClashes
    rw [fulfilledPaidCourseRun_of_tables hpaid h.orders, hpaid]
    rfl
  | some t =>
    rw [haudit, Option.isSome_some, if_pos rfl] at hpaid
    refine iff_of_false ?_ fun hno => by cases hno.1
    rintro ⟨paid, hfound, hclash⟩
    rw [hpaid] at hclash
    have hkept := (List.mem_filter.mp hclash).2
    simp [(fulfilledPaidCourseRun_spec hfound).2.1] at hkept

/-! ### Where each of the four calls that stop halfway is -/

theorem stopsHalfway_iff_keep (audit : s.activeEnrollment user toRun .audit = some t)
    (fails : DeactivationFails unenroll d.keepFailedEnrollments toRun t) :
    StopsHalfway answer unenroll cat user d toRun e s ↔ d.keepFailedEnrollments = true := by
  constructor
  · intro h
    cases h with
    | deactivation _ _ keeps => exact keeps
    | enrollment audit' deactivated _ =>
      obtain rfl := Option.some.inj (audit.symm.trans audit')
      exact absurd fails deactivated
    | downgrade deactivates _ _ _ => exact absurd fails (deactivates t audit)
    | payment audit' _ _ _ => cases audit.symm.trans audit'
  · exact .deactivation audit fails

theorem stopsHalfway_iff_audit (deactivates : Deactivates unenroll user d.keepFailedEnrollments toRun s)
    (refused : edxRequestSuccess (Faults.edx answer) cat.toCatalog d.keepFailedEnrollments toRun =
      none) :
    StopsHalfway answer unenroll cat user d toRun e s ↔
      ∃ t, s.activeEnrollment user toRun .audit = some t := by
  constructor
  · intro h
    cases h with
    | deactivation audit _ _ => exact ⟨_, audit⟩
    | enrollment audit _ _ => exact ⟨_, audit⟩
    | downgrade _ taken _ _ =>
      rw [refused] at taken
      cases taken
    | payment _ taken _ _ =>
      rw [refused] at taken
      cases taken
  · rintro ⟨t, audit⟩
    exact .enrollment audit (deactivates t audit) refused

theorem stopsHalfway_iff_changes (deactivates : Deactivates unenroll user d.keepFailedEnrollments toRun s)
    (taken : (edxRequestSuccess (Faults.edx answer) cat.toCatalog d.keepFailedEnrollments
      toRun).isSome = true)
    (refused : ¬Downgrades answer cat d.keepFailedEnrollments d.fromRun e) :
    StopsHalfway answer unenroll cat user d toRun e s ↔
      ∀ row, s.enrollments user toRun = some row → ¬row.IsPlainVerified := by
  constructor
  · intro h
    cases h with
    | deactivation audit fails _ => exact absurd fails (deactivates _ audit)
    | enrollment _ _ refused' =>
      rw [refused'] at taken
      cases taken
    | downgrade _ _ _ changes => exact changes
    | payment _ _ downgrades _ => exact absurd downgrades refused
  · exact .downgrade deactivates taken refused

theorem stopsHalfway_iff_clashes (deactivates : Deactivates unenroll user d.keepFailedEnrollments toRun s)
    (taken : (edxRequestSuccess (Faults.edx answer) cat.toCatalog d.keepFailedEnrollments
      toRun).isSome = true)
    (downgrades : Downgrades answer cat d.keepFailedEnrollments d.fromRun e) :
    StopsHalfway answer unenroll cat user d toRun e s ↔
      s.activeEnrollment user toRun .audit = none ∧ PaymentClashes user d.fromRun toRun s := by
  constructor
  · intro h
    cases h with
    | deactivation audit fails _ => exact absurd fails (deactivates _ audit)
    | enrollment _ _ refused =>
      rw [refused] at taken
      cases taken
    | downgrade _ _ refused _ => exact absurd downgrades refused
    | payment audit _ _ clashes => exact ⟨audit, clashes⟩
  · rintro ⟨audit, clashes⟩
    exact .payment audit taken downgrades clashes

/-- The call fails without a change, or does not fail, exactly if it does not stop halfway. -/
theorem DeferralEnd.same_iff {outcome : Outcome Store Error}
    (henrollment : s.enrollments user d.fromRun = some e) (hbefore : ¬DeferredBefore user toRun e s)
    (h : DeferralEnd answer unenroll cat user d.fromRun toRun d.keepFailedEnrollments e s outcome) :
    (outcome.error.isSome = true → SameForLearner user s outcome.state) ↔
      ¬StopsHalfway answer unenroll cat user d toRun e s := by
  cases h with
  | deactivation audit fails =>
    rw [stopsHalfway_iff_keep audit fails]
    refine (imp_iff_right rfl).trans ?_
    by_cases hkeep : d.keepFailedEnrollments = true
    · rw [if_pos hkeep]
      exact iff_of_false (not_same_of_deactivatedIn audit) fun hno => hno hkeep
    · rw [if_neg hkeep]
      exact iff_of_true (SameForLearner.refl user s) hkeep
  | enrollment error deactivates refused =>
    rw [stopsHalfway_iff_audit deactivates refused, afterDeactivation]
    refine (imp_iff_right rfl).trans ?_
    rcases haudit : s.activeEnrollment user toRun .audit with _ | t
    · refine iff_of_true (SameForLearner.refl user s) ?_
      rintro ⟨t, ht⟩
      cases ht
    · exact iff_of_false (not_same_of_deactivatedIn haudit) fun hno => hno ⟨t, rfl⟩
  | downgrade error deactivates taken refused writes =>
    rw [stopsHalfway_iff_changes deactivates taken refused]
    refine (imp_iff_right rfl).trans ?_
    by_cases hplain : ∃ row, s.enrollments user toRun = some row ∧ row.IsPlainVerified
    · obtain ⟨row, hrow, hplain⟩ := hplain
      exact iff_of_true (same_of_enrolledVerified hrow hplain writes) fun hchanges =>
        hchanges row hrow hplain
    · refine iff_of_false (fun hsame => hplain (hsame.newRow writes.newRow)) fun hno => ?_
      exact hno fun row hrow hrow' => hplain ⟨row, hrow, hrow'⟩
  | payment deactivates taken downgrades writes clashes =>
    rw [stopsHalfway_iff_clashes deactivates taken downgrades, ← paymentClashes_iff writes]
    refine (imp_iff_right rfl).trans ?_
    exact iff_of_false (not_same_of_writes henrollment hbefore writes) fun hno => hno clashes
  | success deactivates taken downgrades writes clashes =>
    rw [stopsHalfway_iff_clashes deactivates taken downgrades, ← paymentClashes_iff writes]
    exact iff_of_true (fun herror => Bool.noConfusion herror) clashes

/-- A call without a run to defer to that fails writes nothing. -/
theorem same_of_noRun (hto : d.toRun = none)
    (hfails : DeferralFails answer cat d (deferEnrollment (Faults.edx answer) unenroll cat now user d s)) :
    SameForLearner user s (deferEnrollment (Faults.edx answer) unenroll cat now user d s).state := by
  have hfound : deferEnrollment (Faults.edx answer) unenroll cat now user d s = ⟨s, some .doesNotExist⟩ ∨
      deferEnrollment (Faults.edx answer) unenroll cat now user d s =
        createRunEnrollments (Faults.edx answer) cat.toCatalog now user [d.fromRun]
          (some enrollChangeStatusDeferred) d.keepFailedEnrollments .audit s := by
    unfold deferEnrollment
    rw [hto]
    rcases (if d.fromRun ∈ cat.runIds then s.enrollments user d.fromRun else none) with _ | e
    · exact Or.inl rfl
    · exact Or.inr rfl
  rcases hfound with hcall | hcall
  · rw [hcall]
    exact SameForLearner.refl user s
  · rw [hcall] at hfails ⊢
    rcases htaken : edxRequestSuccess (Faults.edx answer) cat.toCatalog d.keepFailedEnrollments d.fromRun
      with _ | success
    · rcases createRunEnrollments_of_refused htaken with ⟨error, hraise⟩ | ⟨hskip, -⟩
      · rw [hraise]
        exact SameForLearner.refl user s
      · rw [hskip]
        exact SameForLearner.refl user s
    · obtain ⟨hrecord, hsuccess⟩ := createRunEnrollments_of_taken htaken
      rcases hfails with herror | ⟨-, hrefused, hkeep⟩
      · rw [hrecord, seq_cons, andThen_of_ok (recordRunEnrollment_error s)] at herror
        cases herror
      · rcases hsuccess with hsuccess | hsuccess
        · cases hrefused.symm.trans hsuccess
        · cases hkeep.symm.trans hsuccess

/-- Exactly the calls that do not stop halfway leave the learner as they were when they fail. -/
theorem deferral_atomic_iff (answer : List RunId → Option Error) (unenroll : Unenrollments)
    (cat : RunCatalog) (now : Instant) (user : UserId) (d : Deferral) (s : Store) :
    (DeferralFails answer cat d (deferEnrollment (Faults.edx answer) unenroll cat now user d s) →
        SameForLearner user s (deferEnrollment (Faults.edx answer) unenroll cat now user d s).state) ↔
      ∀ toRun e, PassesChecks cat now user d toRun e s → ¬DeferredBefore user toRun e s →
        ¬StopsHalfway answer unenroll cat user d toRun e s := by
  rcases hto : d.toRun with _ | toRun
  · refine iff_of_true (same_of_noRun hto) fun toRun e hchecks => ?_
    cases hto.symm.trans hchecks.toRun_eq
  · have hraises : ∀ outcome, DeferralFails answer cat d outcome ↔ outcome.error.isSome = true := by
      intro outcome
      refine or_iff_left fun hnone => ?_
      cases hto.symm.trans hnone.1
    rw [hraises]
    by_cases hchecks : ∃ e, PassesChecks cat now user d toRun e s
    · obtain ⟨e, hchecks⟩ := hchecks
      have hone : (∀ toRun e, PassesChecks cat now user d toRun e s → ¬DeferredBefore user toRun e s →
            ¬StopsHalfway answer unenroll cat user d toRun e s) ↔
          (¬DeferredBefore user toRun e s → ¬StopsHalfway answer unenroll cat user d toRun e s) := by
        constructor
        · intro h
          exact h toRun e hchecks
        · intro h toRun' e' hchecks'
          obtain ⟨rfl, rfl⟩ := hchecks.unique hchecks'
          exact h
      rw [hone]
      by_cases hbefore : DeferredBefore user toRun e s
      · rw [hchecks.deferEnrollment_eq, if_pos hbefore]
        exact iff_of_true (fun _ => SameForLearner.refl user s) fun h => absurd hbefore h
      · rw [imp_iff_right hbefore]
        exact DeferralEnd.same_iff hchecks.enrollment hbefore (hchecks.deferralEnd hbefore)
    · have hrefused := not_exists.mp hchecks
      obtain ⟨error, herror⟩ :
          ∃ error, deferEnrollment (Faults.edx answer) unenroll cat now user d s = ⟨s, some error⟩ :=
        deferEnrollment_of_refused hto hrefused
      rw [herror]
      refine iff_of_true (fun _ => SameForLearner.refl user s) fun toRun' e' hchecks' => ?_
      obtain rfl := Option.some.inj (hto.symm.trans hchecks'.toRun_eq)
      exact absurd hchecks' (hrefused e')

/-- edX takes the learner in the new run and refuses the downgrade in the old one: the learner is
verified in both. -/
theorem not_deferral_atomic :
    ¬ ∀ (answer : List RunId → Option Error) (unenroll : Unenrollments) (cat : RunCatalog)
      (now : Instant) (user : UserId) (d : Deferral) (s : Store),
      DeferralFails answer cat d (deferEnrollment (Faults.edx answer) unenroll cat now user d s) →
        SameForLearner user s
          (deferEnrollment (Faults.edx answer) unenroll cat now user d s).state := by
  intro h
  have hsame := h (fun runs => if runs = [1] then some .edxError else none) (fun _ => none) openRuns 5 7
    ⟨1, some 2, false, false⟩ verifiedInRunOne (Or.inl (by decide))
  have hnew := hsame.enrollments 2
  revert hnew
  decide

end MitxOnline

import Mathlib.Tactic.Common
import MitxOnline.Courses.Proofs.DeferralStepsProofs
import MitxOnline.Courses.Proofs.DeferralsProofs

/-!
# What a deferral leaves

A deferral that succeeds should leave an audit enrollment in the old run that is marked as deferred, a
verified enrollment in the new run, and all payments for the old run with the new one. The enrollment in
the new run is always right. The mark is lost when an inactive enrollment is deferred, since it is
reactivated; and only one payment moves, while others of the learner for the new run are deleted.
-/

namespace MitxOnline

open Autocommit

variable {answer : List RunId → Option Error} {unenroll : Unenrollments} {cat : RunCatalog}
  {now : Instant} {user : UserId} {s s' : Store} {fromRun toRun : RunId} {d : Deferral}
  {e : CourseRunEnrollment}

/-- A payment record after the payments of the learner for one run are moved to another. -/
def PaidCourseRun.movedTo (user : UserId) (fromRun toRun : RunId) (paid : PaidCourseRun) :
    PaidCourseRun :=
  if paid.user = user ∧ paid.courseRun = fromRun then { paid with courseRun := toRun } else paid

/-- What is expected of a deferral. -/
structure Defers (user : UserId) (fromRun toRun : RunId) (s s' : Store) : Prop where
  oldRow : ∃ row, s'.enrollments user fromRun = some row ∧ row.enrollmentMode = .audit ∧
    row.changeStatus = some enrollChangeStatusDeferred
  newRow : ∃ row, s'.enrollments user toRun = some row ∧ row.IsPlainVerified
  payments : s'.paidCourseRuns = s.paidCourseRuns.map (·.movedTo user fromRun toRun)
  enrollments : ∀ user' r, user' ≠ user ∨ (r ≠ fromRun ∧ r ≠ toRun) →
    s'.enrollments user' r = s.enrollments user' r
  programEnrollments : s'.programEnrollments = s.programEnrollments

/-- The learner has no payment record for the run. -/
def Unpaid (user : UserId) (r : RunId) (s : Store) : Prop :=
  ∀ paid ∈ s.paidCourseRuns, paid.user = user → paid.courseRun ≠ r

/-- The learner has no payment record for the run but the one that a deferral finds. -/
def OnePayment (user : UserId) (r : RunId) (s : Store) : Prop :=
  ∀ paid ∈ s.paidCourseRuns, paid.user = user → paid.courseRun = r →
    s.fulfilledPaidCourseRun user r = some paid

/-- The enrollments and payments from which a deferral leaves what is expected; `e` is the enrollment in
the old run. -/
def DefersCleanly (user : UserId) (fromRun toRun : RunId) (e : CourseRunEnrollment) (s : Store) : Prop :=
  if DeferredBefore user toRun e s then
    e.enrollmentMode = .audit ∧
      (∃ row, s.enrollments user toRun = some row ∧ row.changeStatus = none) ∧
      Unpaid user fromRun s
  else
    (if e.changeStatus = some enrollChangeStatusDeferred then e.enrollmentMode = .audit
      else e.active = true) ∧
      ((s.activeEnrollment user toRun .audit).isSome = true → Unpaid user toRun s) ∧
      OnePayment user fromRun s

/-! ## The enrollments -/

/-- The enrollment in the old run is right if it is active, or was right before. -/
theorem downgraded_iff (e : CourseRunEnrollment) (success : Bool) :
    ((e.downgraded success).enrollmentMode = .audit ∧
        (e.downgraded success).changeStatus = some enrollChangeStatusDeferred) ↔
      if e.changeStatus = some enrollChangeStatusDeferred then e.enrollmentMode = .audit
      else e.active = true := by
  unfold CourseRunEnrollment.downgraded
  split_ifs with hdeferred
  · exact and_iff_left hdeferred
  · rw [recordedRow_enrollmentMode]
    unfold recordedRow CourseRunEnrollment.withMode
    cases hactive : e.active <;> simp [hactive]

/-- An active verified enrollment is right if it has no change status. -/
theorem activeEnrollment_isSome {user : UserId} {r : RunId} {mode : EnrollmentMode} :
    (s.activeEnrollment user r mode).isSome = true ↔
      ∃ row, s.enrollments user r = some row ∧ row.active = true ∧ row.enrollmentMode = mode := by
  unfold Store.activeEnrollment
  rcases s.enrollments user r with _ | row
  · simp
  · simp [Option.filter_some, Option.isSome_iff_exists]

/-! ## The payments -/

theorem movedTo_eq_self_iff {paid : PaidCourseRun} (hne : fromRun ≠ toRun) :
    paid.movedTo user fromRun toRun = paid ↔ (paid.user = user → paid.courseRun ≠ fromRun) := by
  unfold PaidCourseRun.movedTo
  constructor
  · intro hsame huser hrun
    rw [if_pos ⟨huser, hrun⟩] at hsame
    exact hne (hrun.symm.trans (congrArg PaidCourseRun.courseRun hsame).symm)
  · intro hother
    exact if_neg fun hmoved => hother hmoved.1 hmoved.2

/-- Nothing is to be moved if nothing is paid. -/
theorem unpaid_iff (hne : fromRun ≠ toRun) :
    s.paidCourseRuns = s.paidCourseRuns.map (·.movedTo user fromRun toRun) ↔ Unpaid user fromRun s := by
  conv_lhs => lhs; rw [← List.map_id s.paidCourseRuns]
  rw [List.map_inj_left]
  refine forall₂_congr fun paid _ => ?_
  rw [id_eq, eq_comm]
  exact movedTo_eq_self_iff hne

variable (unenroll) in
/-- Deactivating an audit enrollment deletes the payments of the learner for the run. -/
theorem afterDeactivation_keeps_iff :
    (afterDeactivation unenroll user toRun s).paidCourseRuns.length = s.paidCourseRuns.length ↔
      ((s.activeEnrollment user toRun .audit).isSome = true → Unpaid user toRun s) := by
  rw [afterDeactivation_paidCourseRuns]
  by_cases haudit : (s.activeEnrollment user toRun .audit).isSome = true
  · rw [if_pos haudit, List.length_filter_eq_length_iff, forall_prop_of_true haudit]
    refine forall₂_congr fun paid _ => ?_
    simp [imp_iff_not_or]
  · rw [if_neg haudit]
    exact iff_of_true rfl fun h => absurd h haudit

theorem afterDeactivation_paid_of_length
    (h : (afterDeactivation unenroll user toRun s).paidCourseRuns.length = s.paidCourseRuns.length) :
    (afterDeactivation unenroll user toRun s).paidCourseRuns = s.paidCourseRuns := by
  rw [afterDeactivation_paidCourseRuns] at h ⊢
  split_ifs at h ⊢
  · exact List.filter_eq_self.mpr (List.length_filter_eq_length_iff.mp h)
  · rfl

/-- Moving the payment that is found moves all of them if there is no other. -/
theorem movesFound_iff (hne : fromRun ≠ toRun) :
    (s.paidCourseRuns.map fun row =>
        if s.fulfilledPaidCourseRun user fromRun = some row then { row with courseRun := toRun }
        else row) = s.paidCourseRuns.map (·.movedTo user fromRun toRun) ↔
      OnePayment user fromRun s := by
  rw [List.map_inj_left]
  refine forall₂_congr fun paid _ => ?_
  by_cases hfound : s.fulfilledPaidCourseRun user fromRun = some paid
  · obtain ⟨-, huser, hrun⟩ := fulfilledPaidCourseRun_spec hfound
    rw [if_pos hfound, PaidCourseRun.movedTo, if_pos ⟨huser, hrun⟩]
    exact iff_of_true rfl fun _ _ => hfound
  · rw [if_neg hfound, eq_comm, movedTo_eq_self_iff hne]
    exact forall₂_congr fun _ _ => iff_of_false id hfound

theorem movesPayments_iff (hne : fromRun ≠ toRun) {s₃ : Store}
    (h : WritesEnrollments unenroll user fromRun toRun e s s₃) :
    (s₃.paidCourseRuns.map fun row =>
        if s₃.fulfilledPaidCourseRun user fromRun = some row then { row with courseRun := toRun }
        else row) = s.paidCourseRuns.map (·.movedTo user fromRun toRun) ↔
      ((s.activeEnrollment user toRun .audit).isSome = true → Unpaid user toRun s) ∧
        OnePayment user fromRun s := by
  rw [← afterDeactivation_keeps_iff unenroll]
  constructor
  · intro hmoves
    have hlength := congrArg List.length hmoves
    rw [List.length_map, List.length_map, h.paid] at hlength
    have hpaid := h.paid.trans (afterDeactivation_paid_of_length hlength)
    rw [fulfilledPaidCourseRun_of_tables hpaid h.orders, hpaid] at hmoves
    exact ⟨hlength, (movesFound_iff hne).mp hmoves⟩
  · rintro ⟨hlength, hone⟩
    have hpaid := h.paid.trans (afterDeactivation_paid_of_length hlength)
    rw [fulfilledPaidCourseRun_of_tables hpaid h.orders, hpaid]
    exact (movesFound_iff hne).mpr hone

/-! ## The deferral -/

/-- The end of a call that succeeds. -/
theorem deferEnrollment_succeeds (hto : d.toRun = some toRun)
    (hsuccess : (deferEnrollment (Faults.edx answer) unenroll cat now user d s).error = none) :
    ∃ e, PassesChecks cat now user d toRun e s := by
  by_contra hrefused
  obtain ⟨error, herror⟩ :
      ∃ error, deferEnrollment (Faults.edx answer) unenroll cat now user d s = ⟨s, some error⟩ :=
    deferEnrollment_of_refused hto (not_exists.mp hrefused)
  rw [herror] at hsuccess
  cases hsuccess

theorem defers_of_deferredBefore_iff (hne : fromRun ≠ toRun)
    (henrollment : s.enrollments user fromRun = some e)
    (hbefore : DeferredBefore user toRun e s) :
    Defers user fromRun toRun s s ↔ DefersCleanly user fromRun toRun e s := by
  rw [DefersCleanly, if_pos hbefore]
  obtain ⟨hdeferred, hseat⟩ := hbefore
  obtain ⟨t, ht, hactive, hverified⟩ := activeEnrollment_isSome.mp hseat
  constructor
  · intro h
    obtain ⟨row, hrow, haudit, -⟩ := h.oldRow
    obtain ⟨row', hrow', hplain⟩ := h.newRow
    obtain rfl := Option.some.inj (henrollment.symm.trans hrow)
    exact ⟨haudit, ⟨row', hrow', hplain.changeStatus⟩, (unpaid_iff hne).mp h.payments⟩
  · rintro ⟨haudit, ⟨row, hrow, hstatus⟩, hunpaid⟩
    obtain rfl := Option.some.inj (ht.symm.trans hrow)
    exact
      { oldRow := ⟨e, henrollment, haudit, hdeferred⟩
        newRow := ⟨t, ht, hactive, hverified, hstatus⟩
        payments := (unpaid_iff hne).mpr hunpaid
        enrollments := fun _ _ _ => rfl
        programEnrollments := rfl }

theorem defers_of_writes_iff (hne : fromRun ≠ toRun) (hbefore : ¬DeferredBefore user toRun e s)
    {s₃ : Store} (h : WritesEnrollments unenroll user fromRun toRun e s s₃) :
    Defers user fromRun toRun s
        { s₃ with
          paidCourseRuns := s₃.paidCourseRuns.map fun row =>
            if s₃.fulfilledPaidCourseRun user fromRun = some row then { row with courseRun := toRun }
            else row } ↔
      DefersCleanly user fromRun toRun e s := by
  rw [DefersCleanly, if_neg hbefore, ← movesPayments_iff hne h]
  obtain ⟨success, hold⟩ := h.oldRow
  rw [← downgraded_iff e success]
  constructor
  · intro hdefers
    obtain ⟨row, hrow, hright⟩ := hdefers.oldRow
    obtain rfl := Option.some.inj (hold.symm.trans hrow)
    exact ⟨hright, hdefers.payments⟩
  · rintro ⟨hright, hpayments⟩
    exact
      { oldRow := ⟨_, hold, hright⟩
        newRow := h.newRow
        payments := hpayments
        enrollments := h.others
        programEnrollments := h.programs }

/-- A deferral that succeeds leaves what is expected exactly when the enrollment and the payments it
meets are ones that it moves as a whole. -/
theorem defers_iff (answer : List RunId → Option Error) (unenroll : Unenrollments) (cat : RunCatalog)
    (now : Instant) (user : UserId) (d : Deferral) (s : Store) (hto : d.toRun = some toRun)
    (hsuccess : (deferEnrollment (Faults.edx answer) unenroll cat now user d s).error = none) :
    Defers user d.fromRun toRun s
        (deferEnrollment (Faults.edx answer) unenroll cat now user d s).state ↔
      ∀ e, s.enrollments user d.fromRun = some e → DefersCleanly user d.fromRun toRun e s := by
  obtain ⟨e, hchecks⟩ := deferEnrollment_succeeds hto hsuccess
  have hall : (∀ e, s.enrollments user d.fromRun = some e → DefersCleanly user d.fromRun toRun e s) ↔
      DefersCleanly user d.fromRun toRun e s := by
    rw [hchecks.enrollment]
    exact ⟨fun h => h e rfl, fun h e' he' => Option.some.inj he' ▸ h⟩
  rw [hall]
  by_cases hbefore : DeferredBefore user toRun e s
  · rw [hchecks.deferEnrollment_eq, if_pos hbefore]
    exact defers_of_deferredBefore_iff hchecks.fromRun_ne hchecks.enrollment hbefore
  · have hend : DeferralEnd answer unenroll cat user d.fromRun toRun d.keepFailedEnrollments e s
        (deferEnrollment (Faults.edx answer) unenroll cat now user d s) :=
      hchecks.deferralEnd hbefore
    generalize deferEnrollment (Faults.edx answer) unenroll cat now user d s = outcome
      at hend hsuccess ⊢
    cases hend with
    | deactivation => cases hsuccess
    | enrollment => cases hsuccess
    | downgrade => cases hsuccess
    | payment => cases hsuccess
    | success _ _ _ hwrites _ => exact defers_of_writes_iff hchecks.fromRun_ne hbefore hwrites

/-- Learner 7 has a verified enrollment in run 1 and has paid for it. -/
def paidInRunOne : Store :=
  { verifiedInRunOne.setState 3 .fulfilled with paidCourseRuns := [⟨7, 1, 3⟩] }

theorem defers_iff_paidInRunOne :
    Defers 7 1 2 paidInRunOne
      (deferEnrollment (Faults.edx fun _ => none) (fun _ => none) openRuns 5 7
        ⟨1, some 2, false, false⟩ paidInRunOne).state := by
  refine (defers_iff (fun _ => none) (fun _ => none) openRuns 5 7 ⟨1, some 2, false, false⟩ paidInRunOne
    rfl (by decide)).mpr fun e he => ?_
  cases he
  refine ⟨rfl, fun haudit => absurd haudit (by decide), fun paid hpaid _ _ => ?_⟩
  cases List.mem_singleton.mp hpaid
  rfl

/-- Learner 7 was unenrolled from run 1. -/
def unenrolledFromRunOne : Store :=
  setEnrollment 7 1 ⟨false, some enrollChangeStatusUnenrolled, false, .verified⟩ Store.empty

/-- A forced deferral of an inactive enrollment reactivates it, without the mark. -/
theorem not_defers :
    ¬ ∀ (answer : List RunId → Option Error) (unenroll : Unenrollments) (cat : RunCatalog) (now : Instant)
      (user : UserId) (d : Deferral) (s : Store) (toRun : RunId), d.toRun = some toRun →
      (deferEnrollment (Faults.edx answer) unenroll cat now user d s).error = none →
      Defers user d.fromRun toRun s
        (deferEnrollment (Faults.edx answer) unenroll cat now user d s).state := by
  intro h
  have hdefers := h (fun _ => none) (fun _ => none) openRuns 5 7 ⟨1, some 2, false, true⟩
    unenrolledFromRunOne 2 rfl (by decide)
  obtain ⟨row, hrow, -, hstatus⟩ := hdefers.oldRow
  have hleft : (deferEnrollment (Faults.edx fun _ => none) (fun _ => none) openRuns 5 7
      ⟨1, some 2, false, true⟩ unenrolledFromRunOne).state.enrollments 7 1 =
        some ⟨true, none, true, .audit⟩ := by
    decide
  rw [hleft] at hrow
  cases hrow
  cases hstatus

end MitxOnline

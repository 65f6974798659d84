import Mathlib.Data.Finset.Filter
import MitxOnline.Courses.Enrollments
import MitxOnline.Courses.RunDates
import MitxOnline.Lib.Trace

/-!
# Deferrals (`courses/api.py`)

A deferral moves a verified enrollment from one run of a course to another: the learner is enrolled as
verified in the new run, the enrollment in the old run becomes an audit enrollment that is marked as
deferred, and the payment moves along.
-/

namespace MitxOnline

open Autocommit

/-- `ENROLL_CHANGE_STATUS_DEFERRED` -/
def enrollChangeStatusDeferred : String := "deferred"

/-- `ENROLL_CHANGE_STATUS_UNENROLLED` -/
def enrollChangeStatusUnenrolled : String := "unenrolled"

/-- How edX answers when a user is unenrolled from a run. -/
abbrev Unenrollments := RunId → Option Error

/-- The row that `deactivate_run_enrollment` saves. -/
def CourseRunEnrollment.deactivated (e : CourseRunEnrollment) (changeStatus : String)
    (edxUnenrolled : Bool) : CourseRunEnrollment :=
  { e with
    active := false
    changeStatus := some changeStatus
    edxEnrolled := if edxUnenrolled = true then false else e.edxEnrolled }

/-- `PaidCourseRun.objects.filter(…).delete()` -/
def deletePaidCourseRuns (user : UserId) (r : RunId) (s : Store) : Store :=
  { s with paidCourseRuns := s.paidCourseRuns.filter fun paid => !(paid.user == user && paid.courseRun == r) }

/-- `deactivate_run_enrollment`: what it leaves, and the enrollment it returns. -/
def deactivateRunEnrollment (unenroll : Unenrollments) (user : UserId) (r : RunId)
    (e : CourseRunEnrollment) (changeStatus : String) (keepFailedEnrollments : Bool) (s : Store) :
    Store × Option CourseRunEnrollment :=
  if (unenroll r).isSome = true ∧ keepFailedEnrollments = false then (s, none)
  else
    let row := e.deactivated changeStatus (unenroll r).isNone
    (deletePaidCourseRuns user r (setEnrollment user r row s), some row)

/-- `PaidCourseRun.fulfilled_paid_course_run_exists` and the row that `change_payment_to_run` finds. -/
def Store.fulfilledPaidCourseRun (s : Store) (user : UserId) (r : RunId) : Option PaidCourseRun :=
  s.paidCourseRuns.find? fun paid =>
    paid.user == user && paid.courseRun == r && (s.order paid.order).state == .fulfilled

/-- `CourseRunEnrollment.change_payment_to_run`, with the unique constraint on the table. -/
def changePaymentToRun (user : UserId) (fromRun toRun : RunId) : Code := statement fun s =>
  match s.fulfilledPaidCourseRun user fromRun with
  | none => .ok s
  | some paid =>
    if { paid with courseRun := toRun } ∈ s.paidCourseRuns then .error .integrityError
    else .ok { s with
      paidCourseRuns := s.paidCourseRuns.map fun row =>
        if row = paid then { row with courseRun := toRun } else row }

/-- The enrollment of a user in a run that the active manager finds, in the given mode. -/
def Store.activeEnrollment (s : Store) (user : UserId) (r : RunId) (mode : EnrollmentMode) :
    Option CourseRunEnrollment :=
  (s.enrollments user r).filter fun e => e.active && e.enrollmentMode == mode

/-- The arguments of a deferral. -/
structure Deferral where
  fromRun : RunId
  toRun : Option RunId
  keepFailedEnrollments : Bool
  force : Bool
  deriving DecidableEq, Repr

/-- The checks of `defer_enrollment`: the first that fails, if one does. The messages are those of the
source up to the parenthesis that names the rows. -/
def deferralRefusal (cat : RunCatalog) (now : Instant) (fromEnrollment : CourseRunEnrollment)
    (fromRun toRun : RunId) (force : Bool) : Option Error :=
  if force = false ∧ fromEnrollment.active = false then
    some (.validationError "Cannot defer from inactive enrollment")
  else if fromRun = toRun then some (.validationError "Cannot defer to the same course run")
  else if force = false ∧ (cat.schedule toRun).isEnrollable now = false then
    some (.validationError "Cannot defer to a course run that is outside of its enrollment period")
  else if force = false ∧ (cat.courseRun fromRun).course ≠ (cat.courseRun toRun).course then
    some (.validationError "Cannot defer to a course run of a different course")
  else none

/-- The second value of `create_run_enrollments`: edX took the enrollment. -/
def enrollSuccess (f : Faults) (cat : Catalog) (r : RunId) : Bool :=
  (cat.courseRun r).isFakeCourseRun || (f (.edxEnroll [r])).isNone

/-- What `create_run_enrollments` writes into `edx_enrolled` of one run, if it gets to the writes. -/
def edxRequestSuccess (f : Faults) (cat : Catalog) (keepFailedEnrollments : Bool) (r : RunId) :
    Option Bool :=
  if (cat.courseRun r).isFakeCourseRun = true then some true
  else
    match f (.edxEnroll [r]) with
    | none => some true
    | some .edxError => if keepFailedEnrollments = true then some false else none
    | some _ => none

/-- `create_run_enrollments` for one run, and the check of its second value. -/
def enrollOrRaise (f : Faults) (cat : Catalog) (now : Instant) (user : UserId) (r : RunId)
    (changeStatus : Option String) (keepFailedEnrollments : Bool) (mode : EnrollmentMode) : Code :=
  seq
    [ createRunEnrollments f cat now user [r] changeStatus keepFailedEnrollments mode,
      if enrollSuccess f cat r = false ∧ keepFailedEnrollments = false then raise .failure else skip ]

/-- The part of `defer_enrollment` that deactivates an audit enrollment in the new run. -/
def deactivateAuditEnrollment (unenroll : Unenrollments) (user : UserId) (toRun : RunId)
    (keepFailedEnrollments : Bool) : Code := fun s =>
  match s.activeEnrollment user toRun .audit with
  | none => ⟨s, none⟩
  | some e =>
    let deactivated := deactivateRunEnrollment unenroll user toRun e enrollChangeStatusUnenrolled
      keepFailedEnrollments s
    match deactivated.2 with
    | none => ⟨deactivated.1, some .failure⟩
    | some row => ⟨deactivated.1, if row.edxEnrolled = true then some .failure else none⟩

/-- `defer_enrollment`. The old run is found by its enrollment, the new one must not be a source run. -/
def deferEnrollment (f : Faults) (unenroll : Unenrollments) (cat : RunCatalog) (now : Instant)
    (user : UserId) (d : Deferral) : Code := fun s =>
  match if d.fromRun ∈ cat.runIds then s.enrollments user d.fromRun else none with
  | none => ⟨s, some .doesNotExist⟩
  | some fromEnrollment =>
    match d.toRun with
    | none =>
      createRunEnrollments f cat.toCatalog now user [d.fromRun] (some enrollChangeStatusDeferred)
        d.keepFailedEnrollments .audit s
    | some toRun =>
      if toRun ∉ cat.usableRunIds then ⟨s, some .doesNotExist⟩
      else
        match deferralRefusal cat now fromEnrollment d.fromRun toRun d.force with
        | some e => ⟨s, some e⟩
        | none =>
          let alreadyDeferredFrom :=
            decide (fromEnrollment.changeStatus = some enrollChangeStatusDeferred)
          if alreadyDeferredFrom = true ∧ (s.activeEnrollment user toRun .verified).isSome = true then
            ⟨s, none⟩
          else
            seq
              [ deactivateAuditEnrollment unenroll user toRun d.keepFailedEnrollments,
                enrollOrRaise f cat.toCatalog now user toRun none d.keepFailedEnrollments .verified,
                if alreadyDeferredFrom = true then skip
                else enrollOrRaise f cat.toCatalog now user d.fromRun (some enrollChangeStatusDeferred)
                  d.keepFailedEnrollments .audit,
                changePaymentToRun user d.fromRun toRun ] s

/-! ## Seats -/

/-- An active verified enrollment in a run. -/
def Store.holdsSeat (s : Store) (user : UserId) (r : RunId) : Bool :=
  (s.activeEnrollment user r .verified).isSome

/-- The number of active verified enrollments of a learner. -/
def Store.seats (cat : RunCatalog) (s : Store) (user : UserId) : ℕ :=
  {r ∈ cat.runIds.toFinset | s.holdsSeat user r = true}.card

/-- A call of `defer_enrollment` with a run to defer to and without force. -/
structure DeferralCall where
  fromRun : RunId
  toRun : RunId
  keepFailedEnrollments : Bool
  now : Instant
  deriving DecidableEq, Repr

/-- The database after the call, when edX accepts every request. -/
def deferralStep (cat : RunCatalog) (user : UserId) (s : Store) (call : DeferralCall) : Store :=
  (deferEnrollment Faults.none (fun _ => none) cat call.now user
    ⟨call.fromRun, some call.toRun, call.keepFailedEnrollments, false⟩ s).state

end MitxOnline

import MitxOnline.B2b.Contracts

/-!
# Enrollments (`courses/api.py`)

What a fulfilled order grants is recorded run by run and program by program. The records of one run
are written inside a `try` that swallows every exception, so a failure there leaves what was written
before it and goes on with the next run.
-/

namespace MitxOnline

open Autocommit

/-- Write the enrollment of a user in a run. -/
def setEnrollment (user : UserId) (r : RunId) (row : CourseRunEnrollment) (s : Store) : Store :=
  { s with enrollments := fun user' r' =>
      if user' = user ∧ r' = r then some row else s.enrollments user' r' }

/-- Write the enrollment of a user in a program. -/
def setProgramEnrollment (user : UserId) (p : ProgramId) (row : ProgramEnrollment) (s : Store) :
    Store :=
  { s with programEnrollments := fun user' p' =>
      if user' = user ∧ p' = p then some row else s.programEnrollments user' p' }

/-- The part of `create_run_enrollments` for runs of a contract: the user joins its organization and
the contract. -/
def joinContract (f : Faults) (cat : Catalog) (now : Instant) (user : UserId) (r : RunId) : Code :=
  match (cat.courseRun r).b2bContract with
  | none => skip
  | some c => seq
      [ processAddOrgMembership f cat now user (cat.contract c).organization true,
        fallible f (.contractUser c) (update (addContract user c)) ]

/-- The enrollment after `update_mode_and_save`, or after `reactivate_and_save`. -/
def CourseRunEnrollment.withMode (e : CourseRunEnrollment) (mode : EnrollmentMode) :
    CourseRunEnrollment :=
  if e.active then { e with enrollmentMode := mode }
  else { e with enrollmentMode := mode, active := true, changeStatus := none }

/-- The `try` of the loop of `create_run_enrollments`. -/
def recordRunEnrollment (f : Faults) (cat : Catalog) (now : Instant) (user : UserId)
    (changeStatus : Option String) (mode : EnrollmentMode) (edxRequestSuccess : Bool) (r : RunId) :
    Code := fun s =>
  match s.enrollments user r with
  | none => attempt (seq
      [ fallible f (.enrollment r) (update (setEnrollment user r
          { active := true, changeStatus, edxEnrolled := edxRequestSuccess, enrollmentMode := mode })),
        mayFail f (.enrollmentLog r),
        joinContract f cat now user r ]) s
  | some e => attempt (seq
      [ mayFail f (.enrollment r),
        joinContract f cat now user r,
        fallible f (.enrollmentUpdate r)
          (update (setEnrollment user r { e with edxEnrolled := edxRequestSuccess, changeStatus })),
        fallible f (.enrollmentMode r) (update (setEnrollment user r
          ({ e with edxEnrolled := edxRequestSuccess, changeStatus }.withMode mode))) ]) s

/-- `create_run_enrollments`. Failures of edX are handled: they end the function unless failed
enrollments are kept. -/
def createRunEnrollments (f : Faults) (cat : Catalog) (now : Instant) (user : UserId)
    (runs : List RunId) (changeStatus : Option String) (keepFailedEnrollments : Bool)
    (mode : EnrollmentMode) : Code :=
  match runs with
  | [] => raise .failure
  | first :: _ =>
    let record := fun edxRequestSuccess =>
      seq (runs.map (recordRunEnrollment f cat now user changeStatus mode edxRequestSuccess))
    if (cat.courseRun first).isFakeCourseRun = true then record true
    else
      match f (.edxEnroll runs) with
      | none => record true
      | some .edxError => if keepFailedEnrollments = true then record false else skip
      | some e => raise e

/-- The `try` of the loop of `create_program_enrollments`. -/
def recordProgramEnrollment (f : Faults) (user : UserId) (mode : EnrollmentMode) (p : ProgramId) :
    Code := fun s =>
  match s.programEnrollments user p with
  | none => attempt (fallible f (.programEnrollment p) (update (setProgramEnrollment user p
      { active := true, changeStatus := none, enrollmentMode := mode }))) s
  | some e =>
    let reactivated : ProgramEnrollment :=
      if e.changeStatus.isSome then { e with active := true, changeStatus := none } else e
    attempt (seq
      [ fallible f (.programEnrollment p) (update (setProgramEnrollment user p reactivated)),
        fallible f (.programEnrollmentUpdate p) (update (setProgramEnrollment user p
          { reactivated with enrollmentMode := mode })) ]) s

/-- `create_program_enrollments` -/
def createProgramEnrollments (f : Faults) (user : UserId) (programs : List ProgramId)
    (mode : EnrollmentMode) : Code :=
  seq (programs.map (recordProgramEnrollment f user mode))

/-- The runs that `upgrade_audit_run_enrollments_for_program_purchase` upgrades. -/
def eligibleRuns (cat : Catalog) (s : Store) (now : Instant) (user : UserId) (p : ProgramId) :
    List RunId :=
  cat.runIds.filter fun r =>
    (cat.programCourses p).contains (cat.courseRun r).course && (cat.courseRun r).live &&
      (cat.courseRun r).verifiedMode &&
      ((s.enrollments user r).any fun e => e.enrollmentMode == .audit && e.active) &&
      ((cat.courseRun r).upgradeDeadline.all fun deadline => decide (now < deadline))

/-- `upgrade_audit_run_enrollments_for_program_purchase` -/
def upgradeAuditRunEnrollmentsForProgramPurchase (f : Faults) (cat : Catalog) (now : Instant)
    (user : UserId) (p : ProgramId) : Code := fun s =>
  match eligibleRuns cat s now user p with
  | [] => ⟨s, none⟩
  | r :: runs => createRunEnrollments f cat now user (r :: runs) none true .verified s

/-! ## Hooks for the lines of a fulfilled order (`ecommerce/hooks/process_transaction_line.py`) -/

/-- `PaidCourseRun.objects.create`, with the unique constraint on the table. -/
def createPaidCourseRun (f : Faults) (row : PaidCourseRun) : Code :=
  fallible f (.paidCourseRun row.courseRun) <| statement fun s =>
    if row ∈ s.paidCourseRuns then .error .integrityError
    else .ok { s with paidCourseRuns := s.paidCourseRuns ++ [row] }

/-- `PaidProgram.objects.create`, with the unique constraint on the table. -/
def createPaidProgram (f : Faults) (row : PaidProgram) : Code :=
  fallible f (.paidProgram row.program) <| statement fun s =>
    if row ∈ s.paidPrograms then .error .integrityError
    else .ok { s with paidPrograms := s.paidPrograms ++ [row] }

/-- `_create_courserun_enrollment`, for a line that purchases run `r`. -/
def createCourserunEnrollment (f : Faults) (cat : Catalog) (now : Instant) (purchaser : UserId)
    (o : OrderId) (r : RunId) : Code :=
  seq
    [ createRunEnrollments f cat now purchaser [r] none true .verified,
      createPaidCourseRun f ⟨purchaser, r, o⟩ ]

/-- `_create_program_enrollment`, for a line that purchases program `p`. -/
def createProgramEnrollment (f : Faults) (cat : Catalog) (now : Instant) (purchaser : UserId)
    (o : OrderId) (p : ProgramId) : Code :=
  seq
    [ createProgramEnrollments f purchaser [p] .verified,
      createPaidProgram f ⟨purchaser, p, o⟩,
      upgradeAuditRunEnrollmentsForProgramPurchase f cat now purchaser p ]

/-- `process_transaction_line`: of the two hooks each passes over the lines of the other. -/
def processTransactionLine (f : Faults) (cat : Catalog) (now : Instant) (purchaser : UserId)
    (o : OrderId) (l : Line) : Code :=
  match l.purchasedContentType, l.purchasedObjectId with
  | some .courseRun, some r => createCourserunEnrollment f cat now purchaser o r
  | some .program, some p => createProgramEnrollment f cat now purchaser o p
  | _, _ => skip

end MitxOnline

import MitxOnline.Courses.Enrollments

/-!
# What enrolling returns and sends (`courses/api.py`)

The enrollment functions return the enrollments of the rounds that raised nothing. The loop over course runs
also sends an email for each of them, unless an enrollment was downgraded, and registers a callback for each
that is reactivated, which runs when the transaction around the call commits. The callback reads the
variable of the loop.
-/

namespace MitxOnline

open Autocommit

/-! ## `create_program_enrollments` -/

/-- The part of a round of `create_program_enrollments` inside its `try`. -/
def tryProgramEnrollment (f : Faults) (user : UserId) (mode : EnrollmentMode) (p : ProgramId) : Code :=
  fun s =>
    match s.programEnrollments user p with
    | none => fallible f (.programEnrollment p) (update (setProgramEnrollment user p
        { active := true, changeStatus := none, enrollmentMode := mode })) s
    | some e =>
      let reactivated : ProgramEnrollment :=
        if e.changeStatus.isSome then { e with active := true, changeStatus := none } else e
      seq
        [ fallible f (.programEnrollment p) (update (setProgramEnrollment user p reactivated)),
          fallible f (.programEnrollmentUpdate p) (update (setProgramEnrollment user p
            { reactivated with enrollmentMode := mode })) ] s

/-- The enrollments that `create_program_enrollments` returns, with their programs, and what it leaves. -/
def returnedProgramEnrollments (f : Faults) (user : UserId) (mode : EnrollmentMode) :
    List ProgramId → Store → Store × List (ProgramId × ProgramEnrollment)
  | [], s => (s, [])
  | p :: rest, s =>
    let out := tryProgramEnrollment f user mode p s
    let returned := returnedProgramEnrollments f user mode rest out.state
    match out.error, out.state.programEnrollments user p with
    | none, some row => (returned.1, (p, row) :: returned.2)
    | _, _ => returned

/-! ## `create_run_enrollments` -/

/-- The loop of `create_run_enrollments`. A user has one enrollment in a run, so runs stand for them. -/
structure EnrollmentLoop where
  store : Store
  /-- The variable `enrollment`, which `send_enrollment_emails` refers to. -/
  enrollment : Option RunId
  isEnrollmentDowngraded : Bool
  /-- How often `send_enrollment_emails` was registered with `transaction.on_commit`. -/
  onCommit : ℕ
  successfulEnrollments : List RunId
  /-- The emails of `send_course_run_enrollment_email`. -/
  enrollmentEmails : List RunId
  /-- The messages of `send_enrollment_failure_message`. -/
  failureMessages : List RunId

namespace EnrollmentLoop

/-- Before the first round. -/
def start (s : Store) : EnrollmentLoop := ⟨s, none, false, 0, [], [], []⟩

/-- The `except` of the loop. -/
def failed (r : RunId) (loop : EnrollmentLoop) : EnrollmentLoop :=
  { loop with failureMessages := loop.failureMessages ++ [r] }

/-- The `else` of the loop. -/
def succeeded (edxRequestSuccess : Bool) (r : RunId) (loop : EnrollmentLoop) : EnrollmentLoop :=
  { loop with
    successfulEnrollments := loop.successfulEnrollments ++ [r]
    enrollmentEmails :=
      if edxRequestSuccess = true ∧ loop.isEnrollmentDowngraded = false then loop.enrollmentEmails ++ [r]
      else loop.enrollmentEmails }

/-- Statements inside the `try`, and the rest of the round if they raise nothing. -/
def tryIn (r : RunId) (code : Code) (rest : EnrollmentLoop → EnrollmentLoop) (loop : EnrollmentLoop) :
    EnrollmentLoop :=
  match (code loop.store).error with
  | some _ => failed r { loop with store := (code loop.store).state }
  | none => rest { loop with store := (code loop.store).state }

/-- The mode of an active enrollment changes. -/
def changeMode (f : Faults) (user : UserId) (mode : EnrollmentMode) (edxRequestSuccess : Bool) (r : RunId)
    (e saved : CourseRunEnrollment) (loop : EnrollmentLoop) : EnrollmentLoop :=
  tryIn r (fallible f (.enrollmentMode r) (update (setEnrollment user r
      { saved with enrollmentMode := mode })))
    (succeeded edxRequestSuccess r)
    { loop with isEnrollmentDowngraded := loop.isEnrollmentDowngraded ||
        (mode == .audit && e.enrollmentMode == .verified) }

/-- An enrollment that is not active is reactivated. -/
def reactivate (f : Faults) (user : UserId) (mode : EnrollmentMode) (edxRequestSuccess : Bool) (r : RunId)
    (saved : CourseRunEnrollment) (loop : EnrollmentLoop) : EnrollmentLoop :=
  tryIn r (fallible f (.enrollmentMode r) (update (setEnrollment user r
      { saved with enrollmentMode := mode, active := true, changeStatus := none })))
    (fun loop => succeeded edxRequestSuccess r { loop with onCommit := loop.onCommit + 1 }) loop

/-- One round. -/
def step (f : Faults) (cat : Catalog) (now : Instant) (user : UserId) (changeStatus : Option String)
    (mode : EnrollmentMode) (edxRequestSuccess : Bool) (loop : EnrollmentLoop) (r : RunId) :
    EnrollmentLoop :=
  match f (.enrollment r) with
  | some _ => failed r loop
  | none =>
    match loop.store.enrollments user r with
    | none =>
      let created : CourseRunEnrollment :=
        { active := true, changeStatus, edxEnrolled := edxRequestSuccess, enrollmentMode := mode }
      tryIn r (seq [mayFail f (.enrollmentLog r), joinContract f cat now user r])
        (succeeded edxRequestSuccess r)
        { loop with store := setEnrollment user r created loop.store, enrollment := some r }
    | some e =>
      let saved := { e with edxEnrolled := edxRequestSuccess, changeStatus }
      tryIn r (seq
          [ joinContract f cat now user r,
            fallible f (.enrollmentUpdate r) (update (setEnrollment user r saved)) ])
        (fun loop =>
          if e.active = true ∧ mode ≠ e.enrollmentMode then
            changeMode f user mode edxRequestSuccess r e saved loop
          else if e.active = false then reactivate f user mode edxRequestSuccess r saved loop
          else succeeded edxRequestSuccess r loop)
        { loop with enrollment := some r }

/-- The loop over the runs. -/
def run (f : Faults) (cat : Catalog) (now : Instant) (user : UserId) (changeStatus : Option String)
    (mode : EnrollmentMode) (edxRequestSuccess : Bool) (runs : List RunId) (s : Store) :
    EnrollmentLoop :=
  runs.foldl (step f cat now user changeStatus mode edxRequestSuccess) (start s)

/-- The tasks that are queued when the transaction commits: every callback reads the variable as the loop
has left it. -/
def courseEmailTasks (loop : EnrollmentLoop) : List RunId :=
  match loop.enrollment with
  | none => []
  | some r => List.replicate loop.onCommit r

end EnrollmentLoop

/-- `create_run_enrollments` with what it returns and sends: the loop, and whether edX took the request. -/
def runEnrollmentsReturned (f : Faults) (cat : Catalog) (now : Instant) (user : UserId)
    (runs : List RunId) (changeStatus : Option String) (keepFailedEnrollments : Bool)
    (mode : EnrollmentMode) (s : Store) : Except Error (EnrollmentLoop × Bool) :=
  match runs with
  | [] => .error .failure
  | first :: _ =>
    let record := fun edxRequestSuccess =>
      (EnrollmentLoop.run f cat now user changeStatus mode edxRequestSuccess runs s, edxRequestSuccess)
    if (cat.courseRun first).isFakeCourseRun = true then .ok (record true)
    else
      match f (.edxEnroll runs) with
      | none => .ok (record true)
      | some .edxError =>
        if keepFailedEnrollments = true then .ok (record false)
        else .ok (EnrollmentLoop.start s, false)
      | some e => .error e

end MitxOnline

import MitxOnline.Courses.Certificates

/-!
# Commands that change enrollments (`courses/management/utils.py`)

The helpers of `EnrollmentChangeCommand` create or update an enrollment through
`create_or_update_enrollment`. They pass it no keyword arguments, so it looks for the enrollment among
those of everyone. The tables list their rows in the order `-created_on` in which they are looked up.
-/

namespace MitxOnline

/-- A row of `CourseRunEnrollment`. -/
structure RunEnrollmentRow where
  user : UserId
  run : RunId
  enrollment : CourseRunEnrollment
  edxEmailsSubscription : Bool
  deriving DecidableEq, Repr

/-- The two tables, newest row first. -/
structure EnrollmentTables where
  runEnrollments : List RunEnrollmentRow
  programEnrollments : List ProgramEnrollmentRow

/-- The row with the defaults of `create_or_update_enrollment`. -/
def RunEnrollmentRow.withDefaults (row : RunEnrollmentRow) : RunEnrollmentRow :=
  { row with enrollment := { row.enrollment with active := true, changeStatus := none } }

/-- The row with the defaults of `create_or_update_enrollment`. -/
def ProgramEnrollmentRow.withDefaults (row : ProgramEnrollmentRow) : ProgramEnrollmentRow :=
  { row with enrollment := { row.enrollment with active := true, changeStatus := none } }

/-- The row after a request to edX that succeeded. -/
def RunEnrollmentRow.enrolledInEdx (row : RunEnrollmentRow) : RunEnrollmentRow :=
  { row with enrollment := { row.enrollment with edxEnrolled := true }, edxEmailsSubscription := true }

/-- `create_or_update_enrollment`: the table after it, the place of the enrollment in it, and whether it
was created. `kwargs` tells which rows the keyword arguments select, and `new` is the row that they make
with the defaults, if that fills the columns that may not be null. -/
def createOrUpdateEnrollment {α : Type} (kwargs : α → Bool) (new : Option α) (withDefaults : α → α)
    (rows : List α) : Except Error (List α × ℕ × Bool) :=
  match rows.findIdx? kwargs with
  | some i => .ok (rows.modify i withDefaults, i, false)
  | none =>
    match new with
    | some row => .ok (row :: rows, 0, true)
    | none => .error .integrityError

/-- `EnrollmentChangeCommand.create_run_enrollment`, with what `enroll_in_edx` returns or raises. -/
def createRunEnrollment (enrollInEdx : UserId → RunId → Except Error Bool)
    (existing : RunEnrollmentRow) (toRun : Option RunId) (toUser : Option UserId)
    (keepFailedEnrollments : Bool) (rows : List RunEnrollmentRow) :
    List RunEnrollmentRow × Except Error (Option RunEnrollmentRow) :=
  match createOrUpdateEnrollment (fun _ => true) none RunEnrollmentRow.withDefaults rows with
  | .error e => (rows, .error e)
  | .ok (rows, i, created) =>
    match enrollInEdx (toUser.getD existing.user) (toRun.getD existing.run) with
    | .error e => (rows, .error e)
    | .ok true =>
      let enrolled := rows.modify i RunEnrollmentRow.enrolledInEdx
      (enrolled, .ok enrolled[i]?)
    | .ok false =>
      if keepFailedEnrollments = true then (rows, .ok rows[i]?)
      else (if created = true then rows.eraseIdx i else rows, .ok none)

/-- The loop of `create_program_enrollment`. -/
def createRunEnrollmentsFor (enrollInEdx : UserId → RunId → Except Error Bool) (toUser : UserId)
    (keepFailedEnrollments : Bool) :
    List RunEnrollmentRow → List RunEnrollmentRow →
      List RunEnrollmentRow × Except Error (List RunEnrollmentRow)
  | [], rows => (rows, .ok [])
  | existing :: rest, rows =>
    match createRunEnrollment enrollInEdx existing none (some toUser) keepFailedEnrollments rows with
    | (rows, .error e) => (rows, .error e)
    | (rows, .ok created) =>
      match createRunEnrollmentsFor enrollInEdx toUser keepFailedEnrollments rest rows with
      | (rows, .error e) => (rows, .error e)
      | (rows, .ok others) => (rows, .ok (created.toList ++ others))

/-- `ProgramEnrollment.get_run_enrollments` -/
def getRunEnrollments (cat : Catalog) (existing : ProgramEnrollmentRow) (rows : List RunEnrollmentRow) :
    List RunEnrollmentRow :=
  rows.filter fun row =>
    row.enrollment.active && row.user == existing.user &&
      (cat.programCourses existing.program).contains (cat.courseRun row.run).course

/-- `EnrollmentChangeCommand.create_program_enrollment`, which does not read `to_program`. A query without
an order gives its rows in any, here by `anyOrder`. -/
def createProgramEnrollmentFor (enrollInEdx : UserId → RunId → Except Error Bool) (cat : Catalog)
    (anyOrder : List RunEnrollmentRow → List RunEnrollmentRow) (existing : ProgramEnrollmentRow)
    (toUser : Option UserId) (keepFailedEnrollments : Bool) (s : EnrollmentTables) :
    EnrollmentTables × Except Error (Option (ProgramEnrollmentRow × List RunEnrollmentRow)) :=
  let existingRunEnrollments := anyOrder (getRunEnrollments cat existing s.runEnrollments)
  match createRunEnrollmentsFor enrollInEdx (toUser.getD existing.user) keepFailedEnrollments
      existingRunEnrollments s.runEnrollments with
  | (rows, .error e) => ({ s with runEnrollments := rows }, .error e)
  | (rows, .ok []) => ({ s with runEnrollments := rows }, .ok none)
  | (rows, .ok (created :: others)) =>
    match createOrUpdateEnrollment (fun _ => true) none ProgramEnrollmentRow.withDefaults
        s.programEnrollments with
    | .error e => ({ s with runEnrollments := rows }, .error e)
    | .ok (programRows, i, _) =>
      (⟨rows, programRows⟩, .ok (programRows[i]?.map fun row => (row, created :: others)))

/-! ## The two commands -/

/-- A call of one of the two helpers. -/
inductive EnrollmentChange where
  | run (existing : RunEnrollmentRow) (toRun : Option RunId) (toUser : Option UserId)
  | program (existing : ProgramEnrollmentRow) (toProgram : Option ProgramId) (toUser : Option UserId)

namespace EnrollmentChange

/-- The user that the new enrollment is for. -/
def toUser : EnrollmentChange → UserId
  | run existing _ toUser => toUser.getD existing.user
  | program existing _ toUser => toUser.getD existing.user

/-- The run enrollments that a call is about: those of the target user, in the target run or in the runs
of the target program. -/
def targetsRun (cat : Catalog) (change : EnrollmentChange) (row : RunEnrollmentRow) : Bool :=
  row.user == change.toUser &&
    match change with
    | run existing toRun _ => row.run == toRun.getD existing.run
    | program existing toProgram _ =>
      (cat.programCourses (toProgram.getD existing.program)).contains (cat.courseRun row.run).course

/-- The program enrollment that a call is about. -/
def targetsProgram (change : EnrollmentChange) (row : ProgramEnrollmentRow) : Bool :=
  match change with
  | run _ _ _ => false
  | program existing toProgram _ =>
    row.user == change.toUser && row.program == toProgram.getD existing.program

/-- What a call leaves, and whether it returns an enrollment. -/
def apply (enrollInEdx : UserId → RunId → Except Error Bool) (cat : Catalog)
    (anyOrder : List RunEnrollmentRow → List RunEnrollmentRow) (keepFailedEnrollments : Bool)
    (change : EnrollmentChange) (s : EnrollmentTables) : EnrollmentTables × Bool :=
  match change with
  | run existing toRun toUser =>
    let result := createRunEnrollment enrollInEdx existing toRun toUser keepFailedEnrollments
      s.runEnrollments
    ({ s with runEnrollments := result.1 }, result.2.toOption.any Option.isSome)
  | program existing _ toUser =>
    let result := createProgramEnrollmentFor enrollInEdx cat anyOrder existing toUser
      keepFailedEnrollments s
    (result.1, result.2.toOption.any Option.isSome)

end EnrollmentChange

end MitxOnline

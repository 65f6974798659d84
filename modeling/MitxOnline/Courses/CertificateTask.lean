import MitxOnline.Courses.Certificates
import MitxOnline.Lib.Autocommit

/-!
# The task that takes grades from edX (`courses/api.py`, `courses/utils.py`, `openedx/api.py`)

`generate_course_run_certificates` goes through the runs and through the grades that edX has for each. A
grade is written first and its certificate second; what fails for one learner is logged. There is no
transaction.
-/

namespace MitxOnline

open Autocommit

/-- A current grade in a run, under the name of the learner in edX. -/
structure CurrentGrade where
  username : String
  grade : EdxGrade

/-- What decides when the certificates of a run are due. -/
structure CertificateSchedule where
  isSelfPaced : Bool
  certificateAvailableDate : Option Instant

/-- What edX answers, and who has which name there. Where a request fails there is no answer. -/
structure GradeSource where
  schedule : RunId → CertificateSchedule
  courseCurrentGrades : RunId → Option (List CurrentGrade)
  studentCurrentGrade : UserId → RunId → Option EdxGrade
  /-- The users with an `OpenEdxUser` of that name. -/
  usersNamed : String → List UserId

/-- The loop of `get_edx_grades_with_users`. A name that two users have raises, and a generator that raised
is at its end: `exception_logging_generator` gets no grade after it. -/
def gradesWithUsers (usersNamed : String → List UserId) : List CurrentGrade → List (EdxGrade × UserId)
  | [] => []
  | current :: rest =>
    match usersNamed current.username with
    | [] => gradesWithUsers usersNamed rest
    | [user] => (current.grade, user) :: gradesWithUsers usersNamed rest
    | _ :: _ :: _ => []

/-- `exception_logging_generator(get_edx_grades_with_users(run, user=user))` -/
def getEdxGradesWithUsers (source : GradeSource) (r : RunId) : Option UserId → List (EdxGrade × UserId)
  | some user => (source.studentCurrentGrade user r).toList.map fun grade => (grade, user)
  | none => gradesWithUsers source.usersNamed ((source.courseCurrentGrades r).getD [])

/-- `get_certificate_grade_eligible_runs`; the window is `CERTIFICATE_CREATION_WINDOW_IN_DAYS`, in seconds. -/
def getCertificateGradeEligibleRuns (cur : Curriculum) (schedule : RunId → CertificateSchedule) (window : ℤ)
    (now : Instant) : List RunId :=
  cur.runIds.filter fun r => (cur.courseRun r).live && nonvariant cur r &&
    (schedule r).certificateAvailableDate.all fun date => decide (now - window < date)

/-- The certificates of a run are due. -/
def CertificateSchedule.due (schedule : CertificateSchedule) (force : Bool) (now : Instant) : Bool :=
  force || schedule.isSelfPaced || schedule.certificateAvailableDate.any fun date => decide (date ≤ now)

/-- How the task is called: what it is called for and when, and the clock while it goes on. -/
structure CertificateTask where
  user : Option UserId
  courseRun : Option RunId
  force : Bool
  now : Instant
  window : ℤ
  clock : RunId → ℕ → Instant

/-- The body of the loop over the grades of a run. -/
def processGrade (cur : Curriculum) (limit : ℕ) (source : GradeSource) (task : CertificateTask) (r : RunId)
    (item : (EdxGrade × UserId) × ℕ) : Action CertificateStore CertificateError := fun s =>
  match ensureCourseRunGrade item.1.2 r item.1.1 true s with
  | (s, .error (.validationError _)) => ⟨s, none⟩
  | (s, .error e) => ⟨s, some e⟩
  | (s, .ok (g, _, _)) =>
    if (source.schedule r).due task.force task.now = true then
      ⟨(processCourseRunGradeCertificate cur limit (task.clock r item.2) item.1.2 r g false s).1, none⟩
    else ⟨s, none⟩

/-- The body of the loop over the runs. -/
def processRun (cur : Curriculum) (limit : ℕ) (source : GradeSource) (task : CertificateTask) (r : RunId) :
    Action CertificateStore CertificateError :=
  seq ((getEdxGradesWithUsers source r task.user).zipIdx.map (processGrade cur limit source task r))

/-- The runs that the task goes through. -/
def CertificateTask.runs (task : CertificateTask) (cur : Curriculum) (source : GradeSource) : List RunId :=
  match task.courseRun with
  | some r => [r]
  | none => getCertificateGradeEligibleRuns cur source.schedule task.window task.now

/-- `generate_course_run_certificates`; the counts that it logs are left out. -/
def generateCourseRunCertificates (cur : Curriculum) (limit : ℕ) (source : GradeSource)
    (task : CertificateTask) : Action CertificateStore CertificateError :=
  seq ((task.runs cur source).map (processRun cur limit source task))

end MitxOnline

import Mathlib.Data.List.Dedup
import MitxOnline.Courses.RequirementClasses

/-!
# Upgrades of program enrollments (`courses/api.py`)

An audit enrollment in a program is upgraded when the learner has verified enrollments in the required
courses of the program and in enough of its electives. The program lists its courses and its minimum of
electives; the requirements tree itself is not evaluated.
-/

namespace MitxOnline

open Paths

/-! ## Stored requirements -/

mutual

/-- What a stored node asks for: titles and flags ask for nothing. -/
def toRequirement : PathTree RequirementFields → ProgramRequirement
  | .node fields children => .node fields.node (toRequirements children)

def toRequirements : List (PathTree RequirementFields) → List ProgramRequirement
  | [] => []
  | t :: rest => toRequirement t :: toRequirements rest

end

/-- A curriculum with the rows that its requirements are read from. -/
structure StoredCurriculum extends Curriculum where
  stored : ProgramId → Option Requirements
  requirements_eq : ∀ p, requirements p = (stored p).map fun req => toRequirements req.children

/-- The rows of a program below its root. -/
def StoredCurriculum.rows (cur : StoredCurriculum) (p : ProgramId) : List RequirementRow :=
  ((cur.stored p).map Requirements.rows).getD []

/-! ## The upgrade -/

/-- The user has an active verified enrollment in a run of the course. -/
def hasVerifiedRun (cur : Curriculum) (s : CertificateStore) (user : UserId) (c : CourseId) : Bool :=
  cur.runIds.any fun r => (cur.courseRun r).course == c &&
    (s.enrollments user r).any fun e => e.active && e.enrollmentMode == .verified

/-- `verified_courses`, each once. -/
def verifiedCourses (cur : Curriculum) (s : CertificateStore) (user : UserId)
    (programCourseIds : List CourseId) : List CourseId :=
  programCourseIds.dedup.filter (hasVerifiedRun cur s user)

/-- A row with another mode. -/
def ProgramEnrollmentRow.withMode (row : ProgramEnrollmentRow) (mode : EnrollmentMode) :
    ProgramEnrollmentRow :=
  { row with enrollment := { row.enrollment with enrollmentMode := mode } }

theorem set_withMode_user (t : Table ProgramEnrollmentRow) (i : ℕ) (mode : EnrollmentMode) (j : ℕ) :
    ((t.set i ((t.row i).withMode mode)).row j).user = (t.row j).user := by
  rcases eq_or_ne j i with rfl | hj
  · rw [Table.set_row_self]
    rfl
  · rw [Table.set_row_of_ne _ _ hj]

theorem set_withMode_program (t : Table ProgramEnrollmentRow) (i : ℕ) (mode : EnrollmentMode) (j : ℕ) :
    ((t.set i ((t.row i).withMode mode)).row j).program = (t.row j).program := by
  rcases eq_or_ne j i with rfl | hj
  · rw [Table.set_row_self]
    rfl
  · rw [Table.set_row_of_ne _ _ hj]

/-- Another mode changes neither users nor programs. -/
theorem set_withMode_unique (es : ProgramEnrollments) (i : ℕ) (mode : EnrollmentMode) :
    let t := es.table.set i ((es.table.row i).withMode mode)
    ∀ j ∈ t.keys, ∀ k ∈ t.keys, (t.row j).user = (t.row k).user →
      (t.row j).program = (t.row k).program → j = k := by
  intro t j hj k hk huser hprogram
  rw [set_withMode_user, set_withMode_user] at huser
  rw [set_withMode_program, set_withMode_program] at hprogram
  exact es.unique_together j hj k hk huser hprogram

/-- Save a program enrollment with another mode. -/
def ProgramEnrollments.setMode (es : ProgramEnrollments) (i : ℕ) (mode : EnrollmentMode) :
    ProgramEnrollments where
  table := es.table.set i ((es.table.row i).withMode mode)
  pos := es.pos
  unique_together := set_withMode_unique es i mode

/-- `upgrade_program_enrollment_if_eligible`: whether the enrollment was upgraded. -/
def upgradeProgramEnrollmentIfEligible (cur : StoredCurriculum) (now : Instant) (i : ℕ)
    (s : CertificateStore) : CertificateStore × Except CertificateError Bool :=
  let user := (s.programEnrollments.table.row i).user
  let program := (s.programEnrollments.table.row i).program
  if ((s.programCertificates user program).any fun c => c.isActive now) = true then (s, .ok false)
  else
    match getCoursesWithRequirementsData (cur.rows program) with
    | .error e => (s, .error e)
    | .ok requirementsData =>
      let verifiedCourseIds :=
        verifiedCourses cur.toCurriculum s user (requirementsData.courses.map Prod.fst)
      if (requirementsData.requiredCourses.all fun c => verifiedCourseIds.contains c) = false then
        (s, .ok false)
      else
        let verifiedElectiveCount :=
          (verifiedCourseIds.filter fun c => requirementsData.electiveCourses.contains c).length
        if (requirementsData.operators.minimumElectiveRequirement.any fun minimum =>
            decide ((verifiedElectiveCount : ℤ) < minimum)) = true then (s, .ok false)
        else
          ({ s with programEnrollments := s.programEnrollments.setMode i .verified }, .ok true)

/-! ## The evaluation of the tree -/

/-- `_has_earned_program_cert` with another test of the courses. -/
def hasEarnedWith (cur : Curriculum) (s : CertificateStore) (user : UserId) (course : CourseId → Bool) :
    ℕ → ProgramId → Except CertificateError Bool
  | 0, _ => .error .recursionError
  | limit + 1, p =>
    match cur.requirements p with
    | none => .error .doesNotExist
    | some children =>
      allEarned course
        (fun q =>
          if cur.requiresPayment q = true then .ok (holdsProgramCertificate s user q)
          else hasEarnedWith cur s user course limit q)
        children

/-- The same learner with other run enrollments. -/
def CertificateStore.withEnrollments (s : CertificateStore) (user : UserId)
    (enrollments : RunId → Option CourseRunEnrollment) : CertificateStore :=
  { s with enrollments := fun u => if u = user then enrollments else s.enrollments u }

end MitxOnline

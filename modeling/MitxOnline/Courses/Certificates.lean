import MitxOnline.Courses.Requirements
import MitxOnline.Ecommerce.Models

/-!
# Grades and certificates (`courses/api.py`, `courses/models.py`, `courses/signals.py`)

Grades and certificates are written by independent operations: syncs with edX, overrides by an admin,
the generation of certificates for runs and programs, and the revocation of either. The default
manager of certificates hides revoked ones and those with an issue date to come; `all_objects` does
not.
-/

namespace MitxOnline

/-! ## Tables -/

/-- What the certificate paths read but do not write. `isSourceRun` says that the run is flagged or
tagged as a source run, which the default manager hides. -/
structure Curriculum where
  courseRun : RunId → CourseRun
  runIds : List RunId
  isSourceRun : RunId → Bool
  variantIndustry : RunId → String
  variantLength : RunId → String
  programIds : List ProgramId
  programLive : ProgramId → Bool
  /-- One of the enrollment modes of the program requires a payment. -/
  requiresPayment : ProgramId → Bool
  /-- The children of the root node of the program, if it has one. -/
  requirements : ProgramId → Option (List ProgramRequirement)

/-- The exceptions of the certificate paths. -/
inductive CertificateError where
  | typeError
  | valueError
  | doesNotExist
  | multipleObjectsReturned
  | integrityError
  | dataError
  | recursionError
  | validationError (msg : String)
  deriving DecidableEq, Repr

structure CourseRunGrade where
  grade : ℚ
  letterGrade : Option String
  passed : Bool
  setByAdmin : Bool
  deriving DecidableEq

/-- A certificate for a run or a program. -/
structure Certificate where
  isRevoked : Bool
  issueDate : Instant
  deriving DecidableEq, Repr

/-- The default manager shows the certificate. -/
def Certificate.isActive (now : Instant) (c : Certificate) : Bool :=
  !c.isRevoked && decide (c.issueDate ≤ now)

structure ProgramEnrollmentRow where
  user : UserId
  program : ProgramId
  enrollment : ProgramEnrollment

/-- The program enrollments: keys start at 1, and the pair of user and program is unique. -/
structure ProgramEnrollments where
  table : Table ProgramEnrollmentRow
  pos : ∀ i ∈ table.keys, 0 < i
  unique_together : ∀ i ∈ table.keys, ∀ j ∈ table.keys, (table.row i).user = (table.row j).user →
    (table.row i).program = (table.row j).program → i = j

/-- The state of the certificate paths. -/
structure CertificateStore where
  enrollments : UserId → RunId → Option CourseRunEnrollment
  programEnrollments : ProgramEnrollments
  grades : UserId → RunId → Option CourseRunGrade
  courseRunCertificates : UserId → RunId → List Certificate
  programCertificates : UserId → ProgramId → List Certificate

/-- A curriculum in which run `r` is a verified run of course `r` and no program requires a payment. -/
def Curriculum.ofRequirements (requirements : ProgramId → Option (List ProgramRequirement)) :
    Curriculum where
  courseRun r := ⟨r, true, none, true, false, false, none⟩
  runIds := [1, 2]
  isSourceRun _ := false
  variantIndustry _ := ""
  variantLength _ := ""
  programIds := [1, 2]
  programLive _ := true
  requiresPayment _ := false
  requirements := requirements

/-- No enrollments, grades or certificates. -/
def CertificateStore.empty : CertificateStore where
  enrollments _ _ := none
  programEnrollments :=
    { table := ⟨[], fun _ => ⟨0, 0, ⟨true, none, .verified⟩⟩, Table.sorted_nil⟩
      pos := fun _ h => absurd h List.not_mem_nil
      unique_together := fun _ h => absurd h List.not_mem_nil }
  grades _ _ := none
  courseRunCertificates _ _ := []
  programCertificates _ _ := []

/-- Replace what a table keyed by a user and a run or program holds for one pair. -/
def setPair {α : Type} (f : UserId → ℕ → α) (user : UserId) (key : ℕ) (a : α) : UserId → ℕ → α :=
  fun user' key' => if user' = user ∧ key' = key then a else f user' key'

@[simp] theorem setPair_self {α : Type} (f : UserId → ℕ → α) (user : UserId) (key : ℕ) (a : α) :
    setPair f user key a user key = a := by
  simp [setPair]

theorem setPair_of_ne {α : Type} {f : UserId → ℕ → α} {user user' : UserId} {key key' : ℕ} {a : α}
    (h : ¬(user' = user ∧ key' = key)) : setPair f user key a user' key' = f user' key' := by
  simp only [setPair, if_neg h]

def CertificateStore.setGrade (user : UserId) (r : RunId) (g : CourseRunGrade)
    (s : CertificateStore) : CertificateStore :=
  { s with grades := setPair s.grades user r (some g) }

def CertificateStore.setCourseRunCertificates (user : UserId) (r : RunId) (rows : List Certificate)
    (s : CertificateStore) : CertificateStore :=
  { s with courseRunCertificates := setPair s.courseRunCertificates user r rows }

def CertificateStore.setProgramCertificates (user : UserId) (p : ProgramId) (rows : List Certificate)
    (s : CertificateStore) : CertificateStore :=
  { s with programCertificates := setPair s.programCertificates user p rows }

/-! ## Requirements that are met -/

/-- `Program.courses_qset` -/
def coursesQset (cur : Curriculum) (p : ProgramId) : List CourseId :=
  coursesOf ((cur.requirements p).getD [])

/-- `CourseRunQuerySet.nonvariant`, through the default manager. -/
def nonvariant (cur : Curriculum) (r : RunId) : Bool :=
  !cur.isSourceRun r && cur.variantIndustry r == "" && cur.variantLength r == ""

/-- `user_courseruns` -/
def userCourseruns (cur : Curriculum) (s : CertificateStore) (user : UserId) (p : ProgramId) :
    List RunId :=
  cur.runIds.filter fun r =>
    ((s.enrollments user r).any fun e => e.active && e.changeStatus.isNone) && nonvariant cur r &&
      (coursesQset cur p).contains (cur.courseRun r).course

/-- The user has a certificate for the run that is not revoked. -/
def holdsCertificate (s : CertificateStore) (user : UserId) (r : RunId) : Bool :=
  (s.courseRunCertificates user r).any fun c => !c.isRevoked

/-- The user passed the run, which has no verified mode. -/
def passedWithoutMode (cur : Curriculum) (s : CertificateStore) (user : UserId) (r : RunId) : Bool :=
  !(cur.courseRun r).verifiedMode && (s.grades user r).any fun g => g.passed

/-- `cert_courses` -/
def certCourses (cur : Curriculum) (s : CertificateStore) (user : UserId) (p : ProgramId) :
    List CourseId :=
  ((userCourseruns cur s user p).filter (holdsCertificate s user)).map fun r => (cur.courseRun r).course

/-- `grade_courses` -/
def gradeCourses (cur : Curriculum) (s : CertificateStore) (user : UserId) (p : ProgramId) :
    List CourseId :=
  ((userCourseruns cur s user p).filter (passedWithoutMode cur s user)).map
    fun r => (cur.courseRun r).course

/-- `int(node.operator_value)` -/
def minimum : Option String → Except CertificateError ℤ
  | none => .error .typeError
  | some value =>
    match readInt value with
    | none => .error .valueError
    | some k => .ok k

mutual

/-- `_has_earned`, below the root. -/
def hasEarned (course : CourseId → Bool) (program : ProgramId → Except CertificateError Bool) :
    ProgramRequirement → Except CertificateError Bool
  | .node (.operator .allOf _) children => allEarned course program children
  | .node (.operator .minNumberOf value) children =>
    match countEarned course program children with
    | .error e => .error e
    | .ok count =>
      match minimum value with
      | .error e => .error e
      | .ok k => .ok (decide (k ≤ (count : ℤ)))
  | .node (.operator (.other _) _) _ => .ok false
  | .node (.course c) _ => .ok (course c)
  | .node (.program q) _ => program q

/-- `all` of the children, which stops at the first that is not earned. -/
def allEarned (course : CourseId → Bool) (program : ProgramId → Except CertificateError Bool) :
    List ProgramRequirement → Except CertificateError Bool
  | [] => .ok true
  | t :: rest =>
    match hasEarned course program t with
    | .error e => .error e
    | .ok false => .ok false
    | .ok true => allEarned course program rest

/-- The length of the filtered children. -/
def countEarned (course : CourseId → Bool) (program : ProgramId → Except CertificateError Bool) :
    List ProgramRequirement → Except CertificateError ℕ
  | [] => .ok 0
  | t :: rest =>
    match hasEarned course program t with
    | .error e => .error e
    | .ok earned =>
      match countEarned course program rest with
      | .error e => .error e
      | .ok count => .ok (if earned = true then count + 1 else count)

end

/-- The user has a certificate for the program that is not revoked. -/
def holdsProgramCertificate (s : CertificateStore) (user : UserId) (p : ProgramId) : Bool :=
  (s.programCertificates user p).any fun c => !c.isRevoked

/-- `_has_earned_program_cert`. Required programs without a mode that requires a payment are followed;
nested deeper than the limit they raise a `RecursionError`. -/
def hasEarnedProgramCert (cur : Curriculum) (s : CertificateStore) (user : UserId) :
    ℕ → ProgramId → Except CertificateError Bool
  | 0, _ => .error .recursionError
  | limit + 1, p =>
    match cur.requirements p with
    | none => .error .doesNotExist
    | some children =>
      allEarned (fun c => (certCourses cur s user p ++ gradeCourses cur s user p).contains c)
        (fun q =>
          if cur.requiresPayment q = true then .ok (holdsProgramCertificate s user q)
          else hasEarnedProgramCert cur s user limit q)
        children

/-! ## Certificates for programs -/

/-- The user has an active verified enrollment in the program. -/
def hasVerifiedEnrollment (s : CertificateStore) (user : UserId) (p : ProgramId) : Bool :=
  s.programEnrollments.table.keys.any fun i =>
    let row := s.programEnrollments.table.row i
    row.user == user && row.program == p && row.enrollment.active &&
      row.enrollment.enrollmentMode == .verified

/-- `generate_program_certificate`: the state afterwards, and whether a certificate was created or the
exception that ended the function. -/
def generateProgramCertificate (cur : Curriculum) (limit : ℕ) (now : Instant) (user : UserId)
    (p : ProgramId) (forceCreate : Bool) (s : CertificateStore) :
    CertificateStore × Except CertificateError Bool :=
  if forceCreate = false ∧ hasVerifiedEnrollment s user p = false then (s, .ok false)
  else
    match s.programCertificates user p with
    | _ :: _ => (s, .ok false)
    | [] =>
      let created := (s.setProgramCertificates user p [⟨false, now⟩], .ok true)
      if forceCreate = true then created
      else
        match hasEarnedProgramCert cur s user limit p with
        | .error e => (s, .error e)
        | .ok false => (s, .ok false)
        | .ok true => created

/-- `generate_multiple_programs_certificate`; an exception leaves the certificates created before. -/
def generateMultipleProgramsCertificate (cur : Curriculum) (limit : ℕ) (now : Instant)
    (user : UserId) : List ProgramId → CertificateStore → CertificateStore × Except CertificateError Unit
  | [], s => (s, .ok ())
  | p :: rest, s =>
    match generateProgramCertificate cur limit now user p false s with
    | (s, .error e) => (s, .error e)
    | (s, .ok _) => generateMultipleProgramsCertificate cur limit now user rest s

/-- `manage_program_certificate_access` -/
def manageProgramCertificateAccess (user : UserId) (p : ProgramId) (revokeState : Bool)
    (s : CertificateStore) : CertificateStore × Except CertificateError Bool :=
  match s.programCertificates user p with
  | [] => (s, .ok false)
  | [c] => (s.setProgramCertificates user p [{ c with isRevoked := revokeState }], .ok true)
  | _ :: _ :: _ => (s, .error .multipleObjectsReturned)

/-! ## Grades -/

/-- An edX grade. -/
structure EdxGrade where
  percent : ℚ
  passed : Bool
  letterGrade : Option String

/-- The checks of the columns of a grade when it is inserted; validators do not run. -/
def CourseRunGrade.insertable (g : CourseRunGrade) : Bool :=
  g.letterGrade.all fun s => decide (s.toList.length ≤ 10)

/-- The checks of `full_clean` when a grade is saved again. -/
def CourseRunGrade.fullClean (g : CourseRunGrade) : Except CertificateError Unit :=
  if 0 ≤ g.grade ∧ g.grade ≤ 2 ∧ g.insertable = true then .ok ()
  else .error (.validationError "grade")

/-- `ensure_course_run_grade`: the grade, whether it was created and whether it was updated. -/
def ensureCourseRunGrade (user : UserId) (r : RunId) (edxGrade : EdxGrade) (shouldUpdate : Bool)
    (s : CertificateStore) :
    CertificateStore × Except CertificateError (CourseRunGrade × Bool × Bool) :=
  match s.grades user r with
  | none =>
    let g : CourseRunGrade := ⟨edxGrade.percent, edxGrade.letterGrade, edxGrade.passed, false⟩
    if g.insertable = true then (s.setGrade user r g, .ok (g, true, false)) else (s, .error .dataError)
  | some g =>
    let updated : CourseRunGrade :=
      { g with grade := edxGrade.percent, passed := edxGrade.passed, letterGrade := edxGrade.letterGrade }
    if shouldUpdate = true ∧ g.setByAdmin = false ∧ updated ≠ g then
      match updated.fullClean with
      | .error e => (s, .error e)
      | .ok () => (s.setGrade user r updated, .ok (updated, false, true))
    else (s, .ok (g, false, false))

/-- `is_letter_grade_valid`: the pattern `^[A-F]$`, whose end also matches before a final newline. -/
def isLetterGradeValid (letterGrade : String) : Bool :=
  match letterGrade.toList with
  | [c] => 'A' ≤ c && c ≤ 'F'
  | [c, '\n'] => 'A' ≤ c && c ≤ 'F'
  | _ => false

/-- `override_user_grade`; the run is given by its courseware id, which is unique. -/
def overrideUserGrade (user : UserId) (overrideGrade : ℚ) (letterGrade : String) (r : RunId)
    (shouldForcePass : Bool) (s : CertificateStore) :
    CertificateStore × Except CertificateError CourseRunGrade :=
  if ¬(0 ≤ overrideGrade ∧ overrideGrade ≤ 1) then
    (s, .error (.validationError "Invalid value for grade. Allowed range: 0.0 - 1.0"))
  else if isLetterGradeValid letterGrade = false then
    (s, .error (.validationError "Invalid letter grade string. Allowed values: A-F"))
  else
    match s.grades user r with
    | none => (s, .error .doesNotExist)
    | some _ =>
      let g : CourseRunGrade := ⟨overrideGrade, some letterGrade,
        if shouldForcePass = true then decide (overrideGrade ≠ 0) else false, true⟩
      match g.fullClean with
      | .error e => (s, .error e)
      | .ok () => (s.setGrade user r g, .ok g)

/-! ## Certificates for runs -/

/-- `CourseRunGrade.is_certificate_eligible` -/
def isCertificateEligible (s : CertificateStore) (user : UserId) (r : RunId) (g : CourseRunGrade) :
    Bool :=
  g.passed && (s.enrollments user r).any fun e => e.active && e.enrollmentMode == .verified

/-- The programs that `handle_create_course_run_certificate` generates certificates for. -/
def programsWithCourse (cur : Curriculum) (c : CourseId) : List ProgramId :=
  cur.programIds.filter fun p => cur.programLive p && (coursesQset cur p).contains c

/-- `process_course_run_grade_certificate`, for a grade as the caller has it: whether a certificate was
created and whether one was deleted. The signal of a new certificate generates those of programs once
the row is committed. An `IntegrityError` is logged. -/
def processCourseRunGradeCertificate (cur : Curriculum) (limit : ℕ) (now : Instant) (user : UserId)
    (r : RunId) (g : CourseRunGrade) (shouldForceCreate : Bool) (s : CertificateStore) :
    CertificateStore × Except CertificateError (Bool × Bool) :=
  let rows := s.courseRunCertificates user r
  if g.grade = 0 then
    (s.setCourseRunCertificates user r (rows.filter fun c => !c.isActive now),
      .ok (false, rows.any (Certificate.isActive now)))
  else if isCertificateEligible s user r g = true ∨ shouldForceCreate = true then
    match rows.filter (Certificate.isActive now) with
    | _ :: _ :: _ => (s, .error .multipleObjectsReturned)
    | [_] => (s, .ok (false, false))
    | [] =>
      match rows with
      | _ :: _ => (s, .ok (false, false))
      | [] =>
        match generateMultipleProgramsCertificate cur limit now user
            (programsWithCourse cur (cur.courseRun r).course)
            (s.setCourseRunCertificates user r [⟨false, now⟩]) with
        | (s, .ok ()) => (s, .ok (true, false))
        | (s, .error .integrityError) => (s, .ok (false, false))
        | (s, .error e) => (s, .error e)
  else (s, .ok (false, false))

/-- `manage_course_run_certificate_access`; the run is given by its courseware id, which is unique. -/
def manageCourseRunCertificateAccess (cur : Curriculum) (user : UserId) (r : RunId)
    (revokeState : Bool) (s : CertificateStore) : CertificateStore × Except CertificateError Bool :=
  if cur.isSourceRun r = true then (s, .error .doesNotExist)
  else
    match s.courseRunCertificates user r with
    | [] => (s, .ok false)
    | [c] => (s.setCourseRunCertificates user r [{ c with isRevoked := revokeState }], .ok true)
    | _ :: _ :: _ => (s, .error .multipleObjectsReturned)

/-! ## The backfill -/

/-- The counters of `generate_missing_program_certificates`. -/
structure BackfillStats where
  processed : ℕ
  created : ℕ
  ineligible : ℕ
  failed : ℕ
  deriving DecidableEq, Repr

/-- `get_eligible_program_certificate_candidates` -/
def eligibleCandidates (cur : Curriculum) (s : CertificateStore) : List ℕ :=
  s.programEnrollments.table.keys.filter fun i =>
    let row := s.programEnrollments.table.row i
    row.enrollment.active && row.enrollment.enrollmentMode == .verified &&
      cur.programLive row.program && (s.programCertificates row.user row.program).isEmpty

/-- The body of the loop over a batch. -/
def processCandidate (cur : Curriculum) (limit : ℕ) (now : Instant) (i : ℕ)
    (run : CertificateStore × BackfillStats) : CertificateStore × BackfillStats :=
  let stats := { run.2 with processed := run.2.processed + 1 }
  let row := run.1.programEnrollments.table.row i
  match generateProgramCertificate cur limit now row.user row.program false run.1 with
  | (s, .ok true) => (s, { stats with created := stats.created + 1 })
  | (s, .ok false) => (s, { stats with ineligible := stats.ineligible + 1 })
  | (s, .error _) => (s, { stats with failed := stats.failed + 1 })

/-- The loop over a batch. -/
def processBatch (cur : Curriculum) (limit : ℕ) (now : Instant) (batch : List ℕ)
    (run : CertificateStore × BackfillStats) : CertificateStore × BackfillStats :=
  batch.foldl (fun run i => processCandidate cur limit now i run) run

/-- The loop over the batches after `lastId`; `none` where the fuel runs out. -/
def processBatches (cur : Curriculum) (limit : ℕ) (now : Instant) (batchSize : ℕ) :
    ℕ → ℕ → CertificateStore × BackfillStats → Option (CertificateStore × BackfillStats)
  | 0, _, _ => none
  | fuel + 1, lastId, run =>
    match ((eligibleCandidates cur run.1).filter fun i => lastId < i).take batchSize with
    | [] => some run
    | i :: batch => processBatches cur limit now batchSize fuel ((i :: batch).getLast (by simp))
        (processBatch cur limit now (i :: batch) run)

/-- `generate_missing_program_certificates`. Every batch but the last takes an enrollment, so there
are at most as many batches as enrollments, and one more. -/
def generateMissingProgramCertificates (cur : Curriculum) (limit : ℕ) (now : Instant)
    (batchSize : ℕ) (s : CertificateStore) : Option (CertificateStore × BackfillStats) :=
  processBatches cur limit now batchSize (s.programEnrollments.table.keys.length + 1) 0
    (s, ⟨0, 0, 0, 0⟩)

/-! ## Runs -/

/-- The operations on grades and certificates, and changes of enrollments. -/
inductive CertificateEvent where
  | syncGrade (user : UserId) (r : RunId) (edxGrade : EdxGrade) (shouldUpdate : Bool)
  | overrideGrade (user : UserId) (overrideGrade : ℚ) (letterGrade : String) (r : RunId)
      (shouldForcePass : Bool)
  | processCourseRun (user : UserId) (r : RunId) (g : CourseRunGrade) (shouldForceCreate : Bool)
  | generateProgram (user : UserId) (p : ProgramId) (forceCreate : Bool)
  | generateMissing (batchSize : ℕ)
  | manageCourseRun (user : UserId) (r : RunId) (revokeState : Bool)
  | manageProgram (user : UserId) (p : ProgramId) (revokeState : Bool)
  | enroll (enrollments : UserId → RunId → Option CourseRunEnrollment)
      (programEnrollments : ProgramEnrollments)

/-- The state after an event at an instant, whether it raised or not. -/
def certificateStep (cur : Curriculum) (limit : ℕ) (s : CertificateStore)
    (e : Instant × CertificateEvent) : CertificateStore :=
  match e.2 with
  | .syncGrade user r edxGrade shouldUpdate => (ensureCourseRunGrade user r edxGrade shouldUpdate s).1
  | .overrideGrade user grade letterGrade r shouldForcePass =>
    (overrideUserGrade user grade letterGrade r shouldForcePass s).1
  | .processCourseRun user r g shouldForceCreate =>
    (processCourseRunGradeCertificate cur limit e.1 user r g shouldForceCreate s).1
  | .generateProgram user p forceCreate =>
    (generateProgramCertificate cur limit e.1 user p forceCreate s).1
  | .generateMissing batchSize =>
    ((generateMissingProgramCertificates cur limit e.1 batchSize s).map Prod.fst).getD s
  | .manageCourseRun user r revokeState =>
    (manageCourseRunCertificateAccess cur user r revokeState s).1
  | .manageProgram user p revokeState => (manageProgramCertificateAccess user p revokeState s).1
  | .enroll enrollments programEnrollments => { s with enrollments, programEnrollments }

end MitxOnline

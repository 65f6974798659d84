import MitxOnline.Courses.Retirement

/-!
# Sync of course runs with edX (`courses/api.py`)

A run is described in the database and in edX. A sync copies what edX says of a run into its row, a
retirement writes its dates in edX first and in the database second, and authors edit courses in edX at any
time. What edX makes of an update is a parameter.
-/

namespace MitxOnline

/-! ## The two sides -/

/-- What edX says of a course (`CourseDetail`). -/
structure CourseDetail where
  name : String
  start : Option Instant
  fin : Option Instant
  enrollmentStart : Option Instant
  enrollmentEnd : Option Instant
  isSelfPaced : Bool
  certificateAvailableDate : Option Instant
  deriving DecidableEq, Repr

/-- What edX says of its courses. -/
abbrev EdxCourses := String → Option CourseDetail

/-- What edX makes of an update of a course. -/
abbrev EdxUpdate := String → EdxPayload → EdxCourses → EdxCourses

/-- What is relied on of edX: a course that it has has the end and the enrollment end that it was sent, and an
update of a course leaves the others. -/
structure EdxUpdate.Documented (update : EdxUpdate) : Prop where
  fin : ∀ coursewareId payload courses t detail, payload.dates.fin = some t →
    update coursewareId payload courses coursewareId = some detail → detail.fin = some t
  enrollmentEnd : ∀ coursewareId payload courses t detail, payload.dates.enrollmentEnd = some t →
    update coursewareId payload courses coursewareId = some detail → detail.enrollmentEnd = some t
  others : ∀ coursewareId payload courses other, other ≠ coursewareId →
    update coursewareId payload courses other = courses other

/-- The database and edX. The certificate dates are the column of `CourseRun` that a sync writes and a
retirement does not. -/
structure SyncedCourseware (lookup : String → Bool) where
  db : CoursewareStore lookup
  certificateAvailableDate : RunId → Option Instant
  edx : EdxCourses

variable {lookup : String → Bool}

/-! ## The sync -/

/-- A run as the sync has it in memory. -/
structure RunInstance where
  run : ScheduledRun
  certificateAvailableDate : Option Instant
  deriving DecidableEq

def SyncedCourseware.instance (s : SyncedCourseware lookup) (r : RunId) : RunInstance :=
  ⟨s.db.courseRun r, s.certificateAvailableDate r⟩

/-- `certificate_available_date`, or the end of the course. -/
def CourseDetail.certificateDate (detail : CourseDetail) : Option Instant :=
  detail.certificateAvailableDate.or detail.fin

/-- All fields have the incoming values. -/
def RunInstance.matchesEdx (obj : RunInstance) (detail : CourseDetail) : Bool :=
  obj.run.title == detail.name && obj.run.startDate == detail.start && obj.run.endDate == detail.fin &&
    obj.run.enrollmentStart == detail.enrollmentStart && obj.run.enrollmentEnd == detail.enrollmentEnd &&
    obj.run.isSelfPaced == detail.isSelfPaced &&
    obj.certificateAvailableDate == detail.certificateDate

/-- The assignments of `_sync_course_run_from_edx`. -/
def RunInstance.synced (obj : RunInstance) (detail : CourseDetail) : RunInstance where
  run :=
    { obj.run with
      title := detail.name
      startDate := detail.start
      endDate := detail.fin
      enrollmentStart := detail.enrollmentStart
      enrollmentEnd := detail.enrollmentEnd
      isSelfPaced := detail.isSelfPaced
      expirationDate :=
        if obj.run.startDate ≠ detail.start ∨ obj.run.endDate ≠ detail.fin then none
        else obj.run.expirationDate }
  certificateAvailableDate := detail.certificateDate

/-- `save` of a run, which can fail for reasons of the database too. -/
def SyncedCourseware.save (s : SyncedCourseware lookup) (saveFails : RunId → Bool) (r : RunId)
    (obj : RunInstance) : Except Error (SyncedCourseware lookup) :=
  match s.db.saveRun r obj.run, saveFails r with
  | .error e, _ => .error e
  | .ok _, true => .error .failure
  | .ok db, false => .ok { s with
      db := db
      certificateAvailableDate := Function.update s.certificateAvailableDate r obj.certificateAvailableDate }

/-- The loop over the answer of edX: the database, the runs in memory and the counts. -/
structure SyncPass (lookup : String → Bool) where
  s : SyncedCourseware lookup
  instances : RunId → RunInstance
  successCount : ℕ
  failureCount : ℕ

/-- `_filter_valid_course_keys`: the run of an id that was asked for. `isCourseKey` is the match with
`COURSE_KEY_PATTERN`. -/
def runsByCourseId (isCourseKey : String → Bool) (s : SyncedCourseware lookup) (runs : List RunId)
    (coursewareId : String) : Option RunId :=
  (runs.filter fun r => (s.db.courseRun r).coursewareId == coursewareId &&
    isCourseKey (s.db.courseRun r).coursewareId).getLast?

/-- One round of the loop. -/
def syncDetail (saveFails : RunId → Bool) (runOf : String → Option RunId) (pass : SyncPass lookup)
    (answer : String × CourseDetail) : SyncPass lookup :=
  match runOf answer.1 with
  | none => pass
  | some r =>
    if (pass.instances r).matchesEdx answer.2 = true then pass
    else
      let obj := (pass.instances r).synced answer.2
      let instances := Function.update pass.instances r obj
      match pass.s.save saveFails r obj with
      | .ok s => { pass with s := s, instances := instances, successCount := pass.successCount + 1 }
      | .error _ => { pass with instances := instances, failureCount := pass.failureCount + 1 }

/-- What happens at edX during a sync: the ids it answers for, in order, whether it fails then, and which
saves fail. -/
structure SyncAnswer where
  reported : List String
  apiFails : Bool
  saveFails : RunId → Bool

/-- The details that edX has of the ids it answers for. -/
def SyncedCourseware.details (s : SyncedCourseware lookup) (reported : List String) :
    List (String × CourseDetail) :=
  reported.filterMap fun coursewareId => (s.edx coursewareId).map fun detail => (coursewareId, detail)

/-- `sync_course_runs`: what it leaves, and its counts of successes and failures. -/
def syncCourseRuns (isCourseKey : String → Bool) (runs : List RunId) (answer : SyncAnswer)
    (s : SyncedCourseware lookup) : SyncedCourseware lookup × ℕ × ℕ :=
  if (runs.any fun r => isCourseKey (s.db.courseRun r).coursewareId) = false then (s, 0, runs.length)
  else
    let pass := (s.details answer.reported).foldl
      (syncDetail answer.saveFails (runsByCourseId isCourseKey s runs)) ⟨s, s.instance, 0, 0⟩
    (pass.s, pass.successCount, pass.failureCount + if answer.apiFails = true then 1 else 0)

/-! ## Runs -/

/-- A retirement, a sync, or an edit of a course in edX. Where edX fails during a retirement, it may have
kept the update nevertheless. -/
inductive CoursewareEvent where
  | retire (edxAnswer : Except Error Unit) (kept : Bool) (deactivateProducts skipEdx : Bool) (now : Instant)
      (r : RunId)
  | sync (runs : List RunId) (answer : SyncAnswer)
  | edit (coursewareId : String) (detail : Option CourseDetail)

/-- A retirement, on both sides. -/
def SyncedCourseware.retire (update : EdxUpdate) (s : SyncedCourseware lookup) (edxAnswer : Except Error Unit)
    (kept deactivateProducts skipEdx : Bool) (now : Instant) (r : RunId) : SyncedCourseware lookup :=
  let run := s.db.courseRun r
  { s with
    db := (retireCourseRun edxAnswer deactivateProducts skipEdx now r s.db).1
    edx :=
      if skipEdx = false ∧ (edxAnswer.isOk = true ∨ kept = true) then
        update run.coursewareId (run.edxPayload (computeRetirementDates run now)) s.edx
      else s.edx }

/-- What an event leaves. -/
def coursewareStep (update : EdxUpdate) (isCourseKey : String → Bool) (s : SyncedCourseware lookup) :
    CoursewareEvent → SyncedCourseware lookup
  | .retire edxAnswer kept deactivateProducts skipEdx now r =>
    s.retire update edxAnswer kept deactivateProducts skipEdx now r
  | .sync runs answer => (syncCourseRuns isCourseKey runs answer s).1
  | .edit coursewareId detail => { s with edx := Function.update s.edx coursewareId detail }

end MitxOnline

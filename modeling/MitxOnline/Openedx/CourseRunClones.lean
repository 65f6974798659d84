import MitxOnline.Catalog
import MitxOnline.Lib.Dialogues

/-!
# Cloning course runs in edX (`openedx/tasks.py`, `openedx/api.py`)

A delivery of the task asks edX for a rerun of a base course under the key of the target run, and then sends
the details and the modes of the target run. Deliveries are retried and repeated and run at once on many
workers, and staff works in edX at the same time. A worker has no transaction, so what waits for the commit
is done at once.
-/

namespace MitxOnline

open Dialogues

/-- What edX is sent of a course mode. -/
structure EdxCourseMode where
  modeSlug : String
  modeDisplayName : String
  minPrice : ℕ
  deriving DecidableEq, Repr

/-- The arguments of `update_course_run`. -/
structure CourseParams where
  courseId : String
  title : String
  pacingType : String
  start : Option Instant
  fin : Option Instant
  enrollmentStart : Option Instant
  enrollmentEnd : Option Instant
  deriving DecidableEq, Repr

/-- A course run in edX: the last details that it was sent, and its modes. -/
structure EdxCourseRun where
  details : Option CourseParams
  modes : List EdxCourseMode
  deriving DecidableEq, Repr

/-- The course runs of edX by their keys. -/
abbrev EdxCourseRuns := String → Option EdxCourseRun

inductive CloneError where
  | courseRunAPIError
  | httpError
  | openEdXOAuth2Error
  | requestException
  | improperlyConfigured
  | valueError (msg : String)
  /-- The task is retried after so many seconds. -/
  | retry (countdown : ℕ)
  | other
  deriving DecidableEq, Repr

/-- The requests of a delivery. -/
inductive EdxRequest where
  /-- A client is made, which may need a token. -/
  | client
  | getCourseRun (courseId : String)
  | cloneCourseRun (existingCourseId newCourseId : String)
  | updateCourseRun (params : CourseParams)
  | getCourseModes (courseId : String)
  | createCourseMode (courseId : String) (mode : EdxCourseMode)
  deriving DecidableEq, Repr

/-- The answers; that of `cloneCourseRun` is `resp.ok`. -/
abbrev EdxRequest.Answer : EdxRequest → Type
  | .cloneCourseRun .. => Bool
  | .getCourseModes _ => List EdxCourseMode
  | _ => Unit

abbrev EdxProgram := Program EdxRequest EdxRequest.Answer CloneError

/-- What edX does for a request. -/
abbrev EdxWork := (q : EdxRequest) → EdxCourseRuns → EdxCourseRuns × Except CloneError q.Answer

/-- What is relied on of edX: it does not clone to a key that it has, and a request for one run leaves the
others. -/
structure EdxLaws (work : EdxWork) : Prop where
  client : ∀ runs, (work .client runs).1 = runs
  getCourseRun : ∀ courseId runs, (work (.getCourseRun courseId) runs).1 = runs
  getCourseModes : ∀ courseId runs, (work (.getCourseModes courseId) runs).1 = runs
  getCourseModes_ok : ∀ courseId runs run modes, runs courseId = some run →
    (work (.getCourseModes courseId) runs).2 = .ok modes → modes = run.modes
  clone_other : ∀ base new runs courseId, courseId ≠ new →
    (work (.cloneCourseRun base new) runs).1 courseId = runs courseId
  clone_taken : ∀ base new runs run, runs new = some run →
    (work (.cloneCourseRun base new) runs).1 new = some run ∧
      (work (.cloneCourseRun base new) runs).2 ≠ .ok true
  clone_ok : ∀ base new runs, (work (.cloneCourseRun base new) runs).2 = .ok true →
    ∃ run, (work (.cloneCourseRun base new) runs).1 new = some run
  update_other : ∀ params runs courseId, courseId ≠ params.courseId →
    (work (.updateCourseRun params) runs).1 courseId = runs courseId
  update : ∀ params runs run, runs params.courseId = some run →
    ∃ run', (work (.updateCourseRun params) runs).1 params.courseId = some run' ∧
      ((work (.updateCourseRun params) runs).2 = .ok () → run' = { run with details := some params })
  create_other : ∀ new mode runs courseId, courseId ≠ new →
    (work (.createCourseMode new mode) runs).1 courseId = runs courseId
  create : ∀ courseId mode runs run, runs courseId = some run →
    ∃ run', (work (.createCourseMode courseId mode) runs).1 courseId = some run' ∧
      ((work (.createCourseMode courseId mode) runs).2 = .ok () →
        run' = { run with modes := run.modes ++ [mode] })

/-! ## The code of a delivery -/

/-- A row of `EnrollmentMode` -/
structure EnrollmentModeRow where
  modeSlug : String
  modeDisplayName : String
  requiresPayment : Bool
  deriving DecidableEq, Repr

/-- The row of the target run, as the delivery reads it. -/
structure CloneTarget where
  readableId : String
  title : String
  isSelfPaced : Bool
  startDate : Option Instant
  endDate : Option Instant
  enrollmentStart : Option Instant
  enrollmentEnd : Option Instant
  enrollmentModes : List EnrollmentModeRow
  deriving DecidableEq, Repr

/-- `course_params`: the dates of the enrollment go with those of the course. -/
def CloneTarget.courseParams (target : CloneTarget) : CourseParams :=
  let params : CourseParams :=
    { courseId := target.readableId
      title := target.title
      pacingType := if target.isSelfPaced then "self_paced" else "instructor_paced"
      start := none
      fin := none
      enrollmentStart := none
      enrollmentEnd := none }
  match target.startDate, target.endDate with
  | some start, some fin =>
    match target.enrollmentStart, target.enrollmentEnd with
    | some enrollmentStart, some enrollmentEnd =>
      { params with
        start := some start
        fin := some fin
        enrollmentStart := some enrollmentStart
        enrollmentEnd := some enrollmentEnd }
    | _, _ => { params with start := some start, fin := some fin }
  | _, _ => params

def askEdx (q : EdxRequest) : EdxProgram q.Answer := Dialogues.request q

/-- `get_edx_course` -/
def getEdxCourse (courseId : String) : EdxProgram Unit := askEdx (.getCourseRun courseId)

/-- `clone_edx_course`. The new run is looked up with another client. -/
def cloneEdxCourse (existingCourseId newCourseId : String) : EdxProgram Bool := do
  let ok : Bool ← askEdx (.cloneCourseRun existingCourseId newCourseId)
  if ok = true then
    askEdx .client
    getEdxCourse newCourseId
    return true
  else return false

/-- `fix_cloned_run_data`, and the client of `update_edx_course`. -/
def fixClonedRunData (target : CloneTarget) : EdxProgram Unit := do
  askEdx .client
  askEdx (.updateCourseRun target.courseParams)

/-- `get_edx_course_modes` -/
def getEdxCourseModes (courseId : String) : EdxProgram (List EdxCourseMode) := do
  askEdx .client
  askEdx (.getCourseModes courseId)

/-- `create_edx_course_mode` -/
def createEdxCourseMode (courseId : String) (mode : EdxCourseMode) : EdxProgram Unit := do
  askEdx .client
  askEdx (.createCourseMode courseId mode)

/-- The mode that edX is sent; the price of a mode that requires payment is nominal. -/
def EnrollmentModeRow.toEdx (mode : EnrollmentModeRow) : EdxCourseMode :=
  ⟨mode.modeSlug, mode.modeDisplayName, if mode.requiresPayment then 1 else 0⟩

/-- The loop of `push_edx_modes_from_run`; it counts the modes that it creates. -/
def pushModes (courseId : String) (existingModeSlugs : List String) : List EnrollmentModeRow → EdxProgram ℕ
  | [] => return 0
  | mode :: modes =>
    if mode.modeSlug ∈ existingModeSlugs then pushModes courseId existingModeSlugs modes
    else do
      createEdxCourseMode courseId mode.toEdx
      let createdCount ← pushModes courseId existingModeSlugs modes
      return createdCount + 1

/-- `push_edx_modes_from_run` -/
def pushEdxModesFromRun (target : CloneTarget) : EdxProgram ℕ := do
  let edxModes ← getEdxCourseModes target.readableId
  pushModes target.readableId (edxModes.map (·.modeSlug)) target.enrollmentModes

/-- The `try` of `process_course_run_clone`: the target run must not be in edX. -/
def ensureTargetMissing (target : CloneTarget) : EdxProgram Unit :=
  tryCatch
    (do
      getEdxCourse target.readableId
      throw (.valueError ("Course ID " ++ target.readableId ++ " was found in edX. Can't continue.")))
    fun
      | .courseRunAPIError => return ()
      | e => throw e

/-- `process_course_run_clone` -/
def processCourseRunClone (target : CloneTarget) (baseCourseKey : String) : EdxProgram Unit := do
  askEdx .client
  getEdxCourse baseCourseKey
  ensureTargetMissing target
  let resp ← cloneEdxCourse baseCourseKey target.readableId
  if resp = false then
    throw (.valueError ("Couldn't clone " ++ baseCourseKey ++ " to " ++ target.readableId ++ "."))
  fixClonedRunData target
  let _ ← pushEdxModesFromRun target

/-- The settings of the retries. -/
structure CloneSettings where
  /-- `OPENEDX_COURSE_CLONE_MAX_RETRIES` -/
  maxRetries : ℕ
  /-- `OPENEDX_COURSE_CLONE_RETRY_DELAY` -/
  retryDelay : ℕ

/-- A delivery: how often the task was retried before, and the jitter that is drawn for the next retry. -/
structure CloneJob where
  target : CloneTarget
  baseKey : String
  retries : ℕ
  jitter : ℕ

/-- `get_clone_courserun_retry_countdown` -/
def getCloneCourserunRetryCountdown (settings : CloneSettings) (currentRetry jitter : ℕ) : ℕ :=
  let attemptNumber := currentRetry + 1
  settings.retryDelay * attemptNumber + jitter

/-- The exceptions for which `clone_courserun` is retried. -/
def CloneError.isRetried : CloneError → Bool
  | .courseRunAPIError | .httpError | .openEdXOAuth2Error | .requestException => true
  | _ => false

/-- `clone_courserun` -/
def cloneCourserun (settings : CloneSettings) (job : CloneJob) : EdxProgram Unit :=
  tryCatch (processCourseRunClone job.target job.baseKey) fun e =>
    if e.isRetried then
      if settings.maxRetries ≤ job.retries then throw e
      else throw (.retry (getCloneCourserunRetryCountdown settings job.retries job.jitter))
    else throw e

/-! ## Workers and edX -/

/-- Staff puts a course run into edX, edits it or deletes it. -/
structure EdxStaffEdit where
  courseId : String
  run : Option EdxCourseRun
  deriving DecidableEq, Repr

def EdxStaffEdit.apply (edit : EdxStaffEdit) (runs : EdxCourseRuns) : EdxCourseRuns :=
  Function.update runs edit.courseId edit.run

/-- The workers by their numbers, and edX. -/
abbrev CloneSystem := Pool ℕ EdxCourseRuns CloneJob EdxRequest EdxRequest.Answer CloneError Unit

/-- A worker takes a delivery, asks edX, or dies, or staff edits edX. -/
abbrev CloneEvent := Event ℕ CloneJob CloneError EdxStaffEdit

def cloneStep (settings : CloneSettings) (work : EdxWork) : CloneSystem → CloneEvent → CloneSystem :=
  Pool.step (cloneCourserun settings) work EdxStaffEdit.apply

/-- After the events; no worker had a delivery before. -/
def cloneRun (settings : CloneSettings) (work : EdxWork) (runs : EdxCourseRuns) (events : List CloneEvent) :
    CloneSystem :=
  Trace.run (cloneStep settings work) ⟨runs, fun _ => none⟩ events

end MitxOnline

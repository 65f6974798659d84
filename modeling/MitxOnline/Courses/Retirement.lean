import Mathlib.Logic.Function.Basic
import MitxOnline.Courses.RunDates
import MitxOnline.Lib.Table

/-!
# Retirement of course runs (`courses/retirement.py`)

A run is retired by moving its dates into the past, first in edX and then in the database, and by
switching off its products.
-/

namespace MitxOnline

/-- The dates of a run as they are passed to edX. -/
structure RunDates where
  start : Option Instant
  fin : Option Instant
  enrollmentStart : Option Instant
  enrollmentEnd : Option Instant
  deriving DecidableEq, Repr

/-- What `update_edx_course` sends: the dates are left out where they are `none`. -/
structure EdxPayload where
  title : String
  pacingType : String
  dates : RunDates
  deriving DecidableEq, Repr

/-- The course runs and products of the database, and what edX was last sent for each courseware id.
`lookup` says which language codes are known: `CourseRun.save` runs `clean`, so the language of every
row is one of them. -/
@[ext]
structure CoursewareStore (lookup : String → Bool) where
  courseRun : RunId → ScheduledRun
  products : Table Product
  edx : String → Option EdxPayload
  clean_language : ∀ r, cleanLanguage lookup (courseRun r).language = .ok ()

variable {lookup : String → Bool}

/-- Save a product. -/
def CoursewareStore.setProduct (s : CoursewareStore lookup) (p : ProductId) (product : Product) :
    CoursewareStore lookup :=
  { s with products := s.products.set p product }

theorem ScheduledRun.clean_language_of_clean {run : ScheduledRun} (h : run.clean lookup = .ok ()) :
    cleanLanguage lookup run.language = .ok () := by
  unfold ScheduledRun.clean at h
  match hlang : cleanLanguage lookup run.language with
  | .ok () => rfl
  | .error e =>
    rw [hlang] at h
    exact absurd h (by simp [bind, Except.bind])

/-- `CourseRun.save` of a run that was validated. -/
def CoursewareStore.setRun (s : CoursewareStore lookup) (r : RunId) (run : ScheduledRun)
    (h : run.clean lookup = .ok ()) : CoursewareStore lookup :=
  { s with
    courseRun := Function.update s.courseRun r run
    clean_language := fun r' => by
      by_cases hr : r' = r
      · rw [hr, Function.update_self]
        exact ScheduledRun.clean_language_of_clean h
      · rw [Function.update_of_ne hr]
        exact s.clean_language r' }

/-- `CourseRun.save` -/
def CoursewareStore.saveRun (s : CoursewareStore lookup) (r : RunId) (run : ScheduledRun) :
    Except Error (CoursewareStore lookup) :=
  match h : run.clean lookup with
  | .ok () => .ok (s.setRun r run h)
  | .error e => .error e

/-! ## Products -/

/-- `get_run_products` -/
def CoursewareStore.getRunProducts (s : CoursewareStore lookup) (r : RunId) : List ProductId :=
  s.products.keys.filter fun p =>
    (s.products.row p).contentType == .courseRun && (s.products.row p).objectId == r

/-- One round of the loop of `deactivate_run_products`: the product is added to the list of those that
were changed. -/
def deactivateProduct (acc : CoursewareStore lookup × List ProductId) (p : ProductId) :
    CoursewareStore lookup × List ProductId :=
  if (acc.1.products.row p).isActive = true then
    (acc.1.setProduct p { acc.1.products.row p with isActive := false }, acc.2 ++ [p])
  else acc

/-- `deactivate_run_products` -/
def deactivateRunProducts (s : CoursewareStore lookup) (r : RunId) : CoursewareStore lookup × List ProductId :=
  (s.getRunProducts r).foldl deactivateProduct (s, [])

/-! ## Dates -/

/-- `RETIREMENT_DATE_OFFSET`: a day, in seconds. -/
def retirementDateOffset : ℤ := 86400

/-- `compute_retirement_dates`; `now` is the given time or the clock. -/
def computeRetirementDates (run : ScheduledRun) (now : Instant) : RunDates :=
  let cutoff := now - retirementDateOffset
  let start := match run.startDate with
    | none => cutoff - retirementDateOffset
    | some startDate => if startDate < cutoff then startDate else cutoff - retirementDateOffset
  let enrollmentStart := match run.enrollmentStart with
    | none => start
    | some enrollmentStart => if enrollmentStart < start then enrollmentStart else start
  ⟨some start, some cutoff, some enrollmentStart, some cutoff⟩

/-- Both a start and an end. -/
def RunDates.complete (dates : RunDates) : Bool := dates.start.isSome && dates.fin.isSome

/-- All four dates. -/
def RunDates.enrollmentComplete (dates : RunDates) : Bool :=
  dates.complete && (dates.enrollmentStart.isSome && dates.enrollmentEnd.isSome)

/-- The dates that are sent: edX takes no enrollment dates unless there is a start and an end. -/
def RunDates.sent (dates : RunDates) : RunDates :=
  if dates.enrollmentComplete = true then dates
  else if dates.complete = true then ⟨dates.start, dates.fin, none, none⟩
  else ⟨none, none, none, none⟩

/-- The payload of `push_run_dates_to_edx`. -/
def ScheduledRun.edxPayload (run : ScheduledRun) (dates : RunDates) : EdxPayload :=
  ⟨run.title, if run.isSelfPaced = true then "self_paced" else "instructor_paced", dates.sent⟩

/-- `update_edx_course` -/
def CoursewareStore.updateEdxCourse (s : CoursewareStore lookup) (coursewareId : String) (payload : EdxPayload) :
    CoursewareStore lookup :=
  { s with edx := Function.update s.edx coursewareId (some payload) }

/-- `push_run_dates_to_edx`: whether the enrollment dates were sent. How edX answers is a parameter. -/
def pushRunDatesToEdx (edxAnswer : Except Error Unit) (s : CoursewareStore lookup) (run : ScheduledRun)
    (dates : RunDates) : CoursewareStore lookup × Except Error Bool :=
  (s.updateEdxCourse run.coursewareId (run.edxPayload dates),
    edxAnswer.map fun _ => dates.enrollmentComplete)

/-! ## Retirement -/

/-- What `retire_course_run` returns. -/
structure Retired where
  dates : RunDates
  products : List ProductId
  edxUpdated : Bool
  deriving DecidableEq, Repr

/-- An expiration date that comes before the end or the start. -/
def RunDates.predatedBy (dates : RunDates) (expiration : Instant) : Bool :=
  (dates.fin.any fun fin => decide (expiration < fin)) ||
    (dates.start.any fun start => decide (expiration < start))

/-- Such a date is cleared, since `clean` would refuse it. -/
def ScheduledRun.clearExpirationDate (run : ScheduledRun) (dates : RunDates) : ScheduledRun :=
  if run.expirationDate.any dates.predatedBy = true then { run with expirationDate := none } else run

/-- The assignments of `retire_course_run` to the run. -/
def ScheduledRun.retired (run : ScheduledRun) (dates : RunDates) : ScheduledRun :=
  { run.clearExpirationDate dates with
    startDate := dates.start
    endDate := dates.fin
    enrollmentStart := dates.enrollmentStart
    enrollmentEnd := dates.enrollmentEnd
    live := false }

/-- `retire_course_run`: what it leaves, and what it returns or raises. -/
def retireCourseRun (edxAnswer : Except Error Unit) (deactivateProducts skipEdx : Bool) (now : Instant)
    (r : RunId) (s : CoursewareStore lookup) : CoursewareStore lookup × Except Error Retired :=
  let run := s.courseRun r
  let dates := computeRetirementDates run now
  let pushed := if skipEdx = true then (s, .ok false) else pushRunDatesToEdx edxAnswer s run dates
  match pushed with
  | (s, .error e) => (s, .error e)
  | (s, .ok edxUpdated) =>
    match s.saveRun r (run.retired dates) with
    | .error e => (s, .error e)
    | .ok s =>
      let deactivated := if deactivateProducts = true then deactivateRunProducts s r else (s, [])
      (deactivated.1, .ok ⟨dates, deactivated.2, edxUpdated⟩)

end MitxOnline

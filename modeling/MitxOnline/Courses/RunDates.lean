import Mathlib.Logic.Basic
import MitxOnline.Ecommerce.Models
import MitxOnline.Lib.Nullable

/-!
# Dates of course runs (`courses/models.py`)

When a run can be enrolled in is said three times: by two filters of the database and by a property of
the row. The dates of a run are all nullable.
-/

namespace MitxOnline

open Nullable

/-- A row of `CourseRun` with its dates. -/
structure ScheduledRun extends CourseRun where
  coursewareId : String
  title : String
  language : String
  isSelfPaced : Bool
  startDate : Option Instant
  endDate : Option Instant
  enrollmentStart : Option Instant
  enrollmentEnd : Option Instant
  expirationDate : Option Instant
  deriving DecidableEq, Repr

/-- `CourseRun.is_past` -/
def ScheduledRun.isPast (run : ScheduledRun) (now : Instant) : Bool :=
  match run.endDate with
  | none => false
  | some endDate => decide (endDate < now)

/-- `CourseRun.is_enrollable` -/
def ScheduledRun.isEnrollable (run : ScheduledRun) (now : Instant) : Bool :=
  (run.enrollmentEnd.isNone ||
      run.enrollmentEnd.any fun enrollmentEnd => decide (now < enrollmentEnd)) &&
    (run.enrollmentStart.any fun enrollmentStart => decide (enrollmentStart ≤ now)) &&
    run.live && run.startDate.isSome

/-- `CourseRun.is_upgradable`, for a run that has a product or has none. -/
def ScheduledRun.isUpgradable (run : ScheduledRun) (hasProduct : Bool) (now : Instant) : Bool :=
  run.live &&
    (run.upgradeDeadline.isNone || run.upgradeDeadline.any fun deadline => decide (now < deadline)) &&
    hasProduct && run.verifiedMode

/-! ## Validation -/

/-- `COURSE_VARIANT_LANGUAGE_OVERRIDE` -/
def courseVariantLanguageOverride : List String :=
  ["af_ZA", "de_DE", "es_419", "es_ES", "fr_CA", "it_IT", "pt_BR", "pt_PT", "tr_TR", "zh_CN", "zh_HANS",
    "zh_HK"]

/-- `VariantOptionsModel.clean_language`. The codes that `pycountry.languages.lookup` finds are a
parameter. -/
def cleanLanguage (lookup : String → Bool) (language : String) : Except Error Unit :=
  if language = "" then .ok ()
  else if language ∈ courseVariantLanguageOverride then .ok ()
  else if lookup language = true then .ok ()
  else .error (.validationError "Course language is invalid")

/-- The rest of `CourseRun.clean`, for the expiration date of the run. -/
def ScheduledRun.cleanExpirationDate (run : ScheduledRun) : Except Error Unit :=
  match run.expirationDate with
  | none => .ok ()
  | some expiration =>
    if (run.startDate.any fun start => decide (expiration < start)) = true then
      .error (.validationError "Expiration date must be later than start date.")
    else if (run.endDate.any fun fin => decide (expiration < fin)) = true then
      .error (.validationError "Expiration date must be later than end date.")
    else .ok ()

/-- `CourseRun.clean` -/
def ScheduledRun.clean (lookup : String → Bool) (run : ScheduledRun) : Except Error Unit := do
  cleanLanguage lookup run.language
  run.cleanExpirationDate

/-! ## The filters -/

/-- `CourseRunQuerySet.get_enrollable_filter` -/
def getEnrollableFilter (enrollmentEndDate : Option Instant) (now : Instant) (run : ScheduledRun) :
    Truth :=
  let notEnded := (isNull run.enrollmentEnd).or <|
    compare (fun enrollmentEnd => decide (enrollmentEndDate.getD now < enrollmentEnd)) run.enrollmentEnd
  let started := (isNotNull run.enrollmentStart).and <|
    compare (fun enrollmentStart => decide (enrollmentStart ≤ now)) run.enrollmentStart
  ((notEnded.and started).and (known run.live)).and (isNotNull run.startDate)

/-- `CourseRunQuerySet.enrollable` -/
def enrollable (enrollmentEndDate : Option Instant) (now : Instant) (runs : List ScheduledRun) :
    List ScheduledRun :=
  Nullable.filter (getEnrollableFilter enrollmentEndDate now) runs

/-- The condition of `CourseRunQuerySet.unenrollable`. -/
def unenrollableFilter (now : Instant) (run : ScheduledRun) : Truth :=
  ((known !run.live).or (isNull run.startDate)).or
    ((compare (fun enrollmentEnd => decide (enrollmentEnd ≤ now)) run.enrollmentEnd).or
      (compare (fun enrollmentStart => decide (now < enrollmentStart)) run.enrollmentStart))

/-- `CourseRunQuerySet.unenrollable` -/
def unenrollable (now : Instant) (runs : List ScheduledRun) : List ScheduledRun :=
  Nullable.filter (unenrollableFilter now) runs

/-- `get_enrollable_courses` (`courses/utils.py`): the courses that have an enrollable run. -/
def getEnrollableCourses (enrollmentEndDate : Option Instant) (now : Instant)
    (runs : List ScheduledRun) (courses : List CourseId) : List CourseId :=
  courses.filter fun course =>
    (enrollable enrollmentEndDate now runs).any fun run => run.course == course

/-- `get_unenrollable_courses` (`courses/utils.py`): the courses that have an unenrollable run. -/
def getUnenrollableCourses (now : Instant) (runs : List ScheduledRun) (courses : List CourseId) :
    List CourseId :=
  courses.filter fun course => (unenrollable now runs).any fun run => run.course == course

/-- A catalog with the dates of its runs. -/
structure RunCatalog extends Catalog where
  schedule : RunId → ScheduledRun
  schedule_courseRun : ∀ r, (schedule r).toCourseRun = courseRun r
  /-- `UsableCourseRunManager` keeps the run: it is no source run. -/
  usable : RunId → Bool

/-- The runs of `CourseRun.objects`; `runIds` are those of `CourseRun.all_objects`. -/
def RunCatalog.usableRunIds (cat : RunCatalog) : List RunId := cat.runIds.filter cat.usable

/-!
## The filters for enrollable runs

The property of a row and the filter say the same, since both ask for the dates they compare. The
opposite filter only asks for one of them: it passes over a run without a start of enrollment.
-/

variable {runs : List ScheduledRun} {run : ScheduledRun} {now : Instant}

/-! ## The enrollable filter and the property of a row -/

theorem selects_getEnrollableFilter :
    selects (getEnrollableFilter none now run) = run.isEnrollable now := by
  rcases hstart : run.enrollmentStart with _ | start <;>
    simp [getEnrollableFilter, ScheduledRun.isEnrollable, hstart]

theorem mem_enrollable :
    run ∈ enrollable none now runs ↔ run ∈ runs ∧ run.isEnrollable now = true := by
  rw [enrollable, mem_filter, selects_getEnrollableFilter]

/-! ## The unenrollable filter -/

/-- A run that neither filter selects although it has a start date: it has no start of enrollment, and
its enrollment has not ended. -/
def ScheduledRun.MissesEnrollmentStart (run : ScheduledRun) (now : Instant) : Prop :=
  run.live = true ∧ run.startDate.isSome = true ∧ run.enrollmentStart = none ∧
    ∀ enrollmentEnd ∈ run.enrollmentEnd, now < enrollmentEnd

theorem mem_unenrollable :
    run ∈ unenrollable now runs ↔ run ∈ runs ∧
      (run.live = false ∨ run.startDate = none ∨
        (∃ enrollmentEnd ∈ run.enrollmentEnd, enrollmentEnd ≤ now) ∨
        ∃ enrollmentStart ∈ run.enrollmentStart, now < enrollmentStart) := by
  rw [unenrollable, mem_filter]
  simp [unenrollableFilter, Option.any_eq_true, or_assoc]

theorem isEnrollable_iff :
    run.isEnrollable now = true ↔
      (∀ enrollmentEnd ∈ run.enrollmentEnd, now < enrollmentEnd) ∧
        (∃ enrollmentStart ∈ run.enrollmentStart, enrollmentStart ≤ now) ∧
        run.live = true ∧ run.startDate.isSome = true := by
  rcases hend : run.enrollmentEnd with _ | enrollmentEnd <;>
    simp [ScheduledRun.isEnrollable, hend, Option.any_eq_true, and_assoc]

/-- No run is selected by both filters. -/
theorem not_mem_unenrollable_of_mem_enrollable (h : run ∈ enrollable none now runs) :
    run ∉ unenrollable now runs := by
  obtain ⟨-, hrun⟩ := mem_enrollable.mp h
  obtain ⟨hend, ⟨start, hstart, hle⟩, hlive, hdate⟩ := isEnrollable_iff.mp hrun
  intro hun
  obtain ⟨-, hfalse | hnone | ⟨fin, hfin, hfinle⟩ | ⟨start', hstart', hlt⟩⟩ := mem_unenrollable.mp hun
  · rw [hlive] at hfalse
    cases hfalse
  · rw [hnone] at hdate
    cases hdate
  · exact absurd hfinle (not_le.mpr (hend fin hfin))
  · obtain rfl : start = start' := Option.mem_unique hstart hstart'
    exact absurd hle (not_le.mpr hlt)

/-- A live run is selected by one of the filters unless its start of enrollment is missing. -/
theorem mem_enrollable_or_mem_unenrollable (hmem : run ∈ runs) (hlive : run.live = true) :
    run ∈ enrollable none now runs ∨ run ∈ unenrollable now runs ↔
      ¬ run.MissesEnrollmentStart now := by
  rw [mem_enrollable, mem_unenrollable, isEnrollable_iff, ScheduledRun.MissesEnrollmentStart]
  rcases hdate : run.startDate with _ | date
  · simp [hmem]
  · rcases hstart : run.enrollmentStart with _ | start
    · simp [hmem, hlive]
    · have hstarts : start ≤ now ∨ now < start := le_or_gt start now
      rcases hend : run.enrollmentEnd with _ | fin
      · simp [hmem, hlive, hstarts]
      · rcases lt_or_ge now fin with hfin | hfin
        · simpa [hmem, hlive, hfin, not_le.mpr hfin] using hstarts
        · simp [hmem, hlive, hfin]

/-- The two filters split the live runs exactly when no live run that has a start date and whose
enrollment has not ended misses a start of enrollment. -/
theorem enrollable_unenrollable_partition_iff (runs : List ScheduledRun) (now : Instant) :
    (∀ run ∈ runs,
      (run.live = true → Xor (run ∈ enrollable none now runs) (run ∈ unenrollable now runs)) ∧
        (run.isEnrollable now = true ↔ run ∈ enrollable none now runs)) ↔
      ∀ run ∈ runs, ¬ run.MissesEnrollmentStart now := by
  refine forall₂_congr fun run hmem => ?_
  constructor
  · rintro ⟨hxor, -⟩ hmiss
    have hone := (hxor hmiss.1).imp And.left And.left
    exact (mem_enrollable_or_mem_unenrollable hmem hmiss.1).mp hone hmiss
  · intro hmiss
    refine ⟨fun hlive => ?_, ?_⟩
    · rcases (mem_enrollable_or_mem_unenrollable hmem hlive).mpr hmiss with h | h
      · exact Or.inl ⟨h, not_mem_unenrollable_of_mem_enrollable h⟩
      · exact Or.inr ⟨h, fun h' => not_mem_unenrollable_of_mem_enrollable h' h⟩
    · rw [mem_enrollable]
      simp [hmem]

/-- A live run that started and has no dates of enrollment. -/
def runWithoutEnrollmentStart : ScheduledRun :=
  { course := 1, live := true, upgradeDeadline := none, verifiedMode := true, isFakeCourseRun := false,
    isUai := false, b2bContract := none, coursewareId := "course-v1:MITx+1+R1", title := "Run 1",
    language := "en", isSelfPaced := false, startDate := some 0, endDate := none,
    enrollmentStart := none, enrollmentEnd := none, expirationDate := none }

/-- Neither filter selects it. -/
theorem not_enrollable_unenrollable_partition :
    ¬ ∀ (runs : List ScheduledRun) (now : Instant), ∀ run ∈ runs,
      (run.live = true → Xor (run ∈ enrollable none now runs) (run ∈ unenrollable now runs)) ∧
        (run.isEnrollable now = true ↔ run ∈ enrollable none now runs) := by
  intro h
  obtain ⟨hxor, -⟩ := h [runWithoutEnrollmentStart] 5 runWithoutEnrollmentStart (by simp)
  rcases hxor rfl with ⟨henrollable, -⟩ | ⟨hunenrollable, -⟩
  · revert henrollable
    decide
  · revert hunenrollable
    decide

/-! ## Courses -/

/-- A course with a live run is listed by one of the two course filters, if none of its runs misses a
start of enrollment. -/
theorem mem_getEnrollableCourses_or {courses : List CourseId} (hcourse : run.course ∈ courses)
    (hmem : run ∈ runs) (hlive : run.live = true) (hmiss : ¬ run.MissesEnrollmentStart now) :
    run.course ∈ getEnrollableCourses none now runs courses ∨
      run.course ∈ getUnenrollableCourses now runs courses := by
  have hany : ∀ selected : List ScheduledRun, run ∈ selected →
      (selected.any fun run' => run'.course == run.course) = true := by
    intro selected hrun
    exact List.any_eq_true.mpr ⟨run, hrun, by simp⟩
  rcases (mem_enrollable_or_mem_unenrollable hmem hlive).mpr hmiss with h | h
  · left
    exact List.mem_filter.mpr ⟨hcourse, hany _ h⟩
  · right
    exact List.mem_filter.mpr ⟨hcourse, hany _ h⟩

end MitxOnline

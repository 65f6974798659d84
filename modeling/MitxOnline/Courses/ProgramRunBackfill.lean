import Mathlib.Data.List.DropRight
import MitxOnline.B2b.ContractRunKeys
import MitxOnline.Courses.RequirementClasses
import MitxOnline.FlexiblePricing.Approval
import MitxOnline.Lib.Autocommit
import MitxOnline.Lib.Dict
import MitxOnline.Lib.Nullable
import MitxOnline.Lib.Table

/-!
# Program runs for complete sets of course runs (`courses/management/commands/backfill_program_runs.py`)

The runs of the courses of a program are grouped by the tag that their ids end with. A group that has as many runs
as the program has courses counts as complete, and a run of the program is created for its tag. What is odd about
the dates of a group is printed.
-/

namespace MitxOnline

open Autocommit Nullable

/-! ## Rows -/

/-- A row of `CourseRun` with the columns that the command reads. -/
structure DatedRun extends CourseRunRow where
  course : CourseId
  startDate : Option Instant
  endDate : Option Instant
  deriving DecidableEq

/-- The program, with what `Program.courses` returns. -/
structure BackfillProgram where
  id : ProgramId
  courses : List (CourseId × RequirementType)

/-- A row of `ProgramRun`. -/
structure ProgramRunRow where
  program : ProgramId
  runTag : Text
  startDate : Option Instant
  endDate : Option Instant
  deriving DecidableEq

/-- How the database lists runs with the same start date, and how a set lists its tags. -/
structure BackfillOrder where
  runs : List DatedRun → List DatedRun
  runs_perm : ∀ rows, (runs rows).Perm rows
  runs_sorted : ∀ rows, (runs rows).Pairwise fun r r' => NullsLast r.startDate r'.startDate
  tags : List Text → List Text
  tags_perm : ∀ tags', (tags tags').Perm tags'

/-! ## Tags -/

/-- `$` also matches before a line feed at the end. -/
def dropLineFeed (text : Text) : Text := if text.getLast? = some '\n' then text.dropLast else text

/-- `TEXT_ID_RUN_TAG_PATTERN`, searched in the id of a run. -/
def runTagMatch (coursewareId : Text) : Option Text :=
  let text := dropLineFeed coursewareId
  -- no digit is a plus sign, so only the last one can begin the match
  let tag := text.rtakeWhile (· != '+')
  match tag with
  | 'R' :: digits =>
    if tag.length < text.length ∧ digits ≠ [] ∧ (digits.all fun c => (digitValue c).isSome) = true then some tag
    else none
  | _ => none

/-- `course_ids` -/
def BackfillProgram.courseIds (program : BackfillProgram) : List CourseId := program.courses.map (·.1)

/-- The runs of the courses, in the order of their start dates. -/
def allProgramRuns (program : BackfillProgram) (order : BackfillOrder) (rows : List DatedRun) : List DatedRun :=
  order.runs (rows.filter fun r => r.usable && program.courseIds.contains r.course)

/-- `run_map` -/
def runMap (program : BackfillProgram) (order : BackfillOrder) (rows : List DatedRun) : Dict Text (List DatedRun) :=
  Dict.group (fun r => runTagMatch r.coursewareId) (allProgramRuns program order rows)

/-! ## Complete sets of runs -/

/-- What is printed about the dates of a set of runs. -/
inductive RunSetWarning where
  | noStartDate (first : DatedRun)
  | noEndDate (last : DatedRun)
  | startAfterEnd (first last : DatedRun)
  deriving DecidableEq

/-- The chain of tests on the dates. -/
def runSetWarning (first last : DatedRun) : Option RunSetWarning :=
  match first.startDate, last.endDate with
  | none, _ => some (.noStartDate first)
  | some _, none => some (.noEndDate last)
  | some startDate, some endDate =>
    if endDate < startDate then some (.startAfterEnd first last) else none

/-- `complete_run_map`, and what has been printed. -/
structure CompleteRunSets where
  dates : Dict Text (Option Instant × Option Instant)
  warnings : List RunSetWarning

/-- The round of the loop for a tag; every warning says "Skipping", but no tag is skipped for it. -/
def checkRunSet (numProgramCourses : ℕ) (sets : CompleteRunSets) (entry : Text × List DatedRun) :
    CompleteRunSets :=
  if entry.2.length ≠ numProgramCourses then sets
  else
    match entry.2.head?, entry.2.getLast? with
    | some first, some last =>
      { dates := sets.dates.set entry.1 (first.startDate, last.endDate)
        warnings := sets.warnings ++ (runSetWarning first last).toList }
    | _, _ => sets

/-- `get_complete_run_set_dates` -/
def getCompleteRunSetDates (program : BackfillProgram) (order : BackfillOrder) (rows : List DatedRun) :
    CompleteRunSets :=
  (runMap program order rows).entries.foldl (checkRunSet program.courses.length) ⟨.empty, []⟩

/-! ## Program runs -/

inductive BackfillError where
  /-- The tag does not fit in its column. -/
  | dataError
  | integrityError
  deriving DecidableEq

/-- The runs of programs, and those that the call has created. -/
structure BackfillProgress where
  programRuns : Table ProgramRunRow
  created : List ProgramRunId

/-- The runs of the program with a tag. -/
def programRunsWith (program : ProgramId) (tag : Text) (programRuns : Table ProgramRunRow) : List ProgramRunId :=
  programRuns.keysWhere fun _ r => decide (r.program = program) && decide (r.runTag = tag)

/-- `ProgramRun.objects.create`: it forces an insert, so that nothing is validated. -/
def createProgramRun (row : ProgramRunRow) : Action BackfillProgress BackfillError := fun p =>
  if 10 < row.runTag.length then ⟨p, some .dataError⟩
  else if programRunsWith row.program row.runTag p.programRuns ≠ [] then ⟨p, some .integrityError⟩
  else ⟨⟨p.programRuns.create row, p.created ++ [p.programRuns.nextKey]⟩, none⟩

/-- `existing_program_run_tags` -/
def existingProgramRunTags (program : BackfillProgram) (programRuns : Table ProgramRunRow) : List Text :=
  (programRuns.keysWhere fun _ r => decide (r.program = program.id)).map fun k => (programRuns.row k).runTag

/-- `run_tags_to_create` -/
def runTagsToCreate (program : BackfillProgram) (order : BackfillOrder) (rows : List DatedRun)
    (programRuns : Table ProgramRunRow) : List Text :=
  order.tags ((getCompleteRunSetDates program order rows).dates.keys.filter fun tag =>
    !(existingProgramRunTags program programRuns).contains tag)

/-- The row that is created for a tag. -/
def programRunFor (program : BackfillProgram) (order : BackfillOrder) (rows : List DatedRun) (tag : Text) :
    ProgramRunRow :=
  let dates := ((getCompleteRunSetDates program order rows).dates.get tag).getD (none, none)
  ⟨program.id, tag, dates.1, dates.2⟩

/-- `backfill_runs_for_program` -/
def backfillRunsForProgram (program : BackfillProgram) (order : BackfillOrder) (rows : List DatedRun)
    (programRuns : Table ProgramRunRow) : Outcome BackfillProgress BackfillError :=
  seq ((runTagsToCreate program order rows programRuns).map fun tag =>
    createProgramRun (programRunFor program order rows tag)) ⟨programRuns, []⟩

end MitxOnline

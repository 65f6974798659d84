import MitxOnline.B2b.EnrollmentCodes
import MitxOnline.Courses.RunSync
import MitxOnline.Lib.Worklist

/-!
# Removing courseware from a contract (`b2b/management/commands/b2b_courseware.py`)

`b2b_courseware remove` is given programs, courses and runs. Programs and courses add the runs of the
contract to the list while the command goes through it. A run is closed, taken out of the contract if nobody
is enrolled, and its products and enrollment codes are withdrawn. There is no transaction, so what was written
before a failure stays.
-/

namespace MitxOnline

open Autocommit

/-- The courseware of the contracts with its enrollment codes. -/
structure ContractCourseware (lookup : String → Bool) where
  courseware : SyncedCourseware lookup
  runIds : List RunId
  /-- `is_source_run`, or the run tag `SOURCE`. -/
  isSourceRun : RunId → Bool
  /-- Somebody has an active enrollment in the run. -/
  hasEnrollments : RunId → Bool
  /-- The `ContractProgramItem` rows. -/
  contractPrograms : List (ContractId × ProgramId)
  codes : CodeStore
  /-- A flexible-price tier refers to the discount, which does not let it go. -/
  hasTier : DiscountId → Bool

variable {lookup : String → Bool}

/-- What the ids that the command is given are resolved to. -/
inductive CoursewareRef where
  | program (program : ProgramId)
  | course (course : CourseId)
  | run (run : RunId)
  | missing
  deriving DecidableEq

/-- An item of the list. A run is there as it was read. -/
inductive RemovedItem where
  | program (program : ProgramId)
  | course (course : CourseId)
  | run (run : RunId) (obj : RunInstance)
  | missing

/-- The writes for an item. -/
inductive RemoveWrite where
  | contractPrograms
  | run
  | product (p : ProductId)
  | codeProducts (d : DiscountId)
  | code (d : DiscountId)
  deriving DecidableEq

/-- What becomes of a write. What a save hands over to the workers may raise when the row is there. -/
inductive WriteFate where
  | done
  | fails
  | hookFails
  deriving DecidableEq

def WriteFate.write {σ : Type} (fate : WriteFate) (f : σ → σ) : Action σ Error := fun s =>
  match fate with
  | .done => ⟨f s, none⟩
  | .fails => ⟨s, some .failure⟩
  | .hookFails => ⟨f s, some .failure⟩

/-- The options of the command, and what it meets while it goes on: the clock, what edX makes of the dates
that it is sent, and what becomes of the writes, for each item in turn. -/
structure RemoveOptions where
  contract : ContractId
  removeProgramRuns : Bool
  programCourses : ProgramId → List CourseId
  now : ℕ → Instant
  edxUpdate : ℕ → EdxUpdate
  fate : ℕ → RemoveWrite → WriteFate

/-- The state of the command, and how many items it has gone through. -/
structure RemoveState (lookup : String → Bool) where
  s : ContractCourseware lookup
  handled : ℕ

/-- After an item: its state, and the items that it adds unless it raised. -/
def RemoveState.after (st : RemoveState lookup) (outcome : Outcome (ContractCourseware lookup) Error)
    (added : List RemovedItem) : RemoveState lookup × Except Error (List RemovedItem) :=
  (⟨outcome.state, st.handled + 1⟩,
    match outcome.error with
    | none => .ok added
    | some e => .error e)

namespace ContractCourseware

/-- `resolve_courseware_object_from_id` -/
def resolve (s : ContractCourseware lookup) : CoursewareRef → RemovedItem
  | .program program => .program program
  | .course course => .course course
  | .run run => .run run (s.courseware.instance run)
  | .missing => .missing

/-- The runs of the contract that pass a test, as they are in the database. -/
def contractRuns (s : ContractCourseware lookup) (contract : ContractId) (test : RunId → Bool) :
    List RemovedItem :=
  (s.runIds.filter fun r => (s.courseware.db.courseRun r).b2bContract == some contract && test r).map
    fun r => .run r (s.courseware.instance r)

/-- The runs that a program adds to the list. -/
def programRuns (s : ContractCourseware lookup) (options : RemoveOptions) (program : ProgramId) :
    List RemovedItem :=
  if options.removeProgramRuns = true then
    s.contractRuns options.contract fun r =>
      (options.programCourses program).contains (s.courseware.db.courseRun r).course && !s.isSourceRun r
  else []

/-- The `ContractProgramItem` rows of the program are deleted. -/
def unlinkProgram (s : ContractCourseware lookup) (contract : ContractId) (program : ProgramId) :
    ContractCourseware lookup :=
  { s with contractPrograms := s.contractPrograms.filter fun item => item != (contract, program) }

/-- The product is one of the list. -/
def isProductOf (products : List ProductId) (product : Option ProductId) : Bool :=
  product.any fun p => decide (p ∈ products)

/-- One round of the loop over the discounts of the products of a run. -/
def removeDiscount (fate : RemoveWrite → WriteFate) (hasTier : DiscountId → Bool) (products : List ProductId)
    (d : DiscountId) : Action CodeStore Error :=
  andThen ((fate (.codeProducts d)).write fun codes => codes.deleteProducts d (isProductOf products))
    fun codes =>
      if (codes.discounts.row d).products.length = 0 ∧ codes.isUsed d = false then
        if hasTier d = true then ⟨codes, some .integrityError⟩
        else (fate (.code d)).write (fun codes => codes.withoutDiscount d) codes
      else ⟨codes, none⟩

/-- The discounts that are for one of the products. -/
def discountsOf (products : List ProductId) (codes : CodeStore) : List DiscountId :=
  codes.discounts.keys.filter fun d => decide (0 < codes.productRows d (isProductOf products))

/-- The discounts of the products lose them, and are deleted if they have no other and were not redeemed. -/
def removeDiscounts (fate : RemoveWrite → WriteFate) (products : List ProductId) :
    Action (ContractCourseware lookup) Error := fun s =>
  let removed := seq ((discountsOf products s.codes).map (removeDiscount fate s.hasTier products)) s.codes
  ⟨{ s with codes := removed.state }, removed.error⟩

/-- `courseware.save()` -/
def saveCourseware (fate : RemoveWrite → WriteFate) (r : RunId) (obj : RunInstance) :
    Action (ContractCourseware lookup) Error := fun s =>
  match s.courseware.save (fun _ => fate .run == .fails) r obj with
  | .error e => ⟨s, some e⟩
  | .ok courseware =>
    ⟨{ s with courseware := courseware }, if fate .run = .hookFails then some .failure else none⟩

/-- One round of `deactivate_run_products`. -/
def deactivateRunProduct (fate : RemoveWrite → WriteFate) (p : ProductId) :
    Action (CoursewareStore lookup) Error := fun db =>
  if (db.products.row p).isActive = true then
    (fate (.product p)).write (fun db => (deactivateProduct (db, []) p).1) db
  else ⟨db, none⟩

/-- `deactivate_run_products` -/
def deactivateProducts (fate : RemoveWrite → WriteFate) (r : RunId) :
    Action (ContractCourseware lookup) Error := fun s =>
  let db := s.courseware.db
  let deactivated := seq ((db.getRunProducts r).map (deactivateRunProduct fate)) db
  ⟨{ s with courseware := { s.courseware with db := deactivated.state } }, deactivated.error⟩

end ContractCourseware

/-- A run that takes enrollments, or would again, is closed. -/
def ScheduledRun.deactivated (run : ScheduledRun) (now : Instant) : ScheduledRun :=
  if run.live = true ∨ run.enrollmentEnd = none ∨
      (run.enrollmentEnd.any fun enrollmentEnd => decide (now < enrollmentEnd)) = true then
    { run with live := false, enrollmentEnd := some now }
  else run

/-- A run of the contract without enrollments is taken out of the contract. -/
def ScheduledRun.detached (run : ScheduledRun) (contract : ContractId) (hasEnrollments : Bool) : ScheduledRun :=
  if hasEnrollments = false ∧ run.b2bContract = some contract then { run with b2bContract := none } else run

/-- The changes to a run before it is saved. -/
def RunInstance.removed (obj : RunInstance) (contract : ContractId) (hasEnrollments : Bool) (now : Instant) :
    RunInstance :=
  { obj with run := (obj.run.deactivated now).detached contract hasEnrollments }

/-- The dates of a run, as `push_run_dates_to_edx` takes them by default. -/
def ScheduledRun.dates (run : ScheduledRun) : RunDates :=
  ⟨run.startDate, run.endDate, run.enrollmentStart, run.enrollmentEnd⟩

/-- `push_run_dates_to_edx` of what a run has; errors are logged. -/
def SyncedCourseware.pushRunDates (courseware : SyncedCourseware lookup) (update : EdxUpdate)
    (run : ScheduledRun) : SyncedCourseware lookup :=
  { courseware with edx := update run.coursewareId (run.edxPayload run.dates) courseware.edx }

/-- The branch of a course run. -/
def removeRun (options : RemoveOptions) (handled : ℕ) (r : RunId) (obj : RunInstance) :
    Action (ContractCourseware lookup) Error := fun s =>
  let fate := options.fate handled
  let obj := obj.removed options.contract (s.hasEnrollments r) (options.now handled)
  andThen (ContractCourseware.saveCourseware fate r obj) (fun s =>
    let products := s.courseware.db.getRunProducts r
    seq [ContractCourseware.deactivateProducts fate r, ContractCourseware.removeDiscounts fate products,
      fun s => ⟨{ s with courseware := s.courseware.pushRunDates (options.edxUpdate handled) obj.run }, none⟩]
      s) s

/-- One round of the loop of `handle_remove`. -/
def removeCourseware (options : RemoveOptions) (st : RemoveState lookup) :
    RemovedItem → RemoveState lookup × Except Error (List RemovedItem)
  | .program program =>
    let deleted := (options.fate st.handled .contractPrograms).write
      (fun s => s.unlinkProgram options.contract program) st.s
    st.after deleted (st.s.programRuns options program)
  | .course course =>
    st.after ⟨st.s, none⟩ (st.s.contractRuns options.contract fun r =>
      (st.s.courseware.db.courseRun r).course == course)
  | .run r obj => st.after (removeRun options st.handled r obj st.s) []
  | .missing => st.after ⟨st.s, some .failure⟩ []

/-- How much of the list an item stands for at most, where there are `runs` runs. -/
def RemovedItem.weight (runs : ℕ) : RemovedItem → ℕ
  | .program _ => runs + 1
  | .course _ => runs + 1
  | .run _ _ => 1
  | .missing => 1

/-- `handle_remove` -/
def handleRemove (options : RemoveOptions) (refs : List CoursewareRef) (s : ContractCourseware lookup) :
    Option (RemoveState lookup × Except Error Unit) :=
  let coursewares := refs.map s.resolve
  Worklist.drain (removeCourseware options) (coursewares.map (RemovedItem.weight s.runIds.length)).sum ⟨s, 0⟩
    coursewares

end MitxOnline

import MitxOnline.Courses.Deferrals
import MitxOnline.Lib.Dict

/-!
# Syncing enrollments with edX (`openedx/api.py`)

edX knows in which runs a learner is enrolled, and whether the enrollment is active. Enrollments of this
database take the flag over from edX; for runs that the default manager shows, missing enrollments are
created. edX's own dictionary of enrollments is keyed by course id.
-/

namespace MitxOnline

/-- A row of `CourseRun` as the sync reads it. -/
structure EdxRun where
  coursewareId : String
  isSourceRun : Bool
  runTag : String
  deriving DecidableEq, Repr

/-- `CourseRun`, with the unique constraint on `courseware_id`. -/
structure CourseRunTable where
  table : Table EdxRun
  unique_courseware_id : table.keys.Pairwise fun r r' =>
    (table.row r).coursewareId ≠ (table.row r').coursewareId

/-- The courseware id of a run. -/
def CourseRunTable.coursewareId (runs : CourseRunTable) (r : RunId) : String :=
  (runs.table.row r).coursewareId

/-- `UsableCourseRunManager`, which is `CourseRun.objects`: source runs are left out. -/
def CourseRunTable.usable (runs : CourseRunTable) (r : RunId) : Bool :=
  !((runs.table.row r).isSourceRun || (runs.table.row r).runTag == "SOURCE")

/-- `get_student_enrollments().enrollments`: the flag `is_active` by course id. -/
abbrev EdxEnrollments := Dict String Bool

structure SyncResult (α : Type) where
  created : List α
  reactivated : List α
  deactivated : List α
  deriving DecidableEq, Repr

/-- `SyncResult()` -/
def SyncResult.empty {α : Type} : SyncResult α := ⟨[], [], []⟩

/-- All objects that a result lists. -/
def SyncResult.listed {α : Type} (result : SyncResult α) : List α :=
  result.created ++ result.reactivated ++ result.deactivated

/-- `get_partitioned_set_difference`. The order in which Python lists a set is taken from the lists. -/
def getPartitionedSetDifference {α : Type} [DecidableEq α] (set1 set2 : List α) :
    List α × List α × List α :=
  let common := set1.filter (· ∈ set2)
  (set1.filter (· ∉ common), common, set2.filter (· ∉ common))

/-- The runs that a user has an enrollment in, active or not. -/
def enrolledRuns (runs : CourseRunTable) (s : Store) (user : UserId) : List RunId :=
  runs.table.keys.filter fun r => (s.enrollments user r).isSome

theorem coursewareIds_nodup (runs : CourseRunTable) (p : RunId → Bool) :
    (((runs.table.keys.filter p).map fun r => (runs.coursewareId r, r)).map Prod.fst).Nodup := by
  rw [List.map_map]
  exact List.pairwise_map.mpr (runs.unique_courseware_id.filter p)

/-- `local_enrollments_map`: the run of each courseware id, which stands for the enrollment. -/
def localEnrollmentsMap (runs : CourseRunTable) (s : Store) (user : UserId) : Dict String RunId :=
  ⟨(enrolledRuns runs s user).map fun r => (runs.coursewareId r, r), coursewareIds_nodup runs _⟩

/-- `deactivate_and_save(change_status=ENROLL_CHANGE_STATUS_UNENROLLED)` -/
def CourseRunEnrollment.unenrolled (e : CourseRunEnrollment) : CourseRunEnrollment :=
  { e with active := false, changeStatus := some enrollChangeStatusUnenrolled }

/-- `reactivate_and_save` -/
def CourseRunEnrollment.reactivated (e : CourseRunEnrollment) : CourseRunEnrollment :=
  { e with active := true, changeStatus := none }

/-- The body of the first loop, for an enrollment and edX's flag. -/
def syncActive (user : UserId) (r : RunId) (e : CourseRunEnrollment) (isActive : Bool)
    (acc : Store × SyncResult RunId) : Store × SyncResult RunId :=
  if e.active = true ∧ isActive = false then
    (setEnrollment user r e.unenrolled acc.1, { acc.2 with deactivated := acc.2.deactivated ++ [r] })
  else if e.active = false ∧ isActive = true then
    (setEnrollment user r e.reactivated acc.1, { acc.2 with reactivated := acc.2.reactivated ++ [r] })
  else acc

/-- The first loop, over the ids that both sides have. -/
def syncCommon (edx : EdxEnrollments) (localMap : Dict String RunId) (user : UserId) :
    List String → Store × SyncResult RunId → Except Error (Store × SyncResult RunId)
  | [], acc => .ok acc
  | id :: rest, acc =>
    match edx.get id, localMap.get id with
    | some isActive, some r =>
      match acc.1.enrollments user r with
      | some e => syncCommon edx localMap user rest (syncActive user r e isActive acc)
      | none => .error .doesNotExist
    | _, _ => .error (.keyError id)

/-- The second loop, over the runs that only edX has an enrollment in. -/
def createMissing (runs : CourseRunTable) (edx : EdxEnrollments) (user : UserId) :
    List RunId → Store × SyncResult RunId → Except Error (Store × SyncResult RunId)
  | [], acc => .ok acc
  | r :: rest, acc =>
    match edx.get (runs.coursewareId r) with
    | none => .error (.keyError (runs.coursewareId r))
    | some isActive =>
      match acc.1.enrollments user r with
      | some _ => .error .integrityError
      | none =>
        createMissing runs edx user rest
          (setEnrollment user r
            { active := isActive, changeStatus := none, edxEnrolled := true, enrollmentMode := .audit }
            acc.1,
            { acc.2 with created := acc.2.created ++ [r] })

/-- `sync_enrollments_with_edx`; there is no client for a user without access to edX. Enrollments that
only this database has are logged. -/
def syncEnrollmentsWithEdx (runs : CourseRunTable) (s : Store) (user : UserId)
    (client : Option EdxEnrollments) : Except Error (Store × SyncResult RunId) :=
  match client with
  | none => .ok (s, .empty)
  | some edx =>
    let localMap := localEnrollmentsMap runs s user
    let (_, commonIds, edxOnlyIds) := getPartitionedSetDifference localMap.keys edx.keys
    match syncCommon edx localMap user commonIds (s, .empty) with
    | .error e => .error e
    | .ok acc =>
      createMissing runs edx user
        (runs.table.keys.filter fun r => runs.usable r && decide (runs.coursewareId r ∈ edxOnlyIds)) acc

end MitxOnline

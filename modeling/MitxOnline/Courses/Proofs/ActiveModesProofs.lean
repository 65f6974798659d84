import MitxOnline.Courses.Proofs.EnrollmentsProofs

/-!
# Active modes

The mode of an active enrollment is what a learner has in a run. When nothing fails, enrolling in runs
gives all of them the mode that is asked for and leaves the others as they are.
-/

namespace MitxOnline

open Autocommit

variable {user : UserId} {s s' : Store} {r : RunId} {mode : EnrollmentMode}

/-! ## Code in which nothing fails -/

theorem processAddOrgMembership_noFaults (cat : Catalog) (now : Instant) (user : UserId) (o : OrgId)
    (keep : Bool) (s : Store) : (processAddOrgMembership Faults.none cat now user o keep s).error = none := by
  have hadd : ∀ s, (addUserContracts Faults.none cat now o user s).error = none := by
    intro s
    refine seq_error (fun a ha t => ?_) s
    obtain ⟨c, -, rfl⟩ := List.mem_map.mp ha
    rfl
  have hattach : ∀ s, (attachUser Faults.none cat o s).error = none := by
    intro s
    unfold attachUser
    rcases (cat.organization o).ssoOrganizationId <;> rfl
  unfold processAddOrgMembership
  split
  · rfl
  · refine seq_error (fun a ha t => ?_) s
    simp only [List.mem_cons, List.not_mem_nil, or_false] at ha
    rcases ha with rfl | rfl | rfl | rfl
    · rfl
    · rfl
    · exact hattach t
    · exact hadd t

theorem joinContract_noFaults (cat : Catalog) (now : Instant) (user : UserId) (r : RunId) (s : Store) :
    (joinContract Faults.none cat now user r s).error = none := by
  unfold joinContract
  rcases (cat.courseRun r).b2bContract with _ | c
  · rfl
  · dsimp only
    rw [seq_cons, andThen_of_ok (processAddOrgMembership_noFaults ..)]
    rfl

theorem joinContract_enrollments (f : Faults) (cat : Catalog) (now : Instant) (user : UserId) (r : RunId)
    (s : Store) :
    (joinContract f cat now user r s).state.enrollments = s.enrollments :=
  keeps_joinContract (isFrame_eq Store.enrollments) (fun _ _ _ => rfl) (fun _ _ => rfl) s

/-! ## Modes -/

/-- The mode of the enrollment of a user in a run, if it is active. -/
def Store.activeMode (s : Store) (user : UserId) (r : RunId) : Option EnrollmentMode :=
  ((s.enrollments user r).filter (·.active)).map (·.enrollmentMode)

/-- The user has a mode in the runs afterwards, and the other runs are as they were. -/
def SetsMode (user : UserId) (runs : List RunId) (mode : EnrollmentMode) (s s' : Store) : Prop :=
  ∀ r, s'.activeMode user r = if r ∈ runs then some mode else s.activeMode user r

theorem activeMode_of_enrollments (h : s'.enrollments = s.enrollments) (r : RunId) :
    s'.activeMode user r = s.activeMode user r := by
  rw [Store.activeMode, Store.activeMode, h]

theorem activeMode_setEnrollment_self {e : CourseRunEnrollment} (h : e.active = true) :
    (setEnrollment user r e s).activeMode user r = some e.enrollmentMode := by
  simp [Store.activeMode, setEnrollment, h]

theorem activeMode_setEnrollment_of_ne {e : CourseRunEnrollment} {r' : RunId} (h : r' ≠ r) :
    (setEnrollment user r e s).activeMode user r' = s.activeMode user r' := by
  simp [Store.activeMode, setEnrollment, h]

theorem setsMode_of_setEnrollment {t : Store} {e : CourseRunEnrollment}
    (ht : ∀ r', r' ≠ r → t.activeMode user r' = s.activeMode user r')
    (hs' : s'.enrollments = (setEnrollment user r e t).enrollments) (hactive : e.active = true) :
    SetsMode user [r] e.enrollmentMode s s' := by
  intro r'
  rw [activeMode_of_enrollments hs']
  by_cases hr : r' = r
  · subst hr
    rw [activeMode_setEnrollment_self hactive, if_pos List.mem_cons_self]
  · rw [activeMode_setEnrollment_of_ne hr, if_neg (by simpa using hr), ht r' hr]

theorem SetsMode.cons {t : Store} {runs : List RunId} (h : SetsMode user [r] mode s t)
    (h' : SetsMode user runs mode t s') : SetsMode user (r :: runs) mode s s' := by
  intro r'
  rw [h' r', h r']
  by_cases hruns : r' ∈ runs
  · rw [if_pos hruns, if_pos (List.mem_cons_of_mem r hruns)]
  · by_cases hr : r' = r <;> simp [hruns, hr]

@[simp] theorem withMode_active (e : CourseRunEnrollment) (mode : EnrollmentMode) :
    (e.withMode mode).active = true := by
  unfold CourseRunEnrollment.withMode
  split_ifs with h
  · exact h
  · rfl

@[simp] theorem withMode_enrollmentMode (e : CourseRunEnrollment) (mode : EnrollmentMode) :
    (e.withMode mode).enrollmentMode = mode := by
  unfold CourseRunEnrollment.withMode
  split_ifs <;> rfl

@[simp] theorem withMode_edxEnrolled (e : CourseRunEnrollment) (mode : EnrollmentMode) :
    (e.withMode mode).edxEnrolled = e.edxEnrolled := by
  unfold CourseRunEnrollment.withMode
  split_ifs <;> rfl

/-- The row of an enrollment after a round in which nothing fails. -/
def recordedRow (changeStatus : Option String) (mode : EnrollmentMode) (success : Bool) :
    Option CourseRunEnrollment → CourseRunEnrollment
  | none => { active := true, changeStatus, edxEnrolled := success, enrollmentMode := mode }
  | some e => CourseRunEnrollment.withMode { e with edxEnrolled := success, changeStatus } mode

@[simp] theorem recordedRow_active (changeStatus : Option String) (mode : EnrollmentMode)
    (success : Bool) (row : Option CourseRunEnrollment) :
    (recordedRow changeStatus mode success row).active = true := by
  cases row with
  | none => rfl
  | some e => exact withMode_active _ _

@[simp] theorem recordedRow_enrollmentMode (changeStatus : Option String) (mode : EnrollmentMode)
    (success : Bool) (row : Option CourseRunEnrollment) :
    (recordedRow changeStatus mode success row).enrollmentMode = mode := by
  cases row with
  | none => rfl
  | some e => exact withMode_enrollmentMode _ _

@[simp] theorem recordedRow_edxEnrolled (changeStatus : Option String) (mode : EnrollmentMode)
    (success : Bool) (row : Option CourseRunEnrollment) :
    (recordedRow changeStatus mode success row).edxEnrolled = success := by
  cases row with
  | none => rfl
  | some e => exact withMode_edxEnrolled _ _

theorem setEnrollment_setEnrollment (row row' : CourseRunEnrollment) (s : Store) :
    setEnrollment user r row' (setEnrollment user r row s) = setEnrollment user r row' s := by
  unfold setEnrollment
  congr 1
  funext user' r'
  dsimp only
  split <;> rfl

/-- A round in which nothing fails writes one enrollment. -/
theorem recordRunEnrollment_enrollments (cat : Catalog) (now : Instant) (user : UserId)
    (changeStatus : Option String) (mode : EnrollmentMode) (success : Bool) (r : RunId) (s : Store) :
    (recordRunEnrollment Faults.none cat now user changeStatus mode success r s).state.enrollments =
      (setEnrollment user r (recordedRow changeStatus mode success (s.enrollments user r))
        s).enrollments := by
  unfold recordRunEnrollment
  rcases s.enrollments user r with _ | e
  · -- a new row, then the contract of the run
    let row : CourseRunEnrollment := ⟨true, changeStatus, success, mode⟩
    have hstate : (seq
        [ fallible Faults.none (.enrollment r) (update (setEnrollment user r row)),
          mayFail Faults.none (.enrollmentLog r),
          joinContract Faults.none cat now user r ] s).state =
        (joinContract Faults.none cat now user r (setEnrollment user r row s)).state := by
      have hjoin := joinContract_noFaults cat now user r (setEnrollment user r row s)
      change (andThen (joinContract Faults.none cat now user r) (seq [])
        (setEnrollment user r row s)).state = _
      rw [andThen_of_ok hjoin]
      rfl
    exact (congrArg Store.enrollments hstate).trans (joinContract_enrollments ..)
  · -- the contract of the run, then the two updates of the row
    let row : CourseRunEnrollment := { e with edxEnrolled := success, changeStatus }
    have hjoin := joinContract_noFaults cat now user r s
    have hstate : (seq
        [ mayFail Faults.none (.enrollment r),
          joinContract Faults.none cat now user r,
          fallible Faults.none (.enrollmentUpdate r) (update (setEnrollment user r row)),
          fallible Faults.none (.enrollmentMode r)
            (update (setEnrollment user r (row.withMode mode))) ] s).state =
        setEnrollment user r (row.withMode mode) (joinContract Faults.none cat now user r s).state := by
      rw [seq_cons, andThen_of_ok rfl, seq_cons, ← setEnrollment_setEnrollment row]
      exact congrArg Outcome.state (andThen_of_ok hjoin)
    have hsame := joinContract_enrollments Faults.none cat now user r s
    refine (congrArg Store.enrollments hstate).trans ?_
    unfold setEnrollment
    rw [hsame]
    rfl

/-- Enrolling in a run leaves an active enrollment in the given mode. -/
theorem recordRunEnrollment_noFaults (cat : Catalog) (now : Instant) (user : UserId)
    (changeStatus : Option String) (mode : EnrollmentMode) (success : Bool) (r : RunId) (s : Store) :
    SetsMode user [r] mode s
      (recordRunEnrollment Faults.none cat now user changeStatus mode success r s).state := by
  have hsets := setsMode_of_setEnrollment (fun _ _ => rfl)
    (recordRunEnrollment_enrollments cat now user changeStatus mode success r s)
    (recordedRow_active changeStatus mode success _)
  rwa [recordedRow_enrollmentMode] at hsets

theorem recordRunEnrollments_noFaults (cat : Catalog) (now : Instant) (user : UserId)
    (changeStatus : Option String) (mode : EnrollmentMode) (success : Bool) (runs : List RunId) (s : Store) :
    (seq (runs.map (recordRunEnrollment Faults.none cat now user changeStatus mode success)) s).error =
        none ∧
      SetsMode user runs mode s
        (seq (runs.map (recordRunEnrollment Faults.none cat now user changeStatus mode success))
          s).state := by
  induction runs generalizing s with
  | nil => exact ⟨rfl, fun r => by simp⟩
  | cons r runs ih =>
    have herror : (recordRunEnrollment Faults.none cat now user changeStatus mode success r s).error =
        none :=
      recordRunEnrollment_error s
    rw [List.map_cons, seq_cons, andThen_of_ok herror]
    obtain ⟨hrest, hsets⟩ :=
      ih (recordRunEnrollment Faults.none cat now user changeStatus mode success r s).state
    exact ⟨hrest, (recordRunEnrollment_noFaults cat now user changeStatus mode success r s).cons hsets⟩

theorem createRunEnrollments_noFaults (cat : Catalog) (now : Instant) (user : UserId) {runs : List RunId}
    (hruns : runs ≠ []) (changeStatus : Option String) (keep : Bool) (mode : EnrollmentMode) (s : Store) :
    (createRunEnrollments Faults.none cat now user runs changeStatus keep mode s).error = none ∧
      SetsMode user runs mode s
        (createRunEnrollments Faults.none cat now user runs changeStatus keep mode s).state := by
  cases runs with
  | nil => exact absurd rfl hruns
  | cons first rest =>
    have hrecord := recordRunEnrollments_noFaults cat now user changeStatus mode true (first :: rest) s
    unfold createRunEnrollments
    dsimp only
    by_cases hfake : (cat.courseRun first).isFakeCourseRun = true
    · rw [if_pos hfake]
      exact hrecord
    · rw [if_neg hfake]
      exact hrecord

end MitxOnline

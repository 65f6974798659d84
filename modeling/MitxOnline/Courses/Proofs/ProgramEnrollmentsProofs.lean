import MitxOnline.Courses.EnrollmentResults
import MitxOnline.Lib.Autocommit

/-!
# What enrolling in programs leaves

An enrollment is reactivated by its change status. One that is inactive without a change status stays
inactive and is returned all the same.
-/

namespace MitxOnline

open Autocommit

variable {f : Faults} {user : UserId} {mode : EnrollmentMode} {p : ProgramId} {s : Store}
  {programs : List ProgramId}

/-- A round swallows what its `try` raises. -/
theorem recordProgramEnrollment_eq :
    recordProgramEnrollment f user mode p = attempt (tryProgramEnrollment f user mode p) := by
  funext s
  cases hrow : s.programEnrollments user p <;>
    simp only [recordProgramEnrollment, tryProgramEnrollment, attempt, hrow]

/-- The function leaves what the loop leaves. -/
theorem returnedProgramEnrollments_state : (returnedProgramEnrollments f user mode programs s).1 =
    (createProgramEnrollments f user programs mode s).state := by
  induction programs generalizing s with
  | nil => rfl
  | cons p rest ih =>
    have hround : (recordProgramEnrollment f user mode p s).error = none := by
      rw [recordProgramEnrollment_eq]
      rfl
    have hstate : (recordProgramEnrollment f user mode p s).state =
        (tryProgramEnrollment f user mode p s).state := by
      rw [recordProgramEnrollment_eq]
      rfl
    have hloop : (createProgramEnrollments f user (p :: rest) mode s).state =
        (createProgramEnrollments f user rest mode (tryProgramEnrollment f user mode p s).state).state := by
      unfold createProgramEnrollments
      rw [List.map_cons, seq_cons, andThen_of_ok hround, hstate]
    rw [hloop, ← ih]
    conv_lhs => rw [returnedProgramEnrollments]
    split <;> rfl

/-- The enrollment after its round. -/
def enrolledRow (mode : EnrollmentMode) : Option ProgramEnrollment → ProgramEnrollment
  | none => { active := true, changeStatus := none, enrollmentMode := mode }
  | some e =>
    { (if e.changeStatus.isSome then { e with active := true, changeStatus := none } else e) with
      enrollmentMode := mode }

@[simp] theorem enrolledRow_mode (mode : EnrollmentMode) (row : Option ProgramEnrollment) :
    (enrolledRow mode row).enrollmentMode = mode := by
  cases row <;> rfl

@[simp] theorem enrolledRow_changeStatus (mode : EnrollmentMode) (row : Option ProgramEnrollment) :
    (enrolledRow mode row).changeStatus = none := by
  rcases row with _ | e
  · rfl
  · rcases hstatus : e.changeStatus with _ | status <;> simp [enrolledRow, hstatus]

/-- A new enrollment is active, an old one if it was or had a change status. -/
theorem enrolledRow_active (mode : EnrollmentMode) (row : Option ProgramEnrollment) : (enrolledRow mode row).active = true ↔
    ∀ e, row = some e → e.active = true ∨ e.changeStatus.isSome = true := by
  rcases row with _ | e
  · simp [enrolledRow]
  · rcases hstatus : e.changeStatus with _ | status <;> simp [enrolledRow, hstatus]

/-- A second round changes nothing. -/
theorem enrolledRow_again (mode : EnrollmentMode) (row : Option ProgramEnrollment) :
    enrolledRow mode (some (enrolledRow mode row)) = enrolledRow mode row := by
  have hstatus := enrolledRow_changeStatus mode row
  have hmode := enrolledRow_mode mode row
  generalize enrolledRow mode row = e at hstatus hmode
  obtain ⟨active, changeStatus, enrollmentMode⟩ := e
  dsimp only at hstatus hmode
  subst hstatus hmode
  rfl

variable (user mode p s) in
/-- A round writes the enrollment of the user in the program, and no other. -/
theorem tryProgramEnrollment_noFaults :
    (tryProgramEnrollment Faults.none user mode p s).error = none ∧
      ∀ user' p', (tryProgramEnrollment Faults.none user mode p s).state.programEnrollments user' p' =
        if user' = user ∧ p' = p then some (enrolledRow mode (s.programEnrollments user p))
        else s.programEnrollments user' p' := by
  unfold tryProgramEnrollment
  cases hrow : s.programEnrollments user p with
  | none => exact ⟨rfl, fun _ _ => rfl⟩
  | some e =>
    refine ⟨rfl, fun user' p' => ?_⟩
    by_cases hsame : user' = user ∧ p' = p
    · simp [seq, andThen, skip, fallible, Faults.none, update, setProgramEnrollment, hsame, enrolledRow]
    · simp [seq, andThen, skip, fallible, Faults.none, update, setProgramEnrollment, hsame]

variable (user mode s programs) in
/-- What the call returns and leaves. -/
theorem returnedProgramEnrollments_noFaults :
    (returnedProgramEnrollments Faults.none user mode programs s).2 =
        programs.map (fun p => (p, enrolledRow mode (s.programEnrollments user p))) ∧
      ∀ user' p', (returnedProgramEnrollments Faults.none user mode programs s).1.programEnrollments
          user' p' =
        if user' = user ∧ p' ∈ programs then some (enrolledRow mode (s.programEnrollments user p'))
        else s.programEnrollments user' p' := by
  induction programs generalizing s with
  | nil => exact ⟨rfl, fun _ _ => by simp [returnedProgramEnrollments]⟩
  | cons p rest ih =>
    obtain ⟨herror, hrows⟩ := tryProgramEnrollment_noFaults user mode p s
    have hrow := hrows user p
    rw [if_pos ⟨rfl, rfl⟩] at hrow
    obtain ⟨hreturned, hleft⟩ := ih (tryProgramEnrollment Faults.none user mode p s).state
    have hagain : ∀ p', enrolledRow mode
        ((tryProgramEnrollment Faults.none user mode p s).state.programEnrollments user p') =
          enrolledRow mode (s.programEnrollments user p') := by
      intro p'
      rw [hrows]
      split
      · rename_i hsame
        rw [enrolledRow_again, hsame.2]
      · rfl
    have hstep : returnedProgramEnrollments Faults.none user mode (p :: rest) s =
        ((returnedProgramEnrollments Faults.none user mode rest
            (tryProgramEnrollment Faults.none user mode p s).state).1,
          (p, enrolledRow mode (s.programEnrollments user p)) ::
            (returnedProgramEnrollments Faults.none user mode rest
              (tryProgramEnrollment Faults.none user mode p s).state).2) := by
      rw [returnedProgramEnrollments, herror, hrow]
    rw [hstep]
    constructor
    · rw [hreturned, List.map_cons]
      simp only [hagain]
    · intro user' p'
      rw [hleft, hagain, hrows]
      by_cases huser : user' = user
      · by_cases hp : p' = p
        · subst hp
          simp [huser]
        · simp [huser, hp]
      · simp [huser]

/-- Every enrollment that the call returns is active, has the mode and no change status, and is what the
database holds; there is one for each program, and nobody else's enrollments change. -/
structure EnrollsInPrograms (user : UserId) (mode : EnrollmentMode) (programs : List ProgramId)
    (s : Store) : Prop where
  active : ∀ returned ∈ (returnedProgramEnrollments Faults.none user mode programs s).2,
    returned.2.active = true
  enrollmentMode : ∀ returned ∈ (returnedProgramEnrollments Faults.none user mode programs s).2,
    returned.2.enrollmentMode = mode
  changeStatus : ∀ returned ∈ (returnedProgramEnrollments Faults.none user mode programs s).2,
    returned.2.changeStatus = none
  stored : ∀ returned ∈ (returnedProgramEnrollments Faults.none user mode programs s).2,
    (createProgramEnrollments Faults.none user programs mode s).state.programEnrollments user returned.1 =
      some returned.2
  onePerProgram : (returnedProgramEnrollments Faults.none user mode programs s).2.map (·.1) = programs
  others : ∀ user', user' ≠ user → ∀ p,
    (createProgramEnrollments Faults.none user programs mode s).state.programEnrollments user' p =
      s.programEnrollments user' p

/-- The call does so exactly if no enrollment of the user in the programs is inactive without a change
status. -/
theorem enrollsInPrograms_iff (user : UserId) (mode : EnrollmentMode) (programs : List ProgramId)
    (s : Store) : EnrollsInPrograms user mode programs s ↔
      ∀ p ∈ programs, ∀ e, s.programEnrollments user p = some e →
        e.active = true ∨ e.changeStatus.isSome = true := by
  obtain ⟨hreturned, hleft⟩ := returnedProgramEnrollments_noFaults user mode s programs
  constructor
  · intro h p hp
    refine (enrolledRow_active mode _).mp (h.active (p, _) ?_)
    rw [hreturned]
    exact List.mem_map.mpr ⟨p, hp, rfl⟩
  · intro h
    have hrow : ∀ returned ∈ (returnedProgramEnrollments Faults.none user mode programs s).2,
        returned.1 ∈ programs ∧
          returned.2 = enrolledRow mode (s.programEnrollments user returned.1) := by
      intro returned hmem
      rw [hreturned] at hmem
      obtain ⟨p, hp, rfl⟩ := List.mem_map.mp hmem
      exact ⟨hp, rfl⟩
    constructor
    · intro returned hmem
      obtain ⟨hp, heq⟩ := hrow returned hmem
      rw [heq]
      exact (enrolledRow_active mode _).mpr (h returned.1 hp)
    · intro returned hmem
      rw [(hrow returned hmem).2, enrolledRow_mode]
    · intro returned hmem
      rw [(hrow returned hmem).2, enrolledRow_changeStatus]
    · intro returned hmem
      obtain ⟨hp, heq⟩ := hrow returned hmem
      rw [← returnedProgramEnrollments_state, hleft, if_pos ⟨rfl, hp⟩, heq]
    · rw [hreturned, List.map_map]
      exact List.map_id _
    · intro user' hne p
      rw [← returnedProgramEnrollments_state, hleft, if_neg fun hsame => hne hsame.1]

/-- A learner whose enrollment in a program was deactivated without a change status. -/
theorem not_enrollsInPrograms : ¬EnrollsInPrograms 1 .verified [2]
    (setProgramEnrollment 1 2 { active := false, changeStatus := none, enrollmentMode := .audit }
      Store.empty) := by
  intro h
  have hactive := h.active (2, { active := false, changeStatus := none, enrollmentMode := .verified })
    (List.mem_singleton_self _)
  cases hactive

end MitxOnline

import Mathlib.Tactic.Common
import MitxOnline.Courses.EnrollmentChanges

/-!
# What the enrollment commands touch

The row that a command updates is the newest of its table, whosever it is. So a command touches only its
target if the newest rows are in the target, or have the values already that the command writes.
-/

namespace MitxOnline

variable {enrollInEdx : UserId → RunId → Except Error Bool} {cat : Catalog}
  {anyOrder : List RunEnrollmentRow → List RunEnrollmentRow} {keep : Bool} {user : UserId}
  {change : EnrollmentChange} {s : EnrollmentTables} {row newest : RunEnrollmentRow}
  {rest : List RunEnrollmentRow}

/-! ## What edX answers -/

section Answers

variable (enrollInEdx : UserId → RunId → Except Error Bool) (user : UserId)

/-- edX takes the user in one of the runs, before a request raises. -/
def takesAny : List RunId → Bool
  | [] => false
  | r :: runs =>
    match enrollInEdx user r with
    | .ok true => true
    | .ok false => takesAny runs
    | .error _ => false

/-- A request raises. -/
def raisesAny (runs : List RunId) : Bool :=
  runs.any fun r => (enrollInEdx user r).toOption.isNone

/-- An enrollment is returned for one of the runs. -/
def returnsAny (keep : Bool) (runs : List RunId) : Bool :=
  runs.any fun r => (enrollInEdx user r).toOption.any fun taken => taken || keep

variable {enrollInEdx user} {r : RunId} {runs : List RunId}

theorem takesAny_cons_ok {taken : Bool} (h : enrollInEdx user r = .ok taken) :
    takesAny enrollInEdx user (r :: runs) = (taken || takesAny enrollInEdx user runs) := by
  rw [takesAny, h]
  cases taken <;> rfl

theorem takesAny_cons_error {error : Error} (h : enrollInEdx user r = .error error) :
    takesAny enrollInEdx user (r :: runs) = false := by
  rw [takesAny, h]

theorem raisesAny_cons_ok {taken : Bool} (h : enrollInEdx user r = .ok taken) :
    raisesAny enrollInEdx user (r :: runs) = raisesAny enrollInEdx user runs := by
  unfold raisesAny
  rw [List.any_cons, h]
  rfl

theorem raisesAny_cons_error {error : Error} (h : enrollInEdx user r = .error error) :
    raisesAny enrollInEdx user (r :: runs) = true := by
  unfold raisesAny
  rw [List.any_cons, h]
  rfl

theorem returnsAny_cons_ok {taken : Bool} (h : enrollInEdx user r = .ok taken) :
    returnsAny enrollInEdx user keep (r :: runs) =
      (taken || keep || returnsAny enrollInEdx user keep runs) := by
  unfold returnsAny
  rw [List.any_cons, h]
  rfl

end Answers

/-! ## The row that is written -/

/-- The newest row after a command: edX took the user or not. -/
def RunEnrollmentRow.changed (row : RunEnrollmentRow) (taken : Bool) : RunEnrollmentRow :=
  if taken = true then row.withDefaults.enrolledInEdx else row.withDefaults

/-- Active and without a change status. -/
def RunEnrollmentRow.IsSettled (row : RunEnrollmentRow) : Prop :=
  row.enrollment.active = true ∧ row.enrollment.changeStatus = none

@[inherit_doc RunEnrollmentRow.IsSettled]
def ProgramEnrollmentRow.IsSettled (row : ProgramEnrollmentRow) : Prop :=
  row.enrollment.active = true ∧ row.enrollment.changeStatus = none

theorem changed_changed (row : RunEnrollmentRow) (taken taken' : Bool) :
    (row.changed taken).changed taken' = row.changed (taken || taken') := by
  cases taken <;> cases taken' <;> rfl

theorem changed_isSettled (row : RunEnrollmentRow) (taken : Bool) : (row.changed taken).IsSettled := by
  cases taken <;> exact ⟨rfl, rfl⟩

@[simp] theorem targetsRun_changed (row : RunEnrollmentRow) (taken : Bool) :
    change.targetsRun cat (row.changed taken) = change.targetsRun cat row := by
  cases taken <;> rfl

@[simp] theorem targetsProgram_withDefaults (row : ProgramEnrollmentRow) :
    change.targetsProgram row.withDefaults = change.targetsProgram row := rfl

theorem withDefaults_eq_self_iff {row : ProgramEnrollmentRow} :
    row.withDefaults = row ↔ row.IsSettled := by
  constructor
  · intro h
    have hsettled : row.withDefaults.IsSettled := ⟨rfl, rfl⟩
    rwa [h] at hsettled
  · rintro ⟨hactive, hstatus⟩
    obtain ⟨_, _, _, _, _⟩ := row
    cases hactive
    cases hstatus
    rfl

/-! ## One run -/

theorem createRunEnrollment_nil (existing : RunEnrollmentRow) (toRun : Option RunId)
    (toUser : Option UserId) :
    createRunEnrollment enrollInEdx existing toRun toUser keep [] = ([], .error .integrityError) := rfl

/-- The newest row is updated, then edX is asked. -/
theorem createRunEnrollment_of_ok {existing : RunEnrollmentRow} {toRun : Option RunId}
    {toUser : Option UserId} {taken : Bool}
    (h : enrollInEdx (toUser.getD existing.user) (toRun.getD existing.run) = .ok taken) :
    createRunEnrollment enrollInEdx existing toRun toUser keep (newest :: rest) =
      (newest.changed taken :: rest,
        .ok (if (taken || keep) = true then some (newest.changed taken) else none)) := by
  unfold createRunEnrollment createOrUpdateEnrollment
  simp only [List.findIdx?_cons, if_true, List.modify_zero_cons, h]
  cases taken <;> cases keep <;> rfl

theorem createRunEnrollment_of_error {existing : RunEnrollmentRow} {toRun : Option RunId}
    {toUser : Option UserId} {error : Error}
    (h : enrollInEdx (toUser.getD existing.user) (toRun.getD existing.run) = .error error) :
    createRunEnrollment enrollInEdx existing toRun toUser keep (newest :: rest) =
      (newest.changed false :: rest, .error error) := by
  unfold createRunEnrollment createOrUpdateEnrollment
  simp only [List.findIdx?_cons, if_true, List.modify_zero_cons, h]
  rfl

/-- A call for one run, by what edX answers to it. -/
theorem createRunEnrollment_spec (existing : RunEnrollmentRow) (toRun : Option RunId)
    (toUser : Option UserId) :
    let result := createRunEnrollment enrollInEdx existing toRun toUser keep (newest :: rest)
    let user := toUser.getD existing.user
    let runs := [toRun.getD existing.run]
    result.1 = newest.changed (takesAny enrollInEdx user runs) :: rest ∧
      result.2.toOption.any Option.isSome =
        (!raisesAny enrollInEdx user runs && returnsAny enrollInEdx user keep runs) := by
  intro result user runs
  unfold result runs
  rcases henroll : enrollInEdx user (toRun.getD existing.run) with error | taken
  · rw [createRunEnrollment_of_error henroll, takesAny_cons_error henroll, raisesAny_cons_error henroll]
    exact ⟨rfl, rfl⟩
  · rw [createRunEnrollment_of_ok henroll, takesAny_cons_ok henroll, raisesAny_cons_ok henroll,
      returnsAny_cons_ok henroll]
    cases taken <;> cases keep <;> exact ⟨rfl, rfl⟩

/-! ## The runs of a program -/

theorem createRunEnrollmentsFor_cons_ok {e : RunEnrollmentRow}
    {existing rows rows' rows'' : List RunEnrollmentRow} {created : Option RunEnrollmentRow}
    {result : Except Error (List RunEnrollmentRow)}
    (hone : createRunEnrollment enrollInEdx e none (some user) keep rows = (rows', .ok created))
    (hrest : createRunEnrollmentsFor enrollInEdx user keep existing rows' = (rows'', result)) :
    createRunEnrollmentsFor enrollInEdx user keep (e :: existing) rows =
      (rows'', result.map (created.toList ++ ·)) := by
  simp only [createRunEnrollmentsFor, hone, hrest]
  cases result <;> rfl

theorem createRunEnrollmentsFor_cons_error {e : RunEnrollmentRow}
    {existing rows rows' : List RunEnrollmentRow} {error : Error}
    (hone : createRunEnrollment enrollInEdx e none (some user) keep rows = (rows', .error error)) :
    createRunEnrollmentsFor enrollInEdx user keep (e :: existing) rows = (rows', .error error) := by
  simp only [createRunEnrollmentsFor, hone]

/-- The loop of a program: the newest row is updated again and again. -/
theorem createRunEnrollmentsFor_spec (existing : List RunEnrollmentRow) (taken : Bool) :
    ∃ result, createRunEnrollmentsFor enrollInEdx user keep existing (newest.changed taken :: rest) =
        (newest.changed (taken || takesAny enrollInEdx user (existing.map (·.run))) :: rest, result) ∧
      result.toOption.isNone = raisesAny enrollInEdx user (existing.map (·.run)) ∧
      ∀ created, result = .ok created →
        created.isEmpty = !returnsAny enrollInEdx user keep (existing.map (·.run)) := by
  induction existing generalizing taken with
  | nil =>
    refine ⟨.ok [], ?_, rfl, ?_⟩
    · simp [createRunEnrollmentsFor, takesAny]
    · rintro _ ⟨⟩
      rfl
  | cons e existing ih =>
    rw [List.map_cons]
    rcases henroll : enrollInEdx user e.run with error | asked
    · -- the request raises: the rest is not asked
      rw [takesAny_cons_error henroll, raisesAny_cons_error henroll]
      refine ⟨.error error, ?_, rfl, ?_⟩
      · rw [createRunEnrollmentsFor_cons_error (createRunEnrollment_of_error henroll), changed_changed]
      · rintro _ ⟨⟩
    · rw [takesAny_cons_ok henroll, raisesAny_cons_ok henroll, returnsAny_cons_ok henroll]
      obtain ⟨result, hloop, hraises, hreturns⟩ := ih (taken || asked)
      have hone : createRunEnrollment enrollInEdx e none (some user) keep
          (newest.changed taken :: rest) = _ := createRunEnrollment_of_ok henroll
      rw [changed_changed] at hone
      rw [createRunEnrollmentsFor_cons_ok hone hloop, Bool.or_assoc]
      refine ⟨_, rfl, ?_, ?_⟩
      · rw [← hraises]
        cases result <;> rfl
      · intro created hcreated
        rcases result with error | others
        · cases hcreated
        · cases hcreated
          have hothers := hreturns others rfl
          cases hreturned : asked || keep
          · rw [if_neg Bool.false_ne_true, Bool.false_or]
            exact hothers
          · rw [if_pos rfl, Bool.true_or]
            rfl

/-- A row that is not written yet, or was written before: the loop does the same with it. -/
theorem createRunEnrollmentsFor_changed (e : RunEnrollmentRow) (existing : List RunEnrollmentRow) :
    createRunEnrollmentsFor enrollInEdx user keep (e :: existing) (newest :: rest) =
      createRunEnrollmentsFor enrollInEdx user keep (e :: existing) (newest.changed false :: rest) := by
  have hone : createRunEnrollment enrollInEdx e none (some user) keep (newest :: rest) =
      createRunEnrollment enrollInEdx e none (some user) keep (newest.changed false :: rest) := by
    rcases henroll : enrollInEdx user e.run with error | taken
    · rw [createRunEnrollment_of_error henroll, createRunEnrollment_of_error henroll, changed_changed]
      rfl
    · rw [createRunEnrollment_of_ok henroll, createRunEnrollment_of_ok henroll, changed_changed,
        Bool.false_or]
  rw [createRunEnrollmentsFor, createRunEnrollmentsFor, hone]

/-! ## What a command touches -/

/-- The enrollment that a command is for is there, active and without a change status. -/
def EnrollmentChange.HasTarget (cat : Catalog) (change : EnrollmentChange) (s : EnrollmentTables) : Prop :=
  match change with
  | run _ _ _ => ∃ row ∈ s.runEnrollments, change.targetsRun cat row = true ∧ row.IsSettled
  | program _ _ _ => ∃ row ∈ s.programEnrollments, change.targetsProgram row = true ∧ row.IsSettled

/-- What is expected of a command. -/
structure TouchesOnlyTarget (cat : Catalog) (change : EnrollmentChange) (returned : Bool)
    (s s' : EnrollmentTables) : Prop where
  runEnrollments : (s'.runEnrollments.filter fun row => !change.targetsRun cat row) =
    s.runEnrollments.filter fun row => !change.targetsRun cat row
  programEnrollments : (s'.programEnrollments.filter fun row => !change.targetsProgram row) =
    s.programEnrollments.filter fun row => !change.targetsProgram row
  target : returned = true → change.HasTarget cat s'

/-- The runs for which a command asks edX. -/
def EnrollmentChange.runs (cat : Catalog)
    (anyOrder : List RunEnrollmentRow → List RunEnrollmentRow) (s : EnrollmentTables) :
    EnrollmentChange → List RunId
  | run existing toRun _ => [toRun.getD existing.run]
  | program existing _ _ => (anyOrder (getRunEnrollments cat existing s.runEnrollments)).map (·.run)

/-- A command that returns an enrollment leaves its target as expected: the newest row is in the target,
or it is right already and so is the target. -/
def EnrollmentChange.ReturnsTarget (cat : Catalog) (change : EnrollmentChange) (s : EnrollmentTables) :
    Prop :=
  match change with
  | run _ _ _ => (∃ newest ∈ s.runEnrollments.head?, change.targetsRun cat newest = true) ∨
      change.HasTarget cat s
  | program _ _ _ => ∀ newest ∈ s.programEnrollments.head?, change.targetsProgram newest = true ∨
      newest.IsSettled ∧ change.HasTarget cat s

/-- The newest row is in the target or is not changed, and what is returned is the target. -/
def StaysInTarget (enrollInEdx : UserId → RunId → Except Error Bool) (cat : Catalog)
    (anyOrder : List RunEnrollmentRow → List RunEnrollmentRow) (keep : Bool) (change : EnrollmentChange)
    (s : EnrollmentTables) : Prop :=
  change.runs cat anyOrder s ≠ [] →
    ∀ newest ∈ s.runEnrollments.head?,
      (change.targetsRun cat newest = true ∨
        newest.changed (takesAny enrollInEdx change.toUser (change.runs cat anyOrder s)) = newest) ∧
      (raisesAny enrollInEdx change.toUser (change.runs cat anyOrder s) = false →
        returnsAny enrollInEdx change.toUser keep (change.runs cat anyOrder s) = true →
          change.ReturnsTarget cat s)

theorem TouchesOnlyTarget.refl (cat : Catalog) (change : EnrollmentChange) (s : EnrollmentTables) :
    TouchesOnlyTarget cat change false s s :=
  ⟨rfl, rfl, fun h => Bool.noConfusion h⟩

/-- Rows outside the target stay if the newest row is in the target or stays itself. -/
theorem changed_frame_iff (taken : Bool) :
    ((newest.changed taken :: rest).filter fun row => !change.targetsRun cat row) =
        ((newest :: rest).filter fun row => !change.targetsRun cat row) ↔
      change.targetsRun cat newest = true ∨ newest.changed taken = newest := by
  rw [List.filter_cons, List.filter_cons, targetsRun_changed]
  by_cases htarget : change.targetsRun cat newest = true
  · simp [htarget]
  · simp [htarget]

theorem withDefaults_frame_iff {newest : ProgramEnrollmentRow} {rest : List ProgramEnrollmentRow} :
    ((newest.withDefaults :: rest).filter fun row => !change.targetsProgram row) =
        ((newest :: rest).filter fun row => !change.targetsProgram row) ↔
      change.targetsProgram newest = true ∨ newest.IsSettled := by
  rw [List.filter_cons, List.filter_cons, targetsProgram_withDefaults, ← withDefaults_eq_self_iff]
  by_cases htarget : change.targetsProgram newest = true
  · simp [htarget]
  · simp [htarget]

theorem touchesOnlyTarget_iff {returned : Bool} {s' : EnrollmentTables} :
    TouchesOnlyTarget cat change returned s s' ↔
      ((s'.runEnrollments.filter fun row => !change.targetsRun cat row) =
          s.runEnrollments.filter fun row => !change.targetsRun cat row) ∧
        ((s'.programEnrollments.filter fun row => !change.targetsProgram row) =
          s.programEnrollments.filter fun row => !change.targetsProgram row) ∧
        (returned = true → change.HasTarget cat s') :=
  ⟨fun h => ⟨h.runEnrollments, h.programEnrollments, h.target⟩, fun ⟨hruns, hprograms, htarget⟩ =>
    ⟨hruns, hprograms, htarget⟩⟩

theorem staysInTarget_cons_iff {programEnrollments : List ProgramEnrollmentRow}
    (hruns : change.runs cat anyOrder ⟨newest :: rest, programEnrollments⟩ ≠ []) :
    StaysInTarget enrollInEdx cat anyOrder keep change ⟨newest :: rest, programEnrollments⟩ ↔
      (change.targetsRun cat newest = true ∨
        newest.changed (takesAny enrollInEdx change.toUser
          (change.runs cat anyOrder ⟨newest :: rest, programEnrollments⟩)) = newest) ∧
      (raisesAny enrollInEdx change.toUser
          (change.runs cat anyOrder ⟨newest :: rest, programEnrollments⟩) = false →
        returnsAny enrollInEdx change.toUser keep
          (change.runs cat anyOrder ⟨newest :: rest, programEnrollments⟩) = true →
        change.ReturnsTarget cat ⟨newest :: rest, programEnrollments⟩) := by
  unfold StaysInTarget
  rw [imp_iff_right hruns]
  simp only [List.head?_cons, Option.mem_def, Option.some.injEq, forall_eq']

/-- A call without rows, or for no run, returns nothing and changes nothing. -/
theorem staysInTarget_of_nil {programEnrollments : List ProgramEnrollmentRow} :
    StaysInTarget enrollInEdx cat anyOrder keep change ⟨[], programEnrollments⟩ := by
  intro _ newest hnewest
  cases hnewest

/-! ## The command for a run -/

/-- Where only the target changes, what is returned is the target. -/
theorem hasTarget_run_iff {existing : RunEnrollmentRow} {toRun : Option RunId} {toUser : Option UserId}
    {programEnrollments : List ProgramEnrollmentRow} {taken : Bool}
    (h : (EnrollmentChange.run existing toRun toUser).targetsRun cat newest = true ∨
      newest.changed taken = newest) :
    (EnrollmentChange.run existing toRun toUser).HasTarget cat
        ⟨newest.changed taken :: rest, programEnrollments⟩ ↔
      (EnrollmentChange.run existing toRun toUser).ReturnsTarget cat
        ⟨newest :: rest, programEnrollments⟩ := by
  by_cases htarget : (EnrollmentChange.run existing toRun toUser).targetsRun cat newest = true
  · refine iff_of_true ⟨_, List.mem_cons_self, ?_, changed_isSettled newest taken⟩
      (Or.inl ⟨newest, rfl, htarget⟩)
    rw [targetsRun_changed]
    exact htarget
  · rw [h.resolve_left htarget]
    refine (or_iff_right ?_).symm
    rintro ⟨other, hother, htarget'⟩
    cases hother
    exact htarget htarget'

theorem run_touchesOnlyTarget_iff (existing : RunEnrollmentRow) (toRun : Option RunId)
    (toUser : Option UserId) :
    TouchesOnlyTarget cat (.run existing toRun toUser)
        (EnrollmentChange.apply enrollInEdx cat anyOrder keep (.run existing toRun toUser) s).2 s
        (EnrollmentChange.apply enrollInEdx cat anyOrder keep (.run existing toRun toUser) s).1 ↔
      StaysInTarget enrollInEdx cat anyOrder keep (.run existing toRun toUser) s := by
  obtain ⟨runEnrollments, programEnrollments⟩ := s
  unfold EnrollmentChange.apply
  dsimp only
  rcases runEnrollments with _ | ⟨newest, rest⟩
  · -- no row, and none can be created
    rw [createRunEnrollment_nil]
    exact iff_of_true (TouchesOnlyTarget.refl cat _ _) staysInTarget_of_nil
  · obtain ⟨hrows, hreturned⟩ :
        (createRunEnrollment enrollInEdx existing toRun toUser keep (newest :: rest)).1 = _ ∧ _ = _ :=
      createRunEnrollment_spec existing toRun toUser
    have hruns : (EnrollmentChange.run existing toRun toUser).runs cat anyOrder
        ⟨newest :: rest, programEnrollments⟩ ≠ [] := List.cons_ne_nil _ _
    rw [hrows, hreturned, touchesOnlyTarget_iff, changed_frame_iff, staysInTarget_cons_iff hruns,
      and_iff_right rfl]
    refine and_congr_right fun hframe => ?_
    rw [hasTarget_run_iff hframe, Bool.and_eq_true, and_imp, Bool.not_eq_true']
    rfl

/-! ## The command for a program -/

/-- The enrollment of the program is returned: the newest is in the target, or it is right already and
so is the target. -/
theorem hasTarget_program_iff {existing : ProgramEnrollmentRow} {toProgram : Option ProgramId}
    {toUser : Option UserId} (rows rows' : List RunEnrollmentRow) {newest : ProgramEnrollmentRow}
    {rest : List ProgramEnrollmentRow} :
    ((EnrollmentChange.program existing toProgram toUser).targetsProgram newest = true ∨
        newest.IsSettled) ∧
      (EnrollmentChange.program existing toProgram toUser).HasTarget cat
        ⟨rows', newest.withDefaults :: rest⟩ ↔
      (EnrollmentChange.program existing toProgram toUser).ReturnsTarget cat ⟨rows, newest :: rest⟩ := by
  have hreturns : (EnrollmentChange.program existing toProgram toUser).ReturnsTarget cat
        ⟨rows, newest :: rest⟩ ↔
      (EnrollmentChange.program existing toProgram toUser).targetsProgram newest = true ∨
        newest.IsSettled ∧ (EnrollmentChange.program existing toProgram toUser).HasTarget cat
          ⟨rows, newest :: rest⟩ := by
    simp only [EnrollmentChange.ReturnsTarget, List.head?_cons, Option.mem_def, Option.some.injEq,
      forall_eq']
  rw [hreturns]
  by_cases htarget : (EnrollmentChange.program existing toProgram toUser).targetsProgram newest = true
  · exact iff_of_true ⟨Or.inl htarget, _, List.mem_cons_self, htarget, rfl, rfl⟩ (Or.inl htarget)
  · rw [or_iff_right htarget, or_iff_right htarget]
    refine and_congr_right fun hsettled => ?_
    rw [withDefaults_eq_self_iff.mpr hsettled]
    rfl

/-- No run enrollment is returned, or none can be: the program enrollments are not touched. -/
theorem touchesOnlyTarget_of_not_returns {taken : Bool} {programEnrollments : List ProgramEnrollmentRow} :
    TouchesOnlyTarget cat change false ⟨newest :: rest, programEnrollments⟩
        ⟨newest.changed taken :: rest, programEnrollments⟩ ↔
      change.targetsRun cat newest = true ∨ newest.changed taken = newest := by
  rw [touchesOnlyTarget_iff, changed_frame_iff]
  refine and_iff_left ⟨rfl, fun h => ?_⟩
  cases h

theorem program_touchesOnlyTarget_iff (existing : ProgramEnrollmentRow) (toProgram : Option ProgramId)
    (toUser : Option UserId) :
    TouchesOnlyTarget cat (.program existing toProgram toUser)
        (EnrollmentChange.apply enrollInEdx cat anyOrder keep
          (.program existing toProgram toUser) s).2 s
        (EnrollmentChange.apply enrollInEdx cat anyOrder keep
          (.program existing toProgram toUser) s).1 ↔
      StaysInTarget enrollInEdx cat anyOrder keep (.program existing toProgram toUser) s := by
  obtain ⟨runEnrollments, programEnrollments⟩ := s
  unfold EnrollmentChange.apply createProgramEnrollmentFor
  dsimp only
  rcases hexisting : anyOrder (getRunEnrollments cat existing runEnrollments) with _ | ⟨e, es⟩
  · -- no run to enroll in
    refine iff_of_true (TouchesOnlyTarget.refl cat _ _) fun hruns => absurd ?_ hruns
    rw [EnrollmentChange.runs, hexisting]
    rfl
  · rcases runEnrollments with _ | ⟨newest, rest⟩
    · exact iff_of_true (TouchesOnlyTarget.refl cat _ _) staysInTarget_of_nil
    · have hruns : (EnrollmentChange.program existing toProgram toUser).runs cat anyOrder
          ⟨newest :: rest, programEnrollments⟩ = (e :: es).map (·.run) := by
        rw [EnrollmentChange.runs, hexisting]
      have hne : (EnrollmentChange.program existing toProgram toUser).runs cat anyOrder
          ⟨newest :: rest, programEnrollments⟩ ≠ [] := by
        rw [hruns]
        exact List.cons_ne_nil _ _
      obtain ⟨result, hloop, hraises, hreturns⟩ :
          ∃ result, createRunEnrollmentsFor enrollInEdx (toUser.getD existing.user) keep (e :: es)
              (newest.changed false :: rest) = (_, result) ∧ _ :=
        createRunEnrollmentsFor_spec (e :: es) false
      have huser : (EnrollmentChange.program existing toProgram toUser).toUser =
          toUser.getD existing.user := rfl
      rw [createRunEnrollmentsFor_changed, hloop, staysInTarget_cons_iff hne, hruns, huser,
        Bool.false_or]
      rcases result with error | _ | ⟨created, others⟩
      · -- a request raises
        rw [← hraises]
        refine touchesOnlyTarget_of_not_returns.trans (and_iff_left fun hno => ?_).symm
        cases hno
      · -- nothing is returned for the runs
        have hnone := hreturns [] rfl
        refine touchesOnlyTarget_of_not_returns.trans (and_iff_left fun _ hsome => ?_).symm
        rw [hsome] at hnone
        cases hnone
      · have hsome : returnsAny enrollInEdx (toUser.getD existing.user) keep
            ((e :: es).map (·.run)) = true := by
          have hempty := hreturns (created :: others) rfl
          rwa [List.isEmpty_cons, eq_comm, Bool.not_eq_false'] at hempty
        have hno : raisesAny enrollInEdx (toUser.getD existing.user) ((e :: es).map (·.run)) = false :=
          hraises.symm
        rw [hno, hsome, imp_iff_right rfl, imp_iff_right rfl]
        rcases programEnrollments with _ | ⟨newestProgram, restPrograms⟩
        · -- no program enrollment, and none can be created
          refine touchesOnlyTarget_of_not_returns.trans (and_iff_left ?_).symm
          intro newestProgram hnewest
          cases hnewest
        · refine touchesOnlyTarget_iff.trans ?_
          rw [← hasTarget_program_iff (newest :: rest) (newest.changed (takesAny enrollInEdx
            (toUser.getD existing.user) ((e :: es).map (·.run))) :: rest)]
          refine and_congr (changed_frame_iff _) (and_congr withDefaults_frame_iff ?_)
          exact imp_iff_right rfl

/-- The commands touch only their target, and reach it if they return, exactly for the calls for which
the newest rows are in the target or right already. -/
theorem touchesOnlyTarget_apply_iff (enrollInEdx : UserId → RunId → Except Error Bool) (cat : Catalog)
    (anyOrder : List RunEnrollmentRow → List RunEnrollmentRow) (keep : Bool) (change : EnrollmentChange)
    (s : EnrollmentTables) :
    TouchesOnlyTarget cat change (change.apply enrollInEdx cat anyOrder keep s).2 s
        (change.apply enrollInEdx cat anyOrder keep s).1 ↔
      StaysInTarget enrollInEdx cat anyOrder keep change s := by
  cases change with
  | run existing toRun toUser => exact run_touchesOnlyTarget_iff existing toRun toUser
  | program existing toProgram toUser => exact program_touchesOnlyTarget_iff existing toProgram toUser

/-- Learner 8 enrolled last, in run 2, and was unenrolled; learner 7 has an enrollment in run 1. -/
def unenrolledLast : EnrollmentTables where
  runEnrollments :=
    [⟨8, 2, ⟨false, some "unenrolled", false, .audit⟩, false⟩, ⟨7, 1, ⟨true, none, true, .audit⟩, true⟩]
  programEnrollments := []

/-- A call for learner 7 and run 1 reactivates the enrollment of learner 8. -/
theorem not_touchesOnlyTarget :
    ¬ ∀ (enrollInEdx : UserId → RunId → Except Error Bool) (cat : Catalog)
      (anyOrder : List RunEnrollmentRow → List RunEnrollmentRow) (keep : Bool)
      (change : EnrollmentChange) (s : EnrollmentTables),
      TouchesOnlyTarget cat change (change.apply enrollInEdx cat anyOrder keep s).2 s
        (change.apply enrollInEdx cat anyOrder keep s).1 := by
  intro h
  have hframe := (h (fun _ _ => .ok true) (Catalog.ofPrices fun _ => ⟨0⟩) id false
    (.run ⟨7, 1, ⟨true, none, true, .audit⟩, true⟩ none none) unenrolledLast).runEnrollments
  revert hframe
  decide

end MitxOnline

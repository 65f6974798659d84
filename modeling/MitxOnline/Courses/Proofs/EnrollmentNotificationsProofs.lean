import MitxOnline.Courses.EnrollmentResults
import MitxOnline.Courses.Proofs.ActiveModesProofs

/-!
# Which notifications the enrollment loop sends

Callbacks read the loop's variable after the last round, so all of them tell of the last run; and once an
enrollment was downgraded no later run gets its email. What a loop has done is told by the enrollments it
began with: in a run that was met before, the enrollment is active in the mode.
-/

namespace MitxOnline

open Autocommit EnrollmentLoop

variable {f : Faults} {cat : Catalog} {now : Instant} {user : UserId} {changeStatus : Option String}
  {mode : EnrollmentMode} {edx : Bool} {s : Store} {loop : EnrollmentLoop} {r : RunId}
  {runs : List RunId}

/-! ## The loop is the one of `createRunEnrollments` -/

theorem succeeded_store : (succeeded edx r loop).store = loop.store := rfl

/-- Code followed by nothing but bookkeeping. -/
theorem tryIn_store {code : Code} {rest : EnrollmentLoop → EnrollmentLoop} {loop : EnrollmentLoop}
    (h : ∀ l, (rest l).store = l.store) : (tryIn r code rest loop).store = (code loop.store).state := by
  unfold tryIn
  split
  · rfl
  · exact h _

/-- A round leaves what a round of `createRunEnrollments` leaves. -/
theorem step_store : (step f cat now user changeStatus mode edx loop r).store =
    (recordRunEnrollment f cat now user changeStatus mode edx r loop.store).state := by
  unfold step recordRunEnrollment
  cases hf : f (.enrollment r) with
  | some e =>
    cases hrow : loop.store.enrollments user r with
    | none => simp [failed, seq, andThen, fallible, hf]
    | some row => simp [failed, seq, andThen, fallible, mayFail, hf]
  | none =>
    cases hrow : loop.store.enrollments user r with
    | none =>
      dsimp only
      rw [tryIn_store fun _ => succeeded_store, attempt_state]
      simp [seq_cons, andThen, fallible, hf, update]
    | some row =>
      dsimp only
      rw [attempt_state]
      cases hjoin : (joinContract f cat now user r loop.store).error with
      | some e => simp [tryIn, failed, seq, andThen, fallible, mayFail, hf, hjoin]
      | none =>
        cases hupdate : f (.enrollmentUpdate r) with
        | some e => simp [tryIn, failed, seq, andThen, fallible, mayFail, hf, hjoin, hupdate]
        | none =>
          by_cases hactive : row.active = true
          · by_cases hmode : mode = row.enrollmentMode
            · cases hlast : f (.enrollmentMode r) <;>
                simp [tryIn, succeeded, seq, andThen, fallible, mayFail, update, hf, hjoin, hupdate,
                  hlast, hactive, hmode, CourseRunEnrollment.withMode, setEnrollment_setEnrollment]
            · cases hlast : f (.enrollmentMode r) <;>
                simp [tryIn, changeMode, succeeded, failed, seq, andThen, fallible, mayFail, update, hf,
                  hjoin, hupdate, hlast, hactive, hmode, CourseRunEnrollment.withMode]
          · cases hlast : f (.enrollmentMode r) <;>
              simp [tryIn, reactivate, succeeded, failed, seq, andThen, fallible, mayFail, update, hf,
                hjoin, hupdate, hlast, hactive, CourseRunEnrollment.withMode]

theorem run_store : (EnrollmentLoop.run f cat now user changeStatus mode edx runs s).store =
    (seq (runs.map (recordRunEnrollment f cat now user changeStatus mode edx)) s).state := by
  have hrun : ∀ loop, (runs.foldl (step f cat now user changeStatus mode edx) loop).store =
      (seq (runs.map (recordRunEnrollment f cat now user changeStatus mode edx)) loop.store).state := by
    induction runs with
    | nil => exact fun _ => rfl
    | cons r rest ih =>
      intro loop
      rw [List.foldl_cons, ih, step_store, List.map_cons, seq_cons,
        andThen_of_ok (recordRunEnrollment_error _)]
  exact hrun (start s)

/-- The call leaves and raises what `createRunEnrollments` does. -/
theorem runEnrollmentsReturned_eq {keep : Bool} :
    createRunEnrollments f cat now user runs changeStatus keep mode s =
      match runEnrollmentsReturned f cat now user runs changeStatus keep mode s with
      | .ok (loop, _) => ⟨loop.store, none⟩
      | .error e => ⟨s, some e⟩ := by
  have hrecord : ∀ edx, seq (runs.map (recordRunEnrollment f cat now user changeStatus mode edx)) s =
      ⟨(EnrollmentLoop.run f cat now user changeStatus mode edx runs s).store, none⟩ := by
    intro edx
    have herror : (seq (runs.map (recordRunEnrollment f cat now user changeStatus mode edx)) s).error =
        none := by
      refine seq_error (fun a ha t => ?_) s
      obtain ⟨r, -, rfl⟩ := List.mem_map.mp ha
      exact recordRunEnrollment_error t
    rw [run_store, ← herror]
  unfold createRunEnrollments runEnrollmentsReturned
  cases runs with
  | nil => rfl
  | cons first rest =>
    dsimp only
    split
    · exact hrecord true
    · cases hedx : f (.edxEnroll (first :: rest)) with
      | none => exact hrecord true
      | some e =>
        cases e with
        | edxError =>
          dsimp only
          split
          · exact hrecord false
          · rfl
        | _ => rfl

/-! ## One round -/

/-- The enrollment is there but inactive. -/
def isInactive (row : Option CourseRunEnrollment) : Bool := row.any fun e => !e.active

/-- The enrollment is active and verified, and is asked for as audit. -/
def isDowngrade (mode : EnrollmentMode) (row : Option CourseRunEnrollment) : Bool :=
  row.any fun e => e.active && (mode == .audit && e.enrollmentMode == .verified)

theorem tryIn_of_ok {code : Code} {rest : EnrollmentLoop → EnrollmentLoop}
    (h : (code loop.store).error = none) :
    tryIn r code rest loop = rest { loop with store := (code loop.store).state } := by
  simp [tryIn, h]

/-- What a round in which nothing fails does besides its writes. -/
structure Rounds (mode : EnrollmentMode) (edx : Bool) (r : RunId) (row : Option CourseRunEnrollment)
    (loop loop' : EnrollmentLoop) : Prop where
  enrollment : loop'.enrollment = some r
  isEnrollmentDowngraded :
    loop'.isEnrollmentDowngraded = (loop.isEnrollmentDowngraded || isDowngrade mode row)
  onCommit : loop'.onCommit = loop.onCommit + if isInactive row = true then 1 else 0
  enrollmentEmails : loop'.enrollmentEmails =
    if edx = true ∧ loop'.isEnrollmentDowngraded = false then loop.enrollmentEmails ++ [r]
    else loop.enrollmentEmails

variable (cat now user changeStatus mode edx loop r) in
theorem step_noFaults : Rounds mode edx r (loop.store.enrollments user r) loop
    (step Faults.none cat now user changeStatus mode edx loop r) := by
  have hjoin := joinContract_noFaults cat now user r
  unfold step
  dsimp only [Faults.none]
  cases hrow : loop.store.enrollments user r with
  | none =>
    dsimp only
    rw [tryIn_of_ok (by simp [seq, andThen, mayFail, fallible, skip, hjoin, Faults.none])]
    exact ⟨rfl, by simp [succeeded, isDowngrade], by simp [succeeded, isInactive], rfl⟩
  | some e =>
    dsimp only
    rw [tryIn_of_ok (by simp [seq, andThen, fallible, update, skip, hjoin, Faults.none])]
    cases hactive : e.active with
    | true =>
      by_cases hmode : mode = e.enrollmentMode
      · have hsame : isDowngrade mode (some e) = false := by
          subst hmode
          cases hmode' : e.enrollmentMode <;> simp [isDowngrade, hmode']
        simp only [ne_eq, hmode, not_true, and_false, if_false, Bool.true_eq_false]
        refine ⟨rfl, ?_, by simp [succeeded, isInactive, hactive], rfl⟩
        rw [← hmode, hsame, Bool.or_false]
        rfl
      · simp only [ne_eq, hmode, not_false_iff, and_self, if_true, changeMode]
        rw [tryIn_of_ok rfl]
        exact ⟨rfl, by simp [succeeded, isDowngrade, hactive], by simp [succeeded, isInactive, hactive],
          rfl⟩
    | false =>
      simp only [Bool.false_eq_true, false_and, if_false, if_true, reactivate]
      rw [tryIn_of_ok rfl]
      exact ⟨rfl, by simp [succeeded, isDowngrade, hactive], by simp [succeeded, isInactive, hactive],
        rfl⟩

/-! ## The whole loop -/

/-- The loop so far, told by the enrollments it began with. -/
structure LoopSoFar (user : UserId) (mode : EnrollmentMode) (s : Store) (runs : List RunId)
    (loop : EnrollmentLoop) : Prop where
  recorded : ∀ r ∈ runs, ∃ e, loop.store.enrollments user r = some e ∧ e.active = true ∧
    e.enrollmentMode = mode
  untouched : ∀ r, r ∉ runs → loop.store.enrollments user r = s.enrollments user r
  enrollment : loop.enrollment = runs.getLast?
  isEnrollmentDowngraded :
    loop.isEnrollmentDowngraded = runs.any fun r => isDowngrade mode (s.enrollments user r)
  onCommit : loop.onCommit = (runs.toFinset.filter fun r => isInactive (s.enrollments user r) = true).card

/-- An enrollment in the mode that is asked for is not downgraded. -/
theorem isDowngrade_recorded {e : CourseRunEnrollment} (h : e.enrollmentMode = mode) :
    isDowngrade mode (some e) = false := by
  subst h
  cases hmode : e.enrollmentMode <;> simp [isDowngrade, hmode]

theorem run_concat (pre : List RunId) :
    EnrollmentLoop.run f cat now user changeStatus mode edx (pre ++ [r]) s =
      step f cat now user changeStatus mode edx
        (EnrollmentLoop.run f cat now user changeStatus mode edx pre s) r := by
  unfold EnrollmentLoop.run
  rw [List.foldl_append]
  rfl

/-- A round records the enrollment in its run and leaves the others alone. -/
theorem step_enrollments (r' : RunId) :
    (step Faults.none cat now user changeStatus mode edx loop r).store.enrollments user r' =
      if r' = r then some (recordedRow changeStatus mode edx (loop.store.enrollments user r))
      else loop.store.enrollments user r' := by
  rw [step_store, recordRunEnrollment_enrollments]
  simp [setEnrollment]

theorem LoopSoFar.step (h : LoopSoFar user mode s runs loop) :
    LoopSoFar user mode s (runs ++ [r])
      (EnrollmentLoop.step Faults.none cat now user changeStatus mode edx loop r) := by
  obtain ⟨henrollment, hdowngraded, honCommit, -⟩ :=
    step_noFaults cat now user changeStatus mode edx loop r
  constructor
  · intro r' hr'
    rw [step_enrollments]
    by_cases hsame : r' = r
    · exact ⟨_, if_pos hsame, recordedRow_active .., recordedRow_enrollmentMode ..⟩
    · rw [if_neg hsame]
      exact h.recorded r' ((List.mem_append.mp hr').resolve_right (by simpa using hsame))
  · intro r' hr'
    obtain ⟨hold, hsame⟩ := not_or.mp (mt List.mem_append.mpr hr')
    rw [step_enrollments, if_neg (by simpa using hsame), h.untouched r' hold]
  · rw [henrollment, List.getLast?_concat]
  · rw [hdowngraded, h.isEnrollmentDowngraded, List.any_append, List.any_cons, List.any_nil,
      Bool.or_false]
    by_cases hmem : r ∈ runs
    · obtain ⟨e, hrow, -, hmode⟩ := h.recorded r hmem
      rw [hrow, isDowngrade_recorded hmode, Bool.or_false]
      cases hbefore : isDowngrade mode (s.enrollments user r) with
      | false => rw [Bool.or_false]
      | true =>
        rw [Bool.or_true, List.any_eq_true]
        exact ⟨r, hmem, hbefore⟩
    · rw [h.untouched r hmem]
  · rw [honCommit, h.onCommit, List.toFinset_append, List.toFinset_cons, List.toFinset_nil,
      Finset.union_insert, Finset.union_empty]
    by_cases hmem : r ∈ runs
    · obtain ⟨e, hrow, hactive, -⟩ := h.recorded r hmem
      have hnot : isInactive (loop.store.enrollments user r) = false := by
        simp [hrow, isInactive, hactive]
      rw [hnot, Finset.insert_eq_of_mem (List.mem_toFinset.mpr hmem)]
      rfl
    · have hnew : r ∉ runs.toFinset.filter fun r => isInactive (s.enrollments user r) = true := by
        intro hin
        exact hmem (List.mem_toFinset.mp (Finset.mem_filter.mp hin).1)
      rw [h.untouched r hmem, Finset.filter_insert]
      split
      · rw [Finset.card_insert_of_notMem hnew]
      · rfl

variable (cat now user changeStatus mode edx s runs) in
theorem run_loopSoFar : LoopSoFar user mode s runs
    (EnrollmentLoop.run Faults.none cat now user changeStatus mode edx runs s) := by
  induction runs using List.reverseRecOn with
  | nil => exact ⟨by simp, fun _ _ => rfl, rfl, rfl, rfl⟩
  | append_singleton runs r ih =>
    rw [run_concat]
    exact ih.step

variable (cat now user changeStatus mode edx s r runs) in
/-- The emails after the round of a run. -/
theorem run_enrollmentEmails :
    (EnrollmentLoop.run Faults.none cat now user changeStatus mode edx (runs ++ [r]) s).enrollmentEmails =
      if edx = true ∧ ((runs ++ [r]).any fun r => isDowngrade mode (s.enrollments user r)) = false then
        (EnrollmentLoop.run Faults.none cat now user changeStatus mode edx runs s).enrollmentEmails ++ [r]
      else (EnrollmentLoop.run Faults.none cat now user changeStatus mode edx runs s).enrollmentEmails := by
  have hafter := run_loopSoFar cat now user changeStatus mode edx s (runs ++ [r])
  rw [← hafter.isEnrollmentDowngraded, run_concat]
  exact (step_noFaults cat now user changeStatus mode edx _ r).enrollmentEmails

/-- The enrollment of the user in a run was inactive before and is active afterwards. -/
def wasReactivated (user : UserId) (s s' : Store) (r : RunId) : Bool :=
  isInactive (s.enrollments user r) && (s'.enrollments user r).any fun e => e.active

/-- One task for each enrollment that is reactivated and none for others, and every run gets the mode and
the email that it gets in a call with it alone. -/
structure NotifiesEach (cat : Catalog) (now : Instant) (user : UserId) (changeStatus : Option String)
    (mode : EnrollmentMode) (edx : Bool) (s : Store) (runs : List RunId) : Prop where
  tasks : let loop := EnrollmentLoop.run Faults.none cat now user changeStatus mode edx runs s
    ∀ r, loop.courseEmailTasks.count r =
      if r ∈ runs ∧ wasReactivated user s loop.store r = true then 1 else 0
  modes : ∀ r ∈ runs,
    (EnrollmentLoop.run Faults.none cat now user changeStatus mode edx runs s).store.activeMode user r =
      (EnrollmentLoop.run Faults.none cat now user changeStatus mode edx [r] s).store.activeMode user r
  emails : ∀ before r after, runs = before ++ r :: after → r ∉ before →
    (EnrollmentLoop.run Faults.none cat now user changeStatus mode edx (before ++ [r]) s).enrollmentEmails =
      (EnrollmentLoop.run Faults.none cat now user changeStatus mode edx before s).enrollmentEmails ++
        (EnrollmentLoop.run Faults.none cat now user changeStatus mode edx [r] s).enrollmentEmails

theorem courseEmailTasks_of_last {q : RunId} (h : loop.enrollment = some q) :
    loop.courseEmailTasks = List.replicate loop.onCommit q := by
  unfold courseEmailTasks
  rw [h]

/-- Copies of one element, as many as a set has elements, are one copy of each of them exactly if there
is no other element in the set. -/
theorem count_replicate_card_iff {α : Type} [DecidableEq α] {a : α} {chosen : Finset α} :
    (∀ b, (List.replicate chosen.card a).count b = if b ∈ chosen then 1 else 0) ↔
      ∀ b ∈ chosen, b = a := by
  constructor
  · intro hcounts b hb
    have hcount := hcounts b
    rw [if_pos hb] at hcount
    have hmem : b ∈ List.replicate chosen.card a := List.count_pos_iff.mp (by omega)
    exact List.eq_of_mem_replicate hmem
  · intro honly b
    have hsubset : chosen ⊆ {a} := fun b hb => Finset.mem_singleton.mpr (honly b hb)
    rcases Finset.subset_singleton_iff.mp hsubset with rfl | rfl
    · simp
    · rw [Finset.card_singleton, List.count_replicate]
      simp only [Finset.mem_singleton, beq_iff_eq, @eq_comm α a b]

/-- Every task is right exactly if only the enrollment in the last run is reactivated. -/
theorem tasks_iff (h : LoopSoFar user mode s runs loop) :
    (∀ r, loop.courseEmailTasks.count r =
        if r ∈ runs ∧ wasReactivated user s loop.store r = true then 1 else 0) ↔
      ∀ r ∈ runs, isInactive (s.enrollments user r) = true → runs.getLast? = some r := by
  have hreactivated : ∀ r, r ∈ runs ∧ wasReactivated user s loop.store r = true ↔
      r ∈ runs.toFinset.filter fun r => isInactive (s.enrollments user r) = true := by
    intro r
    rw [Finset.mem_filter, List.mem_toFinset]
    refine and_congr_right fun hr => ?_
    obtain ⟨e, hrow, hactive, -⟩ := h.recorded r hr
    simp [wasReactivated, hrow, hactive]
  simp only [hreactivated]
  cases hlast : runs.getLast? with
  | none =>
    obtain rfl := List.getLast?_eq_none_iff.mp hlast
    have hnone : loop.courseEmailTasks = [] := by
      unfold courseEmailTasks
      rw [h.enrollment.trans hlast]
    rw [hnone]
    simp
  | some q =>
    rw [courseEmailTasks_of_last (h.enrollment.trans hlast), h.onCommit, count_replicate_card_iff]
    constructor
    · intro honly r hr hinactive
      rw [honly r (Finset.mem_filter.mpr ⟨List.mem_toFinset.mpr hr, hinactive⟩)]
    · intro honly r hr
      obtain ⟨hmem, hinactive⟩ := Finset.mem_filter.mp hr
      exact (Option.some.inj (honly r (List.mem_toFinset.mp hmem) hinactive)).symm

/-- The email of a run is that of a call with it alone, unless it would get one and a run before it was
downgraded. -/
theorem email_iff {pre : List RunId} :
    ((EnrollmentLoop.run Faults.none cat now user changeStatus mode edx (pre ++ [r]) s).enrollmentEmails =
      (EnrollmentLoop.run Faults.none cat now user changeStatus mode edx pre s).enrollmentEmails ++
        (EnrollmentLoop.run Faults.none cat now user changeStatus mode edx [r] s).enrollmentEmails) ↔
      (edx = true → (∃ q ∈ pre, isDowngrade mode (s.enrollments user q) = true) →
        isDowngrade mode (s.enrollments user r) = true) := by
  have halone := run_enrollmentEmails cat now user changeStatus mode edx s r []
  rw [List.nil_append] at halone
  rw [run_enrollmentEmails, halone, List.any_append, ← List.any_eq_true]
  cases edx with
  | false => simp [EnrollmentLoop.run, start]
  | true =>
    cases hpre : pre.any fun r => isDowngrade mode (s.enrollments user r) <;>
      cases hr : isDowngrade mode (s.enrollments user r) <;> simp [hr, EnrollmentLoop.run, start]

/-- The notifications are right exactly if only the enrollment in the last run is reactivated and, where
edX took the request, a run that comes after one that is downgraded is downgraded as well. -/
theorem notifiesEach_iff (cat : Catalog) (now : Instant) (user : UserId)
    (changeStatus : Option String) (mode : EnrollmentMode) (edx : Bool) (s : Store) (runs : List RunId) :
    NotifiesEach cat now user changeStatus mode edx s runs ↔
      (∀ r ∈ runs, isInactive (s.enrollments user r) = true → runs.getLast? = some r) ∧
      ∀ before r after, runs = before ++ r :: after → r ∉ before → edx = true →
        (∃ q ∈ before, isDowngrade mode (s.enrollments user q) = true) →
        isDowngrade mode (s.enrollments user r) = true := by
  have hloop := run_loopSoFar cat now user changeStatus mode edx s
  have hmode : ∀ runs, ∀ r ∈ runs, (EnrollmentLoop.run Faults.none cat now user changeStatus mode edx runs
      s).store.activeMode user r = some mode := by
    intro runs r hr
    obtain ⟨e, hrow, hactive, hmode⟩ := (hloop runs).recorded r hr
    simp [Store.activeMode, hrow, hactive, hmode]
  constructor
  · rintro ⟨htasks, -, hemails⟩
    refine ⟨(tasks_iff (hloop runs)).mp htasks, fun before r after hruns hnew => ?_⟩
    exact email_iff.mp (hemails before r after hruns hnew)
  · rintro ⟨hlast, hdowngraded⟩
    constructor
    · exact (tasks_iff (hloop runs)).mpr hlast
    · intro r hr
      rw [hmode runs r hr, hmode [r] r (List.mem_singleton_self r)]
    · exact fun before r after hruns hnew => email_iff.mpr (hdowngraded before r after hruns hnew)

/-- A learner whose enrollments in runs 1 and 2 were deactivated. -/
def deactivatedTwice : Store :=
  setEnrollment 9 1 { active := false, changeStatus := none, edxEnrolled := false, enrollmentMode := .audit }
    (setEnrollment 9 2
      { active := false, changeStatus := none, edxEnrolled := false, enrollmentMode := .audit } Store.empty)

/-- Both tasks tell of run 2. -/
theorem not_notifiesEach :
    ¬NotifiesEach (Catalog.ofPrices fun _ => ⟨0⟩) 0 9 none .audit true deactivatedTwice [1, 2] := by
  intro h
  have hlast := (tasks_iff (run_loopSoFar ..)).mp h.tasks 1 (by decide) (by decide)
  exact absurd hlast (by decide)

end MitxOnline

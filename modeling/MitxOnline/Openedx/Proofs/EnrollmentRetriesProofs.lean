import MitxOnline.Lib.Proofs.FoldsProofs
import MitxOnline.Lib.Trace
import MitxOnline.Openedx.EnrollmentRetries
import MitxOnline.Openedx.Proofs.EdxEnrolledProofs

/-!
# Which failures use up retries

Failures of single runs are told apart by the status of edX's answer. Failures of the repair are wrapped
before that, and all of them are taken for permanent.
-/

namespace MitxOnline

variable {settings : EdxSettings} {edxUser : UserAnswers} {answers : RunAnswers} {mode : EnrollmentMode}
  {run : RetryRun} {enrollments : Table RetriedEnrollment} {failure : EdxFailure} {r : RunId} {k : ℕ}

/-! ## Underlying failures -/

/-- A network error, a 5xx answer or a 429 answer. -/
def EdxFailure.isTransient : EdxFailure → Bool
  | .network => true
  | .http (some statusCode) =>
    decide (500 ≤ statusCode) && decide (statusCode < 600) || statusCode == 429
  | _ => false

/-- A 4xx answer other than 429. -/
def EdxFailure.isClientError : EdxFailure → Bool
  | .http (some statusCode) =>
    decide (400 ≤ statusCode) && decide (statusCode < 500) && statusCode != 429
  | _ => false

/-- The repair raises the failure, or passes over it and the user is not in edX because of it. -/
def FailsAtRepair (settings : EdxSettings) (edxUser : UserAnswers) (failure : EdxFailure) : Prop :=
  settings.hasServiceWorkerApiToken = true ∧
    (repairFaultyEdxUser settings edxUser = .error failure ∨
      ∃ createdToken, repairFaultyEdxUser settings edxUser = .ok (none, createdToken) ∧
        openedxUserExists edxUser none = false ∧ edxUser.createEdxUserRequest = .error failure)

/-- The user is there, and looking the enrollment up or creating it fails. -/
def FailsAtEnrollment (settings : EdxSettings) (edxUser : UserAnswers) (mode : EnrollmentMode)
    (answers : RunAnswers) (failure : EdxFailure) : Prop :=
  UserReady settings edxUser ∧ answers.enrollment mode = .error failure

/-- What is expected of a run of the task: transient failures do not count, 4xx answers about the enrollment
count once, and everything that is due is attempted and nothing else is touched. -/
structure CountsPermanentFailures (run : RetryRun) (enrollments : Table RetriedEnrollment) : Prop where
  transient : ∀ k ∈ (retryFailedEdxEnrollments run enrollments).attempted, ∀ failure,
    FailsAtRepair run.settings (run.user k) failure ∨
      FailsAtEnrollment run.settings (run.user k) (enrollments.row k).enrollmentMode (run.answers k)
        failure →
    failure.isTransient = true →
    ((retried enrollments run).row k).edxEnrollmentRetryCount =
      (enrollments.row k).edxEnrollmentRetryCount
  clientError : ∀ k ∈ (retryFailedEdxEnrollments run enrollments).attempted, ∀ failure,
    FailsAtEnrollment run.settings (run.user k) (enrollments.row k).enrollmentMode (run.answers k)
      failure →
    failure.isClientError = true →
    ((retried enrollments run).row k).edxEnrollmentRetryCount =
      (enrollments.row k).edxEnrollmentRetryCount + 1
  belowMax : ∀ k ∈ (retryFailedEdxEnrollments run enrollments).attempted,
    (enrollments.row k).edxEnrollmentRetryCount < openedxEnrollmentRepairMaxRetries
  attempted : (retryFailedEdxEnrollments run enrollments).attempted =
    run.failedRunEnrollments enrollments
  untouched : ∀ k, k ∉ (retryFailedEdxEnrollments run enrollments).attempted →
    (retried enrollments run).row k = enrollments.row k

/-! ## One attempt -/

theorem enrollInEdxCourseRuns_failsAtRepair (h : FailsAtRepair settings edxUser failure)
    (mode : EnrollmentMode) (answers : ℕ → RunAnswers) (runs : List RunId) :
    ∃ cause, enrollInEdxCourseRuns settings edxUser mode answers runs =
      .error (.openEdxUserMissing cause) := by
  obtain ⟨htoken, hraises | ⟨createdToken, hrepair, hmissing, -⟩⟩ := h
  · exact ⟨some failure, by simp [enrollInEdxCourseRuns, htoken, hraises]⟩
  · exact ⟨none, by simp [enrollInEdxCourseRuns, htoken, hrepair, hmissing]⟩

theorem enrollInEdxCourseRuns_failsAtEnrollment (h : FailsAtEnrollment settings edxUser mode answers failure)
    (r : RunId) :
    enrollInEdxCourseRuns settings edxUser mode (fun _ => answers) [r] = .error (.ofRun r failure) := by
  obtain ⟨⟨htoken, ⟨createdUser, createdToken⟩, hrepair, hexists⟩, hfails⟩ := h
  have hexists' : openedxUserExists edxUser createdUser = true := hexists
  simp [enrollInEdxCourseRuns, htoken, hrepair, hexists', enrollEach, hfails]

/-- Failures about a run are told apart by their status. -/
theorem isPermanentEnrollmentFailure_ofRun :
    isPermanentEnrollmentFailure (.ofRun r failure) = failure.isClientError := by
  rcases failure with (_ | statusCode) | _ | _ <;> rfl

theorem not_isClientError (h : failure.isTransient = true) : failure.isClientError = false := by
  rcases failure with (_ | statusCode) | _ | _
  · rfl
  · simp only [EdxFailure.isTransient, Bool.or_eq_true, Bool.and_eq_true, decide_eq_true_eq,
      beq_iff_eq] at h
    simp only [EdxFailure.isClientError, Bool.and_eq_false_iff, decide_eq_false_iff_not,
      bne_eq_false_iff_eq]
    omega
  · rfl
  · rfl

/-! ## The loop -/

/-- What the outcome of an attempt does to its enrollment. -/
def RetriedEnrollment.afterAttempt (e : RetriedEnrollment) :
    Except EnrollException (List EdxEnrollment) → RetriedEnrollment
  | .error exc =>
    if isPermanentEnrollmentFailure exc = false then e
    else { e with edxEnrollmentRetryCount := e.edxEnrollmentRetryCount + 1 }
  | .ok _ => { e with edxEnrolled := true, edxEmailsSubscription := true }

theorem step_row (loop : RetryLoop) (k i : ℕ) :
    (RetryLoop.step run loop k).enrollments.row i =
      if i = k then (loop.enrollments.row k).afterAttempt (run.attempt k (loop.enrollments.row k))
      else loop.enrollments.row i := by
  unfold RetryLoop.step
  dsimp only
  by_cases hi : i = k
  · subst hi
    rw [if_pos rfl]
    rcases run.attempt i (loop.enrollments.row i) with exc | results
    · dsimp only [RetriedEnrollment.afterAttempt]
      split_ifs
      · rfl
      · rw [Table.set_row_self]
    · dsimp only [RetriedEnrollment.afterAttempt]
      rw [Table.set_row_self]
  · rw [if_neg hi]
    rcases run.attempt k (loop.enrollments.row k) with exc | results
    · dsimp only
      split_ifs
      · rfl
      · rw [Table.set_row_of_ne _ _ hi]
    · exact Table.set_row_of_ne _ _ hi

theorem step_attempted (loop : RetryLoop) (k : ℕ) :
    (RetryLoop.step run loop k).attempted = loop.attempted ++ [k] := by
  unfold RetryLoop.step
  dsimp only
  split
  · split_ifs <;> rfl
  · rfl

theorem foldl_attempted (keys : List ℕ) (loop : RetryLoop) :
    (keys.foldl (RetryLoop.step run) loop).attempted = loop.attempted ++ keys := by
  induction keys generalizing loop with
  | nil => simp
  | cons k rest ih => rw [List.foldl_cons, ih, step_attempted, List.append_assoc, List.singleton_append]

theorem retryFailedEdxEnrollments_attempted :
    (retryFailedEdxEnrollments run enrollments).attempted = run.failedRunEnrollments enrollments := by
  unfold retryFailedEdxEnrollments
  rw [foldl_attempted, List.nil_append]

/-- Every enrollment that is due has its attempt, and the others are left alone. -/
theorem retried_row (k : ℕ) : (retried enrollments run).row k =
    if k ∈ run.failedRunEnrollments enrollments then
      (enrollments.row k).afterAttempt (run.attempt k (enrollments.row k))
    else enrollments.row k := by
  have hnodup : (run.failedRunEnrollments enrollments).Nodup := enrollments.keys_nodup.filter _
  exact Folds.foldl_row (fun loop : RetryLoop => loop.enrollments.row)
    (fun k e => e.afterAttempt (run.attempt k e)) step_row hnodup ⟨enrollments, [], []⟩ k

theorem afterAttempt_count (e : RetriedEnrollment) (exc : EnrollException) :
    (e.afterAttempt (.error exc)).edxEnrollmentRetryCount =
      e.edxEnrollmentRetryCount + if isPermanentEnrollmentFailure exc = true then 1 else 0 := by
  dsimp only [RetriedEnrollment.afterAttempt]
  cases isPermanentEnrollmentFailure exc with
  | false => simp
  | true => simp

/-! ## Runs of the task -/

/-- A run of the task counts what it should exactly if no repair of a user fails with a transient failure. -/
theorem countsPermanentFailures_iff : CountsPermanentFailures run enrollments ↔
    ∀ k ∈ run.failedRunEnrollments enrollments, ∀ failure,
      FailsAtRepair run.settings (run.user k) failure → failure.isTransient = false := by
  constructor
  · intro h k hk failure hfails
    rw [Bool.eq_false_iff]
    intro htransient
    rw [← retryFailedEdxEnrollments_attempted] at hk
    have hsame := h.transient k hk failure (Or.inl hfails) htransient
    obtain ⟨cause, hcall⟩ := enrollInEdxCourseRuns_failsAtRepair hfails (enrollments.row k).enrollmentMode
      (fun _ => run.answers k) [(enrollments.row k).run]
    rw [retryFailedEdxEnrollments_attempted] at hk
    rw [retried_row, if_pos hk, RetryRun.attempt, hcall, afterAttempt_count] at hsame
    simp [isPermanentEnrollmentFailure] at hsame
  · intro h
    have hattempted : (retryFailedEdxEnrollments run enrollments).attempted =
        run.failedRunEnrollments enrollments := retryFailedEdxEnrollments_attempted
    constructor
    · intro k hk failure hfails htransient
      rw [hattempted] at hk
      rcases hfails with hrepair | henrollment
      · have hnot := h k hk failure hrepair
        cases htransient.symm.trans hnot
      · rw [retried_row, if_pos hk, RetryRun.attempt,
          enrollInEdxCourseRuns_failsAtEnrollment henrollment, afterAttempt_count,
          isPermanentEnrollmentFailure_ofRun, not_isClientError htransient]
        rfl
    · intro k hk failure hfails hclient
      rw [hattempted] at hk
      rw [retried_row, if_pos hk, RetryRun.attempt, enrollInEdxCourseRuns_failsAtEnrollment hfails,
        afterAttempt_count, isPermanentEnrollmentFailure_ofRun, hclient]
      rfl
    · intro k hk
      rw [hattempted] at hk
      have hselects := (List.mem_filter.mp hk).2
      simp only [RetryRun.selects, Bool.and_eq_true, decide_eq_true_eq] at hselects
      exact hselects.2
    · exact hattempted
    · intro k hk
      rw [hattempted] at hk
      rw [retried_row, if_neg hk]

/-- Over every sequence of runs of the task, the failures count as they should exactly if in no run the
repair of a user whose enrollment is due fails with a transient failure. -/
theorem along_countsPermanentFailures_iff (enrollments : Table RetriedEnrollment) (runs : List RetryRun) :
    Trace.Along retried (fun enrollments run => CountsPermanentFailures run enrollments) enrollments runs ↔
      Trace.Along retried (fun enrollments run =>
        ∀ k ∈ run.failedRunEnrollments enrollments, ∀ failure,
          FailsAtRepair run.settings (run.user k) failure → failure.isTransient = false)
        enrollments runs :=
  Trace.along_iff_of_invariant (fun _ => True) (fun _ _ _ _ => trivial)
    (fun _ _ _ => countsPermanentFailures_iff) trivial

/-- An enrollment that is due, and a user without an account. -/
def dueEnrollment : Table RetriedEnrollment :=
  Table.single 1 ⟨7, 3, true, .audit, false, true, 0, 0⟩

/-- edX does not answer the request for the account. -/
def outage : RetryRun :=
  { now := 600000000
    settings := ⟨true, false⟩
    userIsActive := fun _ => true
    user := fun _ => ⟨true, none, true, false, false, .error .network, false, false, .ok ()⟩
    answers := fun _ => ⟨.error .network, .error .network, .error .network⟩ }

/-- The outage counts. -/
theorem not_along_countsPermanentFailures :
    ¬ ∀ (enrollments : Table RetriedEnrollment) (runs : List RetryRun),
      Trace.Along retried (fun enrollments run => CountsPermanentFailures run enrollments) enrollments
        runs := by
  intro h
  have hcounts := (h dueEnrollment [outage]).1
  have hfails : FailsAtRepair outage.settings (outage.user 1) .network := ⟨rfl, Or.inl rfl⟩
  have hattempted : 1 ∈ (retryFailedEdxEnrollments outage dueEnrollment).attempted := by decide
  have hsame := hcounts.transient 1 hattempted .network (Or.inl hfails) rfl
  revert hsame
  decide

end MitxOnline

import MitxOnline.Openedx.RunEnrollments

/-!
# Retrying failed enrollments (`openedx/api.py`)

A task takes the enrollments that edX does not know, and tries again. A failure that is thought to be
permanent is counted, and an enrollment with too many of them is left out from then on.
-/

namespace MitxOnline

/-- A row of `CourseRunEnrollment` as the task reads and writes it. -/
structure RetriedEnrollment where
  user : UserId
  run : RunId
  active : Bool
  enrollmentMode : EnrollmentMode
  edxEnrolled : Bool
  edxEmailsSubscription : Bool
  edxEnrollmentRetryCount : ℕ
  createdOn : Microseconds
  deriving DecidableEq, Repr

/-- `OPENEDX_REPAIR_GRACE_PERIOD_MINS` -/
def openedxRepairGracePeriod : Microseconds := 5 * 60 * 1000000

/-- `OPENEDX_ENROLLMENT_REPAIR_MAX_RETRIES` -/
def openedxEnrollmentRepairMaxRetries : ℕ := 5

/-- `_is_permanent_enrollment_failure` -/
def isPermanentEnrollmentFailure : EnrollException → Bool
  | .openEdxUserMissing _ => true
  | .edxApiEnrollError _ (some statusCode) =>
    decide (400 ≤ statusCode) && decide (statusCode < 500) && statusCode != 429
  | _ => false

/-- What one run of the task meets. The answers of edX are given for each enrollment. -/
structure RetryRun where
  now : Microseconds
  settings : EdxSettings
  userIsActive : UserId → Bool
  user : ℕ → UserAnswers
  answers : ℕ → RunAnswers

namespace RetryRun

variable (run : RetryRun)

/-- The filters of the query; inactive enrollments are left out by the manager. -/
def selects (e : RetriedEnrollment) : Bool :=
  e.active && run.userIsActive e.user && !e.edxEnrolled &&
    decide (e.createdOn < run.now - openedxRepairGracePeriod) &&
    decide (e.edxEnrollmentRetryCount < openedxEnrollmentRepairMaxRetries)

/-- `failed_run_enrollments`. No order is asked for. -/
def failedRunEnrollments (enrollments : Table RetriedEnrollment) : List ℕ :=
  enrollments.keys.filter fun k => run.selects (enrollments.row k)

/-- The call for one enrollment. -/
def attempt (k : ℕ) (e : RetriedEnrollment) : Except EnrollException (List EdxEnrollment) :=
  enrollInEdxCourseRuns run.settings (run.user k) e.enrollmentMode (fun _ => run.answers k) [e.run]

end RetryRun

/-- The loop of the task. `attempted` records the calls. -/
structure RetryLoop where
  enrollments : Table RetriedEnrollment
  attempted : List ℕ
  succeeded : List ℕ

/-- One round. -/
def RetryLoop.step (run : RetryRun) (loop : RetryLoop) (k : ℕ) : RetryLoop :=
  let enrollment := loop.enrollments.row k
  let attempted := loop.attempted ++ [k]
  match run.attempt k enrollment with
  | .error exc =>
    if isPermanentEnrollmentFailure exc = false then { loop with attempted }
    else
      { loop with
        attempted
        enrollments := loop.enrollments.set k
          { enrollment with edxEnrollmentRetryCount := enrollment.edxEnrollmentRetryCount + 1 } }
  | .ok _ =>
    { attempted
      enrollments :=
        loop.enrollments.set k { enrollment with edxEnrolled := true, edxEmailsSubscription := true }
      succeeded := loop.succeeded ++ [k] }

/-- `retry_failed_edx_enrollments` -/
def retryFailedEdxEnrollments (run : RetryRun) (enrollments : Table RetriedEnrollment) : RetryLoop :=
  (run.failedRunEnrollments enrollments).foldl (RetryLoop.step run) ⟨enrollments, [], []⟩

/-- What a run of the task leaves. -/
def retried (enrollments : Table RetriedEnrollment) (run : RetryRun) : Table RetriedEnrollment :=
  (retryFailedEdxEnrollments run enrollments).enrollments

end MitxOnline

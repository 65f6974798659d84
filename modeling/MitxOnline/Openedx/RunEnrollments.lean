import MitxOnline.Courses.EnrollmentResults

/-!
# Enrolling in edX (`openedx/api.py`)

Before a user is enrolled in course runs, the user is repaired: an account and a token are created where
they are missing. Whatever fails there is wrapped into one exception, and what fails for a run into another
one. The answers of edX are inputs.
-/

namespace MitxOnline

/-- What a call to edX raises. -/
inductive EdxFailure where
  /-- `HTTPError`, with the status of its response if it has one. -/
  | http (statusCode : Option ℕ)
  /-- There is no answer. -/
  | network
  | other
  deriving DecidableEq, Repr

/-- An enrollment as edX reports it. -/
structure EdxEnrollment where
  /-- A mode that this database does not have is `none`. -/
  mode : Option EnrollmentMode
  isActive : Bool
  deriving DecidableEq, Repr

/-- What edX answers when a user is to be enrolled in one run. -/
structure RunAnswers where
  getEnrollments : Except EdxFailure (List EdxEnrollment)
  createStudentEnrollment : Except EdxFailure EdxEnrollment
  /-- The answer to the second request, if there is one. -/
  createStudentEnrollmentAgain : Except EdxFailure EdxEnrollment

/-- What the repair of a user reads and what its calls answer. -/
structure UserAnswers where
  /-- `Application.objects.get` finds the OAuth application. -/
  hasApplication : Bool
  /-- The exception of `reconcile_edx_username`, if it raises one. -/
  reconcileEdxUsername : Option EdxFailure
  hasEdxUsername : Bool
  hasBeenSynced : Bool
  /-- `_edx_user_exists` -/
  edxUserExists : Bool
  /-- `_create_edx_user_request`; it returns `None` where edX's answer is neither 200 nor an error. -/
  createEdxUserRequest : Except EdxFailure (Option Bool)
  /-- Another process has synced the user meanwhile. -/
  syncedMeanwhile : Bool
  hasOpenedxApiAuth : Bool
  /-- `create_edx_auth_token` -/
  createEdxAuthToken : Except EdxFailure Unit

/-- The settings that are read. -/
structure EdxSettings where
  hasServiceWorkerApiToken : Bool
  /-- `FEATURES[IGNORE_EDX_FAILURES]` -/
  ignoreEdxFailures : Bool

/-- What `enroll_in_edx_course_runs` raises. -/
inductive EnrollException where
  | improperlyConfigured
  /-- `OpenEdxUserMissingError`, with the exception it is raised from. -/
  | openEdxUserMissing (cause : Option EdxFailure)
  /-- `EdxApiEnrollErrorException`, with the status of the response of its HTTP error. -/
  | edxApiEnrollError (courseRun : RunId) (statusCode : Option ℕ)
  /-- `UnknownEdxApiEnrollException` -/
  | unknownEdxApiEnroll (courseRun : RunId) (baseExc : EdxFailure)
  deriving DecidableEq, Repr

/-! ## The user -/

/-- `create_edx_user` -/
def createEdxUser (settings : EdxSettings) (user : UserAnswers) : Except EdxFailure (Option Bool) :=
  if user.hasApplication = false then
    if settings.ignoreEdxFailures then .ok (some false) else .error .other
  else
    match user.reconcileEdxUsername with
    | some failure => .error failure
    | none =>
      if user.hasEdxUsername = false then .ok (some false)
      else if user.hasBeenSynced && user.edxUserExists then .ok (some false)
      else
        match user.createEdxUserRequest with
        | .ok created => .ok created
        | .error failure => if settings.ignoreEdxFailures then .ok (some false) else .error failure

/-- `repair_faulty_edx_user` -/
def repairFaultyEdxUser (settings : EdxSettings) (user : UserAnswers) :
    Except EdxFailure (Option Bool × Bool) :=
  match createEdxUser settings user with
  | .error failure => .error failure
  | .ok createdUser =>
    if user.hasOpenedxApiAuth then .ok (createdUser, false)
    else
      match user.createEdxAuthToken with
      | .error failure => .error failure
      | .ok () => .ok (createdUser, true)

/-- `user.openedx_user_exists`, after the repair. -/
def openedxUserExists (user : UserAnswers) (createdUser : Option Bool) : Bool :=
  user.hasBeenSynced || createdUser == some true || user.syncedMeanwhile

/-! ## The runs -/

/-- `existing_edx_enrollment`, of the enrollments that edX reports. -/
def existingEdxEnrollment (mode : EnrollmentMode) (enrollments : List EdxEnrollment) :
    Option EdxEnrollment :=
  enrollments.find? fun e => e.mode == some mode && e.isActive

/-- The body of the loop: an existing enrollment, or a created one, which is created again where edX
answers that it is not active. -/
def RunAnswers.enrollment (mode : EnrollmentMode) (answers : RunAnswers) :
    Except EdxFailure EdxEnrollment :=
  match answers.getEnrollments with
  | .error failure => .error failure
  | .ok enrollments =>
    match existingEdxEnrollment mode enrollments with
    | some e => .ok e
    | none =>
      match answers.createStudentEnrollment with
      | .error failure => .error failure
      | .ok e => if e.isActive then .ok e else answers.createStudentEnrollmentAgain

/-- What a failure is wrapped into. -/
def EnrollException.ofRun (courseRun : RunId) : EdxFailure → EnrollException
  | .http statusCode => .edxApiEnrollError courseRun statusCode
  | failure => .unknownEdxApiEnroll courseRun failure

/-- The loop. The answers are told apart by the round, because a run may be listed twice. -/
def enrollEach (mode : EnrollmentMode) (answers : ℕ → RunAnswers) (round : ℕ) :
    List RunId → Except EnrollException (List EdxEnrollment)
  | [] => .ok []
  | r :: rest =>
    match (answers round).enrollment mode with
    | .error failure => .error (.ofRun r failure)
    | .ok e =>
      match enrollEach mode answers (round + 1) rest with
      | .error exc => .error exc
      | .ok results => .ok (e :: results)

/-- `enroll_in_edx_course_runs` -/
def enrollInEdxCourseRuns (settings : EdxSettings) (user : UserAnswers) (mode : EnrollmentMode)
    (answers : ℕ → RunAnswers) (courseRuns : List RunId) :
    Except EnrollException (List EdxEnrollment) :=
  if settings.hasServiceWorkerApiToken = false then .error .improperlyConfigured
  else
    match repairFaultyEdxUser settings user with
    | .error failure => .error (.openEdxUserMissing (some failure))
    | .ok (createdUser, _) =>
      if openedxUserExists user createdUser = false then .error (.openEdxUserMissing none)
      else enrollEach mode answers 0 courseRuns

/-- What `create_run_enrollments` makes of an exception: it handles all but one of them. -/
def EnrollException.toError : EnrollException → Error
  | .improperlyConfigured => .failure
  | _ => .edxError

/-- A call of `create_run_enrollments` in which nothing fails but what edX answers. -/
def edxFaults (settings : EdxSettings) (user : UserAnswers) (mode : EnrollmentMode)
    (answers : ℕ → RunAnswers) : Faults :=
  Faults.edx fun courseRuns =>
    match enrollInEdxCourseRuns settings user mode answers courseRuns with
    | .ok _ => none
    | .error exc => some exc.toError

end MitxOnline

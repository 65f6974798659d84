import MitxOnline.Ecommerce.Models
import MitxOnline.Lib.Trace

/-!
# Export compliance checks (`compliance/api.py`, `compliance/models.py`)

A check asks CyberSource about a user who wants to enroll and stores the answer. A stored answer is used
again for the same courseware, for a day for any courseware, and for as long as it is a rejection that
no member of staff has approved. The encrypted texts of a log are left out: no check reads them.
-/

namespace MitxOnline

/-- What is checked: a course run or a program, by its content type and primary key. -/
structure CoursewareObject where
  contentType : ContentType
  objectId : ℕ
  deriving DecidableEq, Repr

inductive ExportComplianceDecision where
  | completed
  | invalidRequest
  | declined
  | manuallyApproved
  deriving DecidableEq, Repr

/-- The text of a decision. The column takes any text that CyberSource answers. -/
def ExportComplianceDecision.value : ExportComplianceDecision → String
  | .completed => "COMPLETED"
  | .invalidRequest => "INVALID_REQUEST"
  | .declined => "DECLINED"
  | .manuallyApproved => "MANUALLY_APPROVED"

structure ExportComplianceLog where
  user : UserId
  courseware : CoursewareObject
  decision : String
  reasonCode : String
  requestId : String
  approvedBy : Option UserId
  approvedOn : Option Microseconds
  createdOn : Microseconds
  deriving DecidableEq, Repr

/-- `ACCEPTED_DECISIONS` -/
def acceptedDecisions : List String :=
  [ExportComplianceDecision.completed.value, ExportComplianceDecision.manuallyApproved.value]

def ExportComplianceLog.accepted (row : ExportComplianceLog) : Bool :=
  acceptedDecisions.contains row.decision

/-- `check_manual_approval_fields` -/
def ExportComplianceLog.checkManualApprovalFields (row : ExportComplianceLog) : Except Error Unit :=
  if row.decision = ExportComplianceDecision.manuallyApproved.value ∧
      (row.approvedBy = none ∨ row.approvedOn = none) then
    .error (.validationError
      "approved_by and approved_on are required when decision is MANUALLY_APPROVED.")
  else .ok ()

/-- The texts fit into their columns. -/
def ExportComplianceLog.fits (row : ExportComplianceLog) : Bool :=
  decide (row.decision.length ≤ 30 ∧ row.reasonCode.length ≤ 255 ∧ row.requestId.length ≤ 255)

/-- `objects.create` -/
def createExportComplianceLog (logs : Table ExportComplianceLog) (row : ExportComplianceLog) :
    Except Error (Table ExportComplianceLog) :=
  match row.checkManualApprovalFields with
  | .error e => .error e
  | .ok _ => if row.fits then .ok (logs.create row) else .error .failure

/-! ## The check -/

structure ExportComplianceResult where
  decision : Option String
  reasonCode : Option String
  requestId : Option String
  deriving DecidableEq, Repr

def ExportComplianceResult.accepted (result : ExportComplianceResult) : Bool :=
  result.decision.any acceptedDecisions.contains

/-- What asking CyberSource comes to. -/
inductive Inquiry where
  /-- The client or its request cannot be built (a setting or a field of the address is missing). -/
  | unsent (e : Error)
  /-- The request raises, or its answer cannot be read, encrypted or stored. -/
  | failed (e : Error)
  | answered (result : ExportComplianceResult)
  deriving DecidableEq, Repr

/-- `RECENT_EXPORT_COMPLIANCE_CHECK_WINDOW`: 24 hours. -/
def recentExportComplianceCheckWindow : Microseconds := 24 * 60 * 60 * 1000000

/-- The filter of `get_latest_export_compliance_log`. -/
def ExportComplianceLog.counts (row : ExportComplianceLog) (now : Microseconds) (user : UserId)
    (run : CoursewareObject) : Bool :=
  row.user == user &&
    (row.courseware == run || decide (now - recentExportComplianceCheckWindow ≤ row.createdOn) ||
      !row.accepted)

/-- `order_by("-created_on").first()` -/
def newestLog (logs : Table ExportComplianceLog) : List ℕ → Option ℕ
  | [] => none
  | k :: rest =>
    match newestLog logs rest with
    | none => some k
    | some l => if (logs.row k).createdOn < (logs.row l).createdOn then some l else some k

/-- `get_latest_export_compliance_log` -/
def getLatestExportComplianceLog (logs : Table ExportComplianceLog) (now : Microseconds)
    (user : UserId) (run : CoursewareObject) : Option ℕ :=
  newestLog logs (logs.keys.filter fun k => (logs.row k).counts now user run)

/-- `log_export_compliance_check` -/
def logExportComplianceCheck (logs : Table ExportComplianceLog) (createdOn : Microseconds)
    (user : UserId) (run : CoursewareObject) (result : ExportComplianceResult) :
    Except Error (Table ExportComplianceLog) :=
  createExportComplianceLog logs
    { user := user
      courseware := run
      decision := result.decision.getD ""
      reasonCode := result.reasonCode.getD ""
      requestId := result.requestId.getD ""
      approvedBy := none
      approvedOn := none
      createdOn := createdOn }

/-- What a check leaves: the logs, whether it sent a request, and what it returned or raised. -/
structure ExportCheck where
  logs : Table ExportComplianceLog
  requested : Bool
  outcome : Except Error ExportComplianceResult

/-- The result that a stored log stands for. -/
def ExportComplianceLog.result (row : ExportComplianceLog) : ExportComplianceResult :=
  ⟨some row.decision, some row.reasonCode, some row.requestId⟩

/-- `verify_user_with_exports`. The logs are looked up at `now`; an answer is stored at `createdOn`. -/
def verifyUserWithExports (logs : Table ExportComplianceLog) (now createdOn : Microseconds)
    (user : UserId) (run : CoursewareObject) (inquiry : Inquiry) : ExportCheck :=
  match getLatestExportComplianceLog logs now user run with
  | some k => ⟨logs, false, .ok (logs.row k).result⟩
  | none =>
    match inquiry with
    | .unsent e => ⟨logs, false, .error e⟩
    | .failed e => ⟨logs, true, .error e⟩
    | .answered result =>
      match logExportComplianceCheck logs createdOn user run result with
      | .error e => ⟨logs, true, .error e⟩
      | .ok logs' => ⟨logs', true, .ok result⟩

/-! ## Approvals -/

/-- The log as `mark_manually_approved` changes it. -/
def ExportComplianceLog.approve (row : ExportComplianceLog) (admin : UserId) (now : Microseconds) :
    ExportComplianceLog :=
  { row with
    decision := ExportComplianceDecision.manuallyApproved.value
    approvedBy := some admin
    approvedOn := some now }

/-- `mark_manually_approved` of a stored log. `clean` says whether the fields that it does not set
are valid. -/
def markManuallyApproved (logs : Table ExportComplianceLog) (k : ℕ) (admin : UserId)
    (now : Microseconds) (clean : Bool) : Table ExportComplianceLog :=
  let row := (logs.row k).approve admin now
  if k ∈ logs.keys ∧ clean = true ∧ row.checkManualApprovalFields = .ok () then logs.set k row else logs

/-! ## Histories -/

/-- The logs and the clock. -/
structure ComplianceState where
  logs : Table ExportComplianceLog
  clock : Microseconds

/-- A check or an approval. It begins `pause` after the end of the event before it, and a check takes
until `took` later. -/
inductive ComplianceEvent where
  | verify (pause took : ℕ) (user : UserId) (run : CoursewareObject) (inquiry : Inquiry)
  | approve (pause : ℕ) (k : ℕ) (admin : UserId) (clean : Bool)

/-- The state after one event. -/
def ComplianceState.step (s : ComplianceState) : ComplianceEvent → ComplianceState
  | .verify pause took user run inquiry =>
    let now := s.clock + pause
    ⟨(verifyUserWithExports s.logs now (now + took) user run inquiry).logs, now + took⟩
  | .approve pause k admin clean =>
    let now := s.clock + pause
    ⟨markManuallyApproved s.logs k admin now clean, now⟩

/-- No logs yet. -/
def ComplianceState.start (clock : Microseconds) : ComplianceState :=
  ⟨⟨[], fun _ => ⟨0, ⟨.courseRun, 0⟩, "", "", "", none, none, 0⟩, Table.sorted_nil⟩, clock⟩

/-- A log of the user with a decision that is neither accepted nor approved. -/
def ComplianceState.Rejection (s : ComplianceState) (user : UserId) (k : ℕ) : Prop :=
  k ∈ s.logs.keys ∧ (s.logs.row k).user = user ∧ (s.logs.row k).accepted = false

end MitxOnline

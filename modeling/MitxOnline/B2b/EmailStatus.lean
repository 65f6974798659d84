import MitxOnline.Ecommerce.Models
import MitxOnline.Lib.FixedPoint

/-!
# Delivery status of enrollment-code emails (`b2b/api.py`)

Mailgun reports what became of the email for an assignment by calling a webhook. Calls arrive in any
order and more than once; those that matter carry a time, and the assignment stores the latest.
-/

namespace MitxOnline

open FixedPoint

/-- The columns of `DiscountContractAttachmentRedemption` for an assignment that was sent by email. -/
structure EmailedAssignment where
  emailMessageId : String
  emailStatus : String
  emailStatusEventTimestamp : Option Microseconds
  deriving DecidableEq, Repr

structure MailgunWebhookSignature where
  token : String
  timestamp : String
  signature : String
  deriving DecidableEq, Repr

/-- The event-data block; `messageId` is the header of its message block. -/
structure MailgunWebhookEventData where
  event : String
  tags : List String
  messageId : String
  severity : Option String
  timestamp : ℚ
  deriving DecidableEq, Repr

structure MailgunWebhookPayload where
  signature : MailgunWebhookSignature
  eventData : MailgunWebhookEventData
  deriving DecidableEq, Repr

structure MailgunSettings where
  /-- `MAILGUN_WEBHOOK_SIGNING_SECRET` -/
  signingSecret : String
  /-- `MAILGUN_WEBHOOK_VALIDATE_SIGNATURE` -/
  validateSignature : Bool

/-- `ENROLLMENT_CODE_ASSINGMENT_TAG` -/
def enrollmentCodeAssingmentTag : String := "enrollment-code-assignment"

/-- `EMAIL_STATUS_FAILED` -/
def emailStatusFailed : String := "failed"

/-- `EMAIL_STATUS_FAILED_TEMPORARY_SEVERITY` -/
def emailStatusFailedTemporarySeverity : String := "temporary"

/-- `MAILGUN_EMAIL_EVENT_TYPES` -/
def mailgunEmailEventTypes : List String := ["delivered", "accepted", "opened", "clicked", "failed"]

/-! ## Checks -/

/-- `verify_mailgun_signature`; `hexdigest` is the SHA-256 HMAC of a key and a message. -/
def verifyMailgunSignature (hexdigest : String → String → String) (settings : MailgunSettings)
    (token timestamp signature : String) : Bool :=
  if settings.validateSignature = false then true
  else signature == hexdigest settings.signingSecret (timestamp ++ token)

/-- `is_potentially_valid_mailgun_webhook`; `none` is a payload that is not of the declared form. -/
def isPotentiallyValidMailgunWebhook (settings : MailgunSettings) :
    Option MailgunWebhookPayload → Bool
  | none => false
  | some webhook =>
    if settings.signingSecret = "" ∧ settings.validateSignature = true then false
    else webhook.eventData.tags.contains enrollmentCodeAssingmentTag

/-- The checks of `process_mailgun_webhook_for_enrollment_code_emails` before the assignment is looked
up: the event, if it is one to store. -/
def acceptedEvent (hexdigest : String → String → String) (settings : MailgunSettings)
    (payload : Option MailgunWebhookPayload) : Option MailgunWebhookEventData :=
  match payload with
  | none => none
  | some webhook =>
    if isPotentiallyValidMailgunWebhook settings payload = false then none
    else if verifyMailgunSignature hexdigest settings webhook.signature.token
        webhook.signature.timestamp webhook.signature.signature = false then none
    else if webhook.eventData.event ∉ mailgunEmailEventTypes then none
    else if webhook.eventData.event = emailStatusFailed ∧
        webhook.eventData.severity = some emailStatusFailedTemporarySeverity then none
    else some webhook.eventData

/-! ## Timestamps and the row -/

/-- `datetime.fromtimestamp(…, tz=UTC)`: rounded half to even to microseconds, and in the years 1 to
9999. -/
def fromTimestamp (timestamp : ℚ) : Except Error Microseconds :=
  let microseconds := roundHalfEven (timestamp * 10 ^ 6)
  if -62135596800000000 ≤ microseconds ∧ microseconds < 253402300800000000 then .ok microseconds
  else .error (.valueError "year is out of range")

/-- `objects.get(email_message_id=…)` -/
def getByMessageId (assignments : Table EmailedAssignment) (messageId : String) : Except Error ℕ :=
  match assignments.keys.filter fun k => (assignments.row k).emailMessageId == messageId with
  | [k] => .ok k
  | [] => .error .doesNotExist
  | _ => .error .multipleObjectsReturned

/-- The row with a status and its timestamp. -/
def EmailedAssignment.withStatus (row : EmailedAssignment) (status : String)
    (timestamp : Microseconds) : EmailedAssignment :=
  { row with emailStatus := status, emailStatusEventTimestamp := some timestamp }

/-- The row keeps its status if its event is at least as late. -/
def EmailedAssignment.receive (row : EmailedAssignment) (status : String) (timestamp : Microseconds) :
    EmailedAssignment :=
  if (row.emailStatusEventTimestamp.any fun saved => decide (timestamp ≤ saved)) = true then row
  else row.withStatus status timestamp

/-- `process_mailgun_webhook_for_enrollment_code_emails`: what it leaves, and the assignment it returns
or the exception it raises. -/
def processMailgunWebhook (hexdigest : String → String → String) (settings : MailgunSettings)
    (assignments : Table EmailedAssignment) (payload : Option MailgunWebhookPayload) :
    Table EmailedAssignment × Except Error (Option ℕ) :=
  match acceptedEvent hexdigest settings payload with
  | none => (assignments, .ok none)
  | some event =>
    match fromTimestamp event.timestamp, getByMessageId assignments event.messageId with
    | .error e, _ => (assignments, .error e)
    | .ok _, .error e => (assignments, .error e)
    | .ok timestamp, .ok k =>
      (assignments.set k ((assignments.row k).receive event.event timestamp), .ok (some k))

/-- The webhook calls of a list, one after the other. -/
def processMailgunWebhooks (hexdigest : String → String → String) (settings : MailgunSettings)
    (assignments : Table EmailedAssignment) (deliveries : List (Option MailgunWebhookPayload)) :
    Table EmailedAssignment :=
  deliveries.foldl (fun assignments payload =>
    (processMailgunWebhook hexdigest settings assignments payload).1) assignments

end MitxOnline

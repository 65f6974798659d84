import MitxOnline.B2b.CourseRunGroups
import MitxOnline.B2b.EmailStatus
import MitxOnline.B2b.EnrollmentCodes

/-!
# Assigning enrollment codes (`b2b/views/v0/manager.py`)

A manager assigns the codes of a contract to email addresses, one by one or many at a time, and can revoke
or reassign a code that was not redeemed. An assignment is a record of the code for the contract; when the
code is redeemed, the record gets the user and the time. Nothing keeps a code from having several records.
-/

namespace MitxOnline

open CodeStore

/-- `DiscountContractAttachmentRedemption` -/
structure AttachmentRecord extends EmailedAssignment where
  discount : DiscountId
  contract : ContractId
  user : Option UserId
  assignedEmail : Text
  assignedName : Text
  assignedBy : Option UserId
  redeemedOn : Option Instant
  lastReminderSentOn : Option Instant
  deriving DecidableEq

/-- The columns that count as a redemption of the code. -/
def AttachmentRecord.redemption (r : AttachmentRecord) : DiscountContractAttachmentRedemption :=
  ⟨r.discount, r.contract, r.user⟩

/-- `is_redeemed_attachment_record` -/
def AttachmentRecord.isRedeemed (r : AttachmentRecord) : Bool := r.user.isSome || r.redeemedOn.isSome

/-- The database with the texts of the codes and all columns of the records. -/
structure ManagerDb where
  codes : CodeStore
  /-- `discount_code`, which is not unique. -/
  discountCode : DiscountId → Text
  records : Table AttachmentRecord
  contractRedemptions : codes.store.contractRedemptions =
    records.keys.map fun k => (records.row k).redemption

/-- The data of `AssignRevokeCodeRequestSerializer`. -/
structure AssignRequest where
  email : Text
  name : Text
  deriving DecidableEq

/-- An entry of the errors that `bulk_assign` returns. -/
structure AssignError where
  email : Text
  name : Text
  detail : String
  deriving DecidableEq

/-- What a view answers: the discounts that are serialized with the errors, or a detail. -/
inductive ManagerReply where
  | codes (assigned : List DiscountId) (errors : List AssignError)
  | detail (status : ℕ) (text : String)
  | raised (e : Error)
  deriving DecidableEq

namespace ManagerDb

/-! ## Queries and writes -/

/-- `contract.get_discounts().filter(discount_code=code).first()` -/
def findCode (cat : Catalog) (c : ContractId) (code : Text) (db : ManagerDb) : Option DiscountId :=
  (getDiscounts cat c db.codes).find? fun d => db.discountCode d == code

/-- `discount.contract_redemptions.first()`, of whichever contract. -/
def assignmentRecord (db : ManagerDb) (d : DiscountId) : Option ℕ :=
  db.records.first fun _ r => r.discount == d

/-- The database with other records. -/
def setRecords (db : ManagerDb) (records : Table AttachmentRecord) : ManagerDb where
  codes := { db.codes with
    store := { db.codes.store with
      contractRedemptions := records.keys.map fun k => (records.row k).redemption } }
  discountCode := db.discountCode
  records := records
  contractRedemptions := rfl

/-- The database with another code text for a discount. -/
def setCode (db : ManagerDb) (d : DiscountId) (code : Text) : ManagerDb :=
  { db with discountCode := Function.update db.discountCode d code }

/-- `_create_discount_with_product`, for a code without an amount. -/
def createCode (db : ManagerDb) (p : ProductId) (code : Text) : ManagerDb where
  codes := createDiscountWithProduct p ⟨0⟩ .oneTime db.codes
  discountCode := Function.update db.discountCode db.codes.discounts.nextKey code
  records := db.records
  contractRedemptions := db.contractRedemptions

end ManagerDb

/-- `Discount.check_date_validity` -/
def Discount.checkDateValidity (d : Discount) (now : Instant) : Except Error Unit :=
  match d.expirationDate with
  | none => .ok ()
  | some expiration =>
    if expiration < now then
      .error (.validationError ("Expiration date " ++ toString expiration ++ " must be in the future."))
    else
      match d.activationDate with
      | none => .ok ()
      | some activation =>
        if expiration < activation then
          .error (.validationError ("Expiration date " ++ toString expiration ++
            " must be after the activation date " ++ toString activation ++ "."))
        else .ok ()

/-- `Discount.save`, with a new code. -/
def saveCode (now : Instant) (d : DiscountId) (code : Text) (db : ManagerDb) : Except Error ManagerDb :=
  match (db.codes.discounts.row d).checkDateValidity now with
  | .error e => .error e
  | .ok () => .ok (db.setCode d code)

/-- The address fits into its column, an `EmailField`. The serializer lets longer ones pass. -/
def fitsEmailColumn (email : Text) : Bool := decide (email.length ≤ 254)

/-! ## `revoke_code` and `reassign_code` -/

/-- `revoke_code`; `uuid` is the code that `uuid4` makes. -/
def revokeCode (cat : Catalog) (now : Instant) (uuid : Text) (c : ContractId) (code : Text)
    (db : ManagerDb) : ManagerDb × ManagerReply :=
  match db.findCode cat c code with
  | none => (db, .detail 404 "Code not found for this contract.")
  | some d =>
    match db.assignmentRecord d with
    | none => (db, .detail 404 "No assignment exists for this code.")
    | some k =>
      if (db.records.row k).isRedeemed = true then
        (db, .detail 409 "Cannot revoke a code that has already been redeemed.")
      else
        let db := db.setRecords (db.records.erase k)
        match saveCode now d uuid db with
        | .error e => (db, .raised e)
        | .ok db => (db, .codes [d] [])

/-- The record after it was given to another address. -/
def AttachmentRecord.reassigned (r : AttachmentRecord) (manager : UserId) (request : AssignRequest) :
    AttachmentRecord where
  emailMessageId := ""
  emailStatus := "pending"
  emailStatusEventTimestamp := none
  discount := r.discount
  contract := r.contract
  user := r.user
  assignedEmail := request.email
  assignedName := request.name
  assignedBy := some manager
  redeemedOn := r.redeemedOn
  lastReminderSentOn := none

/-- `reassign_code`; `none` is a request that the serializer does not accept. -/
def reassignCode (cat : Catalog) (now : Instant) (uuid : Text) (manager : UserId) (c : ContractId)
    (code : Text) (request : Option AssignRequest) (db : ManagerDb) : ManagerDb × ManagerReply :=
  match request with
  | none => (db, .detail 400 "Invalid request data.")
  | some request =>
    match db.findCode cat c code with
    | none => (db, .detail 404 "Code not found for this contract.")
    | some d =>
      match db.assignmentRecord d with
      | none => (db, .detail 404 "No assignment exists for this code.")
      | some k =>
        if (db.records.row k).isRedeemed = true then
          (db, .detail 409 "Cannot reassign a code that has already been redeemed.")
        else
          match saveCode now d uuid db with
          | .error e => (db, .raised e)
          | .ok db =>
            if fitsEmailColumn request.email = true then
              (db.setRecords (db.records.set k ((db.records.row k).reassigned manager request)),
                .codes [d] [])
            else (db, .raised .failure)

/-! ## `bulk_assign` -/

/-- The first record of each address; `seen` are the addresses so far. -/
def firstRecords (lower : Text → Text) (seen : List Text) : List AssignRequest → List AssignRequest
  | [] => []
  | record :: rest =>
    if lower record.email ∈ seen then firstRecords lower seen rest
    else record :: firstRecords lower (seen ++ [lower record.email]) rest

/-- The addresses in a record that are not empty. -/
def AttachmentRecord.addresses (r : AttachmentRecord) (userEmail : UserId → Text) : List Text :=
  (r.assignedEmail :: (r.user.map userEmail).toList).filter (· ≠ [])

/-- The addresses that have or had a code of the contract. -/
def takenEmails (lower : Text → Text) (userEmail : UserId → Text) (c : ContractId) (db : ManagerDb) :
    List Text :=
  (db.records.keys.filter fun k => (db.records.row k).contract == c).flatMap fun k =>
    ((db.records.row k).addresses userEmail).map lower

/-- The rows of `contract.get_discounts().filter(contract_redemptions__isnull=True).order_by("id")`: a code
comes once for each of its products. -/
def unassignedRows (cat : Catalog) (c : ContractId) (db : ManagerDb) : List DiscountId :=
  (getDiscounts cat c db.codes).filter fun d => (db.assignmentRecord d).isNone

/-- The loop of `_create_discount_codes_for_contract`; `uuid` gives the code of the discount that is created
under a key. -/
def createCodes (uuid : DiscountId → Text) (p : ProductId) : ℕ → ManagerDb → ManagerDb × List DiscountId
  | 0, db => (db, [])
  | n + 1, db =>
    let d := db.codes.discounts.nextKey
    let (db, newDiscounts) := createCodes uuid p n (db.createCode p (uuid d))
    (db, d :: newDiscounts)

/-- `_create_discount_codes_for_contract` -/
def createDiscountCodesForContract (cat : Catalog) (uuid : DiscountId → Text) (c : ContractId) (count : ℕ)
    (db : ManagerDb) : ManagerDb × List DiscountId :=
  match (contractProducts cat c).min? with
  | none => (db, [])
  | some p => createCodes uuid p count db

/-- The record of a new assignment. -/
def newAssignment (manager : UserId) (c : ContractId) (request : AssignRequest) (d : DiscountId) :
    AttachmentRecord where
  emailMessageId := ""
  emailStatus := "pending"
  emailStatusEventTimestamp := none
  discount := d
  contract := c
  user := none
  assignedEmail := request.email
  assignedName := request.name
  assignedBy := some manager
  redeemedOn := none
  lastReminderSentOn := none

/-- `assign_codes_and_send_emails`; `none` says that `bulk_create` failed. -/
def assignCodesAndSendEmails (manager : UserId) (c : ContractId)
    (assignments : List (AssignRequest × DiscountId)) (db : ManagerDb) : Option ManagerDb :=
  if assignments = [] then some db
  else if (assignments.all fun a => fitsEmailColumn a.1.email) = true then
    some (db.setRecords (db.records.createAll (assignments.map fun a => newAssignment manager c a.1 a.2)))
  else none

/-- The contract gets more codes when they run out. -/
def provisionsCodes (cat : Catalog) (c : ContractId) : Bool :=
  !contractMembershipAutos.contains (cat.contract c).membershipType && (cat.contract c).learnerCap == 0

/-- The codes for `count` addresses, with the database after codes were created for it. -/
def availableDiscounts (cat : Catalog) (uuid : DiscountId → Text) (c : ContractId) (count : ℕ)
    (db : ManagerDb) : ManagerDb × List DiscountId :=
  let available := (unassignedRows cat c db).take count
  if provisionsCodes cat c = true ∧ available.length < count then
    let (db, newDiscounts) := createDiscountCodesForContract cat uuid c (count - available.length) db
    (db, available ++ newDiscounts)
  else (db, available)

/-- `bulk_assign`; `none` is a payload that the serializer does not accept. -/
def bulkAssign (cat : Catalog) (lower : Text → Text) (userEmail : UserId → Text)
    (uuid : DiscountId → Text) (manager : UserId) (c : ContractId) (payload : Option (List AssignRequest))
    (db : ManagerDb) : ManagerDb × ManagerReply :=
  match payload with
  | none => (db, .detail 400 "Invalid request data.")
  | some payload =>
    let isTaken (record : AssignRequest) := (takenEmails lower userEmail c db).contains (lower record.email)
    let records := firstRecords lower [] payload
    let taken := (records.filter isTaken).map fun record =>
      ⟨record.email, record.name, "Email has already been assigned or has redeemed a code."⟩
    let emailAssignees := records.filter fun record => !isTaken record
    let (db, available) := availableDiscounts cat uuid c emailAssignees.length db
    let left := (emailAssignees.drop available.length).map fun record =>
      ⟨record.email, record.name, "No available code."⟩
    let assignments := emailAssignees.zip available
    match assignCodesAndSendEmails manager c assignments db with
    | none => (db, .detail 500 "Error assigning codes.")
    | some db => (db, .codes (assignments.map (·.2)) (taken ++ left))

end MitxOnline

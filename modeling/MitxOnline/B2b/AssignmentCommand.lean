import MitxOnline.B2b.CodeAssignments
import MitxOnline.Lib.Autocommit

/-!
# Assigning codes from the command line (`b2b/management/commands/b2b_codes.py`)

`b2b_codes assign` hands out the unused codes of seat-limited contracts to the rows of a file, or takes
their assignments back. Addresses are compared as they are written.
-/

namespace MitxOnline

open Autocommit CodeStore

/-- The name fits into its column. -/
def fitsNameColumn (name : Text) : Bool := decide (name.length ≤ 255)

namespace ManagerDb

/-! ## Queries -/

/-- `ContractPage.get_assignments` -/
def assignments (c : ContractId) (db : ManagerDb) : List ℕ :=
  db.records.keys.filter fun k => (db.records.row k).contract == c &&
    (db.records.row k).user.isNone && (db.records.row k).assignedEmail != []

/-- `already_assigned`: the address of a record comes once for each row of its code that the query joins,
whatever contract the record is for. -/
def alreadyAssigned (cat : Catalog) (c : ContractId) (emails : List Text) (db : ManagerDb) : List Text :=
  (getDiscounts cat c db.codes).flatMap fun d =>
    (db.records.keys.filter fun k => (db.records.row k).discount == d &&
      emails.contains (db.records.row k).assignedEmail).map fun k => (db.records.row k).assignedEmail

/-- `unused_codes` -/
def unusedCodes (cat : Catalog) (c : ContractId) (db : ManagerDb) : List DiscountId :=
  (getUnusedDiscounts cat c db.codes).filter fun d =>
    !((db.assignments c).map fun k => (db.records.row k).discount).contains d

/-- The records of the contract that are revoked. -/
def revocatables (c : ContractId) (emails : List Text) (db : ManagerDb) : List ℕ :=
  db.records.keys.filter fun k => (db.records.row k).contract == c &&
    (db.records.row k).user.isNone && emails.contains (db.records.row k).assignedEmail

end ManagerDb

/-! ## Assigning -/

/-- `unused_codes.pop()` for one row after the other; `none` is an `IndexError`. -/
def popCodes : List AssignRequest → List DiscountId → Option (List (AssignRequest × DiscountId))
  | [], _ => some []
  | a :: rest, unused =>
    match unused.getLast? with
    | none => none
    | some d => (popCodes rest unused.dropLast).map ((a, d) :: ·)

/-- The record of a new assignment. -/
def commandAssignment (c : ContractId) (a : AssignRequest × DiscountId) : AttachmentRecord where
  emailMessageId := ""
  emailStatus := ""
  emailStatusEventTimestamp := none
  discount := a.2
  contract := c
  user := none
  assignedEmail := a.1.email
  assignedName := a.1.name
  assignedBy := none
  redeemedOn := none
  lastReminderSentOn := none

/-- `bulk_create` of the new assignments. -/
def createAssignments (c : ContractId) (assignments : List (AssignRequest × DiscountId))
    (db : ManagerDb) : Except Error ManagerDb :=
  if (assignments.all fun a => fitsEmailColumn a.1.email && fitsNameColumn a.1.name) = true then
    .ok (db.setRecords (db.records.createAll (assignments.map (commandAssignment c))))
  else .error .failure

/-- The rows whose addresses have no code of the contract yet. -/
def newAssignees (cat : Catalog) (c : ContractId) (assignees : List AssignRequest) (db : ManagerDb) :
    List AssignRequest :=
  assignees.filter fun a =>
    !(db.alreadyAssigned cat c (assignees.map (·.email))).contains a.email

/-- What `handle_assign` does for one contract. -/
def assignContract (cat : Catalog) (rows : RowOrder) (commit : Bool) (assignees : List AssignRequest)
    (c : ContractId) : Action ManagerDb Error := fun db =>
  if contractMembershipAutos.contains (cat.contract c).membershipType = true then ⟨db, none⟩
  else
    match (cat.contract c).maxLearners with
    -- `None == ""` is false, and `None < 1` is no comparison.
    | none => ⟨db, some (.typeError "'<' not supported between instances of 'NoneType' and 'int'")⟩
    | some maxLearners =>
      if maxLearners < 1 then ⟨db, none⟩
      else if maxLearners < assignees.length then ⟨db, none⟩
      else
        let alreadyAssigned := db.alreadyAssigned cat c (assignees.map (·.email))
        let unusedCodes := db.unusedCodes cat c
        if (unusedCodes.length : ℤ) < assignees.length - alreadyAssigned.length then ⟨db, none⟩
        else
          match popCodes (newAssignees cat c assignees db) (rows.discounts unusedCodes) with
          | none => ⟨db, some .failure⟩
          | some codeAssignments =>
            if commit = true then statement (createAssignments c codeAssignments) db else ⟨db, none⟩

/-! ## Revoking -/

/-- The record without its address and its name. -/
def AttachmentRecord.cleared (r : AttachmentRecord) : AttachmentRecord :=
  { r with assignedEmail := [], assignedName := [] }

/-- `revocatable.save()` -/
def saveCleared (db : ManagerDb) (k : ℕ) : ManagerDb :=
  db.setRecords (db.records.set k (db.records.row k).cleared)

/-- The revocation of `handle_assign`. -/
def revokeAssignments (commit : Bool) (contracts : List ContractId) (emails : List Text) :
    Action ManagerDb Error := fun db =>
  -- The discount gets its new code in memory only: it is not saved.
  if commit = true then ⟨(contracts.flatMap fun c => db.revocatables c emails).foldl saveCleared db, none⟩
  else ⟨db, none⟩

/-- `handle_assign`, with the rows of the file or the one that the options give. -/
def handleAssign (cat : Catalog) (rows : RowOrder) (commit revoke : Bool) (contracts : List ContractId)
    (assignees : List AssignRequest) : Action ManagerDb Error :=
  if assignees.length = 0 then skip
  else if revoke = true then revokeAssignments commit contracts (assignees.map (·.email))
  else seq (contracts.map (assignContract cat rows commit assignees))

end MitxOnline

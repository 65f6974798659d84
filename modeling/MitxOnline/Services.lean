import MitxOnline.Ecommerce.Models
import MitxOnline.Lib.Autocommit

/-!
# Statements that can fail

A request runs against a database and against services, and either can fail at any statement. Which
statements of a request fail, and how, is an input of the model.
-/

namespace MitxOnline

open Autocommit

/-- The statements that can fail. A statement that a request executes several times has the row or
rows it is about in its name. -/
inductive Point where
  /-- `enroll_in_edx_course_runs` -/
  | edxEnroll (runs : List RunId)
  | enrollment (r : RunId)
  | enrollmentLog (r : RunId)
  | enrollmentUpdate (r : RunId)
  | enrollmentMode (r : RunId)
  | programEnrollment (p : ProgramId)
  | programEnrollmentUpdate (p : ProgramId)
  | paidCourseRun (r : RunId)
  | paidProgram (p : ProgramId)
  | userOrganization (o : OrgId)
  | userOrganizationUpdate (o : OrgId)
  /-- `organization.attach_user`, which calls Keycloak. -/
  | attachUser (o : OrgId)
  | userContracts (o : OrgId)
  /-- Adding a user to a contract, by `add_user_contracts` or otherwise. -/
  | autoContract (c : ContractId)
  | contractUser (c : ContractId)
  | contractRedemption (c : ContractId)
  | orgMembershipCache
  | transaction
  /-- Sending the receipt or the refund email. -/
  | email
  | orderSave
  | syncHubspotDeal
  | basketDelete
  deriving DecidableEq, Repr

/-- Which statements of a request fail, and with which exception. -/
abbrev Faults := Point → Option Error

/-- A request in which nothing fails. -/
def Faults.none : Faults := fun _ => Option.none

/-- A request in which nothing fails but what edX answers when it enrolls a user in runs. -/
def Faults.edx (answer : List RunId → Option Error) : Faults
  | .edxEnroll runs => answer runs
  | _ => Option.none

/-- Code of a request. -/
abbrev Code := Action Store Error

/-- Code that is not reached when its first statement fails. -/
def fallible (f : Faults) (point : Point) (a : Code) : Code := fun s =>
  match f point with
  | .none => a s
  | some e => ⟨s, some e⟩

/-- Code that can only fail. -/
def mayFail (f : Faults) (point : Point) : Code := fallible f point skip

/-- A statement that always succeeds. -/
def update (g : Store → Store) : Code := fun s => ⟨g s, none⟩

end MitxOnline

import MitxOnline.Courses.Enrollments

/-!
# How learners come to contracts

Requests of any users, in any order: a code is redeemed, a login brings a list of organizations, a
user is added to an organization, removed from one or enrolled in runs.
-/

namespace MitxOnline

open Autocommit

inductive MembershipEvent where
  | redeem (user : UserId) (code : DiscountId)
  | reconcile (user : UserId) (organizations : List ℕ)
  | addMembership (user : UserId) (o : OrgId) (keepUntilSeen : Bool)
  | removeMembership (user : UserId) (o : OrgId)
  | enroll (user : UserId) (runs : List RunId) (changeStatus : Option String)
      (keepFailedEnrollments : Bool) (mode : EnrollmentMode)

/-- A request, the instant it is handled and the statements that fail. -/
structure MembershipRequest where
  event : MembershipEvent
  now : Instant
  faults : Faults

/-- Handle a request. -/
def MembershipRequest.handle (cat : Catalog) (q : MembershipRequest) : Code :=
  match q.event with
  | .redeem user code => attachContract q.faults cat q.now user code
  | .reconcile user organizations => reconcileUserOrgs q.faults cat q.now user organizations
  | .addMembership user o keepUntilSeen =>
    processAddOrgMembership q.faults cat q.now user o keepUntilSeen
  | .removeMembership user o => processRemoveOrgMembership q.faults cat q.now user o
  | .enroll user runs changeStatus keepFailedEnrollments mode =>
    createRunEnrollments q.faults cat q.now user runs changeStatus keepFailedEnrollments mode

/-- What changes the organizations of users: a login brings the payload of the identity provider, and
a membership is added that is to be kept until it is seen in a payload. -/
inductive LoginEvent where
  | reconcile (now : Instant) (user : UserId) (organizations : List ℕ)
  | addKept (now : Instant) (user : UserId) (o : OrgId)
  deriving DecidableEq, Repr

/-- The database after an event in which nothing fails. -/
def loginStep (cat : Catalog) (s : Store) : LoginEvent → Store
  | .reconcile now user organizations =>
    (reconcileUserOrgs Faults.none cat now user organizations s).state
  | .addKept now user o => (processAddOrgMembership Faults.none cat now user o true s).state

/-- The database, and the events that were handled, the last one first. -/
structure Logins where
  store : Store
  events : List LoginEvent

/-- Handle an event. -/
def Logins.step (cat : Catalog) (l : Logins) (e : LoginEvent) : Logins :=
  ⟨loginStep cat l.store e, e :: l.events⟩

/-- A payload has contained the organization since the user was last added to be kept in it. -/
def seenSince (cat : Catalog) (user : UserId) (o : OrgId) : List LoginEvent → Bool
  | [] => false
  | .reconcile _ user' organizations :: events =>
    (user' == user && (cat.organization o).ssoOrganizationId.any fun sso =>
      organizations.contains sso) || seenSince cat user o events
  | .addKept _ user' o' :: events =>
    !(user' == user && o' == o) && seenSince cat user o events

end MitxOnline

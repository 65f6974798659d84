import MitxOnline.Services

/-!
# Contracts and organizations (`b2b/models.py`, `b2b/api.py`)

How a user comes to belong to a contract: through the organizations of a login, through a code,
through an organization that is joined on the way. The number of learners of a contract is limited by
`max_learners`; `ContractPage.is_full` looks at it.
-/

namespace MitxOnline

open Autocommit

/-- `CONTRACT_MEMBERSHIP_AUTOS` -/
def contractMembershipAutos : List MembershipType := [.auto, .managed]

/-- `ContractPage.is_full` -/
def isFull (cat : Catalog) (s : Store) (c : ContractId) : Bool :=
  match (cat.contract c).maxLearners with
  | none => false
  | some maxLearners =>
    if maxLearners = 0 then false else decide (maxLearners ≤ (s.contractUsers c).card)

/-- The filter of `ActiveContractManager`, the default manager of contracts: it is behind
`active_objects`, and behind `organization.contracts` and `user.b2b_contracts` as well. -/
def ContractPage.isActiveObject (c : ContractPage) (now : Instant) : Bool :=
  c.active && !(c.contractStart.any fun start => decide (dateOf now < start)) &&
    !(c.contractEnd.any fun contractEnd => decide (contractEnd < dateOf now))

/-- `organization.contracts` -/
def organizationContracts (cat : Catalog) (now : Instant) (o : OrgId) : List ContractId :=
  cat.contractIds.filter fun c =>
    (cat.contract c).organization == o && (cat.contract c).isActiveObject now

/-- The contract is among `user.b2b_contracts`: the user is attached to it, and it is active. -/
def inUserContracts (cat : Catalog) (s : Store) (now : Instant) (user : UserId) (c : ContractId) :
    Bool :=
  decide (user ∈ s.contractUsers c) && (cat.contract c).isActiveObject now

/-- `user.b2b_contracts.add` -/
def addContract (user : UserId) (c : ContractId) (s : Store) : Store :=
  { s with contractUsers := fun c' =>
      if c' = c then insert user (s.contractUsers c') else s.contractUsers c' }

/-- The contracts of an organization whose members are managed. -/
def autoContracts (cat : Catalog) (now : Instant) (o : OrgId) : List ContractId :=
  (organizationContracts cat now o).filter fun c =>
    contractMembershipAutos.contains (cat.contract c).membershipType

/-- `OrganizationPage.add_user_contracts`; the manager has asked for `active` already. -/
def addUserContracts (f : Faults) (cat : Catalog) (now : Instant) (o : OrgId) (user : UserId) :
    Code :=
  seq (((autoContracts cat now o).filter fun c => (cat.contract c).active).map fun c =>
    fallible f (.autoContract c) (update (addContract user c)))

/-- `OrganizationPage.remove_user_contracts` -/
def removeUserContracts (f : Faults) (cat : Catalog) (now : Instant) (o : OrgId) (user : UserId) :
    Code :=
  fallible f (.userContracts o) <| update fun s =>
    { s with contractUsers := fun c =>
        if c ∈ autoContracts cat now o then (s.contractUsers c).erase user else s.contractUsers c }

/-- Write a `UserOrganization` row, or delete it. -/
def setUserOrganization (user : UserId) (o : OrgId) (row : Option Bool) (s : Store) : Store :=
  { s with userOrganizations := fun user' o' =>
      if user' = user ∧ o' = o then row else s.userOrganizations user' o' }

/-- `OrganizationPage.attach_user`: errors of the connection are logged, others raised. -/
def attachUser (f : Faults) (cat : Catalog) (o : OrgId) : Code :=
  match (cat.organization o).ssoOrganizationId with
  | none => skip
  | some _ =>
    match f (.attachUser o) with
    | some .connectionError => skip
    | some e => raise e
    | none => skip

/-- `process_add_org_membership` -/
def processAddOrgMembership (f : Faults) (cat : Catalog) (now : Instant) (user : UserId) (o : OrgId)
    (keepUntilSeen : Bool) : Code := fun s =>
  match s.userOrganizations user o with
  | some _ => mayFail f (.userOrganization o) s
  | none => seq
      [ fallible f (.userOrganization o) (update (setUserOrganization user o (some false))),
        fallible f (.userOrganizationUpdate o)
          (update (setUserOrganization user o (some keepUntilSeen))),
        attachUser f cat o,
        addUserContracts f cat now o user ] s

/-- `process_remove_org_membership` -/
def processRemoveOrgMembership (f : Faults) (cat : Catalog) (now : Instant) (user : UserId)
    (o : OrgId) : Code :=
  seq
    [ removeUserContracts f cat now o user,
      fallible f (.userOrganization o) <| statement fun s =>
        match s.userOrganizations user o with
        | some _ => .ok (setUserOrganization user o none s)
        | none => .error .doesNotExist ]

/-! ## Reconciling the organizations of a user at login -/

/-- The organizations to add: those of the payload that the user is not in. -/
def orgsToAdd (cat : Catalog) (s : Store) (user : UserId) (organizations : List ℕ) : List OrgId :=
  cat.orgIds.filter fun o =>
    ((cat.organization o).ssoOrganizationId.any fun sso => organizations.contains sso) &&
      (s.userOrganizations user o).isNone

/-- The organizations to remove: those the user is in that are not in the payload, unless they are
kept until seen. -/
def orgsToRemove (cat : Catalog) (s : Store) (user : UserId) (organizations : List ℕ) : List OrgId :=
  cat.orgIds.filter fun o =>
    ((cat.organization o).ssoOrganizationId.any fun sso => !organizations.contains sso) &&
      s.userOrganizations user o == some false

/-- The cached membership that is expected in the payload is the payload. -/
def cacheMatches (s : Store) (user : UserId) (organizations : List ℕ) : Bool :=
  match s.orgMembershipCache user with
  | none => false
  | some [] => false
  | some cached => ((cached.filter (·.2)).map (·.1)).isPerm (organizations.map some)

/-- The entries that `reconcile_user_orgs` caches. -/
def membershipEntries (cat : Catalog) (s : Store) (user : UserId) : List (Option ℕ × Bool) :=
  cat.orgIds.filterMap fun o => (s.userOrganizations user o).map fun keepUntilSeen =>
    ((cat.organization o).ssoOrganizationId, !keepUntilSeen)

/-- Clear the `keep_until_seen` flags of the organizations that were seen. -/
def clearFlags (cat : Catalog) (user : UserId) (organizations : List ℕ) (s : Store) : Store :=
  { s with userOrganizations := fun user' o =>
      if user' = user ∧ s.userOrganizations user' o = some true ∧
          ((cat.organization o).ssoOrganizationId.any fun sso => organizations.contains sso) = true
      then some false else s.userOrganizations user' o }

/-- `reconcile_user_orgs` -/
def reconcileUserOrgs (f : Faults) (cat : Catalog) (now : Instant) (user : UserId)
    (organizations : List ℕ) : Code :=
  fun s =>
    if cacheMatches s user organizations = true then ⟨s, none⟩
    else seq
      [ seq ((orgsToAdd cat s user organizations).map fun o => seq
          [ fallible f (.userOrganization o) (update (setUserOrganization user o (some false))),
            addUserContracts f cat now o user ]),
        seq ((orgsToRemove cat s user organizations).map fun o => seq
          [ removeUserContracts f cat now o user,
            fallible f (.userOrganization o) (update (setUserOrganization user o none)) ]),
        fallible f .orgMembershipCache fun t =>
          ⟨{ clearFlags cat user organizations t with
              orgMembershipCache := fun user' =>
                if user' = user then some (membershipEntries cat t user)
                else t.orgMembershipCache user' }, none⟩ ] s

/-! ## Redeeming a code for a contract -/

/-- The contracts of the course runs that a discount is for (`Discount.b2b_contracts`). -/
def b2bContracts (cat : Catalog) (d : DiscountId) : List ContractId :=
  cat.contractIds.filter fun c => (cat.discount d).products.any fun product =>
    product.any fun p => (cat.product p).contentType == .courseRun &&
      (cat.courseRun (cat.product p).objectId).b2bContract == some c

/-- The number of redemptions of a code for contracts (`actual_redemptions`). -/
def Store.actualRedemptions (s : Store) (d : DiscountId) : ℕ :=
  s.contractRedemptions.countP fun r => r.discount == d && r.user.isSome

/-- The filters of `_get_valid_discount`. -/
def isValidCode (cat : Catalog) (s : Store) (now : Instant) (d : DiscountId) : Bool :=
  ((cat.discount d).activationDate.all fun activation => decide (activation ≤ now)) &&
    ((cat.discount d).expirationDate.all fun expiration => decide (now ≤ expiration)) &&
    ((cat.discount d).redemptionType == .unlimited || decide (s.actualRedemptions d < 1))

/-- The contracts of the code that are active and have begun. -/
def contractsForCode (cat : Catalog) (now : Instant) (d : DiscountId) : List ContractId :=
  (b2bContracts cat d).filter fun c => (cat.contract c).active &&
    !((cat.contract c).contractStart.any fun start => decide (dateOf now ≤ start)) &&
    !((cat.contract c).contractEnd.any fun contractEnd => decide (contractEnd < dateOf now))

/-- `_get_eligible_contracts` -/
def eligibleContracts (cat : Catalog) (s : Store) (now : Instant) (user : UserId)
    (contracts : List ContractId) : List ContractId :=
  cat.contractIds.filter fun c => (cat.contract c).isActiveObject now && contracts.contains c &&
    !inUserContracts cat s now user c

/-- A row of the code and the contract that nobody has redeemed. -/
def DiscountContractAttachmentRedemption.isOpen (d : DiscountId) (c : ContractId)
    (r : DiscountContractAttachmentRedemption) : Bool :=
  r.discount == d && r.contract == c && r.user.isNone

/-- Give the unredeemed rows of the code and the contract to a user. -/
def redeemOpen (d : DiscountId) (c : ContractId) (user : UserId)
    (rows : List DiscountContractAttachmentRedemption) : List DiscountContractAttachmentRedemption :=
  rows.map fun r => if r.isOpen d c = true then { r with user := some user } else r

/-- `update_or_create` of the redemption: the unredeemed row of the code and the contract is given to
the user, or a new row is created. Several such rows make it raise. -/
def redeem (d : DiscountId) (c : ContractId) (user : UserId) (s : Store) : Except Error Store :=
  match s.contractRedemptions.countP (·.isOpen d c) with
  | 0 => .ok { s with contractRedemptions := s.contractRedemptions ++ [⟨d, c, some user⟩] }
  | 1 => .ok { s with contractRedemptions := redeemOpen d c user s.contractRedemptions }
  | _ => .error .multipleObjectsReturned

/-- One round of the loop of `_attach_user_to_contracts`. -/
def attachUserToContract (f : Faults) (cat : Catalog) (now : Instant) (user : UserId)
    (code : DiscountId) (c : ContractId) : Code := fun s =>
  if isFull cat s c = true then ⟨s, none⟩
  else seq
    [ processAddOrgMembership f cat now user (cat.contract c).organization true,
      fallible f (.contractUser c) (update (addContract user c)),
      fallible f (.contractRedemption c) (statement (redeem code c user)) ] s

/-- `AttachContractApi`: a code that is not valid attaches nobody. -/
def attachContract (f : Faults) (cat : Catalog) (now : Instant) (user : UserId) (code : DiscountId) :
    Code := fun s =>
  if isValidCode cat s now code = true then
    seq ((eligibleContracts cat s now user (contractsForCode cat now code)).map
      (attachUserToContract f cat now user code)) s
  else ⟨s, none⟩

end MitxOnline

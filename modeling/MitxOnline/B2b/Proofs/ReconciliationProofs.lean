import MitxOnline.B2b.Memberships
import MitxOnline.B2b.Proofs.ContractsProofs
import MitxOnline.Lib.Trace

/-!
# Reconciling organizations over several logins

A login reconciles the organizations of the user with its payload, unless the cached memberships that
are expected in a payload are the payload. The cache is filled before the flags of the organizations
that were seen are cleared, so it can still hold as not expected what has been seen since.
-/

namespace MitxOnline

open Autocommit

variable {cat : Catalog} {s s' t : Store} {user : UserId} {o : OrgId} {organizations : List ℕ}
  {sso : ℕ} {now : Instant}

/-- Memberships and their cache are as they were. -/
def OrgsKept (s s' : Store) : Prop :=
  s'.userOrganizations = s.userOrganizations ∧ s'.orgMembershipCache = s.orgMembershipCache

theorem orgsKept_frame : IsFrame OrgsKept := by
  constructor
  · intro s
    exact ⟨rfl, rfl⟩
  · intro s t u h h'
    exact ⟨h'.1.trans h.1, h'.2.trans h.2⟩

theorem addUserContracts_orgsKept : Keeps OrgsKept (addUserContracts Faults.none cat now o user) :=
  keeps_addUserContracts orgsKept_frame fun _ _ _ => ⟨rfl, rfl⟩

theorem addUserContracts_error (s : Store) :
    (addUserContracts Faults.none cat now o user s).error = none := by
  refine seq_error ?_ s
  intro a ha t
  obtain ⟨c, -, rfl⟩ := List.mem_map.mp ha
  rfl

/-! ## Code that writes one membership -/

/-- The code returns and writes one membership of the user, besides contracts. -/
def WritesMembership (user : UserId) (o : OrgId) (row : Option Bool) (a : Code) : Prop :=
  ∀ s, (a s).error = none ∧ OrgsKept (setUserOrganization user o row s) (a s).state

/-- A loop over organizations writes their memberships and no other. -/
theorem seq_writesMemberships (orgs : List OrgId) {row : Option Bool} {act : OrgId → Code}
    (h : ∀ o ∈ orgs, WritesMembership user o row (act o)) (s : Store) :
    (seq (orgs.map act) s).error = none ∧
      (∀ user' o, (seq (orgs.map act) s).state.userOrganizations user' o =
        if user' = user ∧ o ∈ orgs then row else s.userOrganizations user' o) ∧
      (seq (orgs.map act) s).state.orgMembershipCache = s.orgMembershipCache := by
  induction orgs generalizing s with
  | nil => exact ⟨rfl, fun _ _ => by simp, rfl⟩
  | cons p rest ih =>
    obtain ⟨herror, hrows, hcache⟩ := h p List.mem_cons_self s
    obtain ⟨ierror, irows, icache⟩ := ih (fun o ho => h o (List.mem_cons_of_mem p ho)) (act p s).state
    rw [List.map_cons, seq_cons, andThen_of_ok herror]
    refine ⟨ierror, ?_, icache.trans hcache⟩
    intro user' o
    rw [irows, hrows]
    by_cases huser : user' = user
    · by_cases ho : o = p <;> simp [setUserOrganization, huser, ho]
    · simp [setUserOrganization, huser]

theorem addOrg_writes (cat : Catalog) (now : Instant) (user : UserId) (o : OrgId) :
    WritesMembership user o (some false) (seq
    [ fallible Faults.none (.userOrganization o) (update (setUserOrganization user o (some false))),
      addUserContracts Faults.none cat now o user ]) := by
  intro s
  have herror : (addUserContracts Faults.none cat now o user
      (setUserOrganization user o (some false) s)).error = none := addUserContracts_error _
  have hkept : OrgsKept (setUserOrganization user o (some false) s)
      (addUserContracts Faults.none cat now o user (setUserOrganization user o (some false) s)).state :=
    addUserContracts_orgsKept _
  have hwrite : (fallible Faults.none (.userOrganization o)
      (update (setUserOrganization user o (some false))) s).error = none := rfl
  rw [seq_cons, andThen_of_ok hwrite, seq_cons]
  have herror' : (addUserContracts Faults.none cat now o user (fallible Faults.none (.userOrganization o)
      (update (setUserOrganization user o (some false))) s).state).error = none := herror
  rw [andThen_of_ok herror']
  exact ⟨rfl, hkept⟩

theorem removeOrg_writes (cat : Catalog) (now : Instant) (user : UserId) (o : OrgId) :
    WritesMembership user o none (seq
    [ removeUserContracts Faults.none cat now o user,
      fallible Faults.none (.userOrganization o) (update (setUserOrganization user o none)) ]) := by
  intro s
  exact ⟨rfl, rfl, rfl⟩

/-- Adding a membership that is kept until seen changes nothing where there is one. -/
theorem addKept_of_member (h : s.userOrganizations user o ≠ none) :
    loginStep cat s (.addKept now user o) = s := by
  obtain ⟨row, hrow⟩ := Option.ne_none_iff_exists'.mp h
  show (processAddOrgMembership Faults.none cat now user o true s).state = s
  simp only [processAddOrgMembership, hrow, mayFail_state]

theorem addKept_of_not_member (cat : Catalog) (now : Instant) (h : s.userOrganizations user o = none) :
    OrgsKept (setUserOrganization user o (some true) s) (loginStep cat s (.addKept now user o)) := by
  have hattach : attachUser Faults.none cat o = skip := by
    unfold attachUser
    split <;> rfl
  -- The row is created without the flag, which is set next.
  have hrows : setUserOrganization user o (some true) (setUserOrganization user o (some false) s) =
      setUserOrganization user o (some true) s := by
    unfold setUserOrganization
    congr 1
    funext user' o'
    by_cases h : user' = user ∧ o' = o <;> simp [h]
  show OrgsKept _ (processAddOrgMembership Faults.none cat now user o true s).state
  simp only [processAddOrgMembership, h]
  rw [hattach, ← hrows]
  exact keeps_seq_cons orgsKept_frame addUserContracts_orgsKept (keeps_seq_nil orgsKept_frame)
    (setUserOrganization user o (some true) (setUserOrganization user o (some false) s))

/-! ## The full reconciliation -/

/-- `reconcile_user_orgs` after the look at the cache. -/
def fullReconciliation (f : Faults) (cat : Catalog) (now : Instant) (user : UserId)
    (organizations : List ℕ) : Code :=
  fun s => seq
    [ seq ((orgsToAdd cat s user organizations).map fun o => seq
        [ fallible f (.userOrganization o) (update (setUserOrganization user o (some false))),
          addUserContracts f cat now o user ]),
      seq ((orgsToRemove cat s user organizations).map fun o => seq
        [ removeUserContracts f cat now o user,
          fallible f (.userOrganization o) (update (setUserOrganization user o none)) ]),
      fallible f .orgMembershipCache fun t =>
        ⟨{ clearFlags cat user organizations t with
            orgMembershipCache := fun user' =>
              if user' = user then some (membershipEntries cat t user)
              else t.orgMembershipCache user' }, none⟩ ] s

theorem reconcile_of_hit (h : cacheMatches s user organizations = true) :
    loginStep cat s (.reconcile now user organizations) = s := by
  show (reconcileUserOrgs Faults.none cat now user organizations s).state = s
  unfold reconcileUserOrgs
  rw [if_pos h]

theorem reconcile_of_miss (h : cacheMatches s user organizations = false) :
    loginStep cat s (.reconcile now user organizations) =
      (fullReconciliation Faults.none cat now user organizations s).state := by
  show (reconcileUserOrgs Faults.none cat now user organizations s).state = _
  unfold reconcileUserOrgs
  rw [if_neg (by simp [h])]
  rfl

/-- The membership of the user after the organizations were added and removed. -/
def updatedRow (cat : Catalog) (s : Store) (user : UserId) (organizations : List ℕ) (o : OrgId) :
    Option Bool :=
  if o ∈ orgsToRemove cat s user organizations then none
  else if o ∈ orgsToAdd cat s user organizations then some false
  else s.userOrganizations user o

/-- The database before the flags are cleared and the memberships are cached. -/
theorem fullReconciliation_state (cat : Catalog) (now : Instant) (s : Store) (user : UserId)
    (organizations : List ℕ) : ∃ t : Store,
    (∀ o, t.userOrganizations user o = updatedRow cat s user organizations o) ∧
    (∀ user' o, user' ≠ user → t.userOrganizations user' o = s.userOrganizations user' o) ∧
    t.orgMembershipCache = s.orgMembershipCache ∧
    (fullReconciliation Faults.none cat now user organizations s).state =
      { clearFlags cat user organizations t with
        orgMembershipCache := fun user' =>
          if user' = user then some (membershipEntries cat t user)
          else t.orgMembershipCache user' } := by
  have hadd := seq_writesMemberships (orgsToAdd cat s user organizations)
    (fun o _ => addOrg_writes cat now user o) s
  obtain ⟨aerror, arows, acache⟩ := hadd
  have hremove := seq_writesMemberships (orgsToRemove cat s user organizations)
    (fun o _ => removeOrg_writes cat now user o)
    (seq ((orgsToAdd cat s user organizations).map fun o => seq
      [ fallible Faults.none (.userOrganization o)
          (update (setUserOrganization user o (some false))),
        addUserContracts Faults.none cat now o user ]) s).state
  obtain ⟨rerror, rrows, rcache⟩ := hremove
  refine ⟨_, ?_, ?_, rcache.trans acache, ?_⟩
  · intro o
    rw [rrows, arows]
    unfold updatedRow
    by_cases hr : o ∈ orgsToRemove cat s user organizations <;> simp [hr]
  · intro user' o huser
    rw [rrows, arows]
    simp [huser]
  · unfold fullReconciliation
    rw [seq_cons, andThen_of_ok aerror, seq_cons, andThen_of_ok rerror]
    rfl

/-! ## What a login leaves -/

theorem mem_orgsToAdd : o ∈ orgsToAdd cat s user organizations ↔ o ∈ cat.orgIds ∧
    (∃ sso, (cat.organization o).ssoOrganizationId = some sso ∧ sso ∈ organizations) ∧
      s.userOrganizations user o = none := by
  simp [orgsToAdd, Option.any_eq_true]

theorem mem_orgsToRemove : o ∈ orgsToRemove cat s user organizations ↔ o ∈ cat.orgIds ∧
    (∃ sso, (cat.organization o).ssoOrganizationId = some sso ∧ sso ∉ organizations) ∧
      s.userOrganizations user o = some false := by
  simp [orgsToRemove, Option.any_eq_true]

/-- An organization that the identity provider manages. -/
def IsManaged (cat : Catalog) (o : OrgId) (sso : ℕ) : Prop :=
  o ∈ cat.orgIds ∧ (cat.organization o).ssoOrganizationId = some sso

/-- The user is in a managed organization of the payload, unflagged or still flagged, and in no other
but where the flag is set. -/
theorem updatedRow_of_managed (hmanaged : IsManaged cat o sso) :
    updatedRow cat s user organizations o =
      if s.userOrganizations user o = some true then some true
      else if sso ∈ organizations then some false else none := by
  obtain ⟨ho, hsso⟩ := hmanaged
  unfold updatedRow
  rw [if_congr mem_orgsToRemove rfl rfl, if_congr mem_orgsToAdd rfl rfl]
  by_cases hmem : sso ∈ organizations
  · cases hrow : s.userOrganizations user o with
    | none => simp [ho, hsso, hmem]
    | some flag => cases flag <;> simp [hsso, hmem]
  · cases hrow : s.userOrganizations user o with
    | none => simp [hsso, hmem]
    | some flag => cases flag <;> simp [ho, hsso, hmem]

/-- What a full reconciliation leaves of the memberships and the cache of the user. -/
structure Reconciled (cat : Catalog) (user : UserId) (organizations : List ℕ) (s s' : Store) :
    Prop where
  seen : ∀ o sso, IsManaged cat o sso → sso ∈ organizations →
    s'.userOrganizations user o = some false
  unseen : ∀ o sso, IsManaged cat o sso → sso ∉ organizations →
    s'.userOrganizations user o = if s.userOrganizations user o = some true then some true else none
  others : ∀ user' o, user' ≠ user → s'.userOrganizations user' o = s.userOrganizations user' o
  othersCache : ∀ user', user' ≠ user → s'.orgMembershipCache user' = s.orgMembershipCache user'
  cached : ∃ entries, s'.orgMembershipCache user = some entries ∧
    (∀ sso, (some sso, true) ∈ entries → sso ∈ organizations) ∧
    ∀ o sso, IsManaged cat o sso → s'.userOrganizations user o ≠ none →
      ∃ expected, (some sso, expected) ∈ entries

theorem mem_membershipEntries {entry : Option ℕ × Bool} :
    entry ∈ membershipEntries cat t user ↔ ∃ o ∈ cat.orgIds, ∃ keepUntilSeen,
      t.userOrganizations user o = some keepUntilSeen ∧
        ((cat.organization o).ssoOrganizationId, !keepUntilSeen) = entry := by
  simp [membershipEntries, Option.map_eq_some_iff]

theorem clearFlags_of_managed (t : Store) (user : UserId) (organizations : List ℕ)
    (hmanaged : IsManaged cat o sso) :
    (clearFlags cat user organizations t).userOrganizations user o =
      if t.userOrganizations user o = some true ∧ sso ∈ organizations then some false
      else t.userOrganizations user o := by
  simp [clearFlags, hmanaged.2]

theorem fullReconciliation_reconciled (cat : Catalog) (now : Instant) (s : Store) (user : UserId)
    (organizations : List ℕ) : Reconciled cat user organizations s
      (fullReconciliation Faults.none cat now user organizations s).state := by
  obtain ⟨t, hrows, hothers, hcache, heq⟩ := fullReconciliation_state cat now s user organizations
  rw [heq]
  have hrow : ∀ o sso, IsManaged cat o sso → t.userOrganizations user o =
      if s.userOrganizations user o = some true then some true
      else if sso ∈ organizations then some false else none :=
    fun o sso h => (hrows o).trans (updatedRow_of_managed h)
  constructor
  · intro o sso hmanaged hmem
    have hclear := clearFlags_of_managed t user organizations hmanaged
    rw [hrow o sso hmanaged] at hclear
    refine hclear.trans ?_
    by_cases hflag : s.userOrganizations user o = some true <;> simp [hflag, hmem]
  · intro o sso hmanaged hmem
    have hclear := clearFlags_of_managed t user organizations hmanaged
    rw [hrow o sso hmanaged] at hclear
    refine hclear.trans ?_
    simp [hmem]
  · intro user' o huser
    rw [← hothers user' o huser]
    simp [clearFlags, huser]
  · intro user' huser
    simp [huser, hcache]
  · refine ⟨membershipEntries cat t user, by simp, ?_, ?_⟩
    · intro sso hentry
      obtain ⟨o, ho, flag, hflag, hpair⟩ := mem_membershipEntries.mp hentry
      obtain ⟨hsso, hnot⟩ := Prod.mk.inj hpair
      have hfalse : flag = false := by simpa using hnot
      have hthis := hrow o sso ⟨ho, hsso⟩
      by_contra hmem
      rw [hflag, hfalse] at hthis
      by_cases hset : s.userOrganizations user o = some true <;> simp [hset, hmem] at hthis
    · intro o sso hmanaged hmember
      have hmember' : t.userOrganizations user o ≠ none := by
        intro hnone
        apply hmember
        show (clearFlags cat user organizations t).userOrganizations user o = none
        rw [clearFlags_of_managed t user organizations hmanaged, hnone]
        simp
      obtain ⟨flag, hflag⟩ := Option.ne_none_iff_exists'.mp hmember'
      exact ⟨!flag, mem_membershipEntries.mpr ⟨o, hmanaged.1, flag, hflag, by rw [hmanaged.2]⟩⟩

/-! ## The cache -/

/-- Where memberships are cached, those that are expected in a payload are memberships without the
flag, and every membership without the flag is among the cached ones. It is so when nothing is
cached. -/
def CacheAgrees (cat : Catalog) (s : Store) : Prop :=
  ∀ user entries, s.orgMembershipCache user = some entries → ∀ o sso, IsManaged cat o sso →
    ((some sso, true) ∈ entries → s.userOrganizations user o = some false) ∧
      (s.userOrganizations user o = some false → ∃ expected, (some sso, expected) ∈ entries)

theorem cacheMatches_mem (h : cacheMatches s user organizations = true) :
    ∃ entries, s.orgMembershipCache user = some entries ∧
      ∀ sso, sso ∈ organizations ↔ (some sso, true) ∈ entries := by
  unfold cacheMatches at h
  cases hcache : s.orgMembershipCache user with
  | none => simp [hcache] at h
  | some entries =>
    refine ⟨entries, rfl, ?_⟩
    cases entries with
    | nil => simp [hcache] at h
    | cons first rest =>
      rw [hcache] at h
      have hperm := List.isPerm_iff.mp h
      intro sso
      have hmem := hperm.mem_iff (a := some sso)
      simpa using hmem.symm

theorem cacheAgrees_addKept (h : CacheAgrees cat s) :
    CacheAgrees cat (loginStep cat s (.addKept now user o)) := by
  by_cases hrow : s.userOrganizations user o = none
  · obtain ⟨hrows, hcache⟩ := addKept_of_not_member cat now hrow
    intro user' entries hentries o' sso hmanaged
    rw [hcache] at hentries
    rw [hrows]
    obtain ⟨hexpected, hlisted⟩ := h user' entries hentries o' sso hmanaged
    by_cases hsame : user' = user ∧ o' = o
    · -- The new membership has the flag, and the cache does not expect it.
      obtain ⟨rfl, rfl⟩ := hsame
      refine ⟨fun hentry => ?_, fun hnew => ?_⟩
      · rw [hexpected hentry] at hrow
        cases hrow
      · simp [setUserOrganization] at hnew
    · have hold : (setUserOrganization user o (some true) s).userOrganizations user' o' =
          s.userOrganizations user' o' := by
        simp [setUserOrganization, hsame]
      rw [hold]
      exact ⟨hexpected, hlisted⟩
  · rw [addKept_of_member hrow]
    exact h

theorem cacheAgrees_of_reconciled (h : CacheAgrees cat s)
    (hrec : Reconciled cat user organizations s s') : CacheAgrees cat s' := by
  intro user' entries hentries o sso hmanaged
  by_cases huser : user' = user
  · subst huser
    obtain ⟨entries', hcached, hexpected, hlisted⟩ := hrec.cached
    rw [hcached] at hentries
    obtain rfl := Option.some.inj hentries
    refine ⟨fun hentry => hrec.seen o sso hmanaged (hexpected sso hentry), fun hmember => ?_⟩
    exact hlisted o sso hmanaged (by simp [hmember])
  · rw [hrec.othersCache user' huser] at hentries
    rw [hrec.others user' o huser]
    exact h user' entries hentries o sso hmanaged

theorem cacheAgrees_step (e : LoginEvent) (h : CacheAgrees cat s) :
    CacheAgrees cat (loginStep cat s e) := by
  cases e with
  | addKept now user o => exact cacheAgrees_addKept h
  | reconcile now user organizations =>
    cases hcache : cacheMatches s user organizations with
    | true =>
      rw [reconcile_of_hit hcache]
      exact h
    | false =>
      rw [reconcile_of_miss hcache]
      exact cacheAgrees_of_reconciled h (fullReconciliation_reconciled cat now s user organizations)

/-! ## Runs -/

variable {l : Logins}

/-- What holds of the database and the history: the cache agrees with the memberships, and no payload
has contained an organization since its flag was set. -/
structure LoginsInv (cat : Catalog) (l : Logins) : Prop where
  cache : CacheAgrees cat l.store
  unseen : ∀ user o sso, IsManaged cat o sso → l.store.userOrganizations user o = some true →
    seenSince cat user o l.events = false

/-- Contracts and memberships in managed organizations are as they were. -/
structure NothingReconciled (cat : Catalog) (s s' : Store) : Prop where
  contracts : s'.contractUsers = s.contractUsers
  members : ∀ user o sso, IsManaged cat o sso →
    s'.userOrganizations user o = s.userOrganizations user o

/-- After a login the user is in the managed organizations of the payload and in those that are still
kept because no payload has contained them, and where the cache was trusted the full reconciliation
would have changed nothing. -/
structure Converges (cat : Catalog) (l : Logins) (now : Instant) (user : UserId)
    (organizations : List ℕ) : Prop where
  members : ∀ o sso, IsManaged cat o sso →
    (((l.step cat (.reconcile now user organizations)).store.userOrganizations user o).isSome = true ↔
      sso ∈ organizations ∨
        (l.step cat (.reconcile now user organizations)).store.userOrganizations user o = some true)
  unseen : ∀ o sso, IsManaged cat o sso →
    (l.step cat (.reconcile now user organizations)).store.userOrganizations user o = some true →
      seenSince cat user o (l.step cat (.reconcile now user organizations)).events = false
  shortcut : cacheMatches l.store user organizations = true → NothingReconciled cat l.store
    (fullReconciliation Faults.none cat now user organizations l.store).state

/-- What is required of an event: a login converges. -/
def EventConverges (cat : Catalog) (l : Logins) : LoginEvent → Prop
  | .reconcile now user organizations => Converges cat l now user organizations
  | .addKept _ _ _ => True

/-- The login does not trust a cache that holds as not expected an organization which has lost its
flag and is not in the payload. -/
def HidesNoRemoval (cat : Catalog) (l : Logins) : LoginEvent → Prop
  | .reconcile _ user organizations => cacheMatches l.store user organizations = true →
    ∀ entries, l.store.orgMembershipCache user = some entries → ∀ o sso, IsManaged cat o sso →
      (some sso, false) ∈ entries → l.store.userOrganizations user o = some false →
        sso ∈ organizations
  | .addKept _ _ _ => True

theorem seenSince_reconcile (hmanaged : IsManaged cat o sso) (now : Instant) (user' : UserId)
    (events : List LoginEvent) :
    seenSince cat user o (.reconcile now user' organizations :: events) = false ↔
      ¬(user' = user ∧ sso ∈ organizations) ∧ seenSince cat user o events = false := by
  rw [seenSince, Bool.or_eq_false_iff]
  refine and_congr_left' ?_
  simp [hmanaged.2]

/-- Where the cache is trusted, the user is in every organization of the payload, without the flag. -/
theorem row_of_hit (hs : CacheAgrees cat s) (hcache : cacheMatches s user organizations = true)
    (hmanaged : IsManaged cat o sso) (hmem : sso ∈ organizations) :
    s.userOrganizations user o = some false := by
  obtain ⟨entries, hentries, hexpected⟩ := cacheMatches_mem hcache
  exact (hs user entries hentries o sso hmanaged).1 ((hexpected sso).mp hmem)

/-- Another membership's flag is not set by adding one. -/
theorem flag_of_addKept {user' : UserId} {o' : OrgId} (hne : ¬(user' = user ∧ o' = o))
    (hflag : (loginStep cat s (.addKept now user' o')).userOrganizations user o = some true) :
    s.userOrganizations user o = some true := by
  by_cases hrow : s.userOrganizations user' o' = none
  · obtain ⟨hrows, -⟩ := addKept_of_not_member cat now hrow
    rw [hrows] at hflag
    have hne' : ¬(user = user' ∧ o = o') := by
      rintro ⟨rfl, rfl⟩
      exact hne ⟨rfl, rfl⟩
    simpa [setUserOrganization, hne'] using hflag
  · have hsame : loginStep cat s (.addKept now user' o') = s := addKept_of_member hrow
    rwa [hsame] at hflag

/-- A flag that is set after a login was set before, and the payload does not contain its
organization. -/
theorem flag_of_reconcile {user' : UserId} (hs : CacheAgrees cat s) (hmanaged : IsManaged cat o sso)
    (hflag : (loginStep cat s (.reconcile now user' organizations)).userOrganizations user o =
      some true) :
    ¬(user' = user ∧ sso ∈ organizations) ∧ s.userOrganizations user o = some true := by
  cases hcache : cacheMatches s user' organizations with
  | true =>
    rw [reconcile_of_hit hcache] at hflag
    refine ⟨?_, hflag⟩
    rintro ⟨rfl, hmem⟩
    rw [row_of_hit hs hcache hmanaged hmem] at hflag
    cases hflag
  | false =>
    rw [reconcile_of_miss hcache] at hflag
    have hrec := fullReconciliation_reconciled cat now s user' organizations
    by_cases huser : user = user'
    · subst huser
      by_cases hmem : sso ∈ organizations
      · rw [hrec.seen o sso hmanaged hmem] at hflag
        cases hflag
      · rw [hrec.unseen o sso hmanaged hmem] at hflag
        have hold : s.userOrganizations user o = some true := by
          by_contra hne
          rw [if_neg hne] at hflag
          cases hflag
        exact ⟨fun h => hmem h.2, hold⟩
    · rw [hrec.others user o huser] at hflag
      exact ⟨fun h => huser h.1.symm, hflag⟩

/-- No flag is set that a payload should have cleared. -/
theorem unseen_step (e : LoginEvent) (hl : LoginsInv cat l) :
    ∀ user o sso, IsManaged cat o sso →
      (l.step cat e).store.userOrganizations user o = some true →
        seenSince cat user o (l.step cat e).events = false := by
  intro user o sso hmanaged hflag
  cases e with
  | addKept now user' o' =>
    show (!(user' == user && o' == o) && seenSince cat user o l.events) = false
    by_cases hsame : user' = user ∧ o' = o
    · simp [hsame]
    · have hold : l.store.userOrganizations user o = some true := flag_of_addKept hsame hflag
      rw [hl.unseen user o sso hmanaged hold]
      simp
  | reconcile now user' organizations =>
    obtain ⟨hnot, hold⟩ := flag_of_reconcile hl.cache hmanaged hflag
    exact (seenSince_reconcile hmanaged now user' l.events).mpr
      ⟨hnot, hl.unseen user o sso hmanaged hold⟩

theorem loginsInv_step (e : LoginEvent) (hl : LoginsInv cat l) : LoginsInv cat (l.step cat e) :=
  ⟨cacheAgrees_step e hl.cache, unseen_step e hl⟩

/-- Where there is nothing to add and nothing to remove and no flag to clear, reconciling changes
nothing. -/
theorem nothingReconciled_of_rows
    (hseen : ∀ o sso, IsManaged cat o sso → sso ∈ organizations →
      s.userOrganizations user o = some false)
    (hunseen : ∀ o sso, IsManaged cat o sso → s.userOrganizations user o = some false →
      sso ∈ organizations) :
    NothingReconciled cat s (fullReconciliation Faults.none cat now user organizations s).state := by
  have hrec := fullReconciliation_reconciled cat now s user organizations
  have hadd : orgsToAdd cat s user organizations = [] := by
    refine List.eq_nil_iff_forall_not_mem.mpr fun o ho => ?_
    obtain ⟨hid, ⟨sso, hsso, hmem⟩, hnone⟩ := mem_orgsToAdd.mp ho
    rw [hseen o sso ⟨hid, hsso⟩ hmem] at hnone
    cases hnone
  have hremove : orgsToRemove cat s user organizations = [] := by
    refine List.eq_nil_iff_forall_not_mem.mpr fun o ho => ?_
    obtain ⟨hid, ⟨sso, hsso, hmem⟩, hrow⟩ := mem_orgsToRemove.mp ho
    exact hmem (hunseen o sso ⟨hid, hsso⟩ hrow)
  constructor
  · unfold fullReconciliation
    rw [hadd, hremove]
    rfl
  · intro user' o sso hmanaged
    by_cases huser : user' = user
    · subst huser
      by_cases hmem : sso ∈ organizations
      · rw [hrec.seen o sso hmanaged hmem, hseen o sso hmanaged hmem]
      · rw [hrec.unseen o sso hmanaged hmem]
        cases hrow : s.userOrganizations user' o with
        | none => simp
        | some flag =>
          cases flag with
          | true => simp
          | false => exact absurd (hunseen o sso hmanaged hrow) hmem
    · exact hrec.others user' o huser

/-- The full reconciliation always converges. -/
theorem converges_of_miss (hl : LoginsInv cat l)
    (hcache : cacheMatches l.store user organizations = false) :
    Converges cat l now user organizations := by
  have hstore : (l.step cat (.reconcile now user organizations)).store =
      (fullReconciliation Faults.none cat now user organizations l.store).state := reconcile_of_miss hcache
  have hrec := fullReconciliation_reconciled cat now l.store user organizations
  refine ⟨fun o sso hmanaged => ?_, unseen_step (.reconcile now user organizations) hl user,
    fun hhit => ?_⟩
  · rw [hstore]
    by_cases hmem : sso ∈ organizations
    · simp [hrec.seen o sso hmanaged hmem, hmem]
    · rw [hrec.unseen o sso hmanaged hmem]
      by_cases hflag : l.store.userOrganizations user o = some true <;> simp [hflag, hmem]
  · rw [hcache] at hhit
    cases hhit

/-- Where the cache is trusted, a login converges exactly if every membership without the flag is in
the payload. -/
theorem converges_of_hit_iff (hl : LoginsInv cat l)
    (hcache : cacheMatches l.store user organizations = true) :
    Converges cat l now user organizations ↔ ∀ o sso, IsManaged cat o sso →
      l.store.userOrganizations user o = some false → sso ∈ organizations := by
  have hstore : (l.step cat (.reconcile now user organizations)).store = l.store :=
    reconcile_of_hit hcache
  have hseen : ∀ o sso, IsManaged cat o sso → sso ∈ organizations →
      l.store.userOrganizations user o = some false := fun o sso hmanaged hmem =>
    row_of_hit hl.cache hcache hmanaged hmem
  constructor
  · intro hconv o sso hmanaged hrow
    have hmember := (hconv.members o sso hmanaged).mp (by rw [hstore, hrow]; rfl)
    rw [hstore, hrow] at hmember
    simpa using hmember
  · intro hrows
    refine ⟨fun o sso hmanaged => ?_, unseen_step (.reconcile now user organizations) hl user,
      fun _ => nothingReconciled_of_rows hseen hrows⟩
    rw [hstore]
    constructor
    · intro hmember
      obtain ⟨flag, hflag⟩ := Option.isSome_iff_exists.mp hmember
      cases flag with
      | true => exact Or.inr hflag
      | false => exact Or.inl (hrows o sso hmanaged hflag)
    · rintro (hmem | hflag)
      · simp [hseen o sso hmanaged hmem]
      · simp [hflag]

/-- A login converges exactly if it does not hide a removal. -/
theorem eventConverges_iff (e : LoginEvent) (hl : LoginsInv cat l) :
    EventConverges cat l e ↔ HidesNoRemoval cat l e := by
  cases e with
  | addKept now user o => exact Iff.rfl
  | reconcile now user organizations =>
    show Converges cat l now user organizations ↔ _
    cases hcache : cacheMatches l.store user organizations with
    | false =>
      refine iff_of_true (converges_of_miss hl hcache) fun hhit => ?_
      rw [hcache] at hhit
      cases hhit
    | true =>
      rw [converges_of_hit_iff hl hcache]
      obtain ⟨entries, hentries, hexpected⟩ := cacheMatches_mem hcache
      have hagrees := hl.cache user entries hentries
      constructor
      · intro hrows _ _ _ o sso hmanaged _ hrow
        exact hrows o sso hmanaged hrow
      · intro hhides o sso hmanaged hrow
        obtain ⟨expected, hentry⟩ := (hagrees o sso hmanaged).2 hrow
        cases expected with
        | true => exact (hexpected sso).mpr hentry
        | false => exact hhides hcache entries hentries o sso hmanaged hentry hrow

/-- Over every run that begins with a cache that agrees with the memberships, for instance with none,
all logins converge exactly if none of them hides a removal. -/
theorem logins_converge_iff {events : List LoginEvent} (hs : CacheAgrees cat s) :
    Trace.Along (Logins.step cat) (EventConverges cat) ⟨s, []⟩ events ↔
      Trace.Along (Logins.step cat) (HidesNoRemoval cat) ⟨s, []⟩ events :=
  Trace.along_iff_of_invariant (LoginsInv cat) (fun _ e hl _ => loginsInv_step e hl)
    (fun _ e hl => eventConverges_iff e hl) ⟨hs, fun _ _ _ _ _ => rfl⟩

/-- Organizations 1 and 2 are managed. -/
def twoOrgsCatalog : Catalog :=
  { Catalog.ofPrices fun _ => ⟨0⟩ with
    organization := fun o => ⟨some o⟩
    orgIds := [1, 2] }

/-- Organization 1 is kept until it is seen; it is seen at the second login and gone at the third. -/
def seenAndGone : List LoginEvent :=
  [.addKept 0 1 1, .reconcile 1 1 [2], .reconcile 2 1 [1, 2], .reconcile 3 1 [2]]

/-- The third login finds its payload in the cache, which the second has filled before it cleared the
flag, and the user stays in organization 1. -/
theorem seen_organization_is_never_removed :
    ¬∀ (cat : Catalog) (s : Store) (events : List LoginEvent),
      (∀ user, s.orgMembershipCache user = none) →
        Trace.Along (Logins.step cat) (EventConverges cat) ⟨s, []⟩ events := by
  intro h
  have hlast := (h twoOrgsCatalog Store.empty seenAndGone fun _ => rfl).2.2.2.1
  have hmember := (hlast.members 1 1 ⟨by decide, rfl⟩).mp (by decide)
  exact absurd hmember (by decide)

/-- A first login does not trust the cache. -/
theorem logins_converge_iff_example :
    Trace.Along (Logins.step twoOrgsCatalog) (EventConverges twoOrgsCatalog) ⟨Store.empty, []⟩
      [.addKept 0 1 1, .reconcile 1 1 [2]] :=
  (logins_converge_iff fun _ _ h => by cases h).mpr
    ⟨trivial, fun h => absurd h (by decide), trivial⟩

end MitxOnline

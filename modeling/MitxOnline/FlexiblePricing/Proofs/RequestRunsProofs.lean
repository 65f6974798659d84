import MitxOnline.FlexiblePricing.Proofs.PriceRequestsProofs

/-!
# What runs of requests keep

Whatever is submitted and edited, the requests of a user stay apart, a request that was decided is not
written by submissions, and what was approved at once gives its price until somebody interferes.
-/

namespace MitxOnline

open Trace Search

variable {α : Type} [LinearOrder α] {fl : Floats α} {cat : FinaidCatalog} {db db' : PricingDb α}
  {e : RequestEvent α} {events : List (RequestEvent α)} {user : UserId} {answers : FormAnswers}
  {form : RequestForm} {courseware c c' : Courseware} {income : α} {t : TierId} {k l : RequestId}
  {row : PriceRequest α} {requests : Table (PriceRequest α)} {r : RunId}

/-! ## An example -/

/-- Incomes that are whole numbers. -/
def wholeFloats : Floats ℤ where
  ofInt n := some n
  div a b := if b = 0 then none else some (a / b)
  round := id
  exceeds a n := decide (n < a)

/-- Program 1 has course 1 with run 1. -/
def oneProgram : FinaidCatalog where
  course := id
  programs _ := [1]
  program := id
  relatedPrograms := []

/-- The tier of program 1 is for every income. -/
def programTier : IncomeTier ℤ where
  discount := 1
  current := true
  id := 1
  courseware := .program 1
  incomeThresholdUsd := 0

def oneTier : PricingTables ℤ where
  tiers := [programTier]
  tiers_nodup := List.nodup_singleton 1
  discount _ := ⟨⟨5000000⟩, .percentOff, .unlimited, some .financialAssistance, none, none, none, [], []⟩
  exchangeRate _ := none
  incomeThreshold _ := none

def noRequests : PricingDb ℤ where
  requests := ⟨[], fun _ => newRequest 0 0 (.program 1), Table.sorted_nil⟩
  submissions := ⟨[], fun _ => ⟨⟨0, "", "", ""⟩, 0, 0⟩, Table.sorted_nil⟩
  tables := oneTier

/-- User 7 has a request that was denied. -/
def oneDenied : PricingDb ℤ :=
  { noRequests with
    requests := Table.single 3
      { newRequest 0 7 (.program 1) with status := .denied, tier := some 1 } }

def programForm : RequestForm := ⟨1, none, none, some 1⟩

def highIncome : FormAnswers := ⟨80000, "USD", "US", "US"⟩

/-- The staff approves the request. -/
def staffApproves : RequestEvent ℤ :=
  .staffUpdate (fun _ => none) 3 ⟨⟨some .approved, none, none, none, none, none⟩, none⟩

/-- User 7 submits the form. -/
def submitHighIncome : RequestEvent ℤ := .submit programForm 5 (fun _ => none) (some 7) (some highIncome)

theorem decideTier_highIncome :
    decideTier wholeFloats oneProgram programForm highIncome noRequests = .ok (.program 1, 80000, 1) := by
  have hincome : determineIncomeUsd wholeFloats noRequests.tables highIncome.yourIncome
      highIncome.incomeCurrency = .ok 80000 := rfl
  have hparent : getParentCourseware oneProgram programForm = .ok (some (.program 1)) := rfl
  have hround : wholeFloats.round 80000 = 80000 := rfl
  have htier : determineTierCourseware (noRequests.finaid oneProgram) noRequests.tables.tiers (.program 1)
      80000 = .ok programTier := by
    simp [determineTierCourseware, getOrderedEligibleCoursewares, Ladder.climb, Ladder.highest, currentTiers,
      noRequests, oneTier, programTier]
  simp only [decideTier, hincome, hparent, hround, htier, bind, Except.bind]
  rfl

theorem noRequests_keys {k : RequestId} : k ∉ noRequests.requests.keys := List.not_mem_nil

/-! ## Requests stay apart -/

/-- A request for one of the coursewares counts for the other. -/
def FinaidCatalog.Overlap (cat : FinaidCatalog) (c c' : Courseware) : Prop :=
  c = c' ∨ ∃ p p', c = .program p ∧ c' = .program p' ∧ p' ∈ cat.related p

/-- No two requests of a user are for coursewares in the relation. -/
def PricingDb.ApartBy (R : Courseware → Courseware → Prop) (db : PricingDb α) : Prop :=
  ∀ k ∈ db.requests.keys, ∀ l ∈ db.requests.keys, (db.requests.row k).user = (db.requests.row l).user →
    R (db.requests.row k).courseware (db.requests.row l).courseware → k = l

/-- No two requests of a user are for the same courseware or for related programs. -/
def PricingDb.Apart (cat : FinaidCatalog) (db : PricingDb α) : Prop := db.ApartBy cat.Overlap

/-- `unique_user_courseware_object` -/
def PricingDb.OnePerCourseware (db : PricingDb α) : Prop := db.ApartBy (· = ·)

theorem related_symm {p p' : ProgramId} (h : p' ∈ cat.related p) : p ∈ cat.related p' := by
  obtain ⟨⟨a, b⟩, hrow, hp'⟩ := List.mem_filterMap.mp h
  refine List.mem_filterMap.mpr ⟨⟨a, b⟩, hrow, ?_⟩
  dsimp only at hp' ⊢
  split_ifs at hp' with ha hb
  · obtain rfl := Option.some.inj hp'
    obtain rfl := ha
    by_cases hab : a = b
    · rw [if_pos hab, hab]
    · rw [if_neg hab, if_pos rfl]
  · obtain rfl := Option.some.inj hp'
    rw [if_pos rfl, hb]

theorem FinaidCatalog.Overlap.symm (h : cat.Overlap c c') : cat.Overlap c' c := by
  rcases h with rfl | ⟨p, p', rfl, rfl, hrelated⟩
  · exact Or.inl rfl
  · exact Or.inr ⟨p', p, rfl, rfl, related_symm hrelated⟩

/-- A form is for a program or for a course without programs. -/
theorem getParentCourseware_cases (h : getParentCourseware cat form = .ok (some courseware)) :
    (∃ p, courseware = .program p) ∨ ∃ c, courseware = .course c ∧ cat.programs c = [] := by
  have hcourse (c : CourseId) : (∃ p, cat.programOrCourse c = .program p) ∨
      ∃ c', cat.programOrCourse c = .course c' ∧ cat.programs c' = [] := by
    unfold FinaidCatalog.programOrCourse
    cases hprograms : cat.programs c with
    | nil => exact Or.inr ⟨c, rfl, hprograms⟩
    | cons p rest => exact Or.inl ⟨p, rfl⟩
  unfold getParentCourseware at h
  split at h
  · obtain rfl := Option.some.inj (Except.ok.inj h)
    exact Or.inl ⟨_, rfl⟩
  · obtain rfl := Option.some.inj (Except.ok.inj h)
    exact hcourse _
  · cases h
  · obtain ⟨p, -, rfl⟩ := Option.map_eq_some_iff.mp (Except.ok.inj h)
    exact Or.inl ⟨p, rfl⟩
  · obtain rfl := Option.some.inj (Except.ok.inj h)
    exact hcourse _
  · cases h

/-- What overlaps with the courseware of a form counts for it. -/
theorem mem_counted_of_overlap (hform : getParentCourseware cat form = .ok (some courseware))
    (h : cat.Overlap courseware c) : c ∈ cat.coursewaresCounted courseware := by
  rcases getParentCourseware_cases hform with ⟨p, rfl⟩ | ⟨c', rfl, hprograms⟩
  · rcases h with rfl | ⟨q, q', hq, rfl, hrelated⟩
    · exact List.mem_map_of_mem List.mem_cons_self
    · obtain rfl : p = q := by simpa using hq
      exact List.mem_map_of_mem (List.mem_cons_of_mem _ hrelated)
  · rcases h with rfl | ⟨q, q', hq, -, -⟩
    · simp [FinaidCatalog.coursewaresCounted, hprograms]
    · cases hq

/-- What counts for the courseware of a form overlaps with it. -/
theorem overlap_of_mem_counted (hform : getParentCourseware cat form = .ok (some courseware))
    (h : c ∈ cat.coursewaresCounted courseware) : cat.Overlap courseware c := by
  rcases getParentCourseware_cases hform with ⟨p, rfl⟩ | ⟨c', rfl, hprograms⟩
  · obtain ⟨q, hq, rfl⟩ := List.mem_map.mp h
    rcases List.mem_cons.mp hq with rfl | hrelated
    · exact Or.inl rfl
    · exact Or.inr ⟨p, q, rfl, rfl, hrelated⟩
  · have hc : c = .course c' := by simpa [FinaidCatalog.coursewaresCounted, hprograms] using h
    exact Or.inl hc.symm

/-- The requests that are left belong to the same users and are for the same coursewares as before. -/
def SameOwners (requests requests' : Table (PriceRequest α)) : Prop :=
  ∀ k ∈ requests'.keys, k ∈ requests.keys ∧ (requests'.row k).user = (requests.row k).user ∧
    (requests'.row k).courseware = (requests.row k).courseware

omit [LinearOrder α] in
theorem sameOwners_refl (requests : Table (PriceRequest α)) : SameOwners requests requests :=
  fun _ hk => ⟨hk, rfl, rfl⟩

omit [LinearOrder α] in
theorem sameOwners_set (requests : Table (PriceRequest α)) (k : RequestId)
    (huser : row.user = (requests.row k).user)
    (hcourseware : row.courseware = (requests.row k).courseware) :
    SameOwners requests (requests.set k row) := by
  intro i hi
  by_cases hik : i = k
  · subst hik
    rw [Table.set_row_self]
    exact ⟨hi, huser, hcourseware⟩
  · rw [Table.set_row_of_ne _ _ hik]
    exact ⟨hi, rfl, rfl⟩

omit [LinearOrder α] in
theorem sameOwners_erase (requests : Table (PriceRequest α)) (k : RequestId) :
    SameOwners requests (requests.erase k) :=
  fun _ hi => ⟨(requests.mem_erase_keys.mp hi).1, rfl, rfl⟩

/-- Only a new request of a user without a previous one adds a courseware. -/
theorem sameOwners_or_new (h : StepOn fl cat db e requests) :
    SameOwners db.requests requests ∨ ∃ form user courseware row, requests = db.requests.create row ∧
      row.user = user ∧ row.courseware = courseware ∧
      getParentCourseware cat form = .ok (some courseware) ∧
      getPreviousSubmission cat db (some courseware) (some user) = none := by
  cases h with
  | kept => exact Or.inl (sameOwners_refl _)
  | @submitted form now f user answers requests courseware income t row h =>
    have hform := (decides_of_decideTier h.decides).parent
    cases h.writes with
    | new hprevious hcourseware =>
      exact Or.inr ⟨form, user, courseware, row, rfl, h.decided.user, hcourseware, hform, hprevious⟩
    | again k hprevious _ hcourseware =>
      have huser := h.decided.user.trans (previous_spec hprevious).2.1.symm
      exact Or.inl (sameOwners_set _ k huser hcourseware)
  | learnerEdited hk huser => exact Or.inl (sameOwners_set _ _ rfl rfl)
  | learnerDeleted huser => exact Or.inl (sameOwners_erase _ _)
  | staffEdited hk => exact Or.inl (sameOwners_set _ _ rfl rfl)
  | staffDeleted => exact Or.inl (sameOwners_erase _ _)
  | configured tables =>
    exact Or.inl fun k hk => ⟨(Table.mem_deleteWhere_keys _).mp hk |>.1, rfl, rfl⟩

omit [LinearOrder α] in
theorem PricingDb.ApartBy.of_sameOwners {R : Courseware → Courseware → Prop} (h : db.ApartBy R)
    (hsame : SameOwners db.requests db'.requests) : db'.ApartBy R := by
  intro k hk l hl huser hR
  obtain ⟨hk, huserk, hcoursewarek⟩ := hsame k hk
  obtain ⟨hl, huserl, hcoursewarel⟩ := hsame l hl
  rw [huserk, huserl] at huser
  rw [hcoursewarek, hcoursewarel] at hR
  exact h k hk l hl huser hR

/-- Requests stay apart where what is related to the courseware of a form counts for it. -/
theorem requestStep_apartBy {R : Courseware → Courseware → Prop} (hsymm : ∀ c c', R c c' → R c' c)
    (hcounted : ∀ form courseware c, getParentCourseware cat form = .ok (some courseware) →
      R courseware c → c ∈ cat.coursewaresCounted courseware)
    (h : db.ApartBy R) (e : RequestEvent α) : (requestStep fl cat db e).ApartBy R := by
  rcases sameOwners_or_new (requestStep_spec fl cat db e).1 with
    hsame | ⟨form, user, courseware, row, hnew, huser, hcourseware, hform, hprevious⟩
  · exact h.of_sameOwners hsame
  · -- the new request is apart from those of its user
    have hother : ∀ k ∈ db.requests.keys, (db.requests.row k).user = user →
        ¬R courseware (db.requests.row k).courseware := fun k hk hk' hR =>
      not_counted_of_no_previous hprevious hk hk' (hcounted form courseware _ hform hR)
    intro k hk l hl huserkl hR
    rw [hnew] at hk hl huserkl hR
    rcases (Table.mem_create_keys _ _ _).mp hk with hk | rfl <;>
      rcases (Table.mem_create_keys _ _ _).mp hl with hl | rfl
    · rw [Table.create_row_of_ne _ _ (Nat.ne_of_lt (Table.lt_nextKey _ hk)),
        Table.create_row_of_ne _ _ (Nat.ne_of_lt (Table.lt_nextKey _ hl))] at huserkl hR
      exact h k hk l hl huserkl hR
    · rw [Table.create_row_of_ne _ _ (Nat.ne_of_lt (Table.lt_nextKey _ hk)),
        Table.create_row_self] at huserkl hR
      rw [hcourseware] at hR
      exact absurd (hsymm _ _ hR) (hother k hk (huserkl.trans huser))
    · rw [Table.create_row_of_ne _ _ (Nat.ne_of_lt (Table.lt_nextKey _ hl)),
        Table.create_row_self] at huserkl hR
      rw [hcourseware] at hR
      exact absurd hR (hother l hl (huserkl.symm.trans huser))
    · rfl

theorem requestStep_onePerCourseware (h : db.OnePerCourseware) (e : RequestEvent α) :
    (requestStep fl cat db e).OnePerCourseware :=
  requestStep_apartBy (fun _ _ h => h.symm)
    (fun _ _ _ hform h => mem_counted_of_overlap hform (Or.inl h)) h e

/-- Over every run, a user has one request at most for a courseware and the programs that are related to
it. -/
theorem requests_apart (fl : Floats α) (h : db.Apart cat) (events : List (RequestEvent α)) :
    (run (requestStep fl cat) db events).Apart cat := by
  have hstep : ∀ (db : PricingDb α) (e : RequestEvent α), db.Apart cat →
      (requestStep fl cat db e).Apart cat := fun _ e h =>
    requestStep_apartBy (fun _ _ => FinaidCatalog.Overlap.symm) (fun _ _ _ => mem_counted_of_overlap) h e
  exact run_of_invariant (PricingDb.Apart cat) hstep h events

theorem requests_apart_oneProgram :
    (run (requestStep wholeFloats oneProgram) noRequests [submitHighIncome, submitHighIncome]).Apart
      oneProgram :=
  requests_apart wholeFloats (fun _ hk => absurd hk noRequests_keys) [submitHighIncome, submitHighIncome]

/-! ## Decisions stay -/

/-- The event does not edit or delete the request or delete its tier. -/
def LeavesRequest (k : RequestId) (db : PricingDb α) : RequestEvent α → Prop
  | .submit .. => True
  | .learnerUpdate _ _ k' _ => k' ≠ k
  | .learnerDelete _ k' => k' ≠ k
  | .staffUpdate _ k' _ => k' ≠ k
  | .staffDelete k' => k' ≠ k
  | .configure tables => ∀ t, (db.requests.row k).tier = some t → t ∈ tables.tiers.map (·.id)

/-- A submission writes no request that was not reset. -/
theorem stepOn_leaves (h : StepOn fl cat db e requests) (hk : k ∈ db.requests.keys)
    (hstatus : (db.requests.row k).status ≠ .reset) (hleaves : LeavesRequest k db e) :
    k ∈ requests.keys ∧ requests.row k = db.requests.row k := by
  cases h with
  | kept => exact ⟨hk, rfl⟩
  | submitted h =>
    cases h.writes with
    | new _ _ =>
      exact ⟨(Table.mem_create_keys _ _ _).mpr (Or.inl hk),
        Table.create_row_of_ne _ _ (Nat.ne_of_lt (Table.lt_nextKey _ hk))⟩
    | again k' _ hreset _ =>
      have hne : k ≠ k' := fun heq => hstatus (heq ▸ hreset)
      exact ⟨hk, Table.set_row_of_ne _ _ hne⟩
  | learnerEdited _ _ => exact ⟨hk, Table.set_row_of_ne _ _ (Ne.symm hleaves)⟩
  | learnerDeleted _ => exact ⟨(Table.mem_erase_keys _).mpr ⟨hk, Ne.symm hleaves⟩, rfl⟩
  | staffEdited _ => exact ⟨hk, Table.set_row_of_ne _ _ (Ne.symm hleaves)⟩
  | staffDeleted => exact ⟨(Table.mem_erase_keys _).mpr ⟨hk, Ne.symm hleaves⟩, rfl⟩
  | configured tables =>
    refine ⟨(Table.mem_deleteWhere_keys _).mpr ⟨hk, ?_⟩, rfl⟩
    rw [Option.any_eq_false]
    intro t ht
    have hmem := hleaves t ht
    simpa using hmem

/-- Over every run of submissions, a request that was not reset stays as it is until somebody edits or
deletes it. -/
theorem decided_requests_kept (hk : k ∈ db.requests.keys) (hstatus : (db.requests.row k).status ≠ .reset)
    (h : Along (requestStep fl cat) (LeavesRequest k) db events) :
    k ∈ (run (requestStep fl cat) db events).requests.keys ∧
      (run (requestStep fl cat) db events).requests.row k = db.requests.row k := by
  refine run_of_along (fun db' => k ∈ db'.requests.keys ∧ db'.requests.row k = db.requests.row k)
    (fun db' e hkept hleaves => ?_) ⟨hk, rfl⟩ h
  have hstatus' : (db'.requests.row k).status ≠ .reset := by
    rw [hkept.2]
    exact hstatus
  obtain ⟨hk', hrow⟩ := stepOn_leaves (requestStep_spec fl cat db' e).1 hkept.1 hstatus' hleaves
  exact ⟨hk', hrow.trans hkept.2⟩

theorem decided_requests_kept_oneDenied :
    let db := run (requestStep wholeFloats oneProgram) oneDenied [submitHighIncome, .staffDelete 4]
    3 ∈ db.requests.keys ∧ db.requests.row 3 = oneDenied.requests.row 3 :=
  decided_requests_kept (by decide) (by decide) ⟨trivial, (by decide : 4 ≠ 3), trivial⟩

/-! ## Every approval has a cause -/

/-- A user has a request that is approved. -/
def PricingDb.Approved (db : PricingDb α) (user : UserId) : Prop :=
  ∃ k ∈ db.requests.keys, (db.requests.row k).user = user ∧
    (db.requests.row k).status.shouldProcess = true

/-- The event approves a request of the user: a submission of theirs that the rule approves, or an edit of
the status by them or by the staff. -/
inductive ApprovesFor (fl : Floats α) (cat : FinaidCatalog) (user : UserId) (db : PricingDb α) :
    RequestEvent α → Prop where
  | submission {form : RequestForm} {now : Instant} {f : RequestFaults} {answers : FormAnswers}
      {courseware : Courseware} {income : α} {t : TierId}
      (hdecides : decideTier fl cat form answers db = .ok (courseware, income, t))
      (happroved : determineAutoApproval fl db.tables answers.countryOfIncome income t = true) :
      ApprovesFor fl cat user db (.submit form now f (some user) (some answers))
  | learner {f : RequestFaults} {k : RequestId} {edit : LearnerEdit α} {status : FlexiblePriceStatus}
      (hstatus : edit.status = some status) (happroves : status.shouldProcess = true) :
      ApprovesFor fl cat user db (.learnerUpdate f user k edit)
  | staff {f : RequestFaults} {k : RequestId} {edit : StaffEdit} {status : FlexiblePriceStatus}
      (huser : (db.requests.row k).user = user) (hstatus : edit.status = some status)
      (happroves : status.shouldProcess = true) : ApprovesFor fl cat user db (.staffUpdate f k edit)

omit [LinearOrder α] in
/-- Where one row is written, an approval that is new is that of the row. -/
theorem approved_set (hnot : ¬db.Approved user) (hrequests : db'.requests = db.requests.set k row)
    (h : db'.Approved user) : row.user = user ∧ row.status.shouldProcess = true := by
  obtain ⟨i, hi, huser, hstatus⟩ := h
  rw [hrequests] at hi huser hstatus
  by_cases hik : i = k
  · rw [hik, Table.set_row_self] at huser hstatus
    exact ⟨huser, hstatus⟩
  · rw [Table.set_row_of_ne _ _ hik] at huser hstatus
    exact absurd ⟨i, hi, huser, hstatus⟩ hnot

omit [LinearOrder α] in
theorem not_approved_of_rows (hnot : ¬db.Approved user)
    (hrows : ∀ k ∈ db'.requests.keys, k ∈ db.requests.keys ∧ db'.requests.row k = db.requests.row k) :
    ¬db'.Approved user := by
  rintro ⟨k, hk, huser, hstatus⟩
  obtain ⟨hk', hrow⟩ := hrows k hk
  rw [hrow] at huser hstatus
  exact hnot ⟨k, hk', huser, hstatus⟩

omit [LinearOrder α] in
/-- An edit approves what was not approved only by writing the status. -/
theorem status_of_edit (edit : RequestEdit) (hstatus : (edit.apply row).status.shouldProcess = true)
    (hnot : row.status.shouldProcess = false) :
    ∃ status, edit.status = some status ∧ status.shouldProcess = true := by
  have happly : (edit.apply row).status = edit.status.getD row.status := rfl
  rw [happly] at hstatus
  cases hedit : edit.status with
  | none =>
    rw [hedit, Option.getD_none, hnot] at hstatus
    cases hstatus
  | some status => exact ⟨status, rfl, by rwa [hedit] at hstatus⟩

omit [LinearOrder α] in
theorem not_shouldProcess (hnot : ¬db.Approved user) (hk : k ∈ db.requests.keys)
    (huser : (db.requests.row k).user = user) : (db.requests.row k).status.shouldProcess = false := by
  rw [← Bool.not_eq_true]
  exact fun hstatus => hnot ⟨k, hk, huser, hstatus⟩

omit [LinearOrder α] in
/-- The row of a submission is approved by the rule. -/
theorem DecidedRow.autoApproved (h : DecidedRow fl db user answers income t row)
    (hstatus : row.status.shouldProcess = true) :
    determineAutoApproval fl db.tables answers.countryOfIncome income t = true := by
  by_contra hrule
  rw [h.status, if_neg hrule] at hstatus
  cases hstatus

theorem approvesFor_of_step (hnot : ¬db.Approved user)
    (h : (requestStep fl cat db e).Approved user) : ApprovesFor fl cat user db e := by
  obtain ⟨hstep, -⟩ := requestStep_spec fl cat db e
  generalize hdb' : requestStep fl cat db e = db' at h hstep
  clear hdb'
  generalize hrequests : db'.requests = requests at hstep
  cases hstep with
  | kept => exact absurd h (not_approved_of_rows hnot fun k hk => by rw [hrequests] at hk ⊢; exact ⟨hk, rfl⟩)
  | @submitted form now f user' answers requests courseware income t row hsubmits =>
    have hrow : row.user = user ∧ row.status.shouldProcess = true := by
      cases hsubmits.writes with
      | again k _ _ _ => exact approved_set hnot hrequests h
      | new _ _ =>
        obtain ⟨k, hk, huser, hstatus⟩ := h
        rw [hrequests] at hk huser hstatus
        rcases (Table.mem_create_keys _ _ _).mp hk with hk | rfl
        · rw [Table.create_row_of_ne _ _ (Nat.ne_of_lt (Table.lt_nextKey _ hk))] at huser hstatus
          exact absurd ⟨k, hk, huser, hstatus⟩ hnot
        · rw [Table.create_row_self] at huser hstatus
          exact ⟨huser, hstatus⟩
    obtain rfl : user' = user := hsubmits.decided.user.symm.trans hrow.1
    exact .submission hsubmits.decides (hsubmits.decided.autoApproved hrow.2)
  | @learnerEdited f user' k edit hk huser' =>
    obtain ⟨huser, hstatus⟩ := approved_set hnot hrequests h
    obtain rfl : user' = user := huser'.symm.trans huser
    obtain ⟨status, hedit, happroves⟩ :=
      status_of_edit edit.toRequestEdit hstatus (not_shouldProcess hnot hk huser')
    exact .learner hedit happroves
  | learnerDeleted _ =>
    refine absurd h (not_approved_of_rows hnot fun k hk => ?_)
    rw [hrequests] at hk ⊢
    exact ⟨((Table.mem_erase_keys _).mp hk).1, rfl⟩
  | @staffEdited f k edit tier hk =>
    obtain ⟨huser, hstatus⟩ := approved_set hnot hrequests h
    obtain ⟨status, hedit, happroves⟩ :=
      status_of_edit edit.toRequestEdit hstatus (not_shouldProcess hnot hk huser)
    exact .staff huser hedit happroves
  | staffDeleted =>
    refine absurd h (not_approved_of_rows hnot fun k hk => ?_)
    rw [hrequests] at hk ⊢
    exact ⟨((Table.mem_erase_keys _).mp hk).1, rfl⟩
  | configured tables =>
    refine absurd h (not_approved_of_rows hnot fun k hk => ?_)
    rw [hrequests] at hk ⊢
    exact ⟨((Table.mem_deleteWhere_keys _).mp hk).1, rfl⟩

/-- A user who has an approved request after a run and had none before it submitted a form that the rule
approves, or the status was written by them or by the staff. -/
theorem approvals_have_causes (hnot : ¬db.Approved user)
    (h : (run (requestStep fl cat) db events).Approved user) :
    ∃ before e after, events = before ++ e :: after ∧
      ApprovesFor fl cat user (run (requestStep fl cat) db before) e := by
  obtain ⟨before, e, after, hevents, hnot', h'⟩ :=
    exists_turn (Q := fun db : PricingDb α => db.Approved user) hnot h
  exact ⟨before, e, after, hevents, approvesFor_of_step hnot' h'⟩

theorem approvals_have_causes_oneDenied :
    ∃ before e after, [staffApproves] = before ++ e :: after ∧ ApprovesFor wholeFloats oneProgram 7
      (run (requestStep wholeFloats oneProgram) oneDenied before) e :=
  approvals_have_causes (by rintro ⟨k, hk, -, hstatus⟩; obtain rfl := List.mem_singleton.mp hk; cases hstatus)
    ⟨3, by decide, by decide, by decide⟩

/-! ## What is approved at once keeps its price -/

/-- Every request of the user has a tier. -/
def PricingDb.Tiered (user : UserId) (db : PricingDb α) : Prop :=
  ∀ k ∈ db.requests.keys, (db.requests.row k).user = user → (db.requests.row k).tier ≠ none

/-- A request of the user that is approved, with a tier that is current. -/
structure PriceHolds (user : UserId) (c : Courseware) (t : TierId) (k : RequestId) (db : PricingDb α) :
    Prop where
  mem : k ∈ db.requests.keys
  owner : (db.requests.row k).user = user
  courseware : (db.requests.row k).courseware = c
  approved : (db.requests.row k).status.shouldProcess = true
  tier : (db.requests.row k).tier = some t
  current : (db.tables.tierRow t).current = true
  unique : db.OnePerCourseware
  tiered : db.Tiered user

/-- The event does not interfere with the request, and the tier stays current. -/
def LeavesPrice (k : RequestId) (t : TierId) (db : PricingDb α) (e : RequestEvent α) : Prop :=
  LeavesRequest k db e ∧ ((e.tables db.tables).tierRow t).current = true

omit [LinearOrder α] in
theorem tiered_set (h : db.Tiered user) (htier : row.tier ≠ none)
    (hrequests : db'.requests = db.requests.set k row) : db'.Tiered user := by
  intro i hi huser
  rw [hrequests] at hi huser ⊢
  by_cases hik : i = k
  · rw [hik, Table.set_row_self]
    exact htier
  · rw [Table.set_row_of_ne _ _ hik] at huser ⊢
    exact h i hi huser

/-- No event takes the tier of a request away. -/
theorem requestStep_tiered (h : db.Tiered user) (e : RequestEvent α) :
    (requestStep fl cat db e).Tiered user := by
  obtain ⟨hstep, -⟩ := requestStep_spec fl cat db e
  generalize requestStep fl cat db e = db' at hstep
  generalize hrequests : db'.requests = requests at hstep
  have hfewer (hrows : ∀ k ∈ requests.keys, k ∈ db.requests.keys ∧ requests.row k = db.requests.row k) :
      db'.Tiered user := by
    intro k hk huser
    rw [hrequests] at hk huser ⊢
    obtain ⟨hk', hrow⟩ := hrows k hk
    rw [hrow] at huser ⊢
    exact h k hk' huser
  cases hstep with
  | kept => exact hfewer fun k hk => ⟨hk, rfl⟩
  | @submitted form now f user' answers requests courseware income t row hsubmits =>
    have htier : row.tier ≠ none := by
      rw [hsubmits.decided.tier]
      exact Option.some_ne_none t
    cases hsubmits.writes with
    | again k _ _ _ => exact tiered_set h htier hrequests
    | new _ _ =>
      intro k hk huser
      rw [hrequests] at hk huser ⊢
      rcases (Table.mem_create_keys _ _ _).mp hk with hk | rfl
      · rw [Table.create_row_of_ne _ _ (Nat.ne_of_lt (Table.lt_nextKey _ hk))] at huser ⊢
        exact h k hk huser
      · rw [Table.create_row_self]
        exact htier
  | @learnerEdited f user' k edit hk huser =>
    intro i hi huser'
    rw [hrequests] at hi huser' ⊢
    by_cases hik : i = k
    · subst hik
      rw [Table.set_row_self] at huser' ⊢
      exact h i hi huser'
    · rw [Table.set_row_of_ne _ _ hik] at huser' ⊢
      exact h i hi huser'
  | learnerDeleted _ => exact hfewer fun k hk => ⟨((Table.mem_erase_keys _).mp hk).1, rfl⟩
  | @staffEdited f k edit tier hk =>
    have htier : (edit.apply { db.requests.row k with tier := some tier }).tier ≠ none :=
      Option.some_ne_none tier
    exact tiered_set h htier hrequests
  | staffDeleted => exact hfewer fun k hk => ⟨((Table.mem_erase_keys _).mp hk).1, rfl⟩
  | configured tables => exact hfewer fun k hk => ⟨((Table.mem_deleteWhere_keys _).mp hk).1, rfl⟩

theorem priceHolds_step (h : PriceHolds user c t k db) (hleaves : LeavesPrice k t db e) :
    PriceHolds user c t k (requestStep fl cat db e) := by
  obtain ⟨hstep, htables⟩ := requestStep_spec fl cat db e
  have hstatus : (db.requests.row k).status ≠ .reset := by
    intro hreset
    have happroved := h.approved
    rw [hreset] at happroved
    cases happroved
  obtain ⟨hk, hrow⟩ := stepOn_leaves hstep h.mem hstatus hleaves.1
  constructor
  · exact hk
  · rw [hrow]
    exact h.owner
  · rw [hrow]
    exact h.courseware
  · rw [hrow]
    exact h.approved
  · rw [hrow]
    exact h.tier
  · rw [htables]
    exact hleaves.2
  · exact requestStep_onePerCourseware h.unique e
  · exact requestStep_tiered h.tiered e

omit [LinearOrder α] in
/-- The request is the one that the checks of an approval find for its courseware. -/
theorem PriceHolds.flexiblePrice (h : PriceHolds user c t k db) :
    (db.finaid cat).flexiblePrice user c = some (db.requests.row k).toFlexiblePrice := by
  have hfind : db.requestFor user c = some k := by
    refine find?_eq_some_of_unique h.mem ?_ fun l hl htest => ?_
    · simp [h.owner, h.courseware]
    · rw [Bool.and_eq_true, beq_iff_eq, beq_iff_eq] at htest
      exact h.unique l hl k h.mem (htest.1.trans h.owner.symm) (htest.2.trans h.courseware.symm)
  show (db.requestFor user c).map _ = _
  rw [hfind]
  rfl

omit [LinearOrder α] in
theorem PriceHolds.approvedAs (h : PriceHolds user c t k db) : (db.finaid cat).ApprovedAs user c t := by
  refine ⟨_, h.flexiblePrice, h.tier, h.current, ?_⟩
  have happroved := h.approved
  unfold FlexiblePriceStatus.shouldProcess at happroved
  rw [Bool.or_eq_true, beq_iff_eq, beq_iff_eq] at happroved
  exact happroved

omit [LinearOrder α] in
/-- A user whose requests all have tiers meets no exception. -/
theorem approvedFor_ne_error (h : db.Tiered user) (c : Courseware) (e : FinaidError) :
    approvedFor (db.finaid cat) user c ≠ .error e := by
  intro herror
  obtain ⟨f, hf, htier⟩ := approvedFor_eq_error_iff.mp ⟨e, herror⟩
  obtain ⟨k, hk, rfl⟩ := Option.map_eq_some_iff.mp hf
  obtain ⟨hmem, htest⟩ := Table.first_eq_some hk
  rw [Bool.and_eq_true, beq_iff_eq] at htest
  exact h k hmem htest.1 htier

omit [LinearOrder α] in
/-- Where the courseware of the request is eligible for a run, the run is approved, and it has a discount if
the discount of the tier can be used. -/
theorem PriceHolds.approved_run (h : PriceHolds user c t k db) (now : Instant)
    (hmem : c ∈ (db.finaid cat).eligibleForCourse (cat.course r)) :
    isCoursewareFlexiblePriceApproved (db.finaid cat) (.courseRun r) (some user) = .ok true ∧
      ((db.finaid cat).dateValid now t = true →
        ∃ d, determineCoursewareFlexiblePriceDiscount (db.finaid cat) now (some (.courseRun r)) (some user) =
          .ok (some d)) := by
  have heligible : getOrderedEligibleCoursewares (db.finaid cat) (.courseRun r) =
      .ok ((db.finaid cat).eligibleForCourse (cat.course r)) := rfl
  have happroved : ∀ c ∈ (db.finaid cat).eligibleForCourse (cat.course r), ∀ e,
      approvedFor (db.finaid cat) user c ≠ .error e := fun c _ => approvedFor_ne_error h.tiered c
  have hdiscount : ∀ c ∈ (db.finaid cat).eligibleForCourse (cat.course r), ∀ e,
      discountFor (db.finaid cat) now user c ≠ .error e := fun c hc e herror =>
    happroved c hc e (discountFor_eq_error.mp herror)
  constructor
  · obtain ⟨t', ht'⟩ := search_isSome happroved hmem (approvedFor_eq_some.mpr h.approvedAs)
    simp only [isCoursewareFlexiblePriceApproved, heligible, ht', bind, Except.bind, Option.isSome_some]
  · intro hvalid
    obtain ⟨t', ht'⟩ := search_isSome hdiscount hmem (discountFor_eq_some.mpr ⟨h.approvedAs, hvalid⟩)
    refine ⟨((db.finaid cat).tier t').discount, ?_⟩
    simp only [determineCoursewareFlexiblePriceDiscount, heligible, ht', bind, Except.bind, Option.map_some]

/-- The runs of the courseware of a form. -/
def FinaidCatalog.HasRun (cat : FinaidCatalog) (r : RunId) : Courseware → Prop
  | .program p => p ∈ cat.programs (cat.course r)
  | .course c => cat.course r = c
  | .courseRun r' => r = r'
  | .programRun _ => False

omit [LinearOrder α] in
/-- What counts for the courseware of a form is eligible for its runs. -/
theorem mem_eligibleForCourse (db : PricingDb α) (hform : getParentCourseware cat form = .ok (some courseware))
    (hrun : cat.HasRun r courseware) (hc : c ∈ cat.coursewaresCounted courseware) :
    c ∈ (db.finaid cat).eligibleForCourse (cat.course r) := by
  have hoverlap := overlap_of_mem_counted hform hc
  rcases getParentCourseware_cases hform with ⟨p, rfl⟩ | ⟨c', rfl, hprograms⟩
  · have hp : p ∈ cat.programs (cat.course r) := hrun
    have hpos : 0 < ((db.finaid cat).programs (cat.course r)).length := List.length_pos_of_mem hp
    unfold Finaid.eligibleForCourse
    rw [if_pos hpos]
    rcases hoverlap with rfl | ⟨q, q', hq, rfl, hrelated⟩
    · exact List.mem_append_left _ (List.mem_append_left _ (List.mem_map_of_mem hp))
    · obtain rfl : p = q := by simpa using hq
      exact List.mem_append_right _ (List.mem_map_of_mem (List.mem_flatMap.mpr ⟨p, hp, hrelated⟩))
  · obtain rfl : cat.course r = c' := hrun
    have hempty : ((db.finaid cat).programs (cat.course r)).length = 0 :=
      List.length_eq_zero_iff.mpr hprograms
    unfold Finaid.eligibleForCourse
    rw [hempty, if_neg (Nat.lt_irrefl 0)]
    rcases hoverlap with rfl | ⟨q, q', hq, -, -⟩
    · exact List.mem_cons_self
    · cases hq

/-- The tier of a decision is current. -/
theorem Decides.tierRow_current (h : Decides fl cat db form answers courseware income t) :
    (db.tables.tierRow t).current = true := by
  obtain ⟨tier, htier, rfl⟩ := h.tier
  obtain ⟨c, -, hmem⟩ := (isTierFor_of_eq_ok htier).mem
  obtain ⟨htiers, hcurrent, -⟩ := mem_currentTiers.mp hmem
  have hfind : (db.tables.tiers.find? fun row => row.id == tier.id) = some tier := by
    refine find?_eq_some_of_unique htiers (beq_self_eq_true _) fun tier' htier' hid => ?_
    exact List.inj_on_of_nodup_map db.tables.tiers_nodup htier' htiers (beq_iff_eq.mp hid)
  unfold PricingTables.tierRow
  rw [hfind]
  exact hcurrent

variable {now : Instant} {f : RequestFaults}

/-- The form is not shown again to a user without a request or with one that was reset. -/
theorem serve_eq (hform : getParentCourseware cat form = .ok (some courseware))
    (hprevious : ∀ k, getPreviousSubmission cat db (some courseware) (some user) = some k →
      (db.requests.row k).status = .reset) :
    serve fl cat form now f (some user) (some answers) db =
      processFormSubmission fl cat form now f (some user) answers db := by
  have hshown : ((getPreviousSubmission cat db (some courseware) (some user)).any fun k =>
      decide ((db.requests.row k).status ≠ .reset)) = false := by
    rw [Option.any_eq_false]
    intro k hk
    simp [hprevious k hk]
  unfold serve
  rw [hform]
  dsimp only
  rw [hshown, if_neg Bool.false_ne_true]

omit [LinearOrder α] in
/-- A new request is saved, since its user has none for the courseware. -/
theorem insertRequest_saved (hform : getParentCourseware cat form = .ok (some courseware))
    (hprevious : getPreviousSubmission cat db (some courseware) (some user) = none) (hsave : f .save = none)
    (huser : row.user = user) (hcourseware : row.courseware = courseware) :
    (insertRequest f row db).state = { db with requests := db.requests.create row } := by
  have hfree : db.requestFor row.user row.courseware = none := by
    cases hfor : db.requestFor row.user row.courseware with
    | none => rfl
    | some l =>
      obtain ⟨hl, htest⟩ := Table.first_eq_some hfor
      rw [Bool.and_eq_true, beq_iff_eq, beq_iff_eq, huser, hcourseware] at htest
      have hcounted : (db.requests.row l).courseware ∈ cat.coursewaresCounted courseware :=
        mem_counted_of_overlap hform (Or.inl htest.2.symm)
      exact absurd hcounted (not_counted_of_no_previous hprevious hl htest.1)
  unfold insertRequest
  rw [hsave, hfree]

/-- A submission that can be made is made, if the statements up to the save do not fail. -/
theorem serve_submits (now : Instant)
    (hdecides : decideTier fl cat form answers db = .ok (courseware, income, t))
    (hprevious : ∀ k, getPreviousSubmission cat db (some courseware) (some user) = some k →
      (db.requests.row k).status = .reset)
    (hsubmission : f .submission = none) (hsave : f .save = none) :
    ∃ row, Submits fl cat db form user answers
      (serve fl cat form now f (some user) (some answers) db).state.requests courseware income t row := by
  have hform := (decides_of_decideTier hdecides).parent
  set db1 : PricingDb α :=
    { db with submissions := db.submissions.create ⟨answers, form.page, user⟩ } with hdb1
  have hserve : serve fl cat form now f (some user) (some answers) db =
      submitRequest fl cat now f user answers courseware income t db.submissions.nextKey db1 := by
    rw [serve_eq hform hprevious]
    unfold processFormSubmission
    rw [hdecides, hsubmission]
  have hsame : getPreviousSubmission cat db1 (some courseware) (some user) =
      getPreviousSubmission cat db (some courseware) (some user) := rfl
  rw [hserve, submitRequest, hsame]
  cases hfound : getPreviousSubmission cat db (some courseware) (some user) with
  | none =>
    dsimp only
    rw [insertRequest_saved hform (hsame.trans hfound) hsave rfl rfl]
    exact ⟨_, hdecides, decidedRow_decide _ rfl, .new hfound rfl⟩
  | some k =>
    dsimp only
    have hreset : (db.requests.row k).status = .reset := hprevious k hfound
    have hopen : ¬(db1.requests.row k).status ≠ .reset := not_not.mpr hreset
    rw [if_neg hopen, saveRequest, hsave]
    exact ⟨_, hdecides, decidedRow_decide _ (previous_spec hfound).2.1, .again k hfound hreset rfl⟩

/-- The request that a submission leaves holds its price, if the rule approves it. -/
theorem priceHolds_of_submits (hunique : db'.OnePerCourseware) (htiered : db'.Tiered user)
    (htables : db'.tables = db.tables)
    (h : Submits fl cat db form user answers db'.requests courseware income t row)
    (happroved : determineAutoApproval fl db.tables answers.countryOfIncome income t = true) :
    ∃ k, PriceHolds user row.courseware t k db' ∧ row.courseware ∈ cat.coursewaresCounted courseware := by
  have hdecides := decides_of_decideTier h.decides
  have hcurrent : (db'.tables.tierRow t).current = true := by
    rw [htables]
    exact hdecides.tierRow_current
  have hstatus : row.status.shouldProcess = true := by
    rw [h.decided.status, if_pos happroved]
    rfl
  have hholds (k : RequestId) (hk : k ∈ db'.requests.keys) (hrow : db'.requests.row k = row) :
      PriceHolds user row.courseware t k db' := by
    constructor
    · exact hk
    · rw [hrow]
      exact h.decided.user
    · rw [hrow]
    · rw [hrow]
      exact hstatus
    · rw [hrow]
      exact h.decided.tier
    · exact hcurrent
    · exact hunique
    · exact htiered
  have hwrites := h.writes
  generalize hrequests : db'.requests = requests at hwrites hholds
  cases hwrites with
  | new hprevious hcourseware =>
    have hmem : db.requests.nextKey ∈ (db.requests.create row).keys :=
      (Table.mem_create_keys _ _ _).mpr (Or.inr rfl)
    refine ⟨_, hholds _ hmem (Table.create_row_self _ _), ?_⟩
    rw [hcourseware]
    exact mem_counted_of_overlap hdecides.parent (Or.inl rfl)
  | again k hprevious _ hcourseware =>
    obtain ⟨hk, -, hcounted⟩ := previous_spec hprevious
    refine ⟨k, hholds k hk (Table.set_row_self _ _ _), ?_⟩
    rw [hcourseware]
    exact hcounted

/-- The user is approved for all runs of the courseware, and has a discount on them while that of the tier can
be used. -/
def PricedFor (cat : FinaidCatalog) (user : UserId) (courseware : Courseware) (t : TierId)
    (db : PricingDb α) : Prop :=
  ∀ r, cat.HasRun r courseware →
    isCoursewareFlexiblePriceApproved (db.finaid cat) (.courseRun r) (some user) = .ok true ∧
      ∀ now, (db.finaid cat).dateValid now t = true → ∃ d,
        determineCoursewareFlexiblePriceDiscount (db.finaid cat) now (some (.courseRun r)) (some user) =
          .ok (some d)

/-- A submission that the rule approves gives its user the price on all runs of its courseware, after
every run of events that do not interfere with the request and leave its tier current. -/
theorem autoApproved_lasts (hunique : db.OnePerCourseware) (htiered : db.Tiered user)
    (hdecides : decideTier fl cat form answers db = .ok (courseware, income, t))
    (happroved : determineAutoApproval fl db.tables answers.countryOfIncome income t = true)
    (hprevious : ∀ k, getPreviousSubmission cat db (some courseware) (some user) = some k →
      (db.requests.row k).status = .reset)
    (hsubmission : f .submission = none) (hsave : f .save = none) :
    ∃ k, ∀ events, Along (requestStep fl cat) (LeavesPrice k t)
        (serve fl cat form now f (some user) (some answers) db).state events →
      PricedFor cat user courseware t (run (requestStep fl cat)
        (serve fl cat form now f (some user) (some answers) db).state events) := by
  have hform := (decides_of_decideTier hdecides).parent
  obtain ⟨row, hsubmits⟩ := serve_submits now hdecides hprevious hsubmission hsave
  set event : RequestEvent α := .submit form now f (some user) (some answers) with hevent
  have hstep : (serve fl cat form now f (some user) (some answers) db).state =
      requestStep fl cat db event := rfl
  rw [hstep] at hsubmits ⊢
  have htables : (requestStep fl cat db event).tables = db.tables := (requestStep_spec fl cat db event).2
  obtain ⟨k, hholds, hcounted⟩ := priceHolds_of_submits (requestStep_onePerCourseware hunique event)
    (requestStep_tiered htiered event) htables hsubmits happroved
  refine ⟨k, fun events hevents r hrun => ?_⟩
  have hkept := run_of_along (PriceHolds user row.courseware t k)
    (fun _ _ => priceHolds_step) hholds hevents
  have hmem := mem_eligibleForCourse (run (requestStep fl cat) (requestStep fl cat db event) events)
    hform hrun hcounted
  exact ⟨(hkept.approved_run 0 hmem).1, fun now => (hkept.approved_run now hmem).2⟩

theorem autoApproved_lasts_oneProgram :
    ∃ k, ∀ events, Along (requestStep wholeFloats oneProgram) (LeavesPrice k 1)
        (serve wholeFloats oneProgram programForm 5 (fun _ => none) (some 7) (some highIncome)
          noRequests).state events →
      PricedFor oneProgram 7 (.program 1) 1 (run (requestStep wholeFloats oneProgram)
        (serve wholeFloats oneProgram programForm 5 (fun _ => none) (some 7) (some highIncome)
          noRequests).state events) :=
  autoApproved_lasts (fun _ hk => absurd hk noRequests_keys) (fun _ hk => absurd hk noRequests_keys)
    decideTier_highIncome (by decide) (fun _ h => by cases h) rfl rfl

end MitxOnline

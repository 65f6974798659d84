import MitxOnline.FlexiblePricing.PriceRequests
import MitxOnline.FlexiblePricing.Proofs.ApprovalProofs
import MitxOnline.Lib.Trace

/-!
# Requests over runs of submissions and edits

A submission writes one request: a new one, where the user has none that counts for the courseware, or one
that was reset. So requests stay apart, a decision stays until somebody edits it, and every approval is due
to a submission that the rule approves or to an edit.
-/

namespace MitxOnline

open Autocommit Trace Search

variable {α : Type} [LinearOrder α] {fl : Floats α} {cat : FinaidCatalog} {db db' : PricingDb α}
  {form : RequestForm} {now : Instant} {f : RequestFaults} {user : UserId} {answers : FormAnswers}
  {courseware c c' : Courseware} {income : α} {t : TierId} {k l : RequestId} {row : PriceRequest α}

/-! ## The previous request -/

theorem latestOf_mem {createdOn : RequestId → Instant} {keys : List RequestId}
    (h : latestOf createdOn keys = some k) : k ∈ keys := by
  induction keys generalizing k with
  | nil => cases h
  | cons i rest ih =>
    rw [latestOf] at h
    cases hrest : latestOf createdOn rest with
    | none =>
      rw [hrest] at h
      obtain rfl := Option.some.inj h
      exact List.mem_cons_self
    | some j =>
      rw [hrest] at h
      dsimp only at h
      split_ifs at h
      · obtain rfl := Option.some.inj h
        exact List.mem_cons_of_mem i (ih hrest)
      · obtain rfl := Option.some.inj h
        exact List.mem_cons_self

theorem latestOf_eq_none {createdOn : RequestId → Instant} {keys : List RequestId}
    (h : latestOf createdOn keys = none) : keys = [] := by
  cases keys with
  | nil => rfl
  | cons i rest =>
    rw [latestOf] at h
    cases hrest : latestOf createdOn rest with
    | none =>
      rw [hrest] at h
      cases h
    | some j =>
      rw [hrest] at h
      dsimp only at h
      split_ifs at h

omit [LinearOrder α] in
/-- A user without a previous request has none for the coursewares that count. -/
theorem not_counted_of_no_previous
    (h : getPreviousSubmission cat db (some courseware) (some user) = none) (hk : k ∈ db.requests.keys)
    (huser : (db.requests.row k).user = user) :
    (db.requests.row k).courseware ∉ cat.coursewaresCounted courseware := by
  intro hmem
  have hempty := latestOf_eq_none h
  have hselected : k ∈ db.requests.keysWhere fun _ row =>
      row.user == user && (cat.coursewaresCounted courseware).contains row.courseware := by
    refine Table.mem_keysWhere.mpr ⟨hk, ?_⟩
    simp [huser, hmem]
  rw [hempty] at hselected
  cases hselected

omit [LinearOrder α] in
theorem previous_spec (h : getPreviousSubmission cat db (some courseware) (some user) = some k) :
    k ∈ db.requests.keys ∧ (db.requests.row k).user = user ∧
      (db.requests.row k).courseware ∈ cat.coursewaresCounted courseware := by
  obtain ⟨hk, htest⟩ := Table.mem_keysWhere.mp (latestOf_mem h)
  rw [Bool.and_eq_true, beq_iff_eq, List.contains_iff_mem] at htest
  exact ⟨hk, htest⟩

/-! ## What a submission writes -/

/-- The decision about the answers of a form: its courseware, the income and the tier. -/
structure Decides (fl : Floats α) (cat : FinaidCatalog) (db : PricingDb α) (form : RequestForm)
    (answers : FormAnswers) (courseware : Courseware) (income : α) (t : TierId) : Prop where
  parent : getParentCourseware cat form = .ok (some courseware)
  tier : ∃ tier, determineTierCourseware (db.finaid cat) db.tables.tiers courseware income = .ok tier ∧
    tier.id = t

theorem decides_of_decideTier (h : decideTier fl cat form answers db = .ok (courseware, income, t)) :
    Decides fl cat db form answers courseware income t := by
  unfold decideTier at h
  cases hconverted : determineIncomeUsd fl db.tables answers.yourIncome answers.incomeCurrency with
  | error e =>
    rw [hconverted] at h
    cases h
  | ok converted =>
    rw [hconverted] at h
    rcases hparent : getParentCourseware cat form with e | _ | parent
    · rw [hparent] at h
      cases h
    · rw [hparent] at h
      cases h
    · rw [hparent] at h
      simp only [bind, Except.bind] at h
      cases htier : determineTierCourseware (db.finaid cat) db.tables.tiers parent (fl.round converted) with
      | error e =>
        rw [htier] at h
        cases h
      | ok tier =>
        rw [htier] at h
        obtain ⟨rfl, rfl, rfl⟩ : parent = courseware ∧ fl.round converted = income ∧ tier.id = t := by
          simpa using h
        exact ⟨hparent, tier, htier, rfl⟩

/-- The request that a submission writes: a new one, or one that was reset. -/
inductive Writes (cat : FinaidCatalog) (db : PricingDb α) (user : UserId) (courseware : Courseware)
    (row : PriceRequest α) : Table (PriceRequest α) → Prop where
  | new (hprevious : getPreviousSubmission cat db (some courseware) (some user) = none)
      (hcourseware : row.courseware = courseware) :
      Writes cat db user courseware row (db.requests.create row)
  | again (k : RequestId) (hprevious : getPreviousSubmission cat db (some courseware) (some user) = some k)
      (hreset : (db.requests.row k).status = .reset)
      (hcourseware : row.courseware = (db.requests.row k).courseware) :
      Writes cat db user courseware row (db.requests.set k row)

/-- What the row of a submission says. -/
structure DecidedRow (fl : Floats α) (db : PricingDb α) (user : UserId) (answers : FormAnswers) (income : α)
    (t : TierId) (row : PriceRequest α) : Prop where
  user : row.user = user
  tier : row.tier = some t
  status : row.status =
    if determineAutoApproval fl db.tables answers.countryOfIncome income t = true then .autoApproved
    else .pendingManualApproval

/-- A submission that changes the requests. -/
structure Submits (fl : Floats α) (cat : FinaidCatalog) (db : PricingDb α) (form : RequestForm)
    (user : UserId) (answers : FormAnswers) (requests : Table (PriceRequest α)) (courseware : Courseware)
    (income : α) (t : TierId) (row : PriceRequest α) : Prop where
  decides : decideTier fl cat form answers db = .ok (courseware, income, t)
  decided : DecidedRow fl db user answers income t row
  writes : Writes cat db user courseware row requests

omit [LinearOrder α] in
theorem decidedRow_decide {base : PriceRequest α} (submission : SubmissionId) (huser : base.user = user) :
    DecidedRow fl db user answers income t
      (base.decide fl db.tables now answers income t submission) := by
  constructor
  · exact huser
  · rfl
  · rfl

omit [LinearOrder α] in
theorem insertRequest_state (f : RequestFaults) (row : PriceRequest α) (db : PricingDb α) :
    (insertRequest f row db).state = db ∨
      (insertRequest f row db).state = { db with requests := db.requests.create row } := by
  unfold insertRequest
  split
  · exact Or.inl rfl
  · exact Or.inl rfl
  · exact Or.inr rfl

omit [LinearOrder α] in
theorem saveRequest_state (f : RequestFaults) (k : RequestId) (row : PriceRequest α) (db : PricingDb α) :
    (saveRequest f k row db).state = db ∨
      (saveRequest f k row db).state = { db with requests := db.requests.set k row } := by
  unfold saveRequest
  split
  · exact Or.inl rfl
  · exact Or.inr rfl

/-- A submission leaves the tables and either leaves the requests or writes one. -/
theorem processFormSubmission_cases (fl : Floats α) (cat : FinaidCatalog) (form : RequestForm)
    (now : Instant) (f : RequestFaults) (u : Option UserId) (answers : FormAnswers) (db : PricingDb α) :
    let db' := (processFormSubmission fl cat form now f u answers db).state
    db'.tables = db.tables ∧ (db'.requests = db.requests ∨ ∃ user courseware income t row,
      u = some user ∧ Submits fl cat db form user answers db'.requests courseware income t row) := by
  intro db'
  show db'.tables = db.tables ∧ _
  have hdb' : db' = (processFormSubmission fl cat form now f u answers db).state := rfl
  unfold processFormSubmission at hdb'
  split at hdb'
  · rw [hdb']
    exact ⟨rfl, Or.inl rfl⟩
  · rw [hdb']
    exact ⟨rfl, Or.inl rfl⟩
  · rw [hdb']
    exact ⟨rfl, Or.inl rfl⟩
  · rename_i courseware income t user hdecides _
    unfold submitRequest at hdb'
    split at hdb'
    · rename_i hprevious
      rcases insertRequest_state f ((newRequest now user courseware).decide fl db.tables now answers income t
        db.submissions.nextKey) { db with submissions := db.submissions.create ⟨answers, form.page, user⟩ }
        with hkept | hnew
      · rw [hdb', hkept]
        exact ⟨rfl, Or.inl rfl⟩
      · rw [hdb', hnew]
        refine ⟨rfl, Or.inr ⟨user, courseware, income, t, _, rfl, hdecides, ?_, .new hprevious ?_⟩⟩
        · exact decidedRow_decide _ rfl
        · rfl
    · rename_i k hprevious
      split_ifs at hdb' with hstatus
      · rw [hdb']
        exact ⟨rfl, Or.inl rfl⟩
      · rcases saveRequest_state f k ((db.requests.row k).decide fl db.tables now answers income t
          db.submissions.nextKey) { db with submissions := db.submissions.create ⟨answers, form.page, user⟩ }
          with hkept | hsaved
        · rw [hdb', hkept]
          exact ⟨rfl, Or.inl rfl⟩
        · have huser : (db.requests.row k).user = user := (previous_spec hprevious).2.1
          rw [hdb', hsaved]
          have hreset : (db.requests.row k).status = .reset := not_not.mp hstatus
          refine ⟨rfl, Or.inr ⟨user, courseware, income, t, _, rfl, hdecides, ?_,
            .again k hprevious hreset ?_⟩⟩
          · exact decidedRow_decide _ huser
          · rfl

/-- Posting a form leaves the tables and either leaves the requests or writes one. -/
theorem serve_cases (fl : Floats α) (cat : FinaidCatalog) (form : RequestForm) (now : Instant)
    (f : RequestFaults) (u : Option UserId) (cleaned : Option FormAnswers) (db : PricingDb α) :
    let db' := (serve fl cat form now f u cleaned db).state
    db'.tables = db.tables ∧ (db'.requests = db.requests ∨ ∃ user answers courseware income t row,
      u = some user ∧ cleaned = some answers ∧
        Submits fl cat db form user answers db'.requests courseware income t row) := by
  intro db'
  have hdb' : db' = (serve fl cat form now f u cleaned db).state := rfl
  unfold serve at hdb'
  split at hdb'
  · rw [hdb']
    exact ⟨rfl, Or.inl rfl⟩
  · split_ifs at hdb'
    · rw [hdb']
      exact ⟨rfl, Or.inl rfl⟩
    · split at hdb'
      · rw [hdb']
        exact ⟨rfl, Or.inl rfl⟩
      · rename_i answers
        obtain ⟨htables, hrequests⟩ := processFormSubmission_cases fl cat form now f u answers db
        rw [hdb']
        refine ⟨htables, hrequests.imp id ?_⟩
        rintro ⟨user, courseware, income, t, row, huser, hsubmits⟩
        exact ⟨user, answers, courseware, income, t, row, huser, rfl, hsubmits⟩

/-! ## What an edit writes -/

omit [LinearOrder α] in
/-- The staff's edit may change the tier before the fields are written, but nothing else. -/
theorem selectTier_ok {edit : StaffEdit} {tables : PricingTables α} {row' : PriceRequest α}
    (h : edit.selectTier tables row = .ok row') : row' = { row with tier := row'.tier } := by
  unfold StaffEdit.selectTier at h
  split at h
  · obtain rfl := Except.ok.inj h
    rfl
  · split_ifs at h
    · obtain rfl := Except.ok.inj h
      rfl
    · split at h
      · cases h
      · split_ifs at h
        · obtain rfl := Except.ok.inj h
          rfl
        · obtain rfl := Except.ok.inj h
          rfl

omit [LinearOrder α] in
/-- What comes after the save leaves the database. -/
theorem respond_state (f : RequestFaults) (k : RequestId) (db : PricingDb α) :
    (seq [showRequest k, notifyLearner f] db).state = db := by
  have hframe : IsFrame fun s s' : PricingDb α => s' = s := isFrame_eq id
  have hshow : Keeps (fun s s' : PricingDb α => s' = s) (showRequest k) := by
    intro s
    unfold showRequest
    split <;> rfl
  have hnotify : Keeps (fun s s' : PricingDb α => s' = s) (notifyLearner f) := fun _ => rfl
  exact keeps_seq_cons hframe hshow (keeps_seq_cons hframe hnotify (keeps_seq_nil hframe)) db

omit [LinearOrder α] in
/-- The staff's edit is made as a whole, and only where the request has a tier afterwards. -/
theorem staffUpdate_cases (f : RequestFaults) (k : RequestId) (edit : StaffEdit) (db : PricingDb α) :
    (staffUpdate f k edit db).state = db ∨ ∃ tier, k ∈ db.requests.keys ∧
      (staffUpdate f k edit db).state =
        { db with requests :=
          db.requests.set k (edit.apply { db.requests.row k with tier := some tier }) } := by
  unfold staffUpdate
  split_ifs with hk
  · cases hselect : edit.selectTier db.tables (db.requests.row k) with
    | error e => exact Or.inl rfl
    | ok row' =>
      dsimp only
      cases herror : (seq [saveRequest f k (edit.apply row'), showRequest k, notifyLearner f] db).error with
      | some e =>
        rw [atomic_of_error herror]
        exact Or.inl rfl
      | none =>
        rw [atomic_of_ok herror]
        obtain ⟨hsave, hrest⟩ := seq_cons_error herror
        obtain ⟨hshow, -⟩ := seq_cons_error hrest
        rcases saveRequest_state f k (edit.apply row') db with hkept | hsaved
        · left
          rw [seq_cons, andThen_of_ok hsave, hkept]
          exact respond_state f k db
        · right
          rw [hsaved] at hshow
          have hrow' := selectTier_ok hselect
          cases htier : row'.tier with
          | none =>
            have htier' : (edit.apply row').tier = none := htier
            simp [showRequest, htier'] at hshow
          | some tier =>
            refine ⟨tier, hk, ?_⟩
            rw [seq_cons, andThen_of_ok hsave, hsaved, ← htier, ← hrow']
            exact respond_state f k _
  · exact Or.inl rfl

omit [LinearOrder α] in
theorem learnerUpdate_cases (f : RequestFaults) (user : UserId) (k : RequestId) (edit : LearnerEdit α)
    (db : PricingDb α) :
    (learnerUpdate f user k edit db).state = db ∨ k ∈ db.requests.keys ∧ (db.requests.row k).user = user ∧
      (learnerUpdate f user k edit db).state =
        { db with requests := db.requests.set k (edit.apply (db.requests.row k)) } := by
  unfold learnerUpdate
  split_ifs with hk
  · rcases saveRequest_state f k (edit.apply (db.requests.row k)) db with hkept | hsaved
    · exact Or.inl hkept
    · exact Or.inr ⟨hk.1, hk.2, hsaved⟩
  · exact Or.inl rfl

/-! ## Every event -/

/-- What an event does to the requests: it leaves them, deletes some, writes what a submission writes or edits
one of them. -/
inductive StepOn (fl : Floats α) (cat : FinaidCatalog) (db : PricingDb α) :
    RequestEvent α → Table (PriceRequest α) → Prop where
  | kept (e : RequestEvent α) : StepOn fl cat db e db.requests
  | submitted {form : RequestForm} {now : Instant} {f : RequestFaults} {user : UserId}
      {answers : FormAnswers} {requests : Table (PriceRequest α)} {courseware : Courseware} {income : α}
      {t : TierId} {row : PriceRequest α}
      (h : Submits fl cat db form user answers requests courseware income t row) :
      StepOn fl cat db (.submit form now f (some user) (some answers)) requests
  | learnerEdited {f : RequestFaults} {user : UserId} {k : RequestId} {edit : LearnerEdit α}
      (hk : k ∈ db.requests.keys) (huser : (db.requests.row k).user = user) :
      StepOn fl cat db (.learnerUpdate f user k edit)
        (db.requests.set k (edit.apply (db.requests.row k)))
  | learnerDeleted {user : UserId} {k : RequestId} (huser : (db.requests.row k).user = user) :
      StepOn fl cat db (.learnerDelete user k) (db.requests.erase k)
  | staffEdited {f : RequestFaults} {k : RequestId} {edit : StaffEdit} {tier : TierId}
      (hk : k ∈ db.requests.keys) :
      StepOn fl cat db (.staffUpdate f k edit)
        (db.requests.set k (edit.apply { db.requests.row k with tier := some tier }))
  | staffDeleted {k : RequestId} : StepOn fl cat db (.staffDelete k) (db.requests.erase k)
  | configured (tables : PricingTables α) :
      StepOn fl cat db (.configure tables) (db.configure tables).requests

/-- The tables after an event. -/
def RequestEvent.tables (tables : PricingTables α) : RequestEvent α → PricingTables α
  | .configure tables' => tables'
  | _ => tables

/-- Every event does one of these things to the requests, and only a configuration changes the tables. -/
theorem requestStep_spec (fl : Floats α) (cat : FinaidCatalog) (db : PricingDb α) (e : RequestEvent α) :
    StepOn fl cat db e (requestStep fl cat db e).requests ∧
      (requestStep fl cat db e).tables = e.tables db.tables := by
  cases e with
  | submit form now f u cleaned =>
    obtain ⟨htables, hkept | ⟨user, answers, courseware, income, t, row, rfl, rfl, hsubmits⟩⟩ :=
      serve_cases fl cat form now f u cleaned db
    · refine ⟨?_, htables⟩
      show StepOn fl cat db _ (serve fl cat form now f u cleaned db).state.requests
      rw [hkept]
      exact .kept _
    · exact ⟨.submitted hsubmits, htables⟩
  | learnerUpdate f user k edit =>
    rcases learnerUpdate_cases f user k edit db with hkept | ⟨hk, huser, hsaved⟩
    · have hstep : requestStep fl cat db (.learnerUpdate f user k edit) = db := hkept
      rw [hstep]
      exact ⟨.kept _, rfl⟩
    · have hstep : requestStep fl cat db (.learnerUpdate f user k edit) = _ := hsaved
      rw [hstep]
      exact ⟨.learnerEdited hk huser, rfl⟩
  | learnerDelete user k =>
    by_cases huser : (db.requests.row k).user = user
    · have hstep : requestStep fl cat db (.learnerDelete user k) = _ := if_pos huser
      rw [hstep]
      exact ⟨.learnerDeleted huser, rfl⟩
    · have hstep : requestStep fl cat db (.learnerDelete user k) = _ := if_neg huser
      rw [hstep]
      exact ⟨.kept _, rfl⟩
  | staffUpdate f k edit =>
    rcases staffUpdate_cases f k edit db with hkept | ⟨tier, hk, hsaved⟩
    · have hstep : requestStep fl cat db (.staffUpdate f k edit) = db := hkept
      rw [hstep]
      exact ⟨.kept _, rfl⟩
    · have hstep : requestStep fl cat db (.staffUpdate f k edit) = _ := hsaved
      rw [hstep]
      exact ⟨.staffEdited hk, rfl⟩
  | staffDelete k => exact ⟨.staffDeleted, rfl⟩
  | configure tables => exact ⟨.configured tables, rfl⟩

end MitxOnline

import MitxOnline.Compliance.ExportChecks
import MitxOnline.Lib.Trace

/-!
# A rejection is kept until it is approved

A check stores a log only if no log of its user counts, so every log that is there is accepted and more
than a day old. A rejection is therefore newer than all other logs of its user, and the newest log that
counts is the rejection.
-/

namespace MitxOnline

open Trace

variable {logs : Table ExportComplianceLog} {now createdOn : Microseconds} {user : UserId}
  {run : CoursewareObject} {inquiry : Inquiry} {row : ExportComplianceLog} {k : ℕ}
  {s : ComplianceState} {event : ComplianceEvent}

/-! ## The lookup -/

/-- Three kinds of logs count. -/
theorem ExportComplianceLog.counts_iff :
    row.counts now user run = true ↔ row.user = user ∧ (row.courseware = run ∨
      now - recentExportComplianceCheckWindow ≤ row.createdOn ∨ row.accepted = false) := by
  simp [ExportComplianceLog.counts, or_assoc]

theorem ExportComplianceLog.result_accepted : row.result.accepted = row.accepted := rfl

theorem newestLog_none {keys : List ℕ} (h : newestLog logs keys = none) : keys = [] := by
  cases keys with
  | nil => rfl
  | cons i rest =>
    rw [newestLog] at h
    split at h
    · cases h
    · split_ifs at h

/-- The newest of some logs is one of them, and none of them is newer. -/
theorem newestLog_some {keys : List ℕ} (h : newestLog logs keys = some k) :
    k ∈ keys ∧ ∀ l ∈ keys, (logs.row l).createdOn ≤ (logs.row k).createdOn := by
  induction keys generalizing k with
  | nil => cases h
  | cons i rest ih =>
    rw [newestLog] at h
    cases hrest : newestLog logs rest with
    | none =>
      rw [hrest] at h
      obtain rfl : i = k := Option.some.inj h
      rw [newestLog_none hrest]
      exact ⟨List.mem_cons_self .., fun l hl => by rw [List.mem_singleton.mp hl]⟩
    | some j =>
      obtain ⟨hj, hnewest⟩ := ih hrest
      rw [hrest] at h
      dsimp only at h
      split_ifs at h with hlt
      · obtain rfl : j = k := Option.some.inj h
        refine ⟨List.mem_cons_of_mem _ hj, fun l hl => ?_⟩
        rcases List.mem_cons.mp hl with rfl | hl
        · exact hlt.le
        · exact hnewest l hl
      · obtain rfl : i = k := Option.some.inj h
        refine ⟨List.mem_cons_self .., fun l hl => ?_⟩
        rcases List.mem_cons.mp hl with rfl | hl
        · exact le_rfl
        · exact (hnewest l hl).trans (not_lt.mp hlt)

/-- The log that is found counts, and no log that counts is newer. -/
theorem getLatestExportComplianceLog_some
    (h : getLatestExportComplianceLog logs now user run = some k) :
    (k ∈ logs.keys ∧ (logs.row k).counts now user run = true) ∧
      ∀ l ∈ logs.keys, (logs.row l).counts now user run = true →
        (logs.row l).createdOn ≤ (logs.row k).createdOn := by
  obtain ⟨hmem, hnewest⟩ := newestLog_some h
  exact ⟨List.mem_filter.mp hmem, fun l hl hcounts => hnewest l (List.mem_filter.mpr ⟨hl, hcounts⟩)⟩

/-- If no log is found, none counts. -/
theorem getLatestExportComplianceLog_none
    (h : getLatestExportComplianceLog logs now user run = none) :
    ∀ l ∈ logs.keys, (logs.row l).counts now user run = false := by
  intro l hl
  simpa using List.filter_eq_nil_iff.mp (newestLog_none h) l hl

/-! ## What a check does -/

variable (logs) in
/-- A check either answers from a log and changes nothing, or finds that no log counts. -/
theorem verifyUserWithExports_cases :
    (∃ k, getLatestExportComplianceLog logs now user run = some k ∧
      verifyUserWithExports logs now createdOn user run inquiry =
        ⟨logs, false, .ok (logs.row k).result⟩) ∨
    ((∀ l ∈ logs.keys, (logs.row l).counts now user run = false) ∧
      ∀ result, (verifyUserWithExports logs now createdOn user run inquiry).outcome = .ok result →
        inquiry = .answered result ∧
          (verifyUserWithExports logs now createdOn user run inquiry).requested = true) := by
  cases hlatest : getLatestExportComplianceLog logs now user run with
  | some k => exact .inl ⟨k, rfl, by simp [verifyUserWithExports, hlatest]⟩
  | none =>
    refine .inr ⟨getLatestExportComplianceLog_none hlatest, fun result hresult => ?_⟩
    cases inquiry with
    | unsent e => simp [verifyUserWithExports, hlatest] at hresult
    | failed e => simp [verifyUserWithExports, hlatest] at hresult
    | answered answer =>
      cases hlog : logExportComplianceCheck logs createdOn user run answer with
      | error e => simp [verifyUserWithExports, hlatest, hlog] at hresult
      | ok logs' =>
        simp only [verifyUserWithExports, hlatest, hlog, Except.ok.injEq] at hresult ⊢
        exact ⟨by rw [hresult], trivial⟩

theorem createExportComplianceLog_ok {logs' : Table ExportComplianceLog}
    (h : createExportComplianceLog logs row = .ok logs') : logs' = logs.create row := by
  unfold createExportComplianceLog at h
  split at h
  · cases h
  · split_ifs at h
    exact (Except.ok.inj h).symm

/-- A check stores a log of its user. -/
theorem logExportComplianceCheck_ok {result : ExportComplianceResult}
    {logs' : Table ExportComplianceLog}
    (h : logExportComplianceCheck logs createdOn user run result = .ok logs') :
    ∃ row : ExportComplianceLog, row.user = user ∧ row.createdOn = createdOn ∧
      logs' = logs.create row :=
  ⟨_, rfl, rfl, createExportComplianceLog_ok h⟩

variable (logs) in
/-- What a check writes: nothing, or, where no log counts, one log of its user. -/
theorem verifyUserWithExports_logs :
    (verifyUserWithExports logs now createdOn user run inquiry).logs = logs ∨
    ((∀ l ∈ logs.keys, (logs.row l).counts now user run = false) ∧
      ∃ row : ExportComplianceLog, row.user = user ∧ row.createdOn = createdOn ∧
        (verifyUserWithExports logs now createdOn user run inquiry).logs = logs.create row) := by
  cases hlatest : getLatestExportComplianceLog logs now user run with
  | some k => exact .inl (by simp [verifyUserWithExports, hlatest])
  | none =>
    cases inquiry with
    | unsent e => exact .inl (by simp [verifyUserWithExports, hlatest])
    | failed e => exact .inl (by simp [verifyUserWithExports, hlatest])
    | answered answer =>
      cases hlog : logExportComplianceCheck logs createdOn user run answer with
      | error e => exact .inl (by simp [verifyUserWithExports, hlatest, hlog])
      | ok logs' =>
        obtain ⟨row, huser, hdate, hlogs⟩ := logExportComplianceCheck_ok hlog
        refine .inr ⟨getLatestExportComplianceLog_none hlatest, row, huser, hdate, ?_⟩
        rw [← hlogs]
        simp [verifyUserWithExports, hlatest, hlog]

/-! ## What an approval does -/

theorem ExportComplianceLog.approve_accepted {admin : UserId} :
    (row.approve admin now).accepted = true := by
  simp [ExportComplianceLog.approve, ExportComplianceLog.accepted, acceptedDecisions]

variable (logs) in
/-- An approval changes at most one log, which is accepted then and keeps its user and its date. -/
theorem markManuallyApproved_cases {admin : UserId} {clean : Bool} :
    markManuallyApproved logs k admin now clean = logs ∨
      markManuallyApproved logs k admin now clean = logs.set k ((logs.row k).approve admin now) := by
  unfold markManuallyApproved
  dsimp only
  split_ifs
  · exact .inr rfl
  · exact .inl rfl

/-! ## The invariant -/

/-- No log is newer than the clock, and a rejection is newer than every other log of its user. -/
structure ComplianceState.Consistent (s : ComplianceState) : Prop where
  created_le : ∀ k ∈ s.logs.keys, (s.logs.row k).createdOn ≤ s.clock
  rejection_newest : ∀ user k, s.Rejection user k → ∀ l ∈ s.logs.keys, (s.logs.row l).user = user →
    l ≠ k → (s.logs.row l).createdOn < (s.logs.row k).createdOn

theorem ComplianceState.start_consistent (clock : Microseconds) :
    (ComplianceState.start clock).Consistent where
  created_le _ hk := absurd hk List.not_mem_nil
  rejection_newest _ _ hk := absurd hk.1 List.not_mem_nil

/-- Time passes. -/
theorem ComplianceState.Consistent.later (hs : s.Consistent) {clock : Microseconds}
    (h : s.clock ≤ clock) : (ComplianceState.mk s.logs clock).Consistent where
  created_le k hk := (hs.created_le k hk).trans h
  rejection_newest := hs.rejection_newest

/-- A user with no log that counts gets a log. -/
theorem ComplianceState.Consistent.create (hs : s.Consistent) (hnow : s.clock ≤ now)
    (hcreated : now ≤ row.createdOn)
    (hnone : ∀ l ∈ s.logs.keys, (s.logs.row l).counts now row.user run = false) :
    (ComplianceState.mk (s.logs.create row) row.createdOn).Consistent := by
  have hold : ∀ l ∈ s.logs.keys, (s.logs.create row).row l = s.logs.row l := fun l hl =>
    s.logs.create_row_of_ne row (Nat.ne_of_lt (s.logs.lt_nextKey hl))
  constructor
  · intro k hk
    rcases (s.logs.mem_create_keys row k).mp hk with hk | rfl
    · rw [hold k hk]
      exact ((hs.created_le k hk).trans hnow).trans hcreated
    · rw [Table.create_row_self]
  · rintro user k ⟨hk, huser, haccepted⟩ l hl hluser hne
    dsimp only at hk huser haccepted hl hluser ⊢
    rcases (s.logs.mem_create_keys row k).mp hk with hk | rfl <;>
      rcases (s.logs.mem_create_keys row l).mp hl with hl | rfl
    · rw [hold k hk] at huser haccepted ⊢
      rw [hold l hl] at hluser ⊢
      exact hs.rejection_newest user k ⟨hk, huser, haccepted⟩ l hl hluser hne
    · -- a rejection would have counted
      rw [hold k hk] at huser haccepted
      rw [Table.create_row_self] at hluser
      have hcounts : (s.logs.row k).counts now row.user run = true :=
        ExportComplianceLog.counts_iff.mpr ⟨by rw [huser, hluser], .inr (.inr haccepted)⟩
      rw [hnone k hk] at hcounts
      cases hcounts
    · -- what did not count is older than a day
      rw [Table.create_row_self] at huser ⊢
      rw [hold l hl] at hluser ⊢
      have hold : ¬ now - recentExportComplianceCheckWindow ≤ (s.logs.row l).createdOn := by
        intro hrecent
        have hcounts : (s.logs.row l).counts now row.user run = true :=
          ExportComplianceLog.counts_iff.mpr ⟨by rw [huser, hluser], .inr (.inl hrecent)⟩
        rw [hnone l hl] at hcounts
        cases hcounts
      have hwindow : (0 : ℤ) ≤ recentExportComplianceCheckWindow := by decide
      exact ((not_le.mp hold).trans_le (sub_le_self now hwindow)).trans_le hcreated
    · exact absurd rfl hne

/-- A log is approved. -/
theorem ComplianceState.Consistent.approve (hs : s.Consistent) (k : ℕ) (admin : UserId)
    (at' : Microseconds) :
    (ComplianceState.mk (s.logs.set k ((s.logs.row k).approve admin at')) s.clock).Consistent := by
  have hdate : ∀ l, ((s.logs.set k ((s.logs.row k).approve admin at')).row l).createdOn =
      (s.logs.row l).createdOn := by
    intro l
    by_cases hl : l = k
    · rw [hl, Table.set_row_self, ExportComplianceLog.approve]
    · rw [Table.set_row_of_ne _ _ hl]
  have huser : ∀ l, ((s.logs.set k ((s.logs.row k).approve admin at')).row l).user =
      (s.logs.row l).user := by
    intro l
    by_cases hl : l = k
    · rw [hl, Table.set_row_self, ExportComplianceLog.approve]
    · rw [Table.set_row_of_ne _ _ hl]
  constructor
  · intro l hl
    rw [hdate l]
    exact hs.created_le l hl
  · rintro user i ⟨hi, hiuser, haccepted⟩ l hl hluser hne
    dsimp only at hi hiuser haccepted hl hluser ⊢
    have hik : i ≠ k := by
      rintro rfl
      rw [Table.set_row_self, ExportComplianceLog.approve_accepted] at haccepted
      cases haccepted
    rw [huser] at hiuser hluser
    rw [Table.set_row_of_ne _ _ hik] at haccepted
    rw [hdate, hdate]
    exact hs.rejection_newest user i ⟨hi, hiuser, haccepted⟩ l hl hluser hne

/-- Every event keeps the invariant. -/
theorem ComplianceState.Consistent.step (hs : s.Consistent) : (s.step event).Consistent := by
  cases event with
  | verify pause took user run inquiry =>
    have hnow : s.clock ≤ s.clock + pause := le_add_of_nonneg_right (Int.natCast_nonneg pause)
    have hcreated : s.clock + pause ≤ s.clock + pause + took :=
      le_add_of_nonneg_right (Int.natCast_nonneg took)
    rcases verifyUserWithExports_logs s.logs with hlogs | ⟨hnone, row, huser, hdate, hlogs⟩
    · rw [ComplianceState.step, hlogs]
      exact hs.later (hnow.trans hcreated)
    · rw [ComplianceState.step, hlogs, ← hdate]
      rw [← huser] at hnone
      exact hs.create hnow (by rw [hdate]; exact hcreated) hnone
  | approve pause k admin clean =>
    have hnow : s.clock ≤ s.clock + pause := le_add_of_nonneg_right (Int.natCast_nonneg pause)
    rcases markManuallyApproved_cases s.logs with hlogs | hlogs
    · rw [ComplianceState.step, hlogs]
      exact hs.later hnow
    · rw [ComplianceState.step, hlogs]
      exact (hs.approve k admin _).later hnow

/-- The invariant holds after every history. -/
theorem ComplianceState.Consistent.after (hs : s.Consistent) (events : List ComplianceEvent) :
    (Trace.run ComplianceState.step s events).Consistent :=
  Trace.run_of_invariant Consistent (fun _ _ hs => hs.step) hs events

/-! ## The results -/

/-- Where a user has a rejection, a check answers with it. -/
theorem ComplianceState.Consistent.verify_of_rejection (hs : s.Consistent)
    (hk : s.Rejection user k) :
    verifyUserWithExports s.logs now createdOn user run inquiry =
      ⟨s.logs, false, .ok (s.logs.row k).result⟩ := by
  obtain ⟨hmem, huser, haccepted⟩ := hk
  have hcounts : (s.logs.row k).counts now user run = true :=
    ExportComplianceLog.counts_iff.mpr ⟨huser, .inr (.inr haccepted)⟩
  cases hlatest : getLatestExportComplianceLog s.logs now user run with
  | none =>
    rw [getLatestExportComplianceLog_none hlatest k hmem] at hcounts
    cases hcounts
  | some l =>
    obtain ⟨⟨hl, hlcounts⟩, hnewest⟩ := getLatestExportComplianceLog_some hlatest
    have hlk : l = k := by
      by_contra hne
      have hlt := hs.rejection_newest user k ⟨hmem, huser, haccepted⟩ l hl
        (ExportComplianceLog.counts_iff.mp hlcounts).1 hne
      exact absurd (hnewest k hmem hcounts) (not_le.mpr hlt)
    simp only [verifyUserWithExports, hlatest, hlk]

/-- A user has at most one rejection. -/
theorem ComplianceState.Consistent.rejection_unique (hs : s.Consistent) {l : ℕ}
    (hk : s.Rejection user k) (hl : s.Rejection user l) : k = l := by
  by_contra hne
  have hlt := hs.rejection_newest user k hk l hl.1 hl.2.1 (Ne.symm hne)
  exact absurd (hs.rejection_newest user l hl k hk.1 hk.2.1 hne) (not_lt.mpr hlt.le)

/-- An accepted result is a fresh answer or the result of an accepted log that counts. -/
theorem verifyUserWithExports_accepted {result : ExportComplianceResult}
    (hresult : (verifyUserWithExports logs now createdOn user run inquiry).outcome = .ok result)
    (haccepted : result.accepted = true) :
    (inquiry = .answered result ∧
        (verifyUserWithExports logs now createdOn user run inquiry).requested = true) ∨
      ∃ k ∈ logs.keys, (logs.row k).user = user ∧ (logs.row k).accepted = true ∧
        result = (logs.row k).result ∧ ((logs.row k).courseware = run ∨
          now - recentExportComplianceCheckWindow ≤ (logs.row k).createdOn) := by
  rcases verifyUserWithExports_cases logs with ⟨k, hlatest, hcheck⟩ | ⟨-, hfresh⟩
  · rw [hcheck, Except.ok.injEq] at hresult
    subst hresult
    rw [ExportComplianceLog.result_accepted] at haccepted
    obtain ⟨hk, hcounts⟩ := (getLatestExportComplianceLog_some hlatest).1
    obtain ⟨huser, hcourseware | hrecent | hrejected⟩ := ExportComplianceLog.counts_iff.mp hcounts
    · exact .inr ⟨k, hk, huser, haccepted, rfl, .inl hcourseware⟩
    · exact .inr ⟨k, hk, huser, haccepted, rfl, .inr hrecent⟩
    · rw [haccepted] at hrejected
      cases hrejected
  · exact .inl (hfresh result hresult)

/-- After any history of checks and approvals: a check of a user with a rejection sends no request and
returns a result that is not accepted; an accepted result is CyberSource's answer to this check, or
stored for this courseware or within a day; and no user has two rejections. -/
theorem exportRejection_isSticky (clock : Microseconds) (events : List ComplianceEvent)
    (user : UserId) (run : CoursewareObject) (pause took : ℕ) (inquiry : Inquiry) :
    let s := Trace.run ComplianceState.step (ComplianceState.start clock) events
    let now := s.clock + pause
    let check := verifyUserWithExports s.logs now (now + took) user run inquiry
    ((∃ k, s.Rejection user k) → check.requested = false ∧
      ∃ result, check.outcome = .ok result ∧ result.accepted = false) ∧
    (∀ result, check.outcome = .ok result → result.accepted = true →
      (inquiry = .answered result ∧ check.requested = true) ∨
        ∃ k ∈ s.logs.keys, (s.logs.row k).user = user ∧ (s.logs.row k).accepted = true ∧
          result = (s.logs.row k).result ∧ ((s.logs.row k).courseware = run ∨
            now - recentExportComplianceCheckWindow ≤ (s.logs.row k).createdOn)) ∧
    ∀ k l, s.Rejection user k → s.Rejection user l → k = l := by
  intro s now check
  have hs : s.Consistent := (ComplianceState.start_consistent clock).after events
  refine ⟨?_, ?_, ?_⟩
  · rintro ⟨k, hk⟩
    have hcheck : check = ⟨s.logs, false, .ok (s.logs.row k).result⟩ := hs.verify_of_rejection hk
    rw [hcheck]
    exact ⟨rfl, _, rfl, hk.2.2⟩
  · intro result hresult haccepted
    exact verifyUserWithExports_accepted hresult haccepted
  · intro k l hk hl
    exact hs.rejection_unique hk hl

/-- A user who is declined for one run is declined for another one a year later. -/
example :
    let declined : ExportComplianceResult := ⟨some "DECLINED", none, some "1"⟩
    let s := Trace.run ComplianceState.step (ComplianceState.start 0)
      [.verify 0 1 5 ⟨.courseRun, 1⟩ (.answered declined)]
    let check := verifyUserWithExports s.logs 31536000000000 31536000000001 5 ⟨.program, 7⟩
      (.answered ⟨some "COMPLETED", none, some "2"⟩)
    check.requested = false ∧ check.outcome.toOption = some ⟨some "DECLINED", some "", some "1"⟩ := by
  decide

end MitxOnline

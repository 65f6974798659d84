import MitxOnline.Courses.Certificates
import MitxOnline.Lib.Trace

/-!
# Grades and certificates over whole runs

Generating certificates adds a row where there is none; only revocations, un-revocations and grades of
zero touch a row that exists, and a grade of zero does not reach a revoked one.
-/

namespace MitxOnline

variable {cur : Curriculum} {limit : ℕ} {now : Instant} {s s' t : CertificateStore} {user : UserId}
  {r : RunId} {p : ProgramId}

/-! ## Issuing certificates for programs -/

/-- Certificates for programs were added where there were none, and nothing else has changed. -/
structure IssuesPrograms (s s' : CertificateStore) : Prop where
  grades : s'.grades = s.grades
  courseRunCertificates : s'.courseRunCertificates = s.courseRunCertificates
  programCertificates : ∀ user p, s'.programCertificates user p = s.programCertificates user p ∨
    s.programCertificates user p = [] ∧ ∃ c, s'.programCertificates user p = [c]

theorem IssuesPrograms.refl (s : CertificateStore) : IssuesPrograms s s :=
  ⟨rfl, rfl, fun _ _ => .inl rfl⟩

theorem IssuesPrograms.trans (h : IssuesPrograms s s') (h' : IssuesPrograms s' t) :
    IssuesPrograms s t := by
  refine ⟨h'.grades.trans h.grades, h'.courseRunCertificates.trans h.courseRunCertificates, ?_⟩
  intro user p
  rcases h.programCertificates user p with hsame | ⟨hnone, c, hc⟩
  · rw [← hsame]
    exact h'.programCertificates user p
  · rcases h'.programCertificates user p with hsame' | ⟨hnone', _⟩
    · exact .inr ⟨hnone, c, hsame'.trans hc⟩
    · rw [hc] at hnone'
      cases hnone'

theorem generateProgramCertificate_cases (cur : Curriculum) (limit : ℕ) (now : Instant)
    (user : UserId) (p : ProgramId) (forceCreate : Bool) (s : CertificateStore) :
    (generateProgramCertificate cur limit now user p forceCreate s).1 = s ∨
      s.programCertificates user p = [] ∧
        (generateProgramCertificate cur limit now user p forceCreate s).1 =
          s.setProgramCertificates user p [⟨false, now⟩] := by
  rw [generateProgramCertificate]
  split
  · exact .inl rfl
  · cases hrows : s.programCertificates user p with
    | cons c rows => exact .inl rfl
    | nil =>
      by_cases hforce : forceCreate = true
      · exact .inr ⟨rfl, by simp only [hforce, if_true]⟩
      · simp only [hforce, if_false, Bool.false_eq_true]
        cases hasEarnedProgramCert cur s user limit p with
        | error e => exact .inl rfl
        | ok b =>
          cases b with
          | false => exact .inl rfl
          | true => exact .inr ⟨trivial, rfl⟩

theorem generateProgramCertificate_issues (cur : Curriculum) (limit : ℕ) (now : Instant)
    (user : UserId) (p : ProgramId) (forceCreate : Bool) (s : CertificateStore) :
    IssuesPrograms s (generateProgramCertificate cur limit now user p forceCreate s).1 := by
  rcases generateProgramCertificate_cases cur limit now user p forceCreate s with h | ⟨hnone, h⟩
  · rw [h]
    exact .refl s
  · rw [h]
    refine ⟨rfl, rfl, fun user' p' => ?_⟩
    by_cases hpair : user' = user ∧ p' = p
    · obtain ⟨rfl, rfl⟩ := hpair
      exact .inr ⟨hnone, _, setPair_self _ _ _ _⟩
    · exact .inl (setPair_of_ne hpair)

theorem generateMultiple_issues (cur : Curriculum) (limit : ℕ) (now : Instant) (user : UserId)
    (programs : List ProgramId) (s : CertificateStore) :
    IssuesPrograms s (generateMultipleProgramsCertificate cur limit now user programs s).1 := by
  induction programs generalizing s with
  | nil => exact .refl s
  | cons p rest ih =>
    have hfirst := generateProgramCertificate_issues cur limit now user p false s
    rw [generateMultipleProgramsCertificate]
    split
    · rename_i h
      rw [h] at hfirst
      exact hfirst
    · rename_i h
      rw [h] at hfirst
      exact hfirst.trans (ih _)

theorem processCandidate_issues (i : ℕ) (run : CertificateStore × BackfillStats) :
    IssuesPrograms run.1 (processCandidate cur limit now i run).1 := by
  have hfirst := generateProgramCertificate_issues cur limit now
    (run.1.programEnrollments.table.row i).user (run.1.programEnrollments.table.row i).program false
    run.1
  rw [processCandidate]
  split <;>
    (rename_i h
     rw [h] at hfirst
     exact hfirst)

theorem processBatch_issues (batch : List ℕ) (run : CertificateStore × BackfillStats) :
    IssuesPrograms run.1 (processBatch cur limit now batch run).1 := by
  induction batch generalizing run with
  | nil => exact .refl run.1
  | cons i batch ih => exact (processCandidate_issues i run).trans (ih _)

theorem processBatches_issues {batchSize fuel last : ℕ} {run run' : CertificateStore × BackfillStats}
    (h : processBatches cur limit now batchSize fuel last run = some run') :
    IssuesPrograms run.1 run'.1 := by
  induction fuel generalizing last run with
  | zero => cases h
  | succ fuel ih =>
    rw [processBatches] at h
    split at h
    · obtain rfl := Option.some.inj h
      exact .refl run.1
    · exact (processBatch_issues _ run).trans (ih h)

/-! ## One event -/

/-- At most one certificate for a pair of user and run or program, counting revoked ones. -/
structure RowsUnique (s : CertificateStore) : Prop where
  courseRun : ∀ user r, (s.courseRunCertificates user r).length ≤ 1
  program : ∀ user p, (s.programCertificates user p).length ≤ 1

/-- The event is an admin's override of the grade of the user in the run. -/
def CertificateEvent.Overrides (user : UserId) (r : RunId) (e : CertificateEvent) : Prop :=
  ∃ grade letterGrade shouldForcePass, e = .overrideGrade user grade letterGrade r shouldForcePass

/-- A revoked certificate of the run is still the only one. -/
def RevokedKept (rows rows' : List Certificate) : Prop :=
  ∀ c, rows = [c] → c.isRevoked = true → rows' = [c]

/-- What an event keeps. -/
structure StepKeeps (s : CertificateStore) (e : CertificateEvent) (s' : CertificateStore) : Prop where
  grades : ∀ user r g, s.grades user r = some g → g.setByAdmin = true → ¬e.Overrides user r →
    s'.grades user r = some g
  courseRunUnique : ∀ user r, (s.courseRunCertificates user r).length ≤ 1 →
    (s'.courseRunCertificates user r).length ≤ 1
  programUnique : ∀ user p, (s.programCertificates user p).length ≤ 1 →
    (s'.programCertificates user p).length ≤ 1
  courseRunRevoked : ∀ user r, e ≠ .manageCourseRun user r false →
    RevokedKept (s.courseRunCertificates user r) (s'.courseRunCertificates user r)
  programRevoked : ∀ user p, e ≠ .manageProgram user p false →
    RevokedKept (s.programCertificates user p) (s'.programCertificates user p)

theorem RevokedKept.refl (rows : List Certificate) : RevokedKept rows rows := fun _ h _ => h

theorem StepKeeps.refl (s : CertificateStore) (e : CertificateEvent) : StepKeeps s e s :=
  ⟨fun _ _ _ hg _ _ => hg, fun _ _ h => h, fun _ _ h => h, fun _ _ _ => .refl _, fun _ _ _ => .refl _⟩

theorem IssuesPrograms.stepKeeps (h : IssuesPrograms s s') (e : CertificateEvent) :
    StepKeeps s e s' := by
  refine ⟨fun user r g hg _ _ => ?_, fun user r hrows => ?_, fun user p hrows => ?_,
    fun user r _ => ?_, fun user p _ => ?_⟩
  · rw [h.grades]
    exact hg
  · rw [h.courseRunCertificates]
    exact hrows
  · rcases h.programCertificates user p with hsame | ⟨_, c, hc⟩
    · rw [hsame]
      exact hrows
    · simp [hc]
  · rw [h.courseRunCertificates]
    exact .refl _
  · intro c hc _
    rcases h.programCertificates user p with hsame | ⟨hnone, _⟩
    · rw [hsame, hc]
    · rw [hnone] at hc
      cases hc

/-- Writing a grade over one that is not an admin's, or an admin writing one. -/
theorem stepKeeps_setGrade {e : CertificateEvent} {g : CourseRunGrade}
    (h : (∀ g', s.grades user r = some g' → g'.setByAdmin = false) ∨ e.Overrides user r) :
    StepKeeps s e (s.setGrade user r g) := by
  refine ⟨fun user' r' g' hg' hadmin hnot => ?_, fun _ _ hrows => hrows, fun _ _ hrows => hrows,
    fun _ _ _ => .refl _, fun _ _ _ => .refl _⟩
  by_cases hpair : user' = user ∧ r' = r
  · obtain ⟨rfl, rfl⟩ := hpair
    rcases h with h | h
    · rw [h g' hg'] at hadmin
      cases hadmin
    · exact absurd h hnot
  · exact (setPair_of_ne hpair).trans hg'

/-- Replacing the certificates of one pair. -/
theorem setPair_length_le {f : UserId → ℕ → List Certificate} {key : ℕ} {rows : List Certificate}
    (h : (f user key).length ≤ 1 → rows.length ≤ 1) (user' : UserId) (key' : ℕ)
    (hrows : (f user' key').length ≤ 1) : (setPair f user key rows user' key').length ≤ 1 := by
  by_cases hpair : user' = user ∧ key' = key
  · obtain ⟨rfl, rfl⟩ := hpair
    rw [setPair_self]
    exact h hrows
  · rw [setPair_of_ne hpair]
    exact hrows

theorem setPair_revokedKept {f : UserId → ℕ → List Certificate} {key : ℕ} {rows : List Certificate}
    (user' : UserId) (key' : ℕ)
    (h : user' = user ∧ key' = key → RevokedKept (f user key) rows) :
    RevokedKept (f user' key') (setPair f user key rows user' key') := by
  by_cases hpair : user' = user ∧ key' = key
  · have hkept := h hpair
    obtain ⟨rfl, rfl⟩ := hpair
    rw [setPair_self]
    exact hkept
  · rw [setPair_of_ne hpair]
    exact .refl _

theorem stepKeeps_setCourseRunCertificates {e : CertificateEvent} {rows : List Certificate}
    (hunique : (s.courseRunCertificates user r).length ≤ 1 → rows.length ≤ 1)
    (hrevoked : e ≠ .manageCourseRun user r false →
      RevokedKept (s.courseRunCertificates user r) rows) :
    StepKeeps s e (s.setCourseRunCertificates user r rows) := by
  refine ⟨fun _ _ _ hg _ _ => hg, setPair_length_le hunique, fun _ _ hrows => hrows,
    fun user' r' hne => setPair_revokedKept user' r' fun hpair => ?_, fun _ _ _ => .refl _⟩
  obtain ⟨rfl, rfl⟩ := hpair
  exact hrevoked hne

theorem stepKeeps_setProgramCertificates {e : CertificateEvent} {rows : List Certificate}
    (hunique : (s.programCertificates user p).length ≤ 1 → rows.length ≤ 1)
    (hrevoked : e ≠ .manageProgram user p false →
      RevokedKept (s.programCertificates user p) rows) :
    StepKeeps s e (s.setProgramCertificates user p rows) := by
  refine ⟨fun _ _ _ hg _ _ => hg, fun _ _ hrows => hrows, setPair_length_le hunique,
    fun _ _ _ => .refl _, fun user' p' hne => setPair_revokedKept user' p' fun hpair => ?_⟩
  obtain ⟨rfl, rfl⟩ := hpair
  exact hrevoked hne

/-- Revoking a certificate that is revoked changes nothing. -/
theorem revokedKept_revoke (c : Certificate) {revokeState : Bool} (h : revokeState ≠ false) :
    RevokedKept [c] [{ c with isRevoked := revokeState }] := by
  intro c' hc' hrevoked
  cases hc'
  have hsame : { c with isRevoked := true } = c := by rw [← hrevoked]
  rw [Bool.eq_true_of_not_eq_false h, hsame]

theorem syncGrade_keeps (edxGrade : EdxGrade) (shouldUpdate : Bool) (e : CertificateEvent) :
    StepKeeps s e (ensureCourseRunGrade user r edxGrade shouldUpdate s).1 := by
  rw [ensureCourseRunGrade]
  cases hg : s.grades user r with
  | none =>
    dsimp only
    split
    · exact stepKeeps_setGrade (.inl fun g' hg' => by rw [hg] at hg'; cases hg')
    · exact .refl s e
  | some g =>
    dsimp only
    split
    · rename_i hupdate
      split
      · exact .refl s e
      · refine stepKeeps_setGrade (.inl fun g' hg' => ?_)
        obtain rfl := Option.some.inj (hg.symm.trans hg')
        exact hupdate.2.1
    · exact .refl s e

theorem overrideGrade_keeps (grade : ℚ) (letterGrade : String) (shouldForcePass : Bool) :
    StepKeeps s (.overrideGrade user grade letterGrade r shouldForcePass)
      (overrideUserGrade user grade letterGrade r shouldForcePass s).1 := by
  rw [overrideUserGrade]
  split
  · exact .refl s _
  · split
    · exact .refl s _
    · cases s.grades user r with
      | none => exact .refl s _
      | some g =>
        dsimp only
        split
        · exact .refl s _
        · exact stepKeeps_setGrade (.inr ⟨grade, letterGrade, shouldForcePass, rfl⟩)

/-- Deleting the active certificates keeps a revoked one. -/
theorem revokedKept_filter (rows : List Certificate) (now : Instant) :
    RevokedKept rows (rows.filter fun c => !c.isActive now) := by
  rintro c rfl hrevoked
  simp [Certificate.isActive, hrevoked]

theorem StepKeeps.issues {e : CertificateEvent} (h : StepKeeps s e s') (h' : IssuesPrograms s' t) :
    StepKeeps s e t := by
  have hnext := h'.stepKeeps e
  refine ⟨fun user r g hg hadmin hnot => hnext.grades user r g (h.grades user r g hg hadmin hnot)
      hadmin hnot,
    fun user r hrows => hnext.courseRunUnique user r (h.courseRunUnique user r hrows),
    fun user p hrows => hnext.programUnique user p (h.programUnique user p hrows),
    fun user r hne c hc hrevoked => hnext.courseRunRevoked user r hne c
      (h.courseRunRevoked user r hne c hc hrevoked) hrevoked,
    fun user p hne c hc hrevoked => hnext.programRevoked user p hne c
      (h.programRevoked user p hne c hc hrevoked) hrevoked⟩

theorem processCourseRun_keeps (g : CourseRunGrade) (shouldForceCreate : Bool)
    (e : CertificateEvent) :
    StepKeeps s e
      (processCourseRunGradeCertificate cur limit now user r g shouldForceCreate s).1 := by
  rw [processCourseRunGradeCertificate]
  split
  · refine stepKeeps_setCourseRunCertificates (fun hrows => ?_) fun _ => revokedKept_filter _ now
    exact (List.length_filter_le _ _).trans hrows
  · split
    · split
      · exact .refl s e
      · exact .refl s e
      · split
        · exact .refl s e
        · rename_i hrows
          have hcreate : StepKeeps s e (s.setCourseRunCertificates user r [⟨false, now⟩]) :=
            stepKeeps_setCourseRunCertificates (fun _ => by simp) fun _ c hc => by
              rw [hrows] at hc
              cases hc
          have hissues := generateMultiple_issues cur limit now user
            (programsWithCourse cur (cur.courseRun r).course)
            (s.setCourseRunCertificates user r [⟨false, now⟩])
          split <;>
            (rename_i h
             rw [h] at hissues
             exact hcreate.issues hissues)
    · exact .refl s e

theorem manageCourseRun_keeps (revokeState : Bool) :
    StepKeeps s (.manageCourseRun user r revokeState)
      (manageCourseRunCertificateAccess cur user r revokeState s).1 := by
  rw [manageCourseRunCertificateAccess]
  split
  · exact .refl s _
  · split
    · exact .refl s _
    · rename_i c hrows
      refine stepKeeps_setCourseRunCertificates (fun _ => by simp) fun hne => ?_
      rw [hrows]
      refine revokedKept_revoke c fun hstate => ?_
      rw [hstate] at hne
      exact hne rfl
    · exact .refl s _

theorem manageProgram_keeps (revokeState : Bool) :
    StepKeeps s (.manageProgram user p revokeState)
      (manageProgramCertificateAccess user p revokeState s).1 := by
  rw [manageProgramCertificateAccess]
  split
  · exact .refl s _
  · rename_i c hrows
    refine stepKeeps_setProgramCertificates (fun _ => by simp) fun hne => ?_
    rw [hrows]
    refine revokedKept_revoke c fun hstate => ?_
    rw [hstate] at hne
    exact hne rfl
  · exact .refl s _

theorem certificateStep_keeps (cur : Curriculum) (limit : ℕ) (s : CertificateStore)
    (e : Instant × CertificateEvent) : StepKeeps s e.2 (certificateStep cur limit s e) := by
  obtain ⟨now, e⟩ := e
  cases e with
  | syncGrade user r edxGrade shouldUpdate => exact syncGrade_keeps edxGrade shouldUpdate _
  | overrideGrade user grade letterGrade r shouldForcePass =>
    exact overrideGrade_keeps grade letterGrade shouldForcePass
  | processCourseRun user r g shouldForceCreate => exact processCourseRun_keeps g shouldForceCreate _
  | generateProgram user p forceCreate =>
    exact (generateProgramCertificate_issues cur limit now user p forceCreate s).stepKeeps _
  | generateMissing batchSize =>
    rw [certificateStep]
    dsimp only
    cases h : generateMissingProgramCertificates cur limit now batchSize s with
    | none => exact .refl s _
    | some run => exact (processBatches_issues h).stepKeeps _
  | manageCourseRun user r revokeState => exact manageCourseRun_keeps revokeState
  | manageProgram user p revokeState => exact manageProgram_keeps revokeState
  | enroll enrollments programEnrollments =>
    exact ⟨fun _ _ _ hg _ _ => hg, fun _ _ h => h, fun _ _ h => h, fun _ _ _ => .refl _,
      fun _ _ _ => .refl _⟩

/-! ## Runs -/

/-- What the events between two states keep: a grade that an admin has set stays as it is until an
admin overrides it, and a revoked certificate stays the only one, and revoked, until it is
un-revoked. -/
structure RunKeeps (s : CertificateStore) (events : List (Instant × CertificateEvent))
    (s' : CertificateStore) : Prop where
  grades : ∀ user r g, s.grades user r = some g → g.setByAdmin = true →
    (∀ e ∈ events, ¬e.2.Overrides user r) → s'.grades user r = some g
  courseRunRevoked : ∀ user r c, c ∈ s.courseRunCertificates user r → c.isRevoked = true →
    (∀ e ∈ events, e.2 ≠ .manageCourseRun user r false) → s'.courseRunCertificates user r = [c]
  programRevoked : ∀ user p c, c ∈ s.programCertificates user p → c.isRevoked = true →
    (∀ e ∈ events, e.2 ≠ .manageProgram user p false) → s'.programCertificates user p = [c]

theorem RowsUnique.step (h : RowsUnique s) (cur : Curriculum) (limit : ℕ)
    (e : Instant × CertificateEvent) :
    RowsUnique (certificateStep cur limit s e) := by
  have hkeeps := certificateStep_keeps cur limit s e
  exact ⟨fun user r => hkeeps.courseRunUnique user r (h.courseRun user r),
    fun user p => hkeeps.programUnique user p (h.program user p)⟩

theorem RowsUnique.run (h : RowsUnique s) (cur : Curriculum) (limit : ℕ)
    (events : List (Instant × CertificateEvent)) :
    RowsUnique (Trace.run (certificateStep cur limit) s events) :=
  Trace.run_of_invariant RowsUnique (fun _ e h => h.step cur limit e) h events

theorem eq_singleton_of_mem {rows : List Certificate} {c : Certificate} (hunique : rows.length ≤ 1)
    (hc : c ∈ rows) : rows = [c] := by
  obtain ⟨before, after, rfl⟩ := List.append_of_mem hc
  simp only [List.length_append, List.length_cons] at hunique
  have hbefore : before = [] := List.eq_nil_of_length_eq_zero (by omega)
  have hafter : after = [] := List.eq_nil_of_length_eq_zero (by omega)
  rw [hbefore, hafter, List.nil_append]

theorem RowsUnique.runKeeps (h : RowsUnique s) (cur : Curriculum) (limit : ℕ)
    (events : List (Instant × CertificateEvent)) :
    RunKeeps s events (Trace.run (certificateStep cur limit) s events) := by
  induction events generalizing s with
  | nil =>
    exact ⟨fun _ _ _ hg _ _ => hg, fun user r c hc _ _ => eq_singleton_of_mem (h.courseRun user r) hc,
      fun user p c hc _ _ => eq_singleton_of_mem (h.program user p) hc⟩
  | cons e rest ih =>
    have hkeeps := certificateStep_keeps cur limit s e
    have hrest := ih (h.step cur limit e)
    refine ⟨fun user r g hg hadmin hnone => ?_, fun user r c hc hrevoked hnone => ?_,
      fun user p c hc hrevoked hnone => ?_⟩
    · have hstep := hkeeps.grades user r g hg hadmin (hnone e List.mem_cons_self)
      exact hrest.grades user r g hstep hadmin fun e' he' => hnone e' (List.mem_cons_of_mem e he')
    · have hstep := hkeeps.courseRunRevoked user r (hnone e List.mem_cons_self) c
        (eq_singleton_of_mem (h.courseRun user r) hc) hrevoked
      exact hrest.courseRunRevoked user r c (by rw [hstep]; exact List.mem_singleton_self c) hrevoked
        fun e' he' => hnone e' (List.mem_cons_of_mem e he')
    · have hstep := hkeeps.programRevoked user p (hnone e List.mem_cons_self) c
        (eq_singleton_of_mem (h.program user p) hc) hrevoked
      exact hrest.programRevoked user p c (by rw [hstep]; exact List.mem_singleton_self c) hrevoked
        fun e' he' => hnone e' (List.mem_cons_of_mem e he')

/-- In every state of every run there is at most one certificate of a user for a run or a program, and
from every state on admin grades and revoked certificates are kept. -/
theorem certificates_kept (cur : Curriculum) (limit : ℕ) (s : CertificateStore) (h : RowsUnique s)
    (before after : List (Instant × CertificateEvent)) :
    RowsUnique (Trace.run (certificateStep cur limit) s before) ∧
      RunKeeps (Trace.run (certificateStep cur limit) s before) after
        (Trace.run (certificateStep cur limit) s (before ++ after)) := by
  have hbefore := h.run cur limit before
  refine ⟨hbefore, ?_⟩
  have hrun : Trace.run (certificateStep cur limit) s (before ++ after) =
      Trace.run (certificateStep cur limit) (Trace.run (certificateStep cur limit) s before) after :=
    List.foldl_append
  rw [hrun]
  exact hbefore.runKeeps cur limit after

/-- A certificate that is revoked and then generated again. -/
theorem certificates_kept_example :
    RowsUnique (Trace.run (certificateStep (.ofRequirements fun _ => none) 1)
        (CertificateStore.empty.setProgramCertificates 1 1 [⟨false, 0⟩])
        [(0, .manageProgram 1 1 true)]) ∧
      RunKeeps (Trace.run (certificateStep (.ofRequirements fun _ => none) 1)
          (CertificateStore.empty.setProgramCertificates 1 1 [⟨false, 0⟩])
          [(0, .manageProgram 1 1 true)])
        [(1, .generateProgram 1 1 true)]
        (Trace.run (certificateStep (.ofRequirements fun _ => none) 1)
          (CertificateStore.empty.setProgramCertificates 1 1 [⟨false, 0⟩])
          ([(0, .manageProgram 1 1 true)] ++ [(1, .generateProgram 1 1 true)])) := by
  have hunique : RowsUnique (CertificateStore.empty.setProgramCertificates 1 1 [⟨false, 0⟩]) :=
    ⟨fun _ _ => Nat.zero_le 1, fun user p =>
      setPair_length_le (fun _ => List.length_singleton.le) user p (Nat.zero_le 1)⟩
  exact certificates_kept _ 1 _ hunique _ _

end MitxOnline

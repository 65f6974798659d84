import MitxOnline.B2b.Proofs.ContractsProofs
import MitxOnline.Courses.Enrollments
import MitxOnline.Ecommerce.PendingOrder

/-!
# What enrolling writes

A relation between databases that is kept by writing the enrollments, the memberships and the records
of what was paid for is kept by the code that enrolls.
-/

namespace MitxOnline

open Autocommit

variable {r : Store → Store → Prop} {f : Faults} {cat : Catalog} {user : UserId} {now : Instant}
  {o : OrderId}

/-- What a relation must allow to be kept when `user` is enrolled in `run`. -/
structure AllowsRun (r : Store → Store → Prop) (f : Faults) (cat : Catalog) (now : Instant) (user : UserId)
    (run : RunId) : Prop where
  enrollment : ∀ row s, r s (setEnrollment user run row s)
  join : Keeps r (joinContract f cat now user run)

theorem keeps_joinContract (hr : IsFrame r) {run : RunId}
    (horg : ∀ org k s, r s (setUserOrganization user org (some k) s))
    (hadd : ∀ c s, r s (addContract user c s)) : Keeps r (joinContract f cat now user run) := by
  unfold joinContract
  split
  · exact keeps_skip hr
  · refine keeps_seq_cons hr ?_ (keeps_seq_cons hr (keeps_write hr (hadd _)) (keeps_seq_nil hr))
    exact keeps_processAddOrgMembership hr (horg _) (fun c _ => hadd c)

theorem keeps_recordRunEnrollment (hr : IsFrame r) {run : RunId} (h : AllowsRun r f cat now user run)
    {changeStatus : Option String} {mode : EnrollmentMode} {success : Bool} :
    Keeps r (recordRunEnrollment f cat now user changeStatus mode success run) := by
  intro s
  unfold recordRunEnrollment
  split
  · refine keeps_attempt (keeps_seq_cons hr ?_ (keeps_seq_cons hr ?_
      (keeps_seq_cons hr h.join (keeps_seq_nil hr)))) s
    · exact keeps_write hr (h.enrollment _)
    · exact keeps_mayFail hr
  · refine keeps_attempt (keeps_seq_cons hr ?_ (keeps_seq_cons hr h.join
      (keeps_seq_cons hr ?_ (keeps_seq_cons hr ?_ (keeps_seq_nil hr))))) s
    · exact keeps_mayFail hr
    · exact keeps_write hr (h.enrollment _)
    · exact keeps_write hr (h.enrollment _)

/-- What the rounds for the runs keep. -/
theorem keeps_createRunEnrollments_of_record (hr : IsFrame r) {runs : List RunId}
    {changeStatus : Option String} {keep : Bool} {mode : EnrollmentMode}
    (h : ∀ success, ∀ run ∈ runs,
      Keeps r (recordRunEnrollment f cat now user changeStatus mode success run)) :
    Keeps r (createRunEnrollments f cat now user runs changeStatus keep mode) := by
  have hrecord : ∀ success, Keeps r (seq (runs.map
      (recordRunEnrollment f cat now user changeStatus mode success))) := by
    intro success
    apply keeps_seq hr
    intro a ha
    obtain ⟨run, hrun, rfl⟩ := List.mem_map.mp ha
    exact h success run hrun
  unfold createRunEnrollments
  split
  · exact keeps_raise hr _
  · dsimp only
    split
    · exact hrecord true
    · split
      · exact hrecord true
      · split
        · exact hrecord false
        · exact keeps_skip hr
      · exact keeps_raise hr _

theorem keeps_createRunEnrollments (hr : IsFrame r) {runs : List RunId}
    (h : ∀ run ∈ runs, AllowsRun r f cat now user run) {changeStatus : Option String} {keep : Bool}
    {mode : EnrollmentMode} : Keeps r (createRunEnrollments f cat now user runs changeStatus keep mode) :=
  keeps_createRunEnrollments_of_record hr fun _ run hrun => keeps_recordRunEnrollment hr (h run hrun)

theorem keeps_createProgramEnrollments (hr : IsFrame r) {programs : List ProgramId}
    (h : ∀ p ∈ programs, ∀ row s, r s (setProgramEnrollment user p row s)) {mode : EnrollmentMode} :
    Keeps r (createProgramEnrollments f user programs mode) := by
  apply keeps_seq hr
  intro a ha
  obtain ⟨p, hp, rfl⟩ := List.mem_map.mp ha
  have hwrite := h p hp
  intro s
  unfold recordProgramEnrollment
  split
  · exact keeps_attempt (keeps_write hr (hwrite _)) s
  · exact keeps_attempt (keeps_seq_cons hr (keeps_write hr (hwrite _))
      (keeps_seq_cons hr (keeps_write hr (hwrite _))
        (keeps_seq_nil hr))) s

/-- The courses of a program. -/
def inProgram (cat : Catalog) (p : ProgramId) (run : RunId) : Prop :=
  (cat.courseRun run).course ∈ cat.programCourses p

theorem keeps_upgrade (hr : IsFrame r) {p : ProgramId}
    (h : ∀ run, inProgram cat p run → AllowsRun r f cat now user run) :
    Keeps r (upgradeAuditRunEnrollmentsForProgramPurchase f cat now user p) := by
  intro s
  unfold upgradeAuditRunEnrollmentsForProgramPurchase
  split
  · exact hr.refl s
  · rename_i run runs hruns
    apply keeps_createRunEnrollments hr
    intro run' hrun'
    rw [← hruns] at hrun'
    have helig := (List.mem_filter.mp hrun').2
    simp only [Bool.and_eq_true] at helig
    exact h run' (by simpa [inProgram] using helig.1.1.1.1)

/-- What a relation must allow to be kept when a line of an order is processed. -/
structure AllowsLine (r : Store → Store → Prop) (f : Faults) (cat : Catalog) (now : Instant) (user : UserId)
    (o : OrderId) (l : Line) : Prop where
  run : ∀ run, l.purchases .courseRun run = true → AllowsRun r f cat now user run
  paidRun : ∀ run, l.purchases .courseRun run = true → ∀ s, ⟨user, run, o⟩ ∉ s.paidCourseRuns →
    r s { s with paidCourseRuns := s.paidCourseRuns ++ [⟨user, run, o⟩] }
  program : ∀ p, l.purchases .program p = true → ∀ row s, r s (setProgramEnrollment user p row s)
  paidProgram : ∀ p, l.purchases .program p = true →
    ∀ s, r s { s with paidPrograms := s.paidPrograms ++ [⟨user, p, o⟩] }
  upgrade : ∀ p, l.purchases .program p = true →
    ∀ run, inProgram cat p run → AllowsRun r f cat now user run

theorem keeps_createPaidCourseRun (hr : IsFrame r) {row : PaidCourseRun}
    (h : ∀ s, row ∉ s.paidCourseRuns → r s { s with paidCourseRuns := s.paidCourseRuns ++ [row] }) :
    Keeps r (createPaidCourseRun f row) := by
  refine keeps_fallible hr (keeps_statement hr fun s s' hs => ?_)
  split at hs
  · cases hs
  · rename_i hnew
    cases hs
    exact h s hnew

theorem keeps_createPaidProgram (hr : IsFrame r) {row : PaidProgram}
    (h : ∀ s, r s { s with paidPrograms := s.paidPrograms ++ [row] }) :
    Keeps r (createPaidProgram f row) := by
  refine keeps_fallible hr (keeps_statement hr fun s s' hs => ?_)
  split at hs
  · cases hs
  · cases hs
    exact h s

/-- The line is for nothing: one of its columns is null. -/
def Line.purchasesNothing (l : Line) : Prop :=
  l.purchasedContentType = none ∨ l.purchasedObjectId = none

theorem purchases_inj {l : Line} {ct ct' : ContentType} {id id' : ℕ}
    (h : l.purchases ct id = true) (h' : l.purchases ct' id' = true) : ct = ct' ∧ id = id' := by
  simp only [Line.purchases, Bool.and_eq_true, beq_iff_eq] at h h'
  exact ⟨Option.some.inj (h.1.symm.trans h'.1), Option.some.inj (h.2.symm.trans h'.2)⟩

theorem not_purchases_of_nothing {l : Line} {contentType : ContentType} {id : ℕ}
    (h : l.purchasesNothing) : l.purchases contentType id = false := by
  rcases h with h | h <;> simp [Line.purchases, h]

/-- A line is for a run, for a program or for nothing, and its hook does as much. -/
theorem processTransactionLine_cases (f : Faults) (cat : Catalog) (now : Instant) (user : UserId)
    (o : OrderId) (l : Line) :
    (∃ run, l.purchases .courseRun run = true ∧
      processTransactionLine f cat now user o l = createCourserunEnrollment f cat now user o run) ∨
    (∃ p, l.purchases .program p = true ∧
      processTransactionLine f cat now user o l = createProgramEnrollment f cat now user o p) ∨
    (l.purchasesNothing ∧ processTransactionLine f cat now user o l = skip) := by
  unfold processTransactionLine Line.purchasesNothing
  cases hct : l.purchasedContentType with
  | none => exact Or.inr (Or.inr ⟨Or.inl rfl, rfl⟩)
  | some ct =>
    cases hid : l.purchasedObjectId with
    | none =>
      refine Or.inr (Or.inr ⟨Or.inr rfl, ?_⟩)
      cases ct <;> rfl
    | some id =>
      cases ct with
      | courseRun => exact Or.inl ⟨id, by simp [Line.purchases, hct, hid], rfl⟩
      | program => exact Or.inr (Or.inl ⟨id, by simp [Line.purchases, hct, hid], rfl⟩)

theorem keeps_processTransactionLine (hr : IsFrame r) {l : Line} (h : AllowsLine r f cat now user o l) :
    Keeps r (processTransactionLine f cat now user o l) := by
  rcases processTransactionLine_cases f cat now user o l with
    ⟨run, hrun, heq⟩ | ⟨p, hp, heq⟩ | ⟨-, heq⟩
  · rw [heq]
    refine keeps_seq_cons hr ?_ (keeps_seq_cons hr ?_ (keeps_seq_nil hr))
    · apply keeps_createRunEnrollments hr
      intro run' hrun'
      obtain rfl := List.mem_singleton.mp hrun'
      exact h.run run' hrun
    · exact keeps_createPaidCourseRun hr (h.paidRun run hrun)
  · rw [heq]
    refine keeps_seq_cons hr ?_ (keeps_seq_cons hr ?_
      (keeps_seq_cons hr ?_ (keeps_seq_nil hr)))
    · apply keeps_createProgramEnrollments hr
      intro p' hp'
      obtain rfl := List.mem_singleton.mp hp'
      exact h.program p' hp
    · exact keeps_createPaidProgram hr (h.paidProgram p hp)
    · exact keeps_upgrade hr (h.upgrade p hp)
  · rw [heq]
    exact keeps_skip hr

/-! ## What raises -/

/-- The edX call for the runs is not made, or it returns, or fails in a way that is handled. -/
def EdxAnswers (f : Faults) (cat : Catalog) (runs : List RunId) : Prop :=
  runs.head?.any (fun run => (cat.courseRun run).isFakeCourseRun) = true ∨
    f (.edxEnroll runs) = none ∨ f (.edxEnroll runs) = some .edxError

theorem recordRunEnrollment_error {run : RunId} {changeStatus : Option String} {mode : EnrollmentMode}
    {success : Bool} (s : Store) :
    (recordRunEnrollment f cat now user changeStatus mode success run s).error = none := by
  unfold recordRunEnrollment
  split <;> rfl

theorem createRunEnrollments_error {runs : List RunId} (hruns : runs ≠ []) (h : EdxAnswers f cat runs)
    {changeStatus : Option String} {mode : EnrollmentMode} (s : Store) :
    (createRunEnrollments f cat now user runs changeStatus true mode s).error = none := by
  have hrecord : ∀ success, (seq (runs.map
      (recordRunEnrollment f cat now user changeStatus mode success)) s).error = none := by
    intro success
    apply seq_error
    intro a ha t
    obtain ⟨run, -, rfl⟩ := List.mem_map.mp ha
    exact recordRunEnrollment_error t
  obtain ⟨first, rest, rfl⟩ := List.exists_cons_of_ne_nil hruns
  unfold createRunEnrollments
  dsimp only
  by_cases hfake : (cat.courseRun first).isFakeCourseRun = true
  · rw [if_pos hfake]
    exact hrecord true
  · rw [if_neg hfake]
    rcases h with h | h | h
    · exact absurd (by simpa using h) hfake
    · rw [h]
      exact hrecord true
    · rw [h]
      exact hrecord false

theorem createProgramEnrollments_error {programs : List ProgramId} {mode : EnrollmentMode}
    (s : Store) : (createProgramEnrollments f user programs mode s).error = none := by
  apply seq_error
  intro a ha t
  obtain ⟨p, -, rfl⟩ := List.mem_map.mp ha
  unfold recordProgramEnrollment
  split <;> rfl

theorem upgrade_error {p : ProgramId} (s : Store)
    (h : ∀ runs, (∀ run ∈ runs, inProgram cat p run) → EdxAnswers f cat runs) :
    (upgradeAuditRunEnrollmentsForProgramPurchase f cat now user p s).error = none := by
  have helig : ∀ run ∈ eligibleRuns cat s now user p, inProgram cat p run := by
    intro run hrun
    have hall := (List.mem_filter.mp hrun).2
    simp only [Bool.and_eq_true] at hall
    simpa [inProgram] using hall.1.1.1.1
  unfold upgradeAuditRunEnrollmentsForProgramPurchase
  cases hruns : eligibleRuns cat s now user p with
  | nil => rfl
  | cons run runs =>
    rw [hruns] at helig
    exact createRunEnrollments_error (List.cons_ne_nil run runs) (h _ helig) s

/-- The records of what was paid for are as they were. -/
def PaidKept (s s' : Store) : Prop :=
  s'.paidCourseRuns = s.paidCourseRuns ∧ s'.paidPrograms = s.paidPrograms

theorem paidKept_frame : IsFrame PaidKept := by
  constructor
  · intro s
    exact ⟨rfl, rfl⟩
  · intro s t u h h'
    exact ⟨h'.1.trans h.1, h'.2.trans h.2⟩

theorem allowsRun_paidKept (run : RunId) : AllowsRun PaidKept f cat now user run :=
  ⟨fun _ _ => ⟨rfl, rfl⟩, keeps_joinContract paidKept_frame (fun _ _ _ => ⟨rfl, rfl⟩)
    fun _ _ => ⟨rfl, rfl⟩⟩

/-- The statements of the hook for a line that can end it do not fail. -/
structure HookSucceeds (f : Faults) (cat : Catalog) (l : Line) : Prop where
  run : ∀ run, l.purchases .courseRun run = true →
    EdxAnswers f cat [run] ∧ f (.paidCourseRun run) = none
  program : ∀ p, l.purchases .program p = true → f (.paidProgram p) = none ∧
    ∀ runs, (∀ run ∈ runs, inProgram cat p run) → EdxAnswers f cat runs

/-- What the line is for is not recorded as paid for by the order. -/
structure NotPaid (s : Store) (user : UserId) (o : OrderId) (l : Line) : Prop where
  run : ∀ run, l.purchases .courseRun run = true → ⟨user, run, o⟩ ∉ s.paidCourseRuns
  program : ∀ p, l.purchases .program p = true → ⟨user, p, o⟩ ∉ s.paidPrograms

theorem samePurchase_of_purchases {l l' : Line} {ct : ContentType} {id : ℕ}
    (h : l.purchases ct id = true) (h' : l'.purchases ct id = true) : l.samePurchase l' = true := by
  simp only [Line.purchases, Bool.and_eq_true, beq_iff_eq] at h h'
  simp [Line.samePurchase, h, h']

/-- A run whose enrollment does not fail is recorded as paid for, after what was. -/
theorem createCourserunEnrollment_ok {run : RunId} {s : Store} (hedx : EdxAnswers f cat [run])
    (hpaid : f (.paidCourseRun run) = none) (hnew : ⟨user, run, o⟩ ∉ s.paidCourseRuns) :
    (createCourserunEnrollment f cat now user o run s).error = none ∧
      (createCourserunEnrollment f cat now user o run s).state.paidCourseRuns =
        s.paidCourseRuns ++ [⟨user, run, o⟩] ∧
      (createCourserunEnrollment f cat now user o run s).state.paidPrograms = s.paidPrograms := by
  have herror : (createRunEnrollments f cat now user [run] none true .verified s).error = none :=
    createRunEnrollments_error (List.cons_ne_nil run []) hedx s
  have hkept : PaidKept s (createRunEnrollments f cat now user [run] none true .verified s).state :=
    keeps_createRunEnrollments paidKept_frame (fun run' _ => allowsRun_paidKept run') s
  rw [← hkept.1] at hnew
  unfold createCourserunEnrollment
  rw [seq_cons, andThen_of_ok herror, seq_cons]
  generalize (createRunEnrollments f cat now user [run] none true .verified s).state = t at hkept hnew ⊢
  have hcreate : createPaidCourseRun f ⟨user, run, o⟩ t =
      ⟨{ t with paidCourseRuns := t.paidCourseRuns ++ [⟨user, run, o⟩] }, none⟩ := by
    simp [createPaidCourseRun, fallible, hpaid, statement, hnew]
  rw [andThen_of_ok (by rw [hcreate]), hcreate, ← hkept.1]
  exact ⟨rfl, rfl, hkept.2⟩

/-- A program whose enrollment does not fail is recorded as paid for, after what was. -/
theorem createProgramEnrollment_ok (now : Instant) {p : ProgramId} {s : Store}
    (hpaid : f (.paidProgram p) = none)
    (hedx : ∀ runs, (∀ run ∈ runs, inProgram cat p run) → EdxAnswers f cat runs)
    (hnew : ⟨user, p, o⟩ ∉ s.paidPrograms) :
    (createProgramEnrollment f cat now user o p s).error = none ∧
      (createProgramEnrollment f cat now user o p s).state.paidPrograms =
        s.paidPrograms ++ [⟨user, p, o⟩] ∧
      (createProgramEnrollment f cat now user o p s).state.paidCourseRuns = s.paidCourseRuns := by
  have herror : (createProgramEnrollments f user [p] .verified s).error = none :=
    createProgramEnrollments_error s
  have hkept : PaidKept s (createProgramEnrollments f user [p] .verified s).state :=
    keeps_createProgramEnrollments paidKept_frame (fun _ _ _ _ => ⟨rfl, rfl⟩) s
  rw [← hkept.2] at hnew
  unfold createProgramEnrollment
  rw [seq_cons, andThen_of_ok herror, seq_cons]
  generalize (createProgramEnrollments f user [p] .verified s).state = t at hkept hnew ⊢
  have hcreate : createPaidProgram f ⟨user, p, o⟩ t =
      ⟨{ t with paidPrograms := t.paidPrograms ++ [⟨user, p, o⟩] }, none⟩ := by
    simp [createPaidProgram, fallible, hpaid, statement, hnew]
  have hupgrade : (upgradeAuditRunEnrollmentsForProgramPurchase f cat now user p
      { t with paidPrograms := t.paidPrograms ++ [⟨user, p, o⟩] }).error = none :=
    upgrade_error _ hedx
  have hkept' : PaidKept { t with paidPrograms := t.paidPrograms ++ [⟨user, p, o⟩] }
      (upgradeAuditRunEnrollmentsForProgramPurchase f cat now user p
        { t with paidPrograms := t.paidPrograms ++ [⟨user, p, o⟩] }).state :=
    keeps_upgrade paidKept_frame (fun run _ => allowsRun_paidKept run) _
  rw [andThen_of_ok (by rw [hcreate]), hcreate, seq_cons, andThen_of_ok hupgrade, seq_nil,
    skip_apply]
  exact ⟨rfl, by rw [hkept'.2, hkept.2], by rw [hkept'.1, hkept.1]⟩

/-- A hook whose statements do not fail returns, and records nothing for other lines. -/
theorem processTransactionLine_ok (now : Instant) {l : Line} (h : HookSucceeds f cat l) {s : Store}
    (hnew : NotPaid s user o l) :
    (processTransactionLine f cat now user o l s).error = none ∧
      ∀ l', l.samePurchase l' = false → NotPaid s user o l' →
        NotPaid (processTransactionLine f cat now user o l s).state user o l' := by
  rcases processTransactionLine_cases f cat now user o l with
    ⟨run, hrun, heq⟩ | ⟨p, hp, heq⟩ | ⟨-, heq⟩
  · obtain ⟨hedx, hpaid⟩ := h.run run hrun
    obtain ⟨herror, hruns, hprograms⟩ := createCourserunEnrollment_ok hedx hpaid (hnew.run run hrun)
    rw [heq]
    refine ⟨herror, fun l' hdiff hnot => ⟨fun run' hrun' => ?_, fun p hp => ?_⟩⟩
    · rw [hruns]
      intro hmem
      rcases List.mem_append.mp hmem with hold | hadded
      · exact hnot.run run' hrun' hold
      · obtain rfl : run' = run := by simpa using hadded
        rw [samePurchase_of_purchases hrun hrun'] at hdiff
        cases hdiff
    · rw [hprograms]
      exact hnot.program p hp
  · obtain ⟨hpaid, hedx⟩ := h.program p hp
    obtain ⟨herror, hprograms, hruns⟩ :=
      createProgramEnrollment_ok now hpaid hedx (hnew.program p hp)
    rw [heq]
    refine ⟨herror, fun l' hdiff hnot => ⟨fun run hrun => ?_, fun p' hp' => ?_⟩⟩
    · rw [hruns]
      exact hnot.run run hrun
    · rw [hprograms]
      intro hmem
      rcases List.mem_append.mp hmem with hold | hadded
      · exact hnot.program p' hp' hold
      · obtain rfl : p' = p := by simpa using hadded
        rw [samePurchase_of_purchases hp hp'] at hdiff
        cases hdiff
  · rw [heq]
    exact ⟨rfl, fun _ _ hnot => hnot⟩

/-- The hooks for lines that purchase different objects, none of them paid for, return. -/
theorem processTransactionLines_ok {lines : List Line} (h : ∀ l ∈ lines, HookSucceeds f cat l)
    (hdiff : lines.Pairwise fun a b => a.samePurchase b = false) {s : Store}
    (hnew : ∀ l ∈ lines, NotPaid s user o l) :
    (seq (lines.map (processTransactionLine f cat now user o)) s).error = none := by
  induction lines generalizing s with
  | nil => rfl
  | cons l rest ih =>
    rw [List.map_cons, seq_cons]
    obtain ⟨herror, hothers⟩ := processTransactionLine_ok now (h l List.mem_cons_self)
      (hnew l List.mem_cons_self)
    obtain ⟨hfirst, hrest⟩ := List.pairwise_cons.mp hdiff
    rw [andThen_of_ok herror]
    refine ih (fun l' hl' => h l' (List.mem_cons_of_mem l hl')) hrest fun l' hl' => ?_
    exact hothers l' (hfirst l' hl') (hnew l' (List.mem_cons_of_mem l hl'))

/-! ## Hooks that fail before they write -/

/-- The hook for the line fails before it writes: at the call of edX, or, where the enrollment fails
and is passed over, at the record of what was paid for. -/
structure FailsFirst (f : Faults) (cat : Catalog) (s : Store) (user : UserId) (o : OrderId) (l : Line) :
    Prop where
  purchases : ¬l.purchasesNothing
  run : ∀ run, l.purchases .courseRun run = true → ¬EdxAnswers f cat [run] ∨
    f (.enrollment run) ≠ none ∧ (f (.paidCourseRun run) ≠ none ∨ ⟨user, run, o⟩ ∈ s.paidCourseRuns)
  program : ∀ p, l.purchases .program p = true →
    f (.programEnrollment p) ≠ none ∧ (f (.paidProgram p) ≠ none ∨ ⟨user, p, o⟩ ∈ s.paidPrograms)

/-- Of the hooks for the lines, the first that does anything fails before it writes. -/
def HooksWriteNothing (f : Faults) (cat : Catalog) (s : Store) (user : UserId) (o : OrderId) :
    List Line → Prop
  | [] => True
  | l :: rest => FailsFirst f cat s user o l ∨
      l.purchasesNothing ∧ HooksWriteNothing f cat s user o rest

theorem createRunEnrollments_of_not_answers (user : UserId) (changeStatus : Option String)
    (keep : Bool) (mode : EnrollmentMode) {run : RunId} (h : ¬EdxAnswers f cat [run]) (s : Store) :
    ∃ e, createRunEnrollments f cat now user [run] changeStatus keep mode s = ⟨s, some e⟩ := by
  simp only [EdxAnswers, List.head?_cons, Option.any_some, not_or] at h
  obtain ⟨hfake, hnone, hedx⟩ := h
  unfold createRunEnrollments
  dsimp only
  rw [if_neg hfake]
  cases he : f (.edxEnroll [run]) with
  | none => exact absurd he hnone
  | some e =>
    cases e with
    | edxError => exact absurd he hedx
    | _ => exact ⟨_, rfl⟩

theorem createRunEnrollments_of_fault {run : RunId} (h : f (.enrollment run) ≠ none)
    {changeStatus : Option String} {keep : Bool} {mode : EnrollmentMode} (s : Store) :
    (createRunEnrollments f cat now user [run] changeStatus keep mode s).state = s := by
  have hrecord : ∀ success, (seq ([run].map
      (recordRunEnrollment f cat now user changeStatus mode success)) s).state = s := by
    intro success
    rw [List.map_singleton, seq_cons, andThen_of_ok (recordRunEnrollment_error s)]
    show (recordRunEnrollment f cat now user changeStatus mode success run s).state = s
    unfold recordRunEnrollment
    obtain ⟨e, he⟩ := Option.ne_none_iff_exists'.mp h
    split <;> simp [seq_cons, mayFail, fallible, he, andThen]
  unfold createRunEnrollments
  dsimp only
  by_cases hfake : (cat.courseRun run).isFakeCourseRun = true
  · rw [if_pos hfake]
    exact hrecord true
  · rw [if_neg hfake]
    cases f (.edxEnroll [run]) with
    | none => exact hrecord true
    | some e =>
      cases e with
      | edxError =>
        cases keep
        · rfl
        · exact hrecord false
      | _ => rfl

theorem createProgramEnrollments_of_fault {p : ProgramId} (h : f (.programEnrollment p) ≠ none)
    {mode : EnrollmentMode} (s : Store) :
    (createProgramEnrollments f user [p] mode s).state = s := by
  obtain ⟨e, he⟩ := Option.ne_none_iff_exists'.mp h
  show (seq [recordProgramEnrollment f user mode p] s).state = s
  have hstate : (recordProgramEnrollment f user mode p s).state = s := by
    unfold recordProgramEnrollment
    split <;> simp [seq_cons, fallible, he, andThen]
  have herror : (recordProgramEnrollment f user mode p s).error = none := by
    unfold recordProgramEnrollment
    split <;> rfl
  rw [seq_cons, andThen_of_ok herror, hstate]
  rfl

theorem createPaidCourseRun_fails (row : PaidCourseRun) {s : Store}
    (h : f (.paidCourseRun row.courseRun) ≠ none ∨ row ∈ s.paidCourseRuns) :
    ∃ e, createPaidCourseRun f row s = ⟨s, some e⟩ := by
  by_cases hf : f (.paidCourseRun row.courseRun) = none
  · have hmem := h.resolve_left (fun hne => hne hf)
    exact ⟨.integrityError, by simp [createPaidCourseRun, fallible, hf, statement, hmem]⟩
  · exact fallible_of_fault hf

theorem createPaidProgram_fails (row : PaidProgram) {s : Store}
    (h : f (.paidProgram row.program) ≠ none ∨ row ∈ s.paidPrograms) :
    ∃ e, createPaidProgram f row s = ⟨s, some e⟩ := by
  by_cases hf : f (.paidProgram row.program) = none
  · have hmem := h.resolve_left (fun hne => hne hf)
    exact ⟨.integrityError, by simp [createPaidProgram, fallible, hf, statement, hmem]⟩
  · exact fallible_of_fault hf

/-- A hook that fails first raises and leaves the database as it was. -/
theorem processTransactionLine_failsFirst (now : Instant) {l : Line} {s : Store}
    (h : FailsFirst f cat s user o l) :
    ∃ e, processTransactionLine f cat now user o l s = ⟨s, some e⟩ := by
  rcases processTransactionLine_cases f cat now user o l with
    ⟨run, hrun, heq⟩ | ⟨p, hp, heq⟩ | ⟨hnothing, -⟩
  · rw [heq]
    unfold createCourserunEnrollment
    rw [seq_cons]
    by_cases hedx : EdxAnswers f cat [run]
    · obtain ⟨henroll, hpaid⟩ := (h.run run hrun).resolve_left (fun hnot => hnot hedx)
      have herror : (createRunEnrollments f cat now user [run] none true .verified s).error = none :=
        createRunEnrollments_error (List.cons_ne_nil run []) hedx s
      rw [andThen_of_ok herror, createRunEnrollments_of_fault henroll s, seq_cons]
      obtain ⟨e, he⟩ := createPaidCourseRun_fails ⟨user, run, o⟩ hpaid
      exact ⟨e, by rw [andThen_of_error (by rw [he]), he]⟩
    · obtain ⟨e, he⟩ := createRunEnrollments_of_not_answers user none true .verified hedx s
      exact ⟨e, by rw [andThen_of_error (by rw [he]), he]⟩
  · rw [heq]
    obtain ⟨henroll, hpaid⟩ := h.program p hp
    unfold createProgramEnrollment
    rw [seq_cons, andThen_of_ok (createProgramEnrollments_error s),
      createProgramEnrollments_of_fault henroll s, seq_cons]
    obtain ⟨e, he⟩ := createPaidProgram_fails ⟨user, p, o⟩ hpaid
    exact ⟨e, by rw [andThen_of_error (by rw [he]), he]⟩
  · exact absurd hnothing h.purchases

theorem processTransactionLine_nothing {l : Line} (h : l.purchasesNothing) :
    processTransactionLine f cat now user o l = skip := by
  rcases processTransactionLine_cases f cat now user o l with
    ⟨run, hrun, -⟩ | ⟨p, hp, -⟩ | ⟨-, heq⟩
  · rw [not_purchases_of_nothing h] at hrun
    cases hrun
  · rw [not_purchases_of_nothing h] at hp
    cases hp
  · exact heq

theorem processTransactionLines_nothing {lines : List Line} {s : Store}
    (h : HooksWriteNothing f cat s user o lines) :
    (seq (lines.map (processTransactionLine f cat now user o)) s).state = s := by
  induction lines with
  | nil => rfl
  | cons l rest ih =>
    rw [List.map_cons, seq_cons]
    rcases h with hfails | ⟨hnothing, hrest⟩
    · obtain ⟨e, he⟩ := processTransactionLine_failsFirst now hfails
      rw [andThen_of_error (by rw [he]), he]
    · rw [processTransactionLine_nothing hnothing]
      exact ih hrest

end MitxOnline

import MitxOnline.Courses.Deferrals
import MitxOnline.Courses.Proofs.ActiveModesProofs

/-!
# The steps of a deferral

A deferral reads and writes the enrollments and the payments. What each of its steps leaves of these is
told here, for every answer of edX: a step writes one row, or it raises and leaves what it found.
-/

namespace MitxOnline

open Autocommit

variable {answer : List RunId → Option Error} {unenroll : Unenrollments} {cat : RunCatalog}
  {now : Instant} {user : UserId} {s s' : Store} {r fromRun toRun : RunId} {d : Deferral}
  {e t : CourseRunEnrollment} {changeStatus : Option String} {keep : Bool} {mode : EnrollmentMode}

/-- The tables that a deferral reads and writes. -/
def Store.enrollmentTables (s : Store) :
    (UserId → RunId → Option CourseRunEnrollment) × (UserId → ProgramId → Option ProgramEnrollment) ×
      List PaidCourseRun × Table Order :=
  (s.enrollments, s.programEnrollments, s.paidCourseRuns, s.orders)

theorem enrollments_of_tables (h : s'.enrollmentTables = s.enrollmentTables) :
    s'.enrollments = s.enrollments := congrArg Prod.fst h

theorem programEnrollments_of_tables (h : s'.enrollmentTables = s.enrollmentTables) :
    s'.programEnrollments = s.programEnrollments := congrArg (fun tables => tables.2.1) h

theorem paidCourseRuns_of_tables (h : s'.enrollmentTables = s.enrollmentTables) :
    s'.paidCourseRuns = s.paidCourseRuns := congrArg (fun tables => tables.2.2.1) h

theorem orders_of_tables (h : s'.enrollmentTables = s.enrollmentTables) : s'.orders = s.orders :=
  congrArg (fun tables => tables.2.2.2) h

/-! ## Enrolling in one run -/

/-- Where only edX fails, the writes of a round are those of a round in which nothing fails. -/
theorem recordRunEnrollment_edx (cat : Catalog) (success : Bool) :
    recordRunEnrollment (Faults.edx answer) cat now user changeStatus mode success r =
      recordRunEnrollment Faults.none cat now user changeStatus mode success r := rfl

/-- Enrolling in a run leaves the other tables of a deferral alone. -/
theorem recordRunEnrollment_others (f : Faults) (cat : Catalog) (success : Bool) (s : Store) :
    (recordRunEnrollment f cat now user changeStatus mode success r s).state.enrollmentTables.2 =
      s.enrollmentTables.2 := by
  have hframe := isFrame_eq fun s : Store => s.enrollmentTables.2
  have hallows : AllowsRun (fun s s' => s'.enrollmentTables.2 = s.enrollmentTables.2) f cat now user r := by
    refine ⟨fun _ _ => rfl, keeps_joinContract hframe ?_ ?_⟩
    · intro _ _ _
      rfl
    · intro _ _
      rfl
  exact keeps_recordRunEnrollment hframe hallows s

theorem recordRunEnrollment_tables (cat : Catalog) (success : Bool) (s : Store) :
    (recordRunEnrollment (Faults.edx answer) cat now user changeStatus mode success r
        s).state.enrollmentTables =
      (setEnrollment user r (recordedRow changeStatus mode success (s.enrollments user r))
        s).enrollmentTables := by
  rw [recordRunEnrollment_edx]
  exact Prod.ext (recordRunEnrollment_enrollments cat now user changeStatus mode success r s)
    (recordRunEnrollment_others Faults.none cat success s)

/-- `create_run_enrollments` gets to the writes, and what it says of edX then. -/
theorem createRunEnrollments_of_taken {f : Faults} {cat : Catalog} {success : Bool}
    (h : edxRequestSuccess f cat keep r = some success) :
    createRunEnrollments f cat now user [r] changeStatus keep mode =
        seq [recordRunEnrollment f cat now user changeStatus mode success r] ∧
      (enrollSuccess f cat r = true ∨ keep = true) := by
  unfold edxRequestSuccess at h
  unfold createRunEnrollments enrollSuccess
  by_cases hfake : (cat.courseRun r).isFakeCourseRun = true
  · rw [if_pos hfake] at h
    cases h
    exact ⟨if_pos hfake, Or.inl (by rw [hfake, Bool.true_or])⟩
  · rw [if_neg hfake] at h
    simp only [if_neg hfake, List.map_cons, List.map_nil]
    cases hanswer : f (.edxEnroll [r]) with
    | none =>
      rw [hanswer] at h
      cases h
      exact ⟨rfl, Or.inl (Bool.or_true _)⟩
    | some error =>
      rw [hanswer] at h
      cases error with
      | edxError =>
        dsimp only at h
        split_ifs at h with hkeep
        cases h
        exact ⟨if_pos hkeep, Or.inr hkeep⟩
      | _ => cases h

/-- `create_run_enrollments` raises, or it returns early. -/
theorem createRunEnrollments_of_refused {f : Faults} {cat : Catalog}
    (h : edxRequestSuccess f cat keep r = none) :
    (∃ error, createRunEnrollments f cat now user [r] changeStatus keep mode = raise error) ∨
      createRunEnrollments f cat now user [r] changeStatus keep mode = skip ∧
        enrollSuccess f cat r = false ∧ keep = false := by
  unfold edxRequestSuccess at h
  unfold createRunEnrollments enrollSuccess
  by_cases hfake : (cat.courseRun r).isFakeCourseRun = true
  · rw [if_pos hfake] at h
    cases h
  · rw [if_neg hfake] at h
    simp only [if_neg hfake, List.map_cons, List.map_nil]
    cases hanswer : f (.edxEnroll [r]) with
    | none =>
      rw [hanswer] at h
      cases h
    | some error =>
      rw [hanswer] at h
      cases error with
      | edxError =>
        dsimp only at h
        split_ifs at h with hkeep
        refine Or.inr ⟨if_neg hkeep, ?_, Bool.eq_false_iff.mpr hkeep⟩
        simp [hfake]
      | _ => exact Or.inl ⟨_, rfl⟩

variable (user changeStatus mode) in
/-- edX takes the learner, or its failure is kept: one enrollment is written. -/
theorem enrollOrRaise_of_taken {success : Bool}
    (h : edxRequestSuccess (Faults.edx answer) cat.toCatalog keep r = some success) (s : Store) :
    (enrollOrRaise (Faults.edx answer) cat.toCatalog now user r changeStatus keep mode s).error = none ∧
      (enrollOrRaise (Faults.edx answer) cat.toCatalog now user r changeStatus keep mode
          s).state.enrollmentTables =
        (setEnrollment user r (recordedRow changeStatus mode success (s.enrollments user r))
          s).enrollmentTables := by
  obtain ⟨hrecord, htaken⟩ := createRunEnrollments_of_taken h
  have hraises : ¬(enrollSuccess (Faults.edx answer) cat.toCatalog r = false ∧ keep = false) := by
    rintro ⟨hrefused, hkeep⟩
    rcases htaken with htaken | htaken
    · rw [hrefused] at htaken
      cases htaken
    · rw [hkeep] at htaken
      cases htaken
  let record : Code :=
    recordRunEnrollment (Faults.edx answer) cat.toCatalog now user changeStatus mode success r
  have hone : seq [record] s = ⟨(record s).state, none⟩ := by
    have herror : (record s).error = none := recordRunEnrollment_error s
    rw [seq_cons, andThen_of_ok herror]
    rfl
  have hall : enrollOrRaise (Faults.edx answer) cat.toCatalog now user r changeStatus keep mode s =
      ⟨(record s).state, none⟩ := by
    have herror : (seq [record] s).error = none := congrArg Outcome.error hone
    unfold enrollOrRaise
    rw [hrecord, if_neg hraises, seq_cons, andThen_of_ok herror, hone]
    rfl
  rw [hall]
  exact ⟨rfl, recordRunEnrollment_tables cat.toCatalog success s⟩

variable (user changeStatus mode) in
/-- Otherwise nothing is written. -/
theorem enrollOrRaise_of_refused
    (h : edxRequestSuccess (Faults.edx answer) cat.toCatalog keep r = none) (s : Store) :
    ∃ error, enrollOrRaise (Faults.edx answer) cat.toCatalog now user r changeStatus keep mode s =
      ⟨s, some error⟩ := by
  unfold enrollOrRaise
  rcases createRunEnrollments_of_refused h with ⟨error, hraise⟩ | ⟨hskip, hraises⟩
  · refine ⟨error, ?_⟩
    rw [hraise]
    rfl
  · refine ⟨.failure, ?_⟩
    rw [hskip, if_pos hraises]
    rfl

/-! ## Deactivating an audit enrollment -/

/-- `deactivate_run_enrollment` fails, or leaves an enrollment that edX still has. -/
def DeactivationFails (unenroll : Unenrollments) (keep : Bool) (r : RunId) (t : CourseRunEnrollment) :
    Prop :=
  (unenroll r).isSome = true ∧ (keep = true → t.edxEnrolled = true)

/-- What `deactivate_run_enrollment` writes. -/
def deactivatedIn (unenroll : Unenrollments) (user : UserId) (r : RunId) (t : CourseRunEnrollment)
    (s : Store) : Store :=
  deletePaidCourseRuns user r
    (setEnrollment user r (t.deactivated enrollChangeStatusUnenrolled (unenroll r).isNone) s)

theorem deactivateAuditEnrollment_of_none (h : s.activeEnrollment user r .audit = none) :
    deactivateAuditEnrollment unenroll user r keep s = ⟨s, none⟩ := by
  simp only [deactivateAuditEnrollment, h]

theorem deactivateAuditEnrollment_of_ok (h : s.activeEnrollment user r .audit = some t)
    (hok : ¬DeactivationFails unenroll keep r t) :
    deactivateAuditEnrollment unenroll user r keep s = ⟨deactivatedIn unenroll user r t s, none⟩ := by
  unfold deactivateAuditEnrollment deactivateRunEnrollment
  rw [h]
  cases hanswer : unenroll r with
  | none => simp [deactivatedIn, CourseRunEnrollment.deactivated, hanswer]
  | some error =>
    have hkeeps : keep = true ∧ ¬t.edxEnrolled = true := by
      simpa [DeactivationFails, hanswer] using hok
    simp [deactivatedIn, CourseRunEnrollment.deactivated, hanswer, hkeeps]

theorem deactivateAuditEnrollment_of_fails (h : s.activeEnrollment user r .audit = some t)
    (hfails : DeactivationFails unenroll keep r t) :
    deactivateAuditEnrollment unenroll user r keep s =
      ⟨if keep = true then deactivatedIn unenroll user r t s else s, some .failure⟩ := by
  obtain ⟨hanswer, henrolled⟩ := hfails
  obtain ⟨error, hanswer⟩ := Option.isSome_iff_exists.mp hanswer
  unfold deactivateAuditEnrollment deactivateRunEnrollment
  rw [h]
  cases keep with
  | false => simp [hanswer]
  | true => simp [deactivatedIn, CourseRunEnrollment.deactivated, hanswer, henrolled]

/-- The step returns: there is nothing to deactivate, or it is deactivated. -/
def Deactivates (unenroll : Unenrollments) (user : UserId) (keep : Bool) (r : RunId) (s : Store) : Prop :=
  ∀ t, s.activeEnrollment user r .audit = some t → ¬DeactivationFails unenroll keep r t

/-- What the step leaves where it returns. -/
def afterDeactivation (unenroll : Unenrollments) (user : UserId) (r : RunId) (s : Store) : Store :=
  match s.activeEnrollment user r .audit with
  | none => s
  | some t => deactivatedIn unenroll user r t s

theorem deactivateAuditEnrollment_of_deactivates (h : Deactivates unenroll user keep r s) :
    deactivateAuditEnrollment unenroll user r keep s = ⟨afterDeactivation unenroll user r s, none⟩ := by
  unfold afterDeactivation
  cases ht : s.activeEnrollment user r .audit with
  | none => exact deactivateAuditEnrollment_of_none ht
  | some t => exact deactivateAuditEnrollment_of_ok ht (h t ht)

theorem afterDeactivation_enrollments_of_ne {user' : UserId} {r' : RunId} (h : user' ≠ user ∨ r' ≠ r) :
    (afterDeactivation unenroll user r s).enrollments user' r' = s.enrollments user' r' := by
  unfold afterDeactivation
  cases s.activeEnrollment user r .audit with
  | none => rfl
  | some t => exact if_neg (by tauto)

theorem afterDeactivation_paidCourseRuns :
    (afterDeactivation unenroll user r s).paidCourseRuns =
      if (s.activeEnrollment user r .audit).isSome = true
      then s.paidCourseRuns.filter fun paid => !(paid.user == user && paid.courseRun == r)
      else s.paidCourseRuns := by
  unfold afterDeactivation
  cases s.activeEnrollment user r .audit <;> rfl

theorem afterDeactivation_programEnrollments :
    (afterDeactivation unenroll user r s).programEnrollments = s.programEnrollments := by
  unfold afterDeactivation
  cases s.activeEnrollment user r .audit <;> rfl

theorem afterDeactivation_orders : (afterDeactivation unenroll user r s).orders = s.orders := by
  unfold afterDeactivation
  cases s.activeEnrollment user r .audit <;> rfl

/-! ## Moving the payment -/

theorem fulfilledPaidCourseRun_of_tables (hpaid : s'.paidCourseRuns = s.paidCourseRuns)
    (horders : s'.orders = s.orders) (r : RunId) :
    s'.fulfilledPaidCourseRun user r = s.fulfilledPaidCourseRun user r := by
  unfold Store.fulfilledPaidCourseRun Store.order
  rw [hpaid, horders]

/-- The payment that is found is one of the learner for the run. -/
theorem fulfilledPaidCourseRun_spec {paid : PaidCourseRun}
    (h : s.fulfilledPaidCourseRun user r = some paid) :
    paid ∈ s.paidCourseRuns ∧ paid.user = user ∧ paid.courseRun = r := by
  have hfound := List.find?_some h
  simp only [Bool.and_eq_true, beq_iff_eq] at hfound
  exact ⟨List.mem_of_find?_eq_some h, hfound.1.1, hfound.1.2⟩

/-- The payment cannot be moved: the learner has one for the new run from the same order. -/
def PaymentClashes (user : UserId) (fromRun toRun : RunId) (s : Store) : Prop :=
  ∃ paid, s.fulfilledPaidCourseRun user fromRun = some paid ∧
    { paid with courseRun := toRun } ∈ s.paidCourseRuns

theorem changePaymentToRun_of_clashes (h : PaymentClashes user fromRun toRun s) :
    changePaymentToRun user fromRun toRun s = ⟨s, some .integrityError⟩ := by
  obtain ⟨paid, hfound, hclash⟩ := h
  refine statement_error ?_
  simp only [hfound]
  exact if_pos hclash

theorem changePaymentToRun_of_not_clashes (h : ¬PaymentClashes user fromRun toRun s) :
    changePaymentToRun user fromRun toRun s =
      ⟨{ s with
        paidCourseRuns := s.paidCourseRuns.map fun row =>
          if s.fulfilledPaidCourseRun user fromRun = some row then { row with courseRun := toRun }
          else row }, none⟩ := by
  refine statement_ok ?_
  cases hfound : s.fulfilledPaidCourseRun user fromRun with
  | none => simp
  | some paid =>
    have hclash : { paid with courseRun := toRun } ∉ s.paidCourseRuns := fun hclash =>
      h ⟨paid, hfound, hclash⟩
    simp only [if_neg hclash, Option.some.injEq, eq_comm]

/-! ## The checks -/

/-- The call passes the checks; `e` is the enrollment in the old run. -/
structure PassesChecks (cat : RunCatalog) (now : Instant) (user : UserId) (d : Deferral)
    (toRun : RunId) (e : CourseRunEnrollment) (s : Store) : Prop where
  fromRun_mem : d.fromRun ∈ cat.runIds
  enrollment : s.enrollments user d.fromRun = some e
  toRun_eq : d.toRun = some toRun
  toRun_mem : toRun ∈ cat.usableRunIds
  refusal : deferralRefusal cat now e d.fromRun toRun d.force = none

/-- The enrollment was deferred before, and the learner is verified in the new run already. -/
def DeferredBefore (user : UserId) (toRun : RunId) (e : CourseRunEnrollment) (s : Store) : Prop :=
  e.changeStatus = some enrollChangeStatusDeferred ∧
    (s.activeEnrollment user toRun .verified).isSome = true

instance : Decidable (DeferredBefore user toRun e s) :=
  inferInstanceAs (Decidable (_ ∧ _))

theorem PassesChecks.fromRun_ne (h : PassesChecks cat now user d toRun e s) : d.fromRun ≠ toRun := by
  intro hsame
  have hrefusal := h.refusal
  unfold deferralRefusal at hrefusal
  split_ifs at hrefusal

/-- The checks find one enrollment and one run. -/
theorem PassesChecks.unique {e' : CourseRunEnrollment} {toRun' : RunId}
    (h : PassesChecks cat now user d toRun e s) (h' : PassesChecks cat now user d toRun' e' s) :
    toRun' = toRun ∧ e' = e := by
  have hrun := h.toRun_eq.symm.trans h'.toRun_eq
  have henrollment := h.enrollment.symm.trans h'.enrollment
  exact ⟨(Option.some.inj hrun).symm, (Option.some.inj henrollment).symm⟩

/-- A call that does not pass the checks changes nothing. -/
theorem deferEnrollment_of_refused {f : Faults} (hto : d.toRun = some toRun)
    (h : ∀ e, ¬PassesChecks cat now user d toRun e s) :
    ∃ error, deferEnrollment f unenroll cat now user d s = ⟨s, some error⟩ := by
  unfold deferEnrollment
  by_cases hfrom : d.fromRun ∈ cat.runIds
  · rw [if_pos hfrom, hto]
    rcases henrollment : s.enrollments user d.fromRun with _ | e
    · exact ⟨_, rfl⟩
    · dsimp only
      by_cases hmem : toRun ∈ cat.usableRunIds
      · rw [if_neg (not_not.mpr hmem)]
        rcases hrefusal : deferralRefusal cat now e d.fromRun toRun d.force with _ | error
        · exact absurd ⟨hfrom, henrollment, hto, hmem, hrefusal⟩ (h e)
        · exact ⟨_, rfl⟩
      · rw [if_pos hmem]
        exact ⟨_, rfl⟩
  · rw [if_neg hfrom]
    exact ⟨_, rfl⟩

/-- The code of a deferral after the checks. -/
def deferralWrites (f : Faults) (unenroll : Unenrollments) (cat : RunCatalog) (now : Instant)
    (user : UserId) (d : Deferral) (toRun : RunId) (e : CourseRunEnrollment) : Code :=
  seq
    [ deactivateAuditEnrollment unenroll user toRun d.keepFailedEnrollments,
      enrollOrRaise f cat.toCatalog now user toRun none d.keepFailedEnrollments .verified,
      if e.changeStatus = some enrollChangeStatusDeferred then skip
      else enrollOrRaise f cat.toCatalog now user d.fromRun (some enrollChangeStatusDeferred)
        d.keepFailedEnrollments .audit,
      changePaymentToRun user d.fromRun toRun ]

theorem PassesChecks.deferEnrollment_eq {f : Faults} (h : PassesChecks cat now user d toRun e s) :
    deferEnrollment f unenroll cat now user d s =
      if DeferredBefore user toRun e s then ⟨s, none⟩
      else deferralWrites f unenroll cat now user d toRun e s := by
  unfold deferEnrollment deferralWrites
  simp only [h.fromRun_mem, h.toRun_mem, h.enrollment, h.toRun_eq, h.refusal, if_true,
    not_true_eq_false, if_false, decide_eq_true_eq]
  rfl

/-! ## How a deferral ends -/

/-- An active verified enrollment without a change status. -/
structure CourseRunEnrollment.IsPlainVerified (row : CourseRunEnrollment) : Prop where
  active : row.active = true
  verified : row.enrollmentMode = .verified
  changeStatus : row.changeStatus = none

theorem withMode_changeStatus {row : CourseRunEnrollment} (h : row.changeStatus = none) :
    (row.withMode mode).changeStatus = none := by
  unfold CourseRunEnrollment.withMode
  split_ifs
  · exact h
  · rfl

theorem recordedRow_isPlainVerified (success : Bool) (row : Option CourseRunEnrollment) :
    (recordedRow none .verified success row).IsPlainVerified where
  active := recordedRow_active none .verified success row
  verified := recordedRow_enrollmentMode none .verified success row
  changeStatus := by
    cases row with
    | none => rfl
    | some e => exact withMode_changeStatus rfl

/-- The learner is verified in the new run, and an audit enrollment there was deactivated before. -/
structure EnrolledVerified (unenroll : Unenrollments) (user : UserId) (toRun : RunId) (s s₂ : Store) :
    Prop where
  newRow : ∃ row, s₂.enrollments user toRun = some row ∧ row.IsPlainVerified
  others : ∀ user' r, user' ≠ user ∨ r ≠ toRun → s₂.enrollments user' r = s.enrollments user' r
  programs : s₂.programEnrollments = s.programEnrollments
  paid : s₂.paidCourseRuns = (afterDeactivation unenroll user toRun s).paidCourseRuns
  orders : s₂.orders = s.orders

variable (user now) in
theorem enrolledVerified_of_taken {success : Bool}
    (h : edxRequestSuccess (Faults.edx answer) cat.toCatalog keep toRun = some success) :
    EnrolledVerified unenroll user toRun s
      (enrollOrRaise (Faults.edx answer) cat.toCatalog now user toRun none keep .verified
        (afterDeactivation unenroll user toRun s)).state := by
  obtain ⟨-, htables⟩ := enrollOrRaise_of_taken user none .verified h
    (afterDeactivation unenroll user toRun s)
  have henrollments := enrollments_of_tables htables
  have hprograms := programEnrollments_of_tables htables
  have hpaid := paidCourseRuns_of_tables htables
  have horders := orders_of_tables htables
  have hplain := recordedRow_isPlainVerified success
    ((afterDeactivation unenroll user toRun s).enrollments user toRun)
  refine ⟨⟨_, ?_, hplain⟩, fun user' r hne => ?_,
    hprograms.trans afterDeactivation_programEnrollments, hpaid, horders.trans afterDeactivation_orders⟩
  · rw [henrollments]
    exact if_pos ⟨rfl, rfl⟩
  · have hsame : (afterDeactivation unenroll user toRun s).enrollments user' r =
        s.enrollments user' r := afterDeactivation_enrollments_of_ne hne
    rw [henrollments, ← hsame]
    exact if_neg (by tauto)

/-- The enrollment in the old run after the deferral; `success` is what it has of edX. -/
def CourseRunEnrollment.downgraded (e : CourseRunEnrollment) (success : Bool) : CourseRunEnrollment :=
  if e.changeStatus = some enrollChangeStatusDeferred then e
  else recordedRow (some enrollChangeStatusDeferred) .audit success (some e)

/-- All that is written before the payment moves. -/
structure WritesEnrollments (unenroll : Unenrollments) (user : UserId) (fromRun toRun : RunId)
    (e : CourseRunEnrollment) (s s₃ : Store) : Prop where
  newRow : ∃ row, s₃.enrollments user toRun = some row ∧ row.IsPlainVerified
  oldRow : ∃ success, s₃.enrollments user fromRun = some (e.downgraded success)
  others : ∀ user' r, user' ≠ user ∨ (r ≠ fromRun ∧ r ≠ toRun) →
    s₃.enrollments user' r = s.enrollments user' r
  programs : s₃.programEnrollments = s.programEnrollments
  paid : s₃.paidCourseRuns = (afterDeactivation unenroll user toRun s).paidCourseRuns
  orders : s₃.orders = s.orders

/-- edX takes the learner in the old run, unless it is not asked. -/
def Downgrades (answer : List RunId → Option Error) (cat : RunCatalog) (keep : Bool) (fromRun : RunId)
    (e : CourseRunEnrollment) : Prop :=
  e.changeStatus ≠ some enrollChangeStatusDeferred →
    (edxRequestSuccess (Faults.edx answer) cat.toCatalog keep fromRun).isSome = true

/-- The places in which the code after the checks ends, with what it leaves there. -/
inductive DeferralEnd (answer : List RunId → Option Error) (unenroll : Unenrollments)
    (cat : RunCatalog) (user : UserId) (fromRun toRun : RunId) (keep : Bool) (e : CourseRunEnrollment)
    (s : Store) : Outcome Store Error → Prop
  | deactivation {t : CourseRunEnrollment} (audit : s.activeEnrollment user toRun .audit = some t)
      (fails : DeactivationFails unenroll keep toRun t) :
      DeferralEnd answer unenroll cat user fromRun toRun keep e s
        ⟨if keep = true then deactivatedIn unenroll user toRun t s else s, some .failure⟩
  | enrollment (error : Error) (deactivates : Deactivates unenroll user keep toRun s)
      (refused : edxRequestSuccess (Faults.edx answer) cat.toCatalog keep toRun = none) :
      DeferralEnd answer unenroll cat user fromRun toRun keep e s
        ⟨afterDeactivation unenroll user toRun s, some error⟩
  | downgrade {s₂ : Store} (error : Error) (deactivates : Deactivates unenroll user keep toRun s)
      (taken : (edxRequestSuccess (Faults.edx answer) cat.toCatalog keep toRun).isSome = true)
      (refused : ¬Downgrades answer cat keep fromRun e)
      (writes : EnrolledVerified unenroll user toRun s s₂) :
      DeferralEnd answer unenroll cat user fromRun toRun keep e s ⟨s₂, some error⟩
  | payment {s₃ : Store} (deactivates : Deactivates unenroll user keep toRun s)
      (taken : (edxRequestSuccess (Faults.edx answer) cat.toCatalog keep toRun).isSome = true)
      (downgrades : Downgrades answer cat keep fromRun e)
      (writes : WritesEnrollments unenroll user fromRun toRun e s s₃)
      (clashes : PaymentClashes user fromRun toRun s₃) :
      DeferralEnd answer unenroll cat user fromRun toRun keep e s ⟨s₃, some .integrityError⟩
  | success {s₃ : Store} (deactivates : Deactivates unenroll user keep toRun s)
      (taken : (edxRequestSuccess (Faults.edx answer) cat.toCatalog keep toRun).isSome = true)
      (downgrades : Downgrades answer cat keep fromRun e)
      (writes : WritesEnrollments unenroll user fromRun toRun e s s₃)
      (clashes : ¬PaymentClashes user fromRun toRun s₃) :
      DeferralEnd answer unenroll cat user fromRun toRun keep e s
        ⟨{ s₃ with
          paidCourseRuns := s₃.paidCourseRuns.map fun row =>
            if s₃.fulfilledPaidCourseRun user fromRun = some row then { row with courseRun := toRun }
            else row }, none⟩

/-- The step of a deferral that downgrades the enrollment in the old run. -/
def downgradeStep (f : Faults) (cat : RunCatalog) (now : Instant) (user : UserId) (fromRun : RunId)
    (keep : Bool) (e : CourseRunEnrollment) : Code :=
  if e.changeStatus = some enrollChangeStatusDeferred then skip
  else enrollOrRaise f cat.toCatalog now user fromRun (some enrollChangeStatusDeferred) keep .audit

theorem downgradeStep_of_downgrades (hne : fromRun ≠ toRun)
    (henrollment : s.enrollments user fromRun = some e) (h : Downgrades answer cat keep fromRun e)
    {s₂ : Store} (hs₂ : EnrolledVerified unenroll user toRun s s₂) :
    ∃ s₃, WritesEnrollments unenroll user fromRun toRun e s s₃ ∧
      downgradeStep (Faults.edx answer) cat now user fromRun keep e s₂ = ⟨s₃, none⟩ := by
  have hfrom : s₂.enrollments user fromRun = some e := by
    rw [hs₂.others user fromRun (Or.inr hne), henrollment]
  unfold downgradeStep
  by_cases hdeferred : e.changeStatus = some enrollChangeStatusDeferred
  · refine ⟨s₂, ⟨hs₂.newRow, ⟨true, ?_⟩, fun user' r hother => ?_, hs₂.programs,
      hs₂.paid, hs₂.orders⟩, ?_⟩
    · rw [hfrom, CourseRunEnrollment.downgraded, if_pos hdeferred]
    · exact hs₂.others user' r (by tauto)
    · rw [if_pos hdeferred]
      rfl
  · obtain ⟨success, htaken⟩ := Option.isSome_iff_exists.mp (h hdeferred)
    obtain ⟨herror, htables⟩ :=
      enrollOrRaise_of_taken user (some enrollChangeStatusDeferred) .audit htaken s₂
    have henrollments := enrollments_of_tables htables
    obtain ⟨row, hrow, hplain⟩ := hs₂.newRow
    refine ⟨_, ⟨⟨row, ?_, hplain⟩, ⟨success, ?_⟩, fun user' r hother => ?_,
      (programEnrollments_of_tables htables).trans hs₂.programs,
      (paidCourseRuns_of_tables htables).trans hs₂.paid,
      (orders_of_tables htables).trans hs₂.orders⟩, ?_⟩
    · rw [henrollments, ← hrow]
      exact if_neg fun hsame => hne hsame.2.symm
    · rw [henrollments, hfrom, CourseRunEnrollment.downgraded, if_neg hdeferred]
      exact if_pos ⟨rfl, rfl⟩
    · rw [henrollments, ← hs₂.others user' r (by tauto)]
      exact if_neg (by tauto)
    · rw [if_neg hdeferred, ← herror]

variable (user) in
theorem downgradeStep_of_not_downgrades (h : ¬Downgrades answer cat keep fromRun e) (s : Store) :
    ∃ error, downgradeStep (Faults.edx answer) cat now user fromRun keep e s = ⟨s, some error⟩ := by
  obtain ⟨hdeferred, hrefused⟩ := Classical.not_imp.mp h
  unfold downgradeStep
  rw [if_neg hdeferred]
  exact enrollOrRaise_of_refused user _ .audit (Option.not_isSome_iff_eq_none.mp hrefused) s

/-- The code after the checks ends in one of these places. -/
theorem PassesChecks.deferralEnd (h : PassesChecks cat now user d toRun e s)
    (hbefore : ¬DeferredBefore user toRun e s) :
    DeferralEnd answer unenroll cat user d.fromRun toRun d.keepFailedEnrollments e s
      (deferEnrollment (Faults.edx answer) unenroll cat now user d s) := by
  rw [h.deferEnrollment_eq, if_neg hbefore]
  change DeferralEnd _ _ _ _ _ _ _ _ _ (seq
    [ deactivateAuditEnrollment unenroll user toRun d.keepFailedEnrollments,
      enrollOrRaise (Faults.edx answer) cat.toCatalog now user toRun none d.keepFailedEnrollments .verified,
      downgradeStep (Faults.edx answer) cat now user d.fromRun d.keepFailedEnrollments e,
      changePaymentToRun user d.fromRun toRun ] s)
  by_cases hdeactivates : Deactivates unenroll user d.keepFailedEnrollments toRun s
  · have hstep₁ := deactivateAuditEnrollment_of_deactivates hdeactivates
    rw [seq_cons, andThen_of_ok (congrArg Outcome.error hstep₁), hstep₁, seq_cons]
    rcases htaken : edxRequestSuccess (Faults.edx answer) cat.toCatalog d.keepFailedEnrollments toRun
      with _ | success
    · obtain ⟨error, hstep₂⟩ := enrollOrRaise_of_refused user none .verified htaken
        (afterDeactivation unenroll user toRun s)
      rw [andThen_of_error (congrArg Outcome.error hstep₂), hstep₂]
      exact .enrollment error hdeactivates htaken
    · have hs₂ : EnrolledVerified unenroll user toRun s _ :=
        enrolledVerified_of_taken now user htaken
      have hsome := Option.isSome_of_eq_some htaken
      rw [andThen_of_ok (enrollOrRaise_of_taken user none .verified htaken _).1, seq_cons]
      by_cases hdowngrades : Downgrades answer cat d.keepFailedEnrollments d.fromRun e
      · obtain ⟨s₃, hs₃, hstep₃⟩ :=
          downgradeStep_of_downgrades h.fromRun_ne h.enrollment hdowngrades hs₂
        rw [andThen_of_ok (congrArg Outcome.error hstep₃), hstep₃, seq_cons]
        by_cases hclashes : PaymentClashes user d.fromRun toRun s₃
        · have hstep₄ := changePaymentToRun_of_clashes hclashes
          rw [andThen_of_error (congrArg Outcome.error hstep₄), hstep₄]
          exact .payment hdeactivates hsome hdowngrades hs₃ hclashes
        · have hstep₄ := changePaymentToRun_of_not_clashes hclashes
          rw [andThen_of_ok (congrArg Outcome.error hstep₄), hstep₄]
          exact .success hdeactivates hsome hdowngrades hs₃ hclashes
      · obtain ⟨error, hstep₃⟩ := downgradeStep_of_not_downgrades user hdowngrades
          (enrollOrRaise (Faults.edx answer) cat.toCatalog now user toRun none d.keepFailedEnrollments
            .verified (afterDeactivation unenroll user toRun s)).state
        rw [andThen_of_error (congrArg Outcome.error hstep₃), hstep₃]
        exact .downgrade error hdeactivates hsome hdowngrades hs₂
  · obtain ⟨t, haudit, hfails⟩ : ∃ t, s.activeEnrollment user toRun .audit = some t ∧
        DeactivationFails unenroll d.keepFailedEnrollments toRun t := by
      simpa [Deactivates] using hdeactivates
    have hstep₁ := deactivateAuditEnrollment_of_fails haudit hfails
    rw [seq_cons, andThen_of_error (congrArg Outcome.error hstep₁), hstep₁]
    exact .deactivation haudit hfails

end MitxOnline

import Mathlib.Data.Finset.Card
import MitxOnline.Courses.Deferrals
import MitxOnline.Courses.Proofs.ActiveModesProofs
import MitxOnline.Lib.Trace

/-!
# What a deferral does to the seats of a learner

A deferral that is not refused gives a seat in the new run. It takes the seat in the old run away unless
the old enrollment is marked as deferred already, and there is only a seat to take away if the old
enrollment is verified. So the calls that conserve seats can be told by the enrollments they meet.
-/

namespace MitxOnline

open Autocommit Trace

variable {cat : RunCatalog} {user : UserId} {s : Store} {r : RunId} {mode : EnrollmentMode}
  {changeStatus : Option String} {keep : Bool}

/-! ## Seats of single runs -/

theorem holdsSeat_iff : s.holdsSeat user r = true ↔ s.activeMode user r = some .verified := by
  unfold Store.holdsSeat Store.activeEnrollment Store.activeMode
  rcases s.enrollments user r with _ | e
  · simp
  · rcases hactive : e.active <;> simp [hactive]

/-- The learner has a seat in `r` afterwards or has not, and the other seats stay. -/
def SetsSeat (user : UserId) (r : RunId) (seat : Bool) (s s' : Store) : Prop :=
  ∀ r', s'.holdsSeat user r' = if r' = r then seat else s.holdsSeat user r'

theorem holdsSeat_of_enrollments {s s' : Store} (h : s'.enrollments = s.enrollments) (r : RunId) :
    s'.holdsSeat user r = s.holdsSeat user r := by
  simp only [Store.holdsSeat, Store.activeEnrollment, h]

theorem holdsSeat_of_enrollment {e : CourseRunEnrollment} (h : s.enrollments user r = some e) :
    s.holdsSeat user r = (e.active && e.enrollmentMode == .verified) := by
  simp only [Store.holdsSeat, Store.activeEnrollment, h, Option.filter_some]
  split_ifs with he
  · exact he.symm
  · exact (Bool.eq_false_iff.mpr he).symm

/-- Who has a mode in a run has a seat there if the mode is verified. -/
theorem SetsMode.setsSeat {s s' : Store} (h : SetsMode user [r] mode s s') :
    SetsSeat user r (mode == .verified) s s' := by
  intro r'
  rw [Bool.eq_iff_iff, holdsSeat_iff, h r']
  by_cases hr : r' = r
  · simp [hr]
  · rw [if_neg (by simpa using hr), if_neg hr, holdsSeat_iff]

theorem enrollRun_noFaults (cat : Catalog) (now : Instant) (user : UserId) (r : RunId)
    (changeStatus : Option String) (keep : Bool) (mode : EnrollmentMode) (s : Store) :
    (createRunEnrollments Faults.none cat now user [r] changeStatus keep mode s).error = none ∧
      SetsSeat user r (mode == .verified) s
        (createRunEnrollments Faults.none cat now user [r] changeStatus keep mode s).state := by
  obtain ⟨herror, hsets⟩ :=
    createRunEnrollments_noFaults cat now user (List.cons_ne_nil r []) changeStatus keep mode s
  exact ⟨herror, hsets.setsSeat⟩

theorem enrollOrRaise_noFaults (cat : Catalog) (now : Instant) (user : UserId) (r : RunId)
    (changeStatus : Option String) (keep : Bool) (mode : EnrollmentMode) (s : Store) :
    (enrollOrRaise Faults.none cat now user r changeStatus keep mode s).error = none ∧
      SetsSeat user r (mode == .verified) s
        (enrollOrRaise Faults.none cat now user r changeStatus keep mode s).state := by
  obtain ⟨herror, hseat⟩ := enrollRun_noFaults cat now user r changeStatus keep mode s
  have hsuccess : enrollSuccess Faults.none cat r = true := by simp [enrollSuccess, Faults.none]
  have heq : enrollOrRaise Faults.none cat now user r changeStatus keep mode s =
      ⟨(createRunEnrollments Faults.none cat now user [r] changeStatus keep mode s).state, none⟩ := by
    rw [enrollOrRaise, seq_cons, andThen_of_ok herror, hsuccess]
    rfl
  rw [heq]
  exact ⟨rfl, hseat⟩

theorem deactivateAuditEnrollment_noFaults (user : UserId) (r : RunId) (keep : Bool) (s : Store) :
    (deactivateAuditEnrollment (fun _ => none) user r keep s).error = none ∧
      ∀ r', r' ≠ r →
        (deactivateAuditEnrollment (fun _ => none) user r keep s).state.holdsSeat user r' =
          s.holdsSeat user r' := by
  unfold deactivateAuditEnrollment
  rcases s.activeEnrollment user r .audit with _ | e
  · exact ⟨rfl, fun _ _ => rfl⟩
  · refine ⟨rfl, fun r' hr => ?_⟩
    simp [deactivateRunEnrollment, deletePaidCourseRuns, setEnrollment, Store.holdsSeat,
      Store.activeEnrollment, hr]

theorem changePaymentToRun_enrollments (user : UserId) (fromRun toRun : RunId) (s : Store) :
    (changePaymentToRun user fromRun toRun s).state.enrollments = s.enrollments := by
  refine keeps_statement (isFrame_eq Store.enrollments) (fun s s' h => ?_) s
  split at h
  · cases h
    rfl
  · split_ifs at h
    cases h
    rfl

/-! ## One deferral -/

/-- The call is not refused, and `e` is the enrollment it defers from. -/
structure Accepts (cat : RunCatalog) (user : UserId) (s : Store) (call : DeferralCall)
    (e : CourseRunEnrollment) : Prop where
  fromRun_mem : call.fromRun ∈ cat.runIds
  toRun_mem : call.toRun ∈ cat.usableRunIds
  enrollment : s.enrollments user call.fromRun = some e
  active : e.active = true
  ne : call.fromRun ≠ call.toRun
  enrollable : (cat.schedule call.toRun).isEnrollable call.now = true
  course : (cat.courseRun call.fromRun).course = (cat.courseRun call.toRun).course

theorem deferralRefusal_eq_none {now : Instant} {e : CourseRunEnrollment} {fromRun toRun : RunId} :
    deferralRefusal cat now e fromRun toRun false = none ↔
      e.active = true ∧ fromRun ≠ toRun ∧ (cat.schedule toRun).isEnrollable now = true ∧
        (cat.courseRun fromRun).course = (cat.courseRun toRun).course := by
  unfold deferralRefusal
  split_ifs with h₁ h₂ h₃ h₄ <;> simp_all

/-- What a deferral that is not refused does to the seats. -/
structure DefersSeat (user : UserId) (call : DeferralCall) (deferred : Bool) (s s' : Store) : Prop where
  toRun : s'.holdsSeat user call.toRun = true
  fromRun : s'.holdsSeat user call.fromRun = (deferred && s.holdsSeat user call.fromRun)
  other : ∀ r, r ≠ call.toRun → r ≠ call.fromRun → s'.holdsSeat user r = s.holdsSeat user r

/-- The writes of a deferral: the audit enrollment in the new run is deactivated, the learner is
enrolled as verified in the new run, then `downgrade`, then the payment moves. -/
theorem deferral_writes (user : UserId) (call : DeferralCall) (s : Store) (downgrade : Code)
    (hdowngrade : ∀ s, (downgrade s).error = none) :
    ∃ s₁, (∀ r, r ≠ call.toRun → s₁.holdsSeat user r = s.holdsSeat user r) ∧
      ∃ s₂, SetsSeat user call.toRun true s₁ s₂ ∧
        (seq
          [ deactivateAuditEnrollment (fun _ => none) user call.toRun call.keepFailedEnrollments,
            enrollOrRaise Faults.none cat.toCatalog call.now user call.toRun none call.keepFailedEnrollments
              .verified,
            downgrade,
            changePaymentToRun user call.fromRun call.toRun ] s).state.enrollments =
          (downgrade s₂).state.enrollments := by
  obtain ⟨hdeactivate, hothers⟩ :=
    deactivateAuditEnrollment_noFaults user call.toRun call.keepFailedEnrollments s
  obtain ⟨henroll, hseat⟩ := enrollOrRaise_noFaults cat.toCatalog call.now user call.toRun none
    call.keepFailedEnrollments .verified
    (deactivateAuditEnrollment (fun _ => none) user call.toRun call.keepFailedEnrollments s).state
  refine ⟨_, hothers, _, hseat, ?_⟩
  rw [seq_cons, andThen_of_ok hdeactivate, seq_cons, andThen_of_ok henroll, seq_cons,
    andThen_of_ok (hdowngrade _)]
  exact keeps_seq_cons (isFrame_eq Store.enrollments)
    (changePaymentToRun_enrollments user call.fromRun call.toRun) (keeps_seq_nil (isFrame_eq _)) _

theorem defersSeat_of_writes {call : DeferralCall} {deferred : Bool} {s s₁ s₂ s₃ s' : Store}
    (hne : call.fromRun ≠ call.toRun)
    (hothers : ∀ r, r ≠ call.toRun → s₁.holdsSeat user r = s.holdsSeat user r)
    (hseat : SetsSeat user call.toRun true s₁ s₂)
    (hdowngrade : ∀ r, s₃.holdsSeat user r =
      if r = call.fromRun then deferred && s₂.holdsSeat user r else s₂.holdsSeat user r)
    (hstate : s'.enrollments = s₃.enrollments) : DefersSeat user call deferred s s' where
  toRun := by
    rw [holdsSeat_of_enrollments hstate, hdowngrade, if_neg hne.symm, hseat, if_pos rfl]
  fromRun := by
    rw [holdsSeat_of_enrollments hstate, hdowngrade, if_pos rfl, hseat, if_neg hne, hothers _ hne]
  other r hto hfrom := by
    rw [holdsSeat_of_enrollments hstate, hdowngrade, if_neg hfrom, hseat, if_neg hto, hothers _ hto]

theorem deferralStep_of_accepts {call : DeferralCall} {e : CourseRunEnrollment}
    (h : Accepts cat user s call e) :
    DefersSeat user call (decide (e.changeStatus = some enrollChangeStatusDeferred)) s
      (deferralStep cat user s call) := by
  have hrefusal := deferralRefusal_eq_none.mpr ⟨h.active, h.ne, h.enrollable, h.course⟩
  unfold deferralStep deferEnrollment
  simp only [h.fromRun_mem, h.toRun_mem, h.enrollment, hrefusal, if_true, not_true_eq_false, if_false]
  split_ifs with hearly hdeferred
  · -- the seat in the new run is there already
    exact ⟨hearly.2, by rw [hearly.1, Bool.true_and], fun _ _ _ => rfl⟩
  · -- deferred before: the old run is not touched
    obtain ⟨s₁, hothers, s₂, hseat, hstate⟩ :=
      deferral_writes user call s skip fun _ => rfl
    refine defersSeat_of_writes h.ne hothers hseat (fun r => ?_) hstate
    rw [hdeferred, Bool.true_and, ite_self, skip_apply]
  · -- the old enrollment is downgraded
    have hdowngrade := enrollOrRaise_noFaults cat.toCatalog call.now user call.fromRun
      (some enrollChangeStatusDeferred) call.keepFailedEnrollments .audit
    obtain ⟨s₁, hothers, s₂, hseat, hstate⟩ :=
      deferral_writes user call s _ fun s => (hdowngrade s).1
    refine defersSeat_of_writes h.ne hothers hseat (fun r => ?_) hstate
    rw [(hdowngrade s₂).2, Bool.eq_false_iff.mpr hdeferred, Bool.false_and]
    rfl

/-- A call that is refused changes nothing. -/
theorem deferralStep_cases (cat : RunCatalog) (user : UserId) (s : Store) (call : DeferralCall) :
    deferralStep cat user s call = s ∨ ∃ e, Accepts cat user s call e := by
  unfold deferralStep deferEnrollment
  by_cases hfrom : call.fromRun ∈ cat.runIds
  · rcases henrollment : s.enrollments user call.fromRun with _ | e
    · simp [hfrom]
    · by_cases hto : call.toRun ∈ cat.usableRunIds
      · rcases hrefusal : deferralRefusal cat call.now e call.fromRun call.toRun false with _ | refusal
        · obtain ⟨hactive, hne, henrollable, hcourse⟩ := deferralRefusal_eq_none.mp hrefusal
          exact Or.inr ⟨e, hfrom, hto, henrollment, hactive, hne, henrollable, hcourse⟩
        · simp [hfrom, hto, hrefusal]
      · simp [hfrom, hto]
  · simp [hfrom]

/-! ## Counting seats -/

/-- The runs in which a learner has a seat. -/
def seatRuns (cat : RunCatalog) (user : UserId) (s : Store) : Finset RunId :=
  {r ∈ cat.runIds.toFinset | s.holdsSeat user r = true}

theorem mem_seatRuns : r ∈ seatRuns cat user s ↔ r ∈ cat.runIds ∧ s.holdsSeat user r = true := by
  simp [seatRuns]

/-- A call that is not refused conserves seats if the learner has one in the new run already, or if
there is one to move: the old enrollment is verified and was not deferred. -/
def Conserves (cat : RunCatalog) (user : UserId) (s : Store) (call : DeferralCall) : Prop :=
  ∀ e, Accepts cat user s call e →
    s.holdsSeat user call.toRun = true ∨
      (e.enrollmentMode = .verified ∧ e.changeStatus ≠ some enrollChangeStatusDeferred)

theorem seats_le_of_conserves {call : DeferralCall} (h : Conserves cat user s call) :
    (deferralStep cat user s call).seats cat user ≤ s.seats cat user := by
  rcases deferralStep_cases cat user s call with hsame | ⟨e, haccepts⟩
  · rw [hsame]
  have hstep := deferralStep_of_accepts haccepts
  rcases h e haccepts with hseat | ⟨hverified, hdeferred⟩
  · -- no run gets a seat that it has not
    refine Finset.card_le_card fun r hr => ?_
    obtain ⟨hmem, hr⟩ := mem_seatRuns.mp hr
    refine mem_seatRuns.mpr ⟨hmem, ?_⟩
    by_cases hto : r = call.toRun
    · rw [hto]
      exact hseat
    · by_cases hfrom : r = call.fromRun
      · rw [hfrom, hstep.fromRun, Bool.and_eq_true] at hr
        rw [hfrom]
        exact hr.2
      · rwa [hstep.other r hto hfrom] at hr
  · -- the seat of the old run moves to the new one
    have hold : call.fromRun ∈ seatRuns cat user s := by
      refine mem_seatRuns.mpr ⟨haccepts.fromRun_mem, ?_⟩
      rw [holdsSeat_of_enrollment haccepts.enrollment, haccepts.active, hverified]
      rfl
    have hsub : seatRuns cat user (deferralStep cat user s call) ⊆
        insert call.toRun ((seatRuns cat user s).erase call.fromRun) := by
      intro r hr
      obtain ⟨hmem, hr⟩ := mem_seatRuns.mp hr
      by_cases hto : r = call.toRun
      · exact Finset.mem_insert.mpr (Or.inl hto)
      · by_cases hfrom : r = call.fromRun
        · rw [hfrom, hstep.fromRun, decide_eq_false hdeferred, Bool.false_and] at hr
          cases hr
        · rw [hstep.other r hto hfrom] at hr
          exact Finset.mem_insert_of_mem (Finset.mem_erase.mpr ⟨hfrom, mem_seatRuns.mpr ⟨hmem, hr⟩⟩)
    calc (deferralStep cat user s call).seats cat user
        ≤ (insert call.toRun ((seatRuns cat user s).erase call.fromRun)).card := Finset.card_le_card hsub
      _ ≤ ((seatRuns cat user s).erase call.fromRun).card + 1 := Finset.card_insert_le _ _
      _ = s.seats cat user := Finset.card_erase_add_one hold

/-- Any other call that is not refused adds a seat. -/
theorem conserves_of_seats_le {call : DeferralCall}
    (h : (deferralStep cat user s call).seats cat user ≤ s.seats cat user) :
    Conserves cat user s call := by
  intro e haccepts
  have hstep := deferralStep_of_accepts haccepts
  by_contra hnot
  rw [not_or, not_and_or, not_not] at hnot
  obtain ⟨hseat, hold⟩ := hnot
  have hnew : call.toRun ∉ seatRuns cat user s := fun hmem => hseat (mem_seatRuns.mp hmem).2
  have hsub : insert call.toRun (seatRuns cat user s) ⊆
      seatRuns cat user (deferralStep cat user s call) := by
    intro r hr
    rcases Finset.mem_insert.mp hr with rfl | hr
    · exact mem_seatRuns.mpr ⟨List.mem_of_mem_filter haccepts.toRun_mem, hstep.toRun⟩
    · obtain ⟨hmem, hr⟩ := mem_seatRuns.mp hr
      refine mem_seatRuns.mpr ⟨hmem, ?_⟩
      by_cases hto : r = call.toRun
      · exact absurd (hto ▸ hr) hseat
      · by_cases hfrom : r = call.fromRun
        · -- the seat of the old run stays, since the deferral does not touch it
          subst hfrom
          have hverified : e.enrollmentMode = .verified := by
            rw [holdsSeat_of_enrollment haccepts.enrollment, Bool.and_eq_true] at hr
            exact eq_of_beq hr.2
          have hdeferred := hold.resolve_left (not_not.mpr hverified)
          rw [hstep.fromRun, hr, Bool.and_true]
          exact decide_eq_true hdeferred
        · rw [hstep.other r hto hfrom]
          exact hr
  have hcard := Finset.card_le_card hsub
  rw [Finset.card_insert_of_notMem hnew] at hcard
  exact absurd (hcard.trans h) (Nat.not_succ_le_self _)

/-- Deferrals conserve seats exactly when every call of the run that is not refused meets a learner who
has a seat in the new run already, or an old enrollment that is verified and not marked as deferred. -/
theorem deferrals_conserve_iff (cat : RunCatalog) (user : UserId) (s : Store)
    (calls : List DeferralCall) :
    Along (deferralStep cat user)
        (fun s call => (deferralStep cat user s call).seats cat user ≤ s.seats cat user) s calls ↔
      Along (deferralStep cat user) (Conserves cat user) s calls :=
  along_iff_of_invariant (fun _ => True) (fun _ _ _ _ => trivial)
    (fun _ _ _ => ⟨conserves_of_seats_le, seats_le_of_conserves⟩) trivial

/-- After calls that conserve seats the learner has no more seats than before. -/
theorem seats_run_le {calls : List DeferralCall}
    (h : Along (deferralStep cat user) (Conserves cat user) s calls) :
    (run (deferralStep cat user) s calls).seats cat user ≤ s.seats cat user :=
  run_of_along (fun s' : Store => s'.seats cat user ≤ s.seats cat user)
    (fun _ _ hle hconserves => (seats_le_of_conserves hconserves).trans hle) le_rfl h

/-! ## Deferring twice from one run -/

/-- A run of course 1 that anyone can enroll in. -/
def openRun (r : RunId) : ScheduledRun :=
  { course := 1, live := true, upgradeDeadline := none, verifiedMode := true, isFakeCourseRun := false,
    isUai := false, b2bContract := none, coursewareId := s!"course-v1:MITx+1+R{r}", title := "Course 1",
    language := "en", isSelfPaced := false, startDate := some 0, endDate := none,
    enrollmentStart := some 0, enrollmentEnd := none, expirationDate := none }

/-- Three open runs of course 1. -/
def openRuns : RunCatalog :=
  { Catalog.ofPrices fun _ => ⟨0⟩ with
    courseRun := fun r => (openRun r).toCourseRun
    runIds := [1, 2, 3]
    schedule := openRun
    schedule_courseRun := fun _ => rfl
    usable := fun _ => true }

/-- Learner 7 has a verified enrollment in run 1. -/
def verifiedInRunOne : Store :=
  setEnrollment 7 1 ⟨true, none, true, .verified⟩ Store.empty

/-- The second deferral from run 1 gives the learner a second seat. -/
theorem not_deferrals_conserve :
    ¬ ∀ (cat : RunCatalog) (user : UserId) (s : Store) (calls : List DeferralCall),
      Along (deferralStep cat user)
        (fun s call => (deferralStep cat user s call).seats cat user ≤ s.seats cat user) s calls := by
  intro h
  have hsecond := (h openRuns 7 verifiedInRunOne [⟨1, 2, false, 5⟩, ⟨1, 3, false, 5⟩]).2.1
  revert hsecond
  decide

end MitxOnline

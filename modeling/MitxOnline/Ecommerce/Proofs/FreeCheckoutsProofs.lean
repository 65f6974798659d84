import Mathlib.Data.List.MinMax
import MitxOnline.Courses.Proofs.ActiveModesProofs
import MitxOnline.Ecommerce.Proofs.CheckoutProofs
import MitxOnline.Ecommerce.Proofs.DeliveriesProofs

/-!
# What a free checkout enrolls in

When nothing fails, fulfilling an order makes the purchaser verified in the runs that its lines grant, and
in no other run. It grants all lines of the order, those for what is in the basket and those that a reused
order had before.
-/

namespace MitxOnline

open Autocommit

variable {cat : Catalog} {s s' : Store} {user : UserId} {o : OrderId} {now : Instant} {r : RunId}
  {req : CheckoutRequest}

/-! ## Runs that a line grants -/

/-- Fulfilling the line makes the user verified in the run. -/
def Line.grantsRun (cat : Catalog) (now : Instant) (s : Store) (user : UserId) (r : RunId) (l : Line) :
    Prop :=
  l.purchases .courseRun r = true ∨
    ∃ p, l.purchases .program p = true ∧ r ∈ eligibleRuns cat s now user p

theorem any_audit_iff : ((s.enrollments user r).any fun e => e.enrollmentMode == .audit && e.active) = true ↔
    s.activeMode user r = some .audit := by
  unfold Store.activeMode
  rcases s.enrollments user r with _ | e
  · simp
  · by_cases hactive : e.active = true <;> simp [hactive, Option.filter]

/-- Which runs a line grants depends only on the modes that the user has in them. -/
theorem grantsRun_congr {l : Line} (h : s'.activeMode user r = s.activeMode user r) :
    l.grantsRun cat now s' user r ↔ l.grantsRun cat now s user r := by
  unfold Line.grantsRun eligibleRuns
  simp only [List.mem_filter, Bool.and_eq_true, any_audit_iff, h]

/-- The runs that the lines grant are verified afterwards, and the others are as they were. -/
structure GrantsModes (cat : Catalog) (now : Instant) (user : UserId) (lines : List Line)
    (s s' : Store) : Prop where
  granted : ∀ r, (∃ l ∈ lines, l.grantsRun cat now s user r) → s'.activeMode user r = some .verified
  others : ∀ r, (∀ l ∈ lines, ¬l.grantsRun cat now s user r) →
    s'.activeMode user r = s.activeMode user r

theorem GrantsModes.cons {t : Store} {l : Line} {lines : List Line}
    (h : GrantsModes cat now user [l] s t) (h' : GrantsModes cat now user lines t s') :
    GrantsModes cat now user (l :: lines) s s' := by
  have hsame : ∀ r, ¬l.grantsRun cat now s user r → t.activeMode user r = s.activeMode user r := by
    intro r hnot
    refine h.others r fun l' hl' => ?_
    obtain rfl := List.mem_singleton.mp hl'
    exact hnot
  constructor
  · intro r hgrants
    by_cases hrest : ∃ l' ∈ lines, l'.grantsRun cat now t user r
    · exact h'.granted r hrest
    · rw [h'.others r fun l' hl' hg => hrest ⟨l', hl', hg⟩]
      by_cases hfirst : l.grantsRun cat now s user r
      · exact h.granted r ⟨l, List.mem_cons_self, hfirst⟩
      · obtain ⟨l', hl', hg⟩ := hgrants
        rcases List.mem_cons.mp hl' with rfl | hl'
        · exact absurd hg hfirst
        · exact absurd ⟨l', hl', (grantsRun_congr (hsame r hfirst)).mpr hg⟩ hrest
  · intro r hnone
    have hr := hsame r (hnone l List.mem_cons_self)
    rw [h'.others r, hr]
    intro l' hl' hg
    exact hnone l' (List.mem_cons_of_mem l hl') ((grantsRun_congr hr).mp hg)

theorem GrantsModes.congr {t t' : Store} {lines : List Line} (h : GrantsModes cat now user lines t t')
    (hs : s.enrollments = t.enrollments) (hs' : s'.enrollments = t'.enrollments) :
    GrantsModes cat now user lines s s' := by
  have hbefore : ∀ r, s.activeMode user r = t.activeMode user r := activeMode_of_enrollments hs
  have hafter : ∀ r, s'.activeMode user r = t'.activeMode user r := activeMode_of_enrollments hs'
  constructor
  · rintro r ⟨l, hl, hg⟩
    rw [hafter]
    exact h.granted r ⟨l, hl, (grantsRun_congr (hbefore r)).mp hg⟩
  · intro r hnone
    rw [hafter, hbefore]
    exact h.others r fun l hl hg => hnone l hl ((grantsRun_congr (hbefore r)).mpr hg)

/-! ## The hooks -/

theorem createPaidCourseRun_enrollments (row : PaidCourseRun) (s : Store) :
    (createPaidCourseRun Faults.none row s).state.enrollments = s.enrollments :=
  keeps_createPaidCourseRun (isFrame_eq Store.enrollments) (fun _ _ => rfl) s

theorem createPaidProgram_enrollments (row : PaidProgram) (s : Store) :
    (createPaidProgram Faults.none row s).state.enrollments = s.enrollments :=
  keeps_createPaidProgram (isFrame_eq Store.enrollments) (fun _ => rfl) s

theorem createProgramEnrollments_enrollments (f : Faults) (user : UserId) (programs : List ProgramId)
    (mode : EnrollmentMode) (s : Store) :
    (createProgramEnrollments f user programs mode s).state.enrollments = s.enrollments :=
  keeps_createProgramEnrollments (isFrame_eq Store.enrollments) (fun _ _ _ _ => rfl) s

theorem upgrade_noFaults (p : ProgramId) (s : Store) :
    SetsMode user (eligibleRuns cat s now user p) .verified s
      (upgradeAuditRunEnrollmentsForProgramPurchase Faults.none cat now user p s).state := by
  unfold upgradeAuditRunEnrollmentsForProgramPurchase
  rcases hruns : eligibleRuns cat s now user p with _ | ⟨run, runs⟩
  · exact fun r => by simp
  · exact (createRunEnrollments_noFaults cat now user (List.cons_ne_nil run runs) ..).2

theorem grantsRun_of_run {l : Line} {run : RunId} (h : l.purchases .courseRun run = true) :
    l.grantsRun cat now s user r ↔ r = run := by
  constructor
  · rintro (hr | ⟨p, hp, -⟩)
    · exact (purchases_inj hr h).2
    · cases (purchases_inj hp h).1
  · rintro rfl
    exact Or.inl h

theorem grantsRun_of_program {l : Line} {p : ProgramId} (h : l.purchases .program p = true) :
    l.grantsRun cat now s user r ↔ r ∈ eligibleRuns cat s now user p := by
  constructor
  · rintro (hr | ⟨p', hp', helig⟩)
    · cases (purchases_inj hr h).1
    · rwa [(purchases_inj hp' h).2] at helig
  · exact fun helig => Or.inr ⟨p, h, helig⟩

theorem not_grantsRun_of_nothing {l : Line} (h : l.purchasesNothing) :
    ¬l.grantsRun cat now s user r := by
  unfold Line.grantsRun Line.purchases
  rcases h with h | h <;> simp [h]

theorem SetsMode.grantsModes {l : Line} {runs : List RunId} (h : SetsMode user runs .verified s s')
    (hl : ∀ r, l.grantsRun cat now s user r ↔ r ∈ runs) : GrantsModes cat now user [l] s s' := by
  constructor
  · rintro r ⟨l', hl', hg⟩
    obtain rfl := List.mem_singleton.mp hl'
    rw [h r, if_pos ((hl r).mp hg)]
  · intro r hnone
    rw [h r, if_neg (mt (hl r).mpr (hnone l List.mem_cons_self))]

theorem createCourserunEnrollment_noFaults (cat : Catalog) (user : UserId) (o : OrderId) (run : RunId)
    (s : Store) : SetsMode user [run] .verified s
      (createCourserunEnrollment Faults.none cat now user o run s).state := by
  obtain ⟨henroll, hsets⟩ := createRunEnrollments_noFaults cat now user (List.cons_ne_nil run []) none true
    .verified s
  have hafter : (createCourserunEnrollment Faults.none cat now user o run s).state.enrollments =
      (createRunEnrollments Faults.none cat now user [run] none true .verified s).state.enrollments :=
    seq_cons_after (isFrame_eq Store.enrollments) (keeps_seq_cons (isFrame_eq Store.enrollments)
      (createPaidCourseRun_enrollments _) (keeps_seq_nil (isFrame_eq Store.enrollments))) s
  intro r
  rw [activeMode_of_enrollments hafter, hsets r]

theorem createProgramEnrollment_noFaults {p : ProgramId}
    (h : (createProgramEnrollment Faults.none cat now user o p s).error = none) :
    SetsMode user (eligibleRuns cat s now user p) .verified s
      (createProgramEnrollment Faults.none cat now user o p s).state := by
  have hfirst := createProgramEnrollments_enrollments Faults.none user [p] .verified s
  unfold createProgramEnrollment at h ⊢
  obtain ⟨henroll, hrest⟩ := seq_cons_error h
  rw [seq_cons, andThen_of_ok henroll]
  generalize (createProgramEnrollments Faults.none user [p] .verified s).state = t at hfirst hrest ⊢
  obtain ⟨hpaid, hupgrade⟩ := seq_cons_error hrest
  have hsecond := createPaidProgram_enrollments ⟨user, p, o⟩ t
  rw [seq_cons, andThen_of_ok hpaid, seq_cons, andThen_of_ok (seq_cons_error hupgrade).1]
  generalize (createPaidProgram Faults.none ⟨user, p, o⟩ t).state = u at hsecond ⊢
  have hsame : u.enrollments = s.enrollments := hsecond.trans hfirst
  have helig : eligibleRuns cat u now user p = eligibleRuns cat s now user p := by
    unfold eligibleRuns
    rw [hsame]
  intro r
  rw [← helig, ← activeMode_of_enrollments hsame]
  exact upgrade_noFaults p u r

/-- A hook that returns grants its line. -/
theorem processTransactionLine_noFaults {l : Line}
    (h : (processTransactionLine Faults.none cat now user o l s).error = none) :
    GrantsModes cat now user [l] s (processTransactionLine Faults.none cat now user o l s).state := by
  rcases processTransactionLine_cases Faults.none cat now user o l with
    ⟨run, hrun, heq⟩ | ⟨p, hp, heq⟩ | ⟨hnothing, heq⟩
  · rw [heq]
    refine (createCourserunEnrollment_noFaults cat user o run s).grantsModes fun r => ?_
    rw [grantsRun_of_run hrun, List.mem_singleton]
  · rw [heq] at h ⊢
    exact (createProgramEnrollment_noFaults h).grantsModes fun r => grantsRun_of_program hp
  · rw [heq]
    refine ⟨fun r ⟨l', hl', hg⟩ => ?_, fun _ _ => rfl⟩
    obtain rfl := List.mem_singleton.mp hl'
    exact absurd hg (not_grantsRun_of_nothing hnothing)

/-- Hooks that all return grant their lines. -/
theorem processTransactionLines_noFaults {lines : List Line}
    (h : (seq (lines.map (processTransactionLine Faults.none cat now user o)) s).error = none) :
    GrantsModes cat now user lines s
      (seq (lines.map (processTransactionLine Faults.none cat now user o)) s).state := by
  induction lines generalizing s with
  | nil => exact ⟨nofun, fun _ _ => rfl⟩
  | cons l lines ih =>
    rw [List.map_cons] at h ⊢
    obtain ⟨hline, hrest⟩ := seq_cons_error h
    rw [seq_cons, andThen_of_ok hline]
    exact (processTransactionLine_noFaults hline).cons (ih hrest)

/-! ## Fulfilling -/

theorem uuid4_fresh (s : Store) : s.uuid4 ∉ s.transactionIds := by
  intro hmem
  have hle : s.uuid4.number ≤ (s.transactionIds.map TransactionId.number).foldr max 0 :=
    List.le_max_of_le' 0 (List.mem_map_of_mem hmem) le_rfl
  have hnumber : s.uuid4.number = (s.transactionIds.map TransactionId.number).foldr max 0 + 1 := rfl
  omega

theorem recordPayment_zero (o : OrderId) (s : Store) :
    ∃ s1, recordPayment o zeroPaymentData "" s = .ok s1 ∧ s1.enrollments = s.enrollments := by
  have hpayload : (s.order o).transactionPayload zeroPaymentData s.uuid4 = .ok (s.uuid4, 0) := by
    simp [Order.transactionPayload, zeroPaymentData]
  have hok : ∃ s1, recordPayment o zeroPaymentData "" s = .ok s1 := by
    unfold recordPayment
    rw [hpayload]
    unfold getOrCreateTransaction
    dsimp only
    rw [if_neg (uuid4_fresh s)]
    split_ifs
    · exact ⟨s, rfl⟩
    · exact ⟨_, rfl⟩
  obtain ⟨s1, hs1⟩ := hok
  refine ⟨s1, hs1, ?_⟩
  obtain ⟨_, _, _, ⟨rfl, _⟩ | ⟨rfl, _⟩⟩ := recordPayment_cases hs1 <;> rfl

theorem hookSucceeds_noFaults (cat : Catalog) (l : Line) : HookSucceeds Faults.none cat l :=
  ⟨fun _ _ => ⟨Or.inr (Or.inl rfl), rfl⟩, fun _ _ => ⟨rfl, fun _ _ => Or.inr (Or.inl rfl)⟩⟩

/-- The lines of the order are not paid for. -/
def LinesNotPaid (s : Store) (o : OrderId) : Prop :=
  ∀ l ∈ (s.order o).lines.rows, NotPaid s (s.order o).purchaser o l

/-- The options of the zero-price path. -/
def CheckoutRequest.freeOptions (req : CheckoutRequest) : FulfillOptions := ⟨false, req.skipReceipt, false⟩

/-- A free order whose lines are not paid for is fulfilled. -/
theorem fulfill_of_linesNotPaid (hpending : (s.order o).state = .pending) (h : LinesNotPaid s o) :
    (fulfill Faults.none cat now o zeroPaymentData req.freeOptions true s).error = none := by
  obtain ⟨s1, hrecord, -⟩ := recordPayment_zero o s
  have hnothing : NothingElseFails Faults.none cat s o req.freeOptions :=
    ⟨Or.inr fun l hl => ⟨hookSucceeds_noFaults cat l, h l hl⟩, fun _ => rfl, rfl⟩
  have hreturns : Returns Faults.none ⟨some [.pending], .fulfilled⟩ o
      (fulfillBody Faults.none cat now o zeroPaymentData req.freeOptions true) s :=
    returns_of_nothingElseFails hpending rfl hrecord hnothing
  unfold fulfill
  rcases callTransition_cases Faults.none ⟨some [.pending], .fulfilled⟩ o
    (fulfillBody Faults.none cat now o zeroPaymentData req.freeOptions true) s with
    ⟨hno, -⟩ | ⟨-, hno, -⟩ | ⟨-, heq⟩
  · rw [hreturns.1] at hno
    cases hno
  · exact absurd hreturns hno
  · rw [heq]

/-- A free order that is fulfilled had no line that was paid for, and its lines are granted. -/
theorem fulfill_noFaults
    (h : (fulfill Faults.none cat now o zeroPaymentData req.freeOptions true s).error = none) :
    LinesNotPaid s o ∧ GrantsModes cat now (s.order o).purchaser (s.order o).lines.rows s
      (fulfill Faults.none cat now o zeroPaymentData req.freeOptions true s).state := by
  obtain ⟨s1, hrecord, henrollments⟩ := recordPayment_zero o s
  obtain ⟨hlines, hpurchaser, hruns, hprograms⟩ := recordPayment_kept hrecord
  unfold fulfill at h ⊢
  rcases callTransition_cases Faults.none ⟨some [.pending], .fulfilled⟩ o
    (fulfillBody Faults.none cat now o zeroPaymentData req.freeOptions true) s with
    ⟨-, heq⟩ | ⟨-, -, -, herror⟩ | ⟨hreturns, heq⟩
  · rw [heq] at h
    cases h
  · exact absurd h herror
  · have hbody := hreturns.2.1
    rw [fulfillBody_of_recorded rfl hrecord] at hbody
    have hhooks := (seq_cons_error hbody).1
    have hstate : (fulfillBody Faults.none cat now o zeroPaymentData req.freeOptions true s).state =
        (fulfillHooks Faults.none cat now o req.freeOptions s1).state :=
      fulfillBody_state rfl hrecord
    rw [heq, hstate]
    have hseq : fulfillHooks Faults.none cat now o req.freeOptions s1 =
        seq ((s.order o).lines.rows.map
          (processTransactionLine Faults.none cat now (s.order o).purchaser o)) s1 := by
      rw [← hlines, ← hpurchaser]
      rfl
    rw [hseq] at hhooks ⊢
    have hgrants := processTransactionLines_noFaults hhooks
    refine ⟨fun l hl => ?_, hgrants.congr henrollments.symm rfl⟩
    have hnew := (processTransactionLines_returns hhooks l hl).1
    constructor
    · rw [← hruns]
      exact hnew.run
    · rw [← hprograms]
      exact hnew.program

theorem clearBasket_noFaults (o : OrderId) (s : Store) : (clearBasket Faults.none o s).error = none := by
  unfold clearBasket
  split
  · rfl
  · split <;> rfl

theorem fulfillCompletedOrder_noFaults (cat : Catalog) (now : Instant) (o : OrderId)
    (opts : FulfillOptions) (s : Store) :
    (fulfillCompletedOrder Faults.none cat now o zeroPaymentData opts true s).error =
        (fulfill Faults.none cat now o zeroPaymentData opts true s).error ∧
      (fulfillCompletedOrder Faults.none cat now o zeroPaymentData opts true s).state.enrollments =
        (fulfill Faults.none cat now o zeroPaymentData opts true s).state.enrollments := by
  refine ⟨?_, fulfillCompletedOrder_after (isFrame_eq Store.enrollments) (fun _ _ => rfl) opts true s⟩
  unfold fulfillCompletedOrder
  rw [seq_cons]
  rcases hful : (fulfill Faults.none cat now o zeroPaymentData opts true s).error with _ | e
  · have hclear := clearBasket_noFaults o (fulfill Faults.none cat now o zeroPaymentData opts true s).state
    rw [andThen_of_ok hful, seq_cons, andThen_of_ok rfl, seq_cons]
    exact congrArg Outcome.error (andThen_of_ok hclear)
  · rw [andThen_of_error hful]

/-! ## Charging -/

/-- The order is free, and its lines are not paid for. -/
structure IsFree (cat : Catalog) (s : Store) (o : OrderId) : Prop where
  total : (s.order o).linesTotal cat = .ok 0
  lines : LinesNotPaid s o

/-- A free order is fulfilled, and all its lines are granted. -/
theorem fulfillFreeOrder_noFaults (hfaults : req.faults = Faults.none)
    (hpending : (s.order o).state = .pending) (h : LinesNotPaid s o) :
    GrantsModes cat req.now (s.order o).purchaser (s.order o).lines.rows s
      (fulfillFreeOrder cat req o s).state := by
  have hful : (fulfill Faults.none cat req.now o zeroPaymentData req.freeOptions true s).error = none :=
    fulfill_of_linesNotPaid hpending h
  obtain ⟨herror, hkept⟩ := fulfillCompletedOrder_noFaults cat req.now o req.freeOptions s
  have hgrants := (fulfill_noFaults hful).2
  rw [hful] at herror
  have hatomic : atomic (fulfillCompletedOrder Faults.none cat req.now o zeroPaymentData
      ⟨false, req.skipReceipt, false⟩ true) s = ⟨_, none⟩ := atomic_of_ok herror
  unfold fulfillFreeOrder
  rw [hfaults, andThen_of_ok (by rw [hatomic]), hatomic]
  dsimp only
  refine hgrants.congr rfl ?_
  split <;> exact hkept

theorem fulfillFreeOrder_of_paid (hfaults : req.faults = Faults.none) (h : ¬LinesNotPaid s o) :
    (fulfillFreeOrder cat req o s).state = s := by
  rcases hful : (fulfill Faults.none cat req.now o zeroPaymentData req.freeOptions true s).error with _ | e
  · exact absurd (fulfill_noFaults hful).1 h
  · obtain ⟨herror, -⟩ := fulfillCompletedOrder_noFaults cat req.now o req.freeOptions s
    have herror' := herror.trans hful
    rw [← hfaults] at herror'
    rw [fulfillFreeOrder_of_error herror']

theorem chargeOrder_of_free (hfaults : req.faults = Faults.none) (hpending : (s.order o).state = .pending)
    (h : IsFree cat s o) : GrantsModes cat req.now (s.order o).purchaser (s.order o).lines.rows s
      (chargeOrder cat req o s).1 := by
  have hgrants : GrantsModes cat req.now (s.order o).purchaser (s.order o).lines.rows s
      (fulfillFreeOrder cat req o s).state := fulfillFreeOrder_noFaults hfaults hpending h.lines
  unfold chargeOrder
  rw [h.total]
  dsimp only
  rw [if_pos rfl]
  split <;> exact hgrants

/-- Charging an order that is not free enrolls in nothing. -/
theorem chargeOrder_of_not_free (hfaults : req.faults = Faults.none) (h : ¬IsFree cat s o) :
    (chargeOrder cat req o s).1.enrollments = s.enrollments := by
  unfold chargeOrder
  rcases htotal : (s.order o).linesTotal cat with e | total
  · rfl
  · dsimp only
    by_cases hzero : total = 0
    · have hpaid : ¬LinesNotPaid s o := fun hlines => h ⟨hzero ▸ htotal, hlines⟩
      rw [if_pos hzero]
      split <;> exact congrArg Store.enrollments (fulfillFreeOrder_of_paid hfaults hpaid)
    · rw [if_neg hzero]
      rcases req.startPayment with e | session
      · rfl
      · have hkept : (createTransaction req.faults o session "Initial CheckoutSession" s).state.enrollments =
            s.enrollments := keeps_createTransaction (isFrame_eq Store.enrollments) (fun _ _ => rfl) s
        dsimp only
        split_ifs
        · split <;> exact hkept
        · rfl

/-! ## Checkouts -/

/-- No check refuses the basket of the user, and the order that is made of it is free. -/
structure MakesFreeOrder (cat : Catalog) (user : UserId) (req : CheckoutRequest) (s : Store) (o : OrderId)
    (t : Store) : Prop where
  refusal : checkoutRefusal cat (setBasket user (s.basketOf user) s) user (s.basketOf user) req = none
  made : createFromBasket cat (setBasket user (s.basketOf user) s) user (s.basketOf user)
    req.gatewayType = .ok (o, t)
  free : IsFree cat t o

theorem CheckedOut.enrollments {products : List ProductId} {ds : List DiscountId}
    {gatewayType : GatewayType} (h : CheckedOut cat s s' products user ds gatewayType o) :
    s'.enrollments = s.enrollments := by
  rw [← h.rest]

theorem CheckedOut.purchaser {products : List ProductId} {ds : List DiscountId}
    {gatewayType : GatewayType} (h : CheckedOut cat s s' products user ds gatewayType o) :
    (s'.order o).purchaser = user := by
  rw [h.filled.purchaser]
  unfold startingOrder
  rcases h.reused with hreused | ⟨hnone, -⟩
  · rw [hreused]
    exact (reusedOrder_spec hreused).2.2.1
  · rw [hnone]
    rfl

/-- A checkout that makes a free order grants all lines of it. -/
theorem generateCheckoutPayload_of_free {t : Store} (hfaults : req.faults = Faults.none)
    (h : MakesFreeOrder cat user req s o t) :
    GrantsModes cat req.now user (t.order o).lines.rows s (generateCheckoutPayload cat user req s).1 := by
  have hout := createFromBasket_spec h.made
  have hgrants := chargeOrder_of_free hfaults hout.pending.1 h.free
  rw [hout.purchaser] at hgrants
  have hstate : (generateCheckoutPayload cat user req s).1 = (chargeOrder cat req o t).1 := by
    unfold generateCheckoutPayload
    dsimp only
    rw [h.refusal, h.made]
  rw [hstate]
  exact hgrants.congr hout.enrollments.symm rfl

/-- Any other checkout enrolls in nothing. -/
theorem generateCheckoutPayload_of_not_free (hfaults : req.faults = Faults.none)
    (h : ∀ o t, ¬MakesFreeOrder cat user req s o t) :
    (generateCheckoutPayload cat user req s).1.enrollments = s.enrollments := by
  unfold generateCheckoutPayload
  dsimp only
  rcases hrefusal : checkoutRefusal cat (setBasket user (s.basketOf user) s) user (s.basketOf user) req
    with _ | refusal
  · rcases hmade : createFromBasket cat (setBasket user (s.basketOf user) s) user (s.basketOf user)
      req.gatewayType with e | ⟨o, t⟩
    · rfl
    · have hnot : ¬IsFree cat t o := fun hfree => h o t ⟨hrefusal, hmade, hfree⟩
      exact (chargeOrder_of_not_free hfaults hnot).trans (createFromBasket_spec hmade).enrollments
  · cases refusal <;> rfl

/-- A line of the order of a checkout that is for none of the products was there before. -/
theorem CheckedOut.reused_of_mem {products : List ProductId} {ds : List DiscountId}
    {gatewayType : GatewayType} (h : CheckedOut cat s s' products user ds gatewayType o) {l : Line}
    (hl : l ∈ (s'.order o).lines.rows) (hother : l.isRequested cat products = false) :
    reusedOrder cat s products user gatewayType = some o ∧ l ∈ (s.order o).lines.rows := by
  have hstart : l ∈ (startingOrder cat s products user gatewayType).lines.rows := by
    refine ((h.mem_rows l).mp hl).resolve_right ?_
    rintro ⟨p, hp, -, v, -, rfl⟩
    have hfor : (Line.new cat p v).isRequested cat products = true :=
      isRequested_iff.mpr ⟨p, hp, isFor_new p v⟩
    rw [hother] at hfor
    cases hfor
  rcases h.reused with hreused | ⟨hnone, -⟩
  · refine ⟨hreused, ?_⟩
    rwa [startingOrder, hreused] at hstart
  · rw [startingOrder, hnone] at hstart
    exact absurd hstart List.not_mem_nil

end MitxOnline

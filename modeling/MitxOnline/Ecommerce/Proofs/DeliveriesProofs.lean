import MitxOnline.Ecommerce.Proofs.RetriesProofs

/-!
# Repeated deliveries of completed checkouts

Stripe delivers the events of a checkout session in any order and any number of times. The first whose
payment can be recorded fulfils the order, and those after it find it fulfilled; but an order that has
a record of what it paid for from an earlier, failed delivery is not fulfilled by any of them.
-/

namespace MitxOnline

open Autocommit

variable {cat : Catalog} {s s' : Store} {o : OrderId} {f : Faults} {now : Instant} {data : PaymentData}
  {user : UserId}

/-- A completed event for a session that the gateway reports as paid, handled to completion: only
calls of edX fail, and in a way that is handled. -/
structure CompletedEvent where
  data : PaymentData
  now : Instant
  faults : Faults
  handled : ∀ point e, faults point = some e → e = .edxError ∧ ∃ runs, point = .edxEnroll runs

/-- The database after the event is delivered. -/
def completeOrder (cat : Catalog) (o : OrderId) (s : Store) (e : CompletedEvent) : Store :=
  (processStripeCheckoutCompleted e.faults cat e.now o .paid e.data s).state

/-- How often the order becomes fulfilled. -/
def fulfilments (cat : Catalog) (o : OrderId) : Store → List CompletedEvent → ℕ
  | _, [] => 0
  | s, e :: rest =>
    (if (s.order o).state ≠ .fulfilled ∧ ((completeOrder cat o s e).order o).state = .fulfilled
      then 1 else 0) + fulfilments cat o (completeOrder cat o s e) rest

/-- The id that the payment of an event is recorded under. -/
def paymentId (o : OrderId) (s : Store) (e : CompletedEvent) : Option TransactionId :=
  ((s.order o).transactionPayload e.data s.uuid4).toOption.map Prod.fst

/-- The ids of the transactions of the order. -/
def orderTransactionIds (o : OrderId) (s : Store) : List TransactionId :=
  (s.order o).transactions.map (·.transactionId)

/-- The payment of the event can be recorded. -/
def CanRecord (o : OrderId) (s : Store) (e : CompletedEvent) : Prop :=
  ∃ s1, recordPayment o e.data "" s = .ok s1

/-- After the deliveries the order is fulfilled, once; there is one transaction for every transaction
id and one record for every purchased run; and the enrollments are those after one of the events. -/
structure Confluent (cat : Catalog) (o : OrderId) (s : Store) (events : List CompletedEvent)
    (s' : Store) : Prop where
  fulfilled : (s'.order o).state = .fulfilled
  once : fulfilments cat o s events = 1
  payments : ∀ e ∈ events, ∀ id, paymentId o s e = some id → (orderTransactionIds o s').count id = 1
  paidCourseRuns : ∀ l ∈ (s.order o).lines.rows, ∀ run, l.purchases .courseRun run = true →
    s'.paidCourseRuns.count ⟨(s.order o).purchaser, run, o⟩ = 1
  enrollments : ∃ e ∈ events, s'.enrollments = (completeOrder cat o s e).enrollments

/-- The first event whose payment can be recorded records all: every event is recorded under its id, or
under one that the order has; and nothing of the order is recorded as paid for yet. -/
def FirstRecordsAll (o : OrderId) (s : Store) (events : List CompletedEvent) : Prop :=
  (∃ before e after, events = before ++ e :: after ∧ (∀ d ∈ before, ¬CanRecord o s d) ∧
    CanRecord o s e ∧ ∀ d ∈ events, ∀ id, paymentId o s d = some id →
      id ∈ orderTransactionIds o s ∨ paymentId o s e = some id) ∧
  ∀ l ∈ (s.order o).lines.rows, NotPaid s (s.order o).purchaser o l

/-! ## Hooks that return -/

/-- Nothing that is recorded as paid for is lost. -/
structure PaidGrow (s s' : Store) : Prop where
  runs : ∀ row ∈ s.paidCourseRuns, row ∈ s'.paidCourseRuns
  programs : ∀ row ∈ s.paidPrograms, row ∈ s'.paidPrograms

theorem paidGrow_frame : IsFrame PaidGrow := by
  constructor
  · intro s
    exact ⟨fun _ h => h, fun _ h => h⟩
  · intro s t u h h'
    exact ⟨fun row hrow => h'.runs row (h.runs row hrow),
      fun row hrow => h'.programs row (h.programs row hrow)⟩

theorem paidGrow_of_paidKept (h : PaidKept s s') : PaidGrow s s' := by
  constructor
  · intro row hrow
    rw [h.1]
    exact hrow
  · intro row hrow
    rw [h.2]
    exact hrow

theorem processTransactionLine_paidGrow (l : Line) :
    Keeps PaidGrow (processTransactionLine f cat now user o l) := by
  have hrun : ∀ run, AllowsRun PaidGrow f cat now user run := fun run =>
    ⟨fun _ _ => paidGrow_of_paidKept ⟨rfl, rfl⟩, fun s =>
      paidGrow_of_paidKept ((allowsRun_paidKept run).join s)⟩
  refine keeps_processTransactionLine paidGrow_frame ⟨fun run _ => hrun run, fun run _ s _ => ?_,
    fun _ _ _ _ => paidGrow_of_paidKept ⟨rfl, rfl⟩, fun p _ s => ?_, fun _ _ run _ => hrun run⟩
  · exact ⟨fun row hrow => List.mem_append_left _ hrow, fun _ h => h⟩
  · exact ⟨fun _ h => h, fun row hrow => List.mem_append_left _ hrow⟩

theorem createPaidCourseRun_returns {row : PaidCourseRun}
    (h : (createPaidCourseRun f row s).error = none) :
    row ∉ s.paidCourseRuns ∧ row ∈ (createPaidCourseRun f row s).state.paidCourseRuns := by
  by_cases hfails : f (.paidCourseRun row.courseRun) ≠ none ∨ row ∈ s.paidCourseRuns
  · obtain ⟨e, he⟩ := createPaidCourseRun_fails row hfails
    rw [he] at h
    cases h
  · simp only [ne_eq, not_or, not_not] at hfails
    refine ⟨hfails.2, ?_⟩
    simp [createPaidCourseRun, fallible, hfails, statement]

theorem createPaidProgram_returns {row : PaidProgram}
    (h : (createPaidProgram f row s).error = none) : row ∉ s.paidPrograms := by
  intro hmem
  obtain ⟨e, he⟩ := createPaidProgram_fails row (Or.inr hmem)
  rw [he] at h
  cases h

/-- A hook that returns found its line not paid for, and has recorded its run. -/
theorem processTransactionLine_returns {l : Line}
    (h : (processTransactionLine f cat now user o l s).error = none) :
    NotPaid s user o l ∧ ∀ run, l.purchases .courseRun run = true →
      ⟨user, run, o⟩ ∈ (processTransactionLine f cat now user o l s).state.paidCourseRuns := by
  rcases processTransactionLine_cases f cat now user o l with
    ⟨run, hrun, heq⟩ | ⟨p, hp, heq⟩ | ⟨hnothing, heq⟩
  · rw [heq] at h ⊢
    have hkept : PaidKept s (createRunEnrollments f cat now user [run] none true .verified s).state :=
      keeps_createRunEnrollments paidKept_frame (fun run' _ => allowsRun_paidKept run') s
    obtain ⟨hfirst, hrest⟩ := seq_cons_error h
    obtain ⟨hnew, hmem⟩ := createPaidCourseRun_returns (seq_cons_error hrest).1
    rw [hkept.1] at hnew
    refine ⟨⟨fun run' hrun' => ?_, fun p hp => ?_⟩, fun run' hrun' => ?_⟩
    · rw [(purchases_inj hrun' hrun).2]
      exact hnew
    · cases (purchases_inj hp hrun).1
    · rw [(purchases_inj hrun' hrun).2]
      unfold createCourserunEnrollment
      rw [seq_cons, andThen_of_ok hfirst, seq_cons, andThen_of_ok (seq_cons_error hrest).1]
      exact hmem
  · rw [heq] at h
    have hkept : PaidKept s (createProgramEnrollments f user [p] .verified s).state :=
      keeps_createProgramEnrollments paidKept_frame (fun _ _ _ _ => ⟨rfl, rfl⟩) s
    have hnew := createPaidProgram_returns (seq_cons_error (seq_cons_error h).2).1
    rw [hkept.2] at hnew
    refine ⟨⟨fun run hrun => ?_, fun p' hp' => ?_⟩, fun run hrun => ?_⟩
    · cases (purchases_inj hrun hp).1
    · rw [(purchases_inj hp' hp).2]
      exact hnew
    · cases (purchases_inj hrun hp).1
  · have hnone : ∀ ct id, l.purchases ct id = true → False := by
      intro ct id hl
      rw [not_purchases_of_nothing hnothing] at hl
      cases hl
    exact ⟨⟨fun run hrun => (hnone _ _ hrun).elim, fun p hp => (hnone _ _ hp).elim⟩,
      fun run hrun => (hnone _ _ hrun).elim⟩

/-- The hooks of an order that return found none of its lines paid for, and have recorded the runs. -/
theorem processTransactionLines_returns {lines : List Line}
    (h : (seq (lines.map (processTransactionLine f cat now user o)) s).error = none) :
    ∀ l ∈ lines, NotPaid s user o l ∧ ∀ run, l.purchases .courseRun run = true → ⟨user, run, o⟩ ∈
      (seq (lines.map (processTransactionLine f cat now user o)) s).state.paidCourseRuns := by
  induction lines generalizing s with
  | nil =>
    intro l hl
    cases hl
  | cons l rest ih =>
    rw [List.map_cons] at h ⊢
    obtain ⟨hfirst, hrest⟩ := seq_cons_error h
    obtain ⟨hnew, hrun⟩ := processTransactionLine_returns hfirst
    have hgrow : PaidGrow s (processTransactionLine f cat now user o l s).state :=
      processTransactionLine_paidGrow l s
    have hgrows : Keeps PaidGrow (seq (rest.map (processTransactionLine f cat now user o))) :=
      keeps_seq paidGrow_frame fun a ha => by
        obtain ⟨l', -, rfl⟩ := List.mem_map.mp ha
        exact processTransactionLine_paidGrow l'
    rw [seq_cons, andThen_of_ok hfirst]
    intro l' hl'
    rcases List.mem_cons.mp hl' with rfl | hl'
    · exact ⟨hnew, fun run hl => (hgrows _).runs _ (hrun run hl)⟩
    · obtain ⟨hnew', hrun'⟩ := ih hrest l' hl'
      exact ⟨⟨fun run hl hmem => hnew'.run run hl (hgrow.runs _ hmem),
        fun p hl hmem => hnew'.program p hl (hgrow.programs _ hmem)⟩, hrun'⟩

/-! ## One delivery -/

/-- Where `fulfill` raises, what it wrote is what the delivery leaves. -/
theorem fulfillCompletedOrder_of_raised {opts : FulfillOptions} {inTransaction : Bool}
    (h : (fulfill f cat now o data opts inTransaction s).error ≠ none) :
    (fulfillCompletedOrder f cat now o data opts inTransaction s).state =
      (fulfill f cat now o data opts inTransaction s).state := by
  obtain ⟨e, he⟩ := Option.ne_none_iff_exists'.mp h
  unfold fulfillCompletedOrder
  rw [seq_cons, andThen_of_error he]

theorem completeOrder_of_key (e : CompletedEvent) (h : o ∈ s.orders.keys) :
    completeOrder cat o s e =
      (fulfillCompletedOrder e.faults cat e.now o e.data FulfillOptions.default false s).state := by
  unfold completeOrder processStripeCheckoutCompleted
  rw [if_pos h]

/-- An event that finds the order fulfilled changes nothing. -/
theorem completeOrder_of_fulfilled (cat : Catalog) (e : CompletedEvent)
    (h : (s.order o).state = .fulfilled) : completeOrder cat o s e = s := by
  by_cases hkey : o ∈ s.orders.keys
  · have hrefused : fulfill e.faults cat e.now o e.data FulfillOptions.default false s =
        ⟨s, some .transitionNotAllowed⟩ := by
      rcases callTransition_cases e.faults ⟨some [.pending], .fulfilled⟩ o
        (fulfillBody e.faults cat e.now o e.data FulfillOptions.default false) s with
        ⟨-, heq⟩ | ⟨hallow, -⟩ | ⟨hret, -⟩
      · exact heq
      · simp [StateFlow.Transition.allows, h] at hallow
      · have hallow := hret.1
        simp [StateFlow.Transition.allows, h] at hallow
    have herror : (fulfill e.faults cat e.now o e.data FulfillOptions.default false s).error ≠ none := by
      rw [hrefused]
      simp
    rw [completeOrder_of_key e hkey, fulfillCompletedOrder_of_raised herror, hrefused]
  · unfold completeOrder processStripeCheckoutCompleted
    rw [if_neg hkey]

/-- An event whose payment cannot be recorded changes nothing. -/
theorem completeOrder_of_not_canRecord (cat : Catalog) (e : CompletedEvent)
    (h : ¬CanRecord o s e) : completeOrder cat o s e = s := by
  by_cases hkey : o ∈ s.orders.keys
  · have hrecord : ∃ error, recordPayment o e.data "" s = .error error := by
      cases hrecord : recordPayment o e.data "" s with
      | error error => exact ⟨error, rfl⟩
      | ok s1 => exact absurd ⟨s1, hrecord⟩ h
    have hbody : (fulfillBody e.faults cat e.now o e.data FulfillOptions.default false s).state = s :=
      fulfillBody_state_of_not_recorded (Or.inr hrecord)
    have hraised : (fulfill e.faults cat e.now o e.data FulfillOptions.default false s).error ≠ none ∧
        (fulfill e.faults cat e.now o e.data FulfillOptions.default false s).state = s := by
      rcases callTransition_cases e.faults ⟨some [.pending], .fulfilled⟩ o
        (fulfillBody e.faults cat e.now o e.data FulfillOptions.default false) s with
        ⟨-, heq⟩ | ⟨-, -, hstate, herror⟩ | ⟨hret, -⟩
      · have heq : fulfill e.faults cat e.now o e.data FulfillOptions.default false s =
          ⟨s, some .transitionNotAllowed⟩ := heq
        rw [heq]
        simp
      · exact ⟨herror, hstate.trans hbody⟩
      · exact absurd hret (not_returns_of_refused (Or.inr (Or.inl hrecord)))
    rw [completeOrder_of_key e hkey, fulfillCompletedOrder_of_raised hraised.1, hraised.2]
  · unfold completeOrder processStripeCheckoutCompleted
    rw [if_neg hkey]

/-- Faults that are handled end no hook, no receipt and no save. -/
theorem CompletedEvent.nothingElseFails (e : CompletedEvent)
    (h : ∀ l ∈ (s.order o).lines.rows, NotPaid s (s.order o).purchaser o l) :
    NothingElseFails e.faults cat s o FulfillOptions.default := by
  have hnone : ∀ point, (∀ runs, point ≠ .edxEnroll runs) → e.faults point = none := by
    intro point hpoint
    cases hfault : e.faults point with
    | none => rfl
    | some error =>
      obtain ⟨-, runs, hruns⟩ := e.handled point error hfault
      exact absurd hruns (hpoint runs)
  have hedx : ∀ runs, EdxAnswers e.faults cat runs := by
    intro runs
    cases hfault : e.faults (.edxEnroll runs) with
    | none => exact Or.inr (Or.inl hfault)
    | some error =>
      obtain ⟨rfl, -⟩ := e.handled _ error hfault
      exact Or.inr (Or.inr hfault)
  refine ⟨Or.inr fun l hl => ⟨⟨fun run _ => ⟨hedx [run], hnone _ fun _ => by simp⟩,
    fun p _ => ⟨hnone _ fun _ => by simp, fun runs _ => hedx runs⟩⟩, h l hl⟩,
    fun _ => hnone _ fun _ => by simp, hnone _ fun _ => by simp⟩

/-- The first event whose payment is recorded fulfils an order of which nothing is paid for. -/
theorem completeOrder_fulfils (cat : Catalog) (e : CompletedEvent) (hkey : o ∈ s.orders.keys)
    (hpending : (s.order o).state = .pending) (hrecordable : CanRecord o s e)
    (h : ∀ l ∈ (s.order o).lines.rows, NotPaid s (s.order o).purchaser o l) :
    Fulfilled o e.data s (completeOrder cat o s e) ∧
      ∀ l ∈ (s.order o).lines.rows, ∀ run, l.purchases .courseRun run = true →
        ⟨(s.order o).purchaser, run, o⟩ ∈ (completeOrder cat o s e).paidCourseRuns := by
  obtain ⟨s1, hrecord⟩ := hrecordable
  have hpoint : e.faults .transaction = none := by
    cases hfault : e.faults .transaction with
    | none => rfl
    | some error =>
      obtain ⟨-, runs, hruns⟩ := e.handled _ error hfault
      cases hruns
  have hreturns : Returns e.faults ⟨some [.pending], .fulfilled⟩ o
      (fulfillBody e.faults cat e.now o e.data FulfillOptions.default false) s :=
    returns_of_nothingElseFails hpending hpoint hrecord (e.nothingElseFails h)
  have hkept : GrantsKept (fulfill e.faults cat e.now o e.data FulfillOptions.default false s).state
      (fulfillCompletedOrder e.faults cat e.now o e.data FulfillOptions.default false s).state :=
    fulfillCompletedOrder_grantsKept s
  have hstate : (fulfill e.faults cat e.now o e.data FulfillOptions.default false s).state =
      (createEnrollments e.faults cat e.now o s1).state.setState o .fulfilled := by
    rcases callTransition_cases e.faults ⟨some [.pending], .fulfilled⟩ o
      (fulfillBody e.faults cat e.now o e.data FulfillOptions.default false) s with
      ⟨hallow, -⟩ | ⟨-, hno, -⟩ | ⟨-, heq⟩
    · rw [hreturns.1] at hallow
      cases hallow
    · exact absurd hreturns hno
    · unfold fulfill
      rw [heq, fulfillBody_state hpoint hrecord]
      rfl
  have hhooks : (createEnrollments e.faults cat e.now o s1).error = none := by
    have hbody := hreturns.2.1
    rw [fulfillBody_of_recorded hpoint hrecord] at hbody
    exact (seq_cons_error hbody).1
  obtain ⟨hlines, hpurchaser, -, -⟩ := recordPayment_kept hrecord
  rw [completeOrder_of_key e hkey]
  refine ⟨(fulfilled_of_returns hreturns).kept hkept.orders, fun l hl run hrun => ?_⟩
  rw [hkept.paidCourseRuns, hstate]
  have hall := processTransactionLines_returns hhooks l (hlines ▸ hl)
  rw [← hpurchaser]
  exact hall.2 run hrun

/-! ## Orders that are stuck -/

/-- The order is pending, and something of it is recorded as paid for. -/
def Stuck (o : OrderId) (s : Store) : Prop :=
  (s.order o).state = .pending ∧ ∃ l ∈ (s.order o).lines.rows, ¬NotPaid s (s.order o).purchaser o l

/-- The lines of the order and its purchaser are as they were, and nothing that is recorded as paid
for is lost. -/
structure KeepsPurchase (o : OrderId) (s s' : Store) : Prop where
  lines : (s'.order o).lines = (s.order o).lines
  purchaser : (s'.order o).purchaser = (s.order o).purchaser
  paid : PaidGrow s s'

theorem keepsPurchase_frame (o : OrderId) : IsFrame (KeepsPurchase o) := by
  constructor
  · intro s
    exact ⟨rfl, rfl, paidGrow_frame.refl s⟩
  · intro s t u h h'
    exact ⟨h'.lines.trans h.lines, h'.purchaser.trans h.purchaser,
      paidGrow_frame.trans _ _ _ h.paid h'.paid⟩

theorem completeOrder_keepsPurchase (cat : Catalog) (s : Store) (e : CompletedEvent) :
    KeepsPurchase o s (completeOrder cat o s e) := by
  have hr := keepsPurchase_frame o
  have hkept : ∀ {s s' : Store}, OrdersKept s s' → PaidGrow s s' → KeepsPurchase o s s' := by
    intro s s' horders hpaid
    have hrow := order_of_ordersKept horders o
    exact ⟨by rw [hrow], by rw [hrow], hpaid⟩
  have henrollments : Keeps (KeepsPurchase o) (createEnrollments e.faults cat e.now o) :=
    keeps_createEnrollments hr fun s l _ t =>
      hkept (keeps_lines_ordersKept _ l t) (processTransactionLine_paidGrow l t)
  have hfulfill : ∀ opts inTransaction,
      Keeps (KeepsPurchase o) (fulfill e.faults cat e.now o e.data opts inTransaction) := by
    intro opts inTransaction
    refine keeps_callTransition hr (keeps_fulfillBody hr (fun t s => ?_) henrollments) fun s => ?_
    · exact ⟨by simp [addTransaction], by simp [addTransaction], ⟨fun _ h => h, fun _ h => h⟩⟩
    · exact ⟨by simp, by simp, ⟨fun _ h => h, fun _ h => h⟩⟩
  have hhandle : Keeps (KeepsPurchase o)
      ((⟨.webhook, e.data, e.now, e.faults⟩ : PaymentNotice).handle cat o) :=
    keeps_handle hr hfulfill fun s baskets => hkept rfl ⟨fun _ h => h, fun _ h => h⟩
  exact hhandle s

/-- No delivery gets an order out of that state. -/
theorem Stuck.step (h : Stuck o s) (e : CompletedEvent) : Stuck o (completeOrder cat o s e) := by
  obtain ⟨hpending, l, hl, hpaid⟩ := h
  have hkeeps := completeOrder_keepsPurchase (o := o) cat s e
  have hnot : ¬Returns e.faults ⟨some [.pending], .fulfilled⟩ o
      (fulfillBody e.faults cat e.now o e.data FulfillOptions.default false) s := by
    intro hreturns
    obtain ⟨hpoint, s1, hrecord⟩ := (createTransaction_error "").mp (seq_cons_error hreturns.2.1).1
    have hbody := hreturns.2.1
    rw [fulfillBody_of_recorded hpoint hrecord] at hbody
    have hhooks : (createEnrollments e.faults cat e.now o s1).error = none := (seq_cons_error hbody).1
    obtain ⟨hlines, hpurchaser, hruns, hprograms⟩ := recordPayment_kept hrecord
    have hnew := (processTransactionLines_returns hhooks l (hlines ▸ hl)).1
    rw [hpurchaser] at hnew
    exact hpaid ⟨fun run hrun => hruns ▸ hnew.run run hrun,
      fun p hp => hprograms ▸ hnew.program p hp⟩
  have hstate : ((completeOrder cat o s e).order o).state = .pending := by
    by_cases hkey : o ∈ s.orders.keys
    · rw [completeOrder_of_key e hkey, order_of_ordersKept (fulfillCompletedOrder_orders _ false s)]
      exact ((callTransition_order_state (fulfillBody_records _ false s).state).2 hnot).trans hpending
    · unfold completeOrder processStripeCheckoutCompleted
      rw [if_neg hkey]
      exact hpending
  refine ⟨hstate, l, hkeeps.lines ▸ hl, fun hnew => hpaid ?_⟩
  rw [hkeeps.purchaser] at hnew
  exact ⟨fun run hrun hmem => hnew.run run hrun (hkeeps.paid.runs _ hmem),
    fun p hp hmem => hnew.program p hp (hkeeps.paid.programs _ hmem)⟩

theorem Stuck.run (h : Stuck o s) (events : List CompletedEvent) :
    Stuck o (Trace.run (completeOrder cat o) s events) :=
  Trace.run_of_invariant (Stuck o) (fun _ e h => h.step e) h events

/-! ## Runs -/

theorem run_of_unchanged (cat : Catalog) (events : List CompletedEvent)
    (h : ∀ e ∈ events, completeOrder cat o s e = s) (rest : List CompletedEvent) :
    Trace.run (completeOrder cat o) s (events ++ rest) =
      Trace.run (completeOrder cat o) s rest ∧
        fulfilments cat o s (events ++ rest) = fulfilments cat o s rest := by
  induction events with
  | nil => exact ⟨rfl, rfl⟩
  | cons e events ih =>
    have hsame := h e List.mem_cons_self
    obtain ⟨hrun, hcount⟩ := ih fun d hd => h d (List.mem_cons_of_mem e hd)
    constructor
    · show Trace.run (completeOrder cat o) (completeOrder cat o s e) (events ++ rest) = _
      rw [hsame]
      exact hrun
    · rw [List.cons_append, fulfilments, hsame, hcount, if_neg fun h => h.1 h.2, Nat.zero_add]

/-- Recording the payment of an event leaves its id among those of the order. -/
theorem orderTransactionIds_recorded {e : CompletedEvent} {s1 : Store}
    (h : recordPayment o e.data "" s = .ok s1) :
    (∀ id, id ∈ orderTransactionIds o s1 ↔
        id ∈ orderTransactionIds o s ∨ paymentId o s e = some id) ∧
      ((orderTransactionIds o s).Nodup → (orderTransactionIds o s1).Nodup) := by
  obtain ⟨transactionId, amount, hpayload, hcases⟩ := recordPayment_cases h
  have hid : ∀ id, paymentId o s e = some id ↔ transactionId = id := by
    intro id
    unfold paymentId
    rw [hpayload]
    exact Option.some_inj
  rcases hcases with ⟨rfl, hmem⟩ | ⟨rfl, -, hnew⟩
  · refine ⟨fun id => ?_, fun hnodup => hnodup⟩
    rw [hid]
    constructor
    · exact Or.inl
    · rintro (hold | rfl)
      · exact hold
      · exact hmem
  · have hids : orderTransactionIds o (addTransaction o ⟨transactionId, amount, e.data, .payment, ""⟩ s) =
        orderTransactionIds o s ++ [transactionId] := by
      simp [orderTransactionIds, addTransaction]
    rw [hids]
    refine ⟨fun id => ?_, fun hnodup => ?_⟩
    · rw [hid, List.mem_append, List.mem_singleton, eq_comm]
    · refine List.nodup_append.mpr ⟨hnodup, List.nodup_singleton _, ?_⟩
      intro a ha b hb hab
      obtain rfl := List.mem_singleton.mp hb
      exact hnew (hab ▸ ha)

/-- The first event that can be recorded, if there is one. -/
theorem first_canRecord {events : List CompletedEvent} (h : ∃ e ∈ events, CanRecord o s e) :
    ∃ before e after, events = before ++ e :: after ∧ (∀ d ∈ before, ¬CanRecord o s d) ∧
      CanRecord o s e := by
  induction events with
  | nil =>
    obtain ⟨e, he, -⟩ := h
    cases he
  | cons d rest ih =>
    by_cases hd : CanRecord o s d
    · exact ⟨[], d, rest, rfl, fun _ h => absurd h List.not_mem_nil, hd⟩
    · obtain ⟨e, he, hrecord⟩ := h
      have hrest : e ∈ rest := by
        rcases List.mem_cons.mp he with rfl | he
        · exact absurd hrecord hd
        · exact he
      obtain ⟨before, e', after, rfl, hbefore, he'⟩ := ih ⟨e, hrest, hrecord⟩
      refine ⟨d :: before, e', after, rfl, fun d' hd' => ?_, he'⟩
      rcases List.mem_cons.mp hd' with rfl | hd'
      · exact hd
      · exact hbefore d' hd'

/-- The deliveries amount to that of the first event that can be recorded, if nothing is paid for. -/
theorem run_first (cat : Catalog) (hkey : o ∈ s.orders.keys)
    (hpending : (s.order o).state = .pending)
    (hnew : ∀ l ∈ (s.order o).lines.rows, NotPaid s (s.order o).purchaser o l)
    {before : List CompletedEvent} {e : CompletedEvent} (after : List CompletedEvent)
    (hbefore : ∀ d ∈ before, ¬CanRecord o s d) (he : CanRecord o s e) :
    Trace.run (completeOrder cat o) s (before ++ e :: after) = completeOrder cat o s e ∧
      fulfilments cat o s (before ++ e :: after) = 1 := by
  have hfulfilled := (completeOrder_fulfils cat e hkey hpending he hnew).1.fulfilled
  obtain ⟨hrun, hcount⟩ := run_of_unchanged cat before
    (fun d hd => completeOrder_of_not_canRecord cat d (hbefore d hd)) (e :: after)
  obtain ⟨hrun', hcount'⟩ := run_of_unchanged cat after
    (fun d _ => completeOrder_of_fulfilled cat d hfulfilled) []
  rw [List.append_nil] at hrun' hcount'
  refine ⟨hrun.trans hrun', hcount.trans ?_⟩
  have hnot : (s.order o).state ≠ .fulfilled := by
    rw [hpending]
    simp
  rw [fulfilments, if_pos ⟨hnot, hfulfilled⟩, hcount']
  rfl

/-- Events that fulfil a pending order found none of its lines paid for. -/
theorem Confluent.notPaid {events : List CompletedEvent}
    (hpending : (s.order o).state = .pending)
    (h : Confluent cat o s events (Trace.run (completeOrder cat o) s events)) :
    ∀ l ∈ (s.order o).lines.rows, NotPaid s (s.order o).purchaser o l := by
  intro l hl
  by_contra hnot
  have hstuck : Stuck o (Trace.run (completeOrder cat o) s events) :=
    Stuck.run ⟨hpending, l, hl, hnot⟩ events
  have hstate := hstuck.1
  rw [h.fulfilled] at hstate
  cases hstate

/-- Events that fulfil a pending order have one whose payment can be recorded. -/
theorem Confluent.canRecord {events : List CompletedEvent} (hpending : (s.order o).state = .pending)
    (h : Confluent cat o s events (Trace.run (completeOrder cat o) s events)) :
    ∃ e ∈ events, CanRecord o s e := by
  by_contra hnone
  have hsame : ∀ e ∈ events, completeOrder cat o s e = s := fun e he =>
    completeOrder_of_not_canRecord cat e fun hrecord => hnone ⟨e, he, hrecord⟩
  have hrun := (run_of_unchanged cat events hsame []).1
  rw [List.append_nil] at hrun
  have hfulfilled := h.fulfilled
  rw [hrun] at hfulfilled
  have hstill : (s.order o).state = .fulfilled := hfulfilled
  rw [hpending] at hstill
  cases hstill

/-- The deliveries of events for a pending order are confluent exactly if the first event whose
payment can be recorded records all, and nothing of the order is recorded as paid for before. The ids
of the transactions of an order, and the records of paid runs, are unique in the database. -/
theorem deliveries_confluent_iff (cat : Catalog) (o : OrderId) (s : Store)
    (hkey : o ∈ s.orders.keys) (hpending : (s.order o).state = .pending)
    (hids : (orderTransactionIds o s).Nodup) (hpaid : s.paidCourseRuns.Nodup)
    (events : List CompletedEvent) :
    Confluent cat o s events (Trace.run (completeOrder cat o) s events) ↔
      FirstRecordsAll o s events := by
  constructor
  · intro h
    have hnew := h.notPaid hpending
    obtain ⟨before, e, after, rfl, hbefore, he⟩ := first_canRecord (h.canRecord hpending)
    refine ⟨⟨before, e, after, rfl, hbefore, he, fun d hd id hid => ?_⟩, hnew⟩
    obtain ⟨s1, hrecord, htransactions⟩ :=
      (completeOrder_fulfils cat e hkey hpending he hnew).1.payment
    have hcount := h.payments d hd id hid
    rw [(run_first cat hkey hpending hnew after hbefore he).1] at hcount
    have hmem : id ∈ orderTransactionIds o (completeOrder cat o s e) :=
      List.count_pos_iff.mp (by omega)
    unfold orderTransactionIds at hmem
    rw [htransactions] at hmem
    exact ((orderTransactionIds_recorded hrecord).1 id).mp hmem
  · rintro ⟨⟨before, e, after, rfl, hbefore, he, hall⟩, hnew⟩
    obtain ⟨hrun, hcount⟩ := run_first cat hkey hpending hnew after hbefore he
    obtain ⟨hful, hruns⟩ := completeOrder_fulfils cat e hkey hpending he hnew
    obtain ⟨s1, hrecord, htransactions⟩ := hful.payment
    obtain ⟨hmem, hnodup⟩ := orderTransactionIds_recorded hrecord
    have hsame : orderTransactionIds o (completeOrder cat o s e) = orderTransactionIds o s1 := by
      unfold orderTransactionIds
      rw [htransactions]
    rw [hrun]
    refine ⟨hful.fulfilled, hcount, fun d hd id hid => ?_, fun l hl run hline => ?_,
      e, List.mem_append_right _ List.mem_cons_self, rfl⟩
    · rw [hsame]
      exact List.count_eq_one_of_mem (hnodup hids) ((hmem id).mpr (hall d hd id hid))
    · have honce : (completeOrder cat o s e).paidCourseRuns.Nodup :=
        attemptPayment_paidOnce ⟨.webhook, e.data, e.now, e.faults⟩ s hpaid
      exact List.count_eq_one_of_mem honce (hruns l hl run hline)

/-- A completed event in whose delivery nothing fails. -/
def completedEvent (id : String) : CompletedEvent :=
  ⟨stripeEvent id, 0, Faults.none, fun _ _ h => nomatch h⟩

/-- What a delivery leaves that could not save the order. -/
def unsavedStore : Store :=
  attemptPayment hundredDollarCatalog 1 (storeWith pendingStripeOrder)
    (webhookWith fun point => if point = .orderSave then some .failure else none)

/-- The order could not be saved, and delivering the event again does not fulfil it: the record of the
paid run is there already. -/
theorem redelivered_event_does_not_fulfill :
    ¬∀ (cat : Catalog) (o : OrderId) (s : Store) (events : List CompletedEvent), o ∈ s.orders.keys →
      (s.order o).state = .pending → (orderTransactionIds o s).Nodup → s.paidCourseRuns.Nodup →
      events ≠ [] → Confluent cat o s events (Trace.run (completeOrder cat o) s events) := by
  intro h
  have hids : (orderTransactionIds 1 unsavedStore).Nodup := by decide +kernel
  have hpaid : unsavedStore.paidCourseRuns.Nodup :=
    attemptPayment_paidOnce _ (storeWith pendingStripeOrder) List.nodup_nil
  have hconfluent := h hundredDollarCatalog 1 unsavedStore [completedEvent "evt_1"]
    (by decide +kernel) (by decide +kernel) hids hpaid (by simp)
  exact absurd hconfluent.fulfilled (by decide +kernel)

/-- The event for the order, twice. -/
theorem deliveries_confluent_iff_example :
    Confluent hundredDollarCatalog 1 (storeWith pendingStripeOrder)
        [completedEvent "evt_1", completedEvent "evt_1"]
        (Trace.run (completeOrder hundredDollarCatalog 1) (storeWith pendingStripeOrder)
          [completedEvent "evt_1", completedEvent "evt_1"]) ↔
      FirstRecordsAll 1 (storeWith pendingStripeOrder)
        [completedEvent "evt_1", completedEvent "evt_1"] :=
  deliveries_confluent_iff hundredDollarCatalog 1 (storeWith pendingStripeOrder) (by decide) rfl
    List.nodup_nil List.nodup_nil _

end MitxOnline

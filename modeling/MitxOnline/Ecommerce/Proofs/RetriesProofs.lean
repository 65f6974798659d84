import MitxOnline.Ecommerce.Proofs.PurchasesProofs

/-!
# Failed fulfilments and their retries

`fulfill` records the payment first and saves the order last, and outside a transaction what is
written in between stays. An attempt leaves all or nothing when it fails before anything is written or
not at all.
-/

namespace MitxOnline

open Autocommit

variable {cat : Catalog} {s s' : Store} {o : OrderId} {f : Faults} {now : Instant} {data : PaymentData}
  {opts : FulfillOptions} {inTransaction : Bool} {n : PaymentNotice}

/-- The payments that are recorded for an order. -/
def Order.payments (row : Order) : List Transaction :=
  row.transactions.filter fun t => t.transactionType == .payment

/-! ## What an attempt leaves -/

/-- The order is as it was but for its state, and nothing is granted. -/
structure NothingAdded (o : OrderId) (s s' : Store) : Prop where
  order : s'.order o = s.order o ∨ s'.order o = { s.order o with state := .fulfilled }
  paidCourseRuns : s'.paidCourseRuns = s.paidCourseRuns
  enrollments : s'.enrollments = s.enrollments
  programEnrollments : s'.programEnrollments = s.programEnrollments

/-- The pending order is fulfilled, and its payment is recorded. -/
structure Fulfilled (o : OrderId) (data : PaymentData) (s s' : Store) : Prop where
  pending : (s.order o).state = .pending
  fulfilled : (s'.order o).state = .fulfilled
  payment : ∃ s1, recordPayment o data "" s = .ok s1 ∧
    (s'.order o).transactions = (s1.order o).transactions

/-- Orders, records of paid runs and enrollments are as they were. -/
structure GrantsKept (s s' : Store) : Prop where
  orders : OrdersKept s s'
  paidCourseRuns : s'.paidCourseRuns = s.paidCourseRuns
  enrollments : s'.enrollments = s.enrollments
  programEnrollments : s'.programEnrollments = s.programEnrollments

theorem nothingAdded_refl (o : OrderId) (s : Store) : NothingAdded o s s := ⟨Or.inl rfl, rfl, rfl, rfl⟩

theorem grantsKept_frame : IsFrame GrantsKept := by
  constructor
  · intro s
    exact ⟨rfl, rfl, rfl, rfl⟩
  · intro s t u h h'
    exact ⟨h'.orders.trans h.orders, h'.paidCourseRuns.trans h.paidCourseRuns,
      h'.enrollments.trans h.enrollments, h'.programEnrollments.trans h.programEnrollments⟩

theorem NothingAdded.kept {t : Store} (h : NothingAdded o s t) (hk : GrantsKept t s') :
    NothingAdded o s s' := by
  have hrow := order_of_ordersKept hk.orders o
  refine ⟨?_, hk.paidCourseRuns.trans h.paidCourseRuns, hk.enrollments.trans h.enrollments,
    hk.programEnrollments.trans h.programEnrollments⟩
  rw [hrow]
  exact h.order

theorem Fulfilled.kept {t : Store} (h : Fulfilled o data s t) (hk : OrdersKept t s') :
    Fulfilled o data s s' := by
  have hrow := order_of_ordersKept hk o
  refine ⟨h.pending, ?_, ?_⟩
  · rw [hrow]
    exact h.fulfilled
  · rw [hrow]
    exact h.payment

/-! ## Fulfilling -/

/-- The hooks of the lines, unless they are skipped. -/
def fulfillHooks (f : Faults) (cat : Catalog) (now : Instant) (o : OrderId) (opts : FulfillOptions) :
    Code :=
  if opts.skipFulfillment = true then skip else createEnrollments f cat now o

/-- The receipt, where it is queued before the commit. -/
def fulfillReceipt (f : Faults) (cat : Catalog) (o : OrderId) (opts : FulfillOptions)
    (inTransaction : Bool) : Code := fun s =>
  if sendsReceipt cat (s.order o) opts = true ∧ inTransaction = false
  then mayFail f .email s else ⟨s, none⟩

/-- Once the payment is recorded, the hooks and the receipt are left of the body. -/
theorem fulfillBody_of_recorded {s1 : Store} (hpoint : f .transaction = none)
    (hrecord : recordPayment o data "" s = .ok s1) :
    fulfillBody f cat now o data opts inTransaction s =
      seq [fulfillHooks f cat now o opts, fulfillReceipt f cat o opts inTransaction] s1 := by
  have hcreate : createTransaction f o data "" s = ⟨s1, none⟩ := by
    simp [createTransaction, fallible, hpoint, statement, hrecord]
  have herror : (createTransaction f o data "" s).error = none := by rw [hcreate]
  unfold fulfillBody
  rw [seq_cons, andThen_of_ok herror, hcreate]
  rfl

theorem fulfillHooks_orders : Keeps OrdersKept (fulfillHooks f cat now o opts) := by
  unfold fulfillHooks
  split
  · exact keeps_skip ordersKept_frame
  · exact createEnrollments_orders

theorem fulfillReceipt_state (s : Store) :
    (fulfillReceipt f cat o opts inTransaction s).state = s := by
  unfold fulfillReceipt
  split
  · exact mayFail_state f .email s
  · rfl

/-- Once the payment is recorded, only the hooks of the body write. -/
theorem fulfillBody_state {s1 : Store} (hpoint : f .transaction = none)
    (hrecord : recordPayment o data "" s = .ok s1) :
    (fulfillBody f cat now o data opts inTransaction s).state =
      (fulfillHooks f cat now o opts s1).state := by
  have hr : IsFrame fun s s' : Store => s' = s := isFrame_eq id
  have hreceipt : Keeps (fun s s' => s' = s) (seq [fulfillReceipt f cat o opts inTransaction]) :=
    keeps_seq_cons hr fulfillReceipt_state (keeps_seq_nil hr)
  have hafter : (seq [fulfillHooks f cat now o opts, fulfillReceipt f cat o opts inTransaction]
      s1).state = (fulfillHooks f cat now o opts s1).state := seq_cons_after hr hreceipt s1
  rw [fulfillBody_of_recorded hpoint hrecord, hafter]

/-- What follows `create_transaction` in the body leaves the orders alone. -/
theorem fulfillBody_orders {s1 : Store} (hpoint : f .transaction = none)
    (hrecord : recordPayment o data "" s = .ok s1) :
    OrdersKept s1 (fulfillBody f cat now o data opts inTransaction s).state := by
  rw [fulfillBody_state hpoint hrecord]
  exact fulfillHooks_orders s1

theorem fulfilled_of_returns (h : Returns f ⟨some [.pending], .fulfilled⟩ o
    (fulfillBody f cat now o data opts inTransaction) s) :
    Fulfilled o data s (fulfill f cat now o data opts inTransaction s).state := by
  obtain ⟨hpoint, s1, hrecord⟩ := (createTransaction_error "").mp (seq_cons_error h.2.1).1
  have hpending : (s.order o).state = .pending := by
    simpa [StateFlow.Transition.allows] using h.1
  have horders : OrdersKept s1 (fulfillBody f cat now o data opts inTransaction s).state :=
    fulfillBody_orders hpoint hrecord
  rcases callTransition_cases f ⟨some [.pending], .fulfilled⟩ o
    (fulfillBody f cat now o data opts inTransaction) s with ⟨hno, -⟩ | ⟨-, hno, -⟩ | ⟨-, heq⟩
  · rw [h.1] at hno
    cases hno
  · exact absurd h hno
  · unfold fulfill
    rw [heq]
    refine ⟨hpending, by simp, s1, hrecord, ?_⟩
    rw [Store.setState_order_self, ← order_of_ordersKept horders o]

/-- No statement after `create_transaction` fails. -/
structure NothingElseFails (f : Faults) (cat : Catalog) (s : Store) (o : OrderId)
    (opts : FulfillOptions) : Prop where
  hooks : opts.skipFulfillment = true ∨ ∀ l ∈ (s.order o).lines.rows,
    HookSucceeds f cat l ∧ NotPaid s (s.order o).purchaser o l
  receipt : sendsReceipt cat (s.order o) opts = true → f .email = none
  save : f .orderSave = none

/-- Recording a payment leaves what the hooks look at. -/
theorem recordPayment_kept {s1 : Store} (h : recordPayment o data "" s = .ok s1) :
    (s1.order o).lines = (s.order o).lines ∧ (s1.order o).purchaser = (s.order o).purchaser ∧
      s1.paidCourseRuns = s.paidCourseRuns ∧ s1.paidPrograms = s.paidPrograms := by
  obtain ⟨_, _, _, ⟨rfl, _⟩ | ⟨rfl, _⟩⟩ := recordPayment_cases h
  · exact ⟨rfl, rfl, rfl, rfl⟩
  · refine ⟨?_, ?_, rfl, rfl⟩ <;> simp [addTransaction]

theorem sendsReceipt_congr {a b : Order} (h : a.lines = b.lines) :
    sendsReceipt cat a opts = sendsReceipt cat b opts := by
  unfold sendsReceipt isUaiOrder isContractOrder
  rw [h]

/-- The hooks of lines that are not paid for return, in the state that recording the payment leaves. -/
theorem fulfillHooks_error {s1 : Store} (hrecord : recordPayment o data "" s = .ok s1)
    (h : opts.skipFulfillment = true ∨ ∀ l ∈ (s.order o).lines.rows,
      HookSucceeds f cat l ∧ NotPaid s (s.order o).purchaser o l) :
    (fulfillHooks f cat now o opts s1).error = none := by
  obtain ⟨hlines, hpurchaser, hruns, hprograms⟩ := recordPayment_kept hrecord
  unfold fulfillHooks
  split
  · rfl
  · rename_i hskip
    have hall := h.resolve_left hskip
    have hsucceeds : ∀ l ∈ (s.order o).lines.rows, HookSucceeds f cat l := fun l hl => (hall l hl).1
    have hnew : ∀ l ∈ (s.order o).lines.rows, NotPaid s1 (s.order o).purchaser o l := by
      intro l hl
      constructor
      · rw [hruns]
        exact (hall l hl).2.run
      · rw [hprograms]
        exact (hall l hl).2.program
    unfold createEnrollments
    rw [hlines, hpurchaser]
    exact processTransactionLines_ok hsucceeds (s.order o).lines.unique_order_purchased_object hnew

/-- A pending order whose payment can be recorded is fulfilled if nothing else fails. -/
theorem returns_of_nothingElseFails {s1 : Store} (hpending : (s.order o).state = .pending)
    (hpoint : f .transaction = none) (hrecord : recordPayment o data "" s = .ok s1)
    (h : NothingElseFails f cat s o opts) : Returns f ⟨some [.pending], .fulfilled⟩ o
      (fulfillBody f cat now o data opts inTransaction) s := by
  have hallows : StateFlow.Transition.allows ⟨some [OrderStatus.pending], .fulfilled⟩
      (s.order o).state = true := by
    simp [StateFlow.Transition.allows, hpending]
  have hlines := (recordPayment_kept hrecord).1
  have hhooks : (fulfillHooks f cat now o opts s1).error = none := fulfillHooks_error hrecord h.hooks
  have horders : OrdersKept s1 (fulfillHooks f cat now o opts s1).state := fulfillHooks_orders s1
  refine ⟨hallows, ?_, h.save⟩
  rw [fulfillBody_of_recorded hpoint hrecord, seq_cons, andThen_of_ok hhooks, seq_cons]
  generalize (fulfillHooks f cat now o opts s1).state = t at horders ⊢
  have hsends : sendsReceipt cat (t.order o) opts = sendsReceipt cat (s.order o) opts :=
    sendsReceipt_congr (by rw [order_of_ordersKept horders, hlines])
  have hreceipt : (fulfillReceipt f cat o opts inTransaction t).error = none := by
    unfold fulfillReceipt
    split
    · rename_i hsent
      rw [hsends] at hsent
      have hemail := h.receipt hsent.1
      simp [mayFail, fallible, hemail]
    · rfl
  rw [andThen_of_ok hreceipt]
  rfl

/-- Where nothing is written before the save, the attempt leaves at most the state. -/
theorem nothingAdded_of_body (h : (fulfillBody f cat now o data opts inTransaction s).state = s) :
    NothingAdded o s (fulfill f cat now o data opts inTransaction s).state := by
  unfold fulfill
  rcases callTransition_cases f ⟨some [.pending], .fulfilled⟩ o
    (fulfillBody f cat now o data opts inTransaction) s with ⟨-, heq⟩ | ⟨-, -, heq, -⟩ | ⟨-, heq⟩
  · rw [heq]
    exact nothingAdded_refl o s
  · rw [heq, h]
    exact nothingAdded_refl o s
  · rw [heq, h]
    exact ⟨Or.inr (by simp), rfl, rfl, rfl⟩

theorem fulfillBody_state_of_not_recorded
    (h : f .transaction ≠ none ∨ ∃ e, recordPayment o data "" s = .error e) :
    (fulfillBody f cat now o data opts inTransaction s).state = s := by
  have hcreate : ∃ e, createTransaction f o data "" s = ⟨s, some e⟩ := by
    by_cases hpoint : f .transaction = none
    · obtain ⟨e, he⟩ := h.resolve_left (fun hne => hne hpoint)
      exact ⟨e, by simp [createTransaction, fallible, hpoint, statement, he]⟩
    · exact fallible_of_fault hpoint
  obtain ⟨e, he⟩ := hcreate
  have herror : (createTransaction f o data "" s).error = some e := by rw [he]
  unfold fulfillBody
  rw [seq_cons, andThen_of_error herror, he]

theorem fulfillBody_state_of_recorded (hpoint : f .transaction = none)
    (hrecord : recordPayment o data "" s = .ok s) (h : opts.skipFulfillment = true ∨
      HooksWriteNothing f cat s (s.order o).purchaser o (s.order o).lines.rows) :
    (fulfillBody f cat now o data opts inTransaction s).state = s := by
  rw [fulfillBody_state hpoint hrecord]
  unfold fulfillHooks
  split
  · rfl
  · rename_i hskip
    exact processTransactionLines_nothing (h.resolve_left hskip)

/-! ## Attempts -/

/-- The options that an attempt fulfils with. -/
def PaymentNotice.options (n : PaymentNotice) : FulfillOptions :=
  match n.channel with
  | .resolution skipFulfillment => ⟨false, false, skipFulfillment⟩
  | _ => FulfillOptions.default

/-- The attempt is made in a transaction; or, if the order is pending, it fails while the payment is
recorded, or nothing fails after that, or the payment was recorded before and the first failure comes
before the hooks have written anything. -/
def FailsSafely (cat : Catalog) (o : OrderId) (s : Store) (n : PaymentNotice) : Prop :=
  n.channel = .callback ∨ ((s.order o).state = .pending →
    (n.faults .transaction ≠ none ∨ ∃ e, recordPayment o n.data "" s = .error e) ∨
    NothingElseFails n.faults cat s o n.options ∨
    recordPayment o n.data "" s = .ok s ∧ (n.options.skipFulfillment = true ∨
      HooksWriteNothing n.faults cat s (s.order o).purchaser o (s.order o).lines.rows))

theorem fulfill_outcome (now : Instant) (inTransaction : Bool) (h : (s.order o).state = .pending →
    (f .transaction ≠ none ∨ ∃ e, recordPayment o data "" s = .error e) ∨
    NothingElseFails f cat s o opts ∨
    recordPayment o data "" s = .ok s ∧ (opts.skipFulfillment = true ∨
      HooksWriteNothing f cat s (s.order o).purchaser o (s.order o).lines.rows)) :
    NothingAdded o s (fulfill f cat now o data opts inTransaction s).state ∨
      Fulfilled o data s (fulfill f cat now o data opts inTransaction s).state := by
  by_cases hpending : (s.order o).state = .pending
  · by_cases hrefused : f .transaction ≠ none ∨ ∃ e, recordPayment o data "" s = .error e
    · exact Or.inl (nothingAdded_of_body (fulfillBody_state_of_not_recorded hrefused))
    · simp only [ne_eq, not_or, not_not, not_exists] at hrefused
      obtain ⟨hpoint, hok⟩ := hrefused
      rcases h hpending with hfails | hnothing | ⟨hrecord, hquiet⟩
      · rcases hfails with hfails | ⟨e, he⟩
        · exact absurd hpoint hfails
        · exact absurd he (hok e)
      · cases hrecord : recordPayment o data "" s with
        | error e => exact absurd hrecord (hok e)
        | ok s1 => exact Or.inr (fulfilled_of_returns
            (returns_of_nothingElseFails hpending hpoint hrecord hnothing))
      · exact Or.inl (nothingAdded_of_body (fulfillBody_state_of_recorded hpoint hrecord hquiet))
  · rcases callTransition_cases f ⟨some [.pending], .fulfilled⟩ o
      (fulfillBody f cat now o data opts inTransaction) s with ⟨-, heq⟩ | ⟨hallow, -⟩ | ⟨hret, -⟩
    · unfold fulfill
      rw [heq]
      exact Or.inl (nothingAdded_refl o s)
    · exact absurd (by simpa [StateFlow.Transition.allows] using hallow) hpending
    · exact absurd (by simpa [StateFlow.Transition.allows] using hret.1) hpending

theorem fulfilled_of_error_none
    (h : (fulfill f cat now o data opts inTransaction s).error = none) :
    Fulfilled o data s (fulfill f cat now o data opts inTransaction s).state := by
  rcases callTransition_cases f ⟨some [.pending], .fulfilled⟩ o
    (fulfillBody f cat now o data opts inTransaction) s with ⟨-, heq⟩ | ⟨-, -, -, herr⟩ | ⟨hret, -⟩
  · unfold fulfill at h
    rw [heq] at h
    cases h
  · exact absurd h herr
  · exact fulfilled_of_returns hret

/-- An attempt leaves nothing or a fulfilled order. -/
def AllOrNothing (o : OrderId) (data : PaymentData) (s s' : Store) : Prop :=
  NothingAdded o s s' ∨ Fulfilled o data s s'

theorem AllOrNothing.kept {t : Store} (h : AllOrNothing o data s t) (hk : GrantsKept t s') :
    AllOrNothing o data s s' := by
  rcases h with hnone | hful
  · exact Or.inl (hnone.kept hk)
  · exact Or.inr (hful.kept hk.orders)

theorem fulfillCompletedOrder_grantsKept (s : Store) :
    GrantsKept (fulfill f cat now o data opts inTransaction s).state
      (fulfillCompletedOrder f cat now o data opts inTransaction s).state :=
  fulfillCompletedOrder_after grantsKept_frame (fun _ _ => ⟨rfl, rfl, rfl, rfl⟩) opts inTransaction s

theorem webhook_outcome (h : AllOrNothing o data s
    (fulfill f cat now o data FulfillOptions.default false s).state) :
    AllOrNothing o data s (processStripeCheckoutCompleted f cat now o .paid data s).state := by
  unfold processStripeCheckoutCompleted
  split
  · exact h.kept (fulfillCompletedOrder_grantsKept s)
  · exact Or.inl (nothingAdded_refl o s)

/-- The transaction of the callback takes back whatever was written before a failure. -/
theorem callback_outcome (s : Store) :
    AllOrNothing o data s (cybersourceCallback f cat now o .accepted true data s).state := by
  unfold cybersourceCallback
  set a : Code := fun s => if o ∈ s.orders.keys ∧ (s.order o).state = .pending then
    processCybersourcePaymentResponse f cat now o .accepted true data s else ⟨s, none⟩ with ha
  cases he : (a s).error with
  | some e =>
    rw [atomic_of_error he]
    exact Or.inl (nothingAdded_refl o s)
  | none =>
    rw [atomic_of_ok he]
    rw [ha] at he ⊢
    dsimp only at he ⊢
    split at he
    · rename_i hkey
      rw [if_pos hkey]
      have hr := ordersKept_frame
      have hfulfill := (seq_cons_error (seq_cons_error he).1).1
      have hful : Fulfilled o data s
          (fulfillCompletedOrder f cat now o data FulfillOptions.default true s).state :=
        (fulfilled_of_error_none hfulfill).kept (fulfillCompletedOrder_grantsKept s).orders
      have hsync : OrdersKept
          (fulfillCompletedOrder f cat now o data FulfillOptions.default true s).state
          (processCybersourcePaymentResponse f cat now o .accepted true data s).state :=
        seq_cons_after hr (keeps_seq_cons hr (keeps_mayFail hr) (keeps_seq_nil hr)) s
      exact Or.inr (hful.kept hsync)
    · rename_i hkey
      rw [if_neg hkey]
      exact Or.inl (nothingAdded_refl o s)

theorem resolution_outcome {skipFulfillment : Bool} (h : AllOrNothing o data s
    (fulfill f cat now o data ⟨false, false, skipFulfillment⟩ false s).state) :
    AllOrNothing o data s (resolveSuccess f cat now skipFulfillment o data s).state := by
  unfold resolveSuccess resolvePendingOrder
  rw [attempt_state]
  split
  · have hr := grantsKept_frame
    have hsync : GrantsKept (fulfill f cat now o data ⟨false, false, skipFulfillment⟩ false s).state
        (seq [fulfill f cat now o data ⟨false, false, skipFulfillment⟩ false,
          mayFail f .syncHubspotDeal] s).state :=
      seq_cons_after hr (keeps_seq_cons hr (keeps_mayFail hr) (keeps_seq_nil hr)) s
    exact h.kept hsync
  · exact Or.inl (nothingAdded_refl o s)

/-- An attempt that fails safely adds nothing or fulfils the order. -/
theorem attempt_outcome (h : FailsSafely cat o s n) :
    AllOrNothing o n.data s (attemptPayment cat o s n) := by
  unfold attemptPayment PaymentNotice.handle
  unfold FailsSafely PaymentNotice.options at h
  cases hchannel : n.channel with
  | webhook =>
    rw [hchannel] at h
    have hpending := h.resolve_left (by simp)
    exact webhook_outcome (fulfill_outcome n.now false hpending)
  | callback => exact callback_outcome s
  | resolution skipFulfillment =>
    rw [hchannel] at h
    have hpending := h.resolve_left (by simp)
    exact resolution_outcome (fulfill_outcome n.now false hpending)

/-! ## Retries -/

/-- If the order is pending after the attempt, no payment, no record of a paid run and no enrollment
was added; and whatever the attempt did, no payload is recorded by two payments of the order, and no
run is recorded twice as paid for. -/
structure AttemptSafe (cat : Catalog) (o : OrderId) (s : Store) (n : PaymentNotice) : Prop where
  all_or_nothing : ((attemptPayment cat o s n).order o).state = .pending →
    ((attemptPayment cat o s n).order o).payments = (s.order o).payments ∧
    (attemptPayment cat o s n).paidCourseRuns = s.paidCourseRuns ∧
    (attemptPayment cat o s n).enrollments = s.enrollments ∧
    (attemptPayment cat o s n).programEnrollments = s.programEnrollments
  one_payment : ((attemptPayment cat o s n).order o).payments.Pairwise fun a b => a.data ≠ b.data
  one_paid_run : (attemptPayment cat o s n).paidCourseRuns.Nodup

/-- An order that payments can be reported for: what it has recorded is recorded once, and, while it
is pending, under the id that `create_transaction` finds it by. -/
structure Retriable (o : OrderId) (s : Store) : Prop where
  payments : (s.order o).payments.Pairwise fun a b => a.data ≠ b.data
  by_id : (s.order o).state = .pending → ∀ t ∈ (s.order o).payments, ∀ uuid, ∃ amount,
    (s.order o).transactionPayload t.data uuid = .ok (t.transactionId, amount)
  paidCourseRuns : s.paidCourseRuns.Nodup

/-- The table of paid runs gets no row twice. -/
def PaidOnce (s s' : Store) : Prop := s.paidCourseRuns.Nodup → s'.paidCourseRuns.Nodup

theorem paidOnce_frame : IsFrame PaidOnce := isFrame_preserves fun s : Store => s.paidCourseRuns.Nodup

theorem paidOnce_of_eq (h : s'.paidCourseRuns = s.paidCourseRuns) : PaidOnce s s' := by
  intro hs
  rw [h]
  exact hs

theorem fulfill_paidOnce (opts : FulfillOptions) (inTransaction : Bool) :
    Keeps PaidOnce (fulfill f cat now o data opts inTransaction) := by
  have hr := paidOnce_frame
  have hrun : ∀ user run, AllowsRun PaidOnce f cat now user run := by
    intro user run
    refine ⟨fun _ _ => paidOnce_of_eq rfl, ?_⟩
    exact keeps_joinContract hr (fun _ _ _ => paidOnce_of_eq rfl) fun _ _ => paidOnce_of_eq rfl
  have hline : ∀ user l, AllowsLine PaidOnce f cat now user o l := by
    intro user l
    refine ⟨fun run _ => hrun user run, ?_, fun _ _ _ _ => paidOnce_of_eq rfl,
      fun _ _ _ => paidOnce_of_eq rfl, fun _ _ run _ => hrun user run⟩
    intro run _ t hnew hs
    refine List.nodup_append.mpr ⟨hs, List.nodup_singleton _, ?_⟩
    intro a ha b hb hab
    obtain rfl := List.mem_singleton.mp hb
    exact hnew (hab ▸ ha)
  have henrollments : Keeps PaidOnce (createEnrollments f cat now o) :=
    keeps_createEnrollments hr fun s l _ => keeps_processTransactionLine hr (hline _ l)
  have hbody : Keeps PaidOnce (fulfillBody f cat now o data opts inTransaction) :=
    keeps_fulfillBody hr (fun _ _ => paidOnce_of_eq rfl) henrollments
  exact keeps_callTransition hr hbody fun _ => paidOnce_of_eq rfl

theorem attemptPayment_paidOnce (n : PaymentNotice) (s : Store) :
    PaidOnce s (attemptPayment cat o s n) :=
  keeps_handle paidOnce_frame fulfill_paidOnce (fun _ _ => paidOnce_of_eq rfl) s

theorem NothingAdded.payments (h : NothingAdded o s s') :
    (s'.order o).payments = (s.order o).payments := by
  rcases h.order with heq | heq
  · rw [heq]
  · rw [heq]
    rfl

/-- The payment of an order that becomes fulfilled is not among those it had before, or it adds
none. -/
theorem Fulfilled.once (h : Fulfilled o data s s') (hs : Retriable o s) :
    (s'.order o).payments.Pairwise fun a b => a.data ≠ b.data := by
  obtain ⟨s1, hrecord, htransactions⟩ := h.payment
  have hpayments : (s'.order o).payments = (s1.order o).payments := by
    unfold Order.payments
    rw [htransactions]
  rw [hpayments]
  obtain ⟨transactionId, amount, hpayload, ⟨rfl, -⟩ | ⟨rfl, -, hnew⟩⟩ := recordPayment_cases hrecord
  · exact hs.payments
  · have happend : ((addTransaction o ⟨transactionId, amount, data, .payment, ""⟩ s).order o).payments =
        (s.order o).payments ++ [⟨transactionId, amount, data, .payment, ""⟩] := by
      simp [addTransaction, Order.payments, List.filter_append]
    rw [happend]
    refine List.pairwise_append.mpr ⟨hs.payments, List.pairwise_singleton _ _, ?_⟩
    intro t ht t' ht' hdata
    obtain rfl := List.mem_singleton.mp ht'
    obtain ⟨amount', hid⟩ := hs.by_id h.pending t ht s.uuid4
    -- The payload would have been found under the id of `t`.
    rw [hdata, hpayload] at hid
    obtain ⟨rfl, -⟩ := Prod.mk.inj (Except.ok.inj hid)
    have hold : t ∈ (s.order o).transactions := (List.mem_filter.mp ht).1
    exact hnew (List.mem_map_of_mem hold)

theorem retriable_step (hs : Retriable o s) (h : FailsSafely cat o s n) :
    Retriable o (attemptPayment cat o s n) := by
  have hpaid : (attemptPayment cat o s n).paidCourseRuns.Nodup :=
    attemptPayment_paidOnce n s hs.paidCourseRuns
  rcases attempt_outcome h with hnone | hful
  · have hpayments : ((attemptPayment cat o s n).order o).payments.Pairwise
        fun a b => a.data ≠ b.data := by
      rw [hnone.payments]
      exact hs.payments
    refine ⟨hpayments, fun hpending => ?_, hpaid⟩
    rcases hnone.order with heq | heq
    · rw [heq] at hpending ⊢
      exact hs.by_id hpending
    · rw [heq] at hpending
      cases hpending
  · refine ⟨hful.once hs, fun hpending => ?_, hpaid⟩
    rw [hful.fulfilled] at hpending
    cases hpending

theorem attemptSafe_of_failsSafely (hs : Retriable o s) (h : FailsSafely cat o s n) :
    AttemptSafe cat o s n := by
  have hafter := retriable_step hs h
  refine ⟨fun hpending => ?_, hafter.payments, hafter.paidCourseRuns⟩
  rcases attempt_outcome h with hnone | hful
  · exact ⟨hnone.payments, hnone.paidCourseRuns, hnone.enrollments, hnone.programEnrollments⟩
  · rw [hful.fulfilled] at hpending
    cases hpending

/-- Attempts that fail only where nothing has been written are all or nothing, and can be retried any
number of times. -/
theorem fulfillment_safe_to_retry {notices : List PaymentNotice} (hs : Retriable o s)
    (h : Trace.Along (attemptPayment cat o) (FailsSafely cat o) s notices) :
    Trace.Along (attemptPayment cat o) (AttemptSafe cat o) s notices :=
  Trace.along_of_invariant (Retriable o) (fun _ _ hs h => retriable_step hs h)
    (fun _ _ hs h => attemptSafe_of_failsSafely hs h) hs h

/-- A webhook for the payment of an order, with the given faults. -/
def webhookWith (faults : Faults) : PaymentNotice := ⟨.webhook, stripeEvent "evt_1", 0, faults⟩

theorem retriable_pendingStripeOrder : Retriable 1 (storeWith pendingStripeOrder) := by
  have hnone : ((storeWith pendingStripeOrder).order 1).payments = [] := rfl
  refine ⟨?_, fun _ t ht => ?_, List.nodup_nil⟩
  · rw [hnone]
    exact List.Pairwise.nil
  · rw [hnone] at ht
    cases ht

/-- The record of the paid run fails, and the order stays pending with its payment. -/
theorem failed_hook_leaves_payment :
    ¬∀ (cat : Catalog) (o : OrderId) (s : Store) (notices : List PaymentNotice), Retriable o s →
      Trace.Along (attemptPayment cat o) (AttemptSafe cat o) s notices := by
  intro h
  have hsafe := (h hundredDollarCatalog 1 (storeWith pendingStripeOrder)
    [webhookWith fun point => if point = .paidCourseRun 1 then some .failure else none]
    retriable_pendingStripeOrder).1
  exact absurd (hsafe.all_or_nothing (by decide +kernel)).1 (by decide +kernel)

/-- Recording the payment fails at first; the retry fulfils the order. -/
theorem fulfillment_safe_to_retry_example :
    Trace.Along (attemptPayment hundredDollarCatalog 1) (AttemptSafe hundredDollarCatalog 1)
      (storeWith pendingStripeOrder)
      [webhookWith fun point => if point = .transaction then some .failure else none,
        webhookWith Faults.none] := by
  apply fulfillment_safe_to_retry retriable_pendingStripeOrder
  refine ⟨?_, ?_, trivial⟩
  · exact Or.inr fun _ => Or.inl (Or.inl (by decide))
  · refine Or.inr fun _ => Or.inr (Or.inl ⟨Or.inr fun l _ => ⟨?_, ?_⟩, fun _ => rfl, rfl⟩)
    · constructor
      · intro run _
        exact ⟨Or.inr (Or.inl rfl), rfl⟩
      · intro p _
        exact ⟨rfl, fun _ _ => Or.inr (Or.inl rfl)⟩
    · constructor
      · intro run _ hmem
        cases hmem
      · intro p _ hmem
        cases hmem

end MitxOnline

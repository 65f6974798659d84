import MitxOnline.Ecommerce.Proofs.PaymentsProofs

/-!
# Refunds

The gateway is asked first and the refund is recorded afterwards, so a refund that was accepted may
fail to be recorded; the order is then still fulfilled and can be refunded once more. Where every
accepted refund can be recorded and stays below the price paid, an order is refunded at most once.
-/

namespace MitxOnline

open Autocommit StateFlow

variable {o : OrderId} {s : Store} {l : RefundLedger} {c : RefundCall}

/-- What was paid for an order: nothing where its total is not positive. -/
def Order.amountPaid (o : Order) : ℚ := max 0 o.totalPricePaid

/-- No more is refunded than was paid, and the order is refunded if and only if a refund was
accepted. -/
def RefundSafe (o : OrderId) (l : RefundLedger) : Prop :=
  l.accepted.sum ≤ (l.store.order o).amountPaid ∧
    ((l.store.order o).state = .refunded ↔ l.accepted ≠ [])

/-- After a call the refunds are safe. -/
def SafeAfter (o : OrderId) (l : RefundLedger) (c : RefundCall) : Prop :=
  RefundSafe o (refundStep o l c)

/-- The refund can be recorded: the response has an id, which is new unless this very refund is
recorded already, the email can be queued and the order can be saved. -/
structure Recordable (f : Faults) (s : Store) (o : OrderId) (responseData : Option PaymentData)
    (amount : ℚ) (reason : String) : Prop where
  id : ∃ data id, responseData = some data ∧ data.id = some id ∧
    (⟨.processor id, amount, data, .refund, reason⟩ ∈ (s.order o).transactions ∨
      .processor id ∉ s.transactionIds)
  transaction : f .transaction = none
  email : f .email = none
  orderSave : f .orderSave = none

/-- If the gateway accepts the refund, its amount is known and at most what was paid, and it can be
recorded. -/
def AcceptedIsRecordable (o : OrderId) (l : RefundLedger) (c : RefundCall) : Prop :=
  ∀ request responseData, c.accepts l.store o = some (request, responseData) →
    ∃ amount, request.reqAmount = some amount ∧ amount ≤ (l.store.order o).amountPaid ∧
      Recordable c.faults l.store o responseData amount c.reason

/-- A fulfilled order before any refund, or a refunded one after a single refund. -/
inductive RefundState (o : OrderId) (l : RefundLedger) : Prop
  | fulfilled (state : (l.store.order o).state = .fulfilled) (accepted : l.accepted = [])
  | refunded (state : (l.store.order o).state = .refunded) (amount : ℚ)
      (accepted : l.accepted = [amount]) (paid : amount ≤ (l.store.order o).amountPaid)

theorem RefundState.safe (h : RefundState o l) : RefundSafe o l := by
  cases h with
  | fulfilled state accepted =>
    have hzero : 0 ≤ (l.store.order o).amountPaid := le_max_left _ _
    exact ⟨by simpa [accepted], by simp [state, accepted]⟩
  | refunded state amount accepted paid => exact ⟨by simpa [accepted], by simp [state, accepted]⟩

theorem recordRefund_ok_iff {responseData : Option PaymentData} {amount : ℚ} {reason : String} :
    (∃ s', recordRefund o responseData amount reason s = .ok s') ↔
      ∃ data id, responseData = some data ∧ data.id = some id ∧
        (⟨.processor id, amount, data, .refund, reason⟩ ∈ (s.order o).transactions ∨
          .processor id ∉ s.transactionIds) := by
  unfold recordRefund
  cases responseData with
  | none => simp
  | some data =>
    cases hid : data.id with
    | none => simp [hid]
    | some id =>
      simp only [Option.bind_some, hid]
      by_cases hmem : (⟨.processor id, amount, data, .refund, reason⟩ : Transaction) ∈
          (s.order o).transactions
      · simp [hmem, hid]
      · by_cases hused : TransactionId.processor id ∈ s.transactionIds <;> simp [hmem, hused, hid]

/-- The refund of a fulfilled order returns exactly when it can be recorded. -/
theorem refund_returns_iff {f : Faults} {responseData : Option PaymentData} {amount : ℚ}
    {reason : String} (hstate : (s.order o).state = .fulfilled) :
    Returns f ⟨some [.fulfilled], .refunded⟩ o (refundBody f o responseData amount reason) s ↔
      Recordable f s o responseData amount reason := by
  have hbody : (refundBody f o responseData amount reason s).error = none ↔
      f .transaction = none ∧ (∃ s', recordRefund o responseData amount reason s = .ok s') ∧
        f .email = none := by
    unfold refundBody seq
    cases ht : f .transaction with
    | some e => simp [andThen, fallible, ht]
    | none =>
      cases hr : recordRefund o responseData amount reason s with
      | error e => simp [andThen, fallible, ht, statement_error hr]
      | ok s' =>
        cases he : f .email <;>
          simp [andThen, fallible, ht, statement_ok hr, mayFail, he, seq]
  unfold Returns
  rw [hbody, recordRefund_ok_iff, hstate]
  constructor
  · rintro ⟨-, ⟨ht, hid, he⟩, hs⟩
    exact ⟨hid, ht, he, hs⟩
  · rintro ⟨hid, ht, he, hs⟩
    exact ⟨by decide, ⟨ht, hid, he⟩, hs⟩

/-- A call that the gateway does not accept changes nothing. -/
theorem refundStep_of_not_accepted (h : c.accepts l.store o = none) : refundStep o l c = l := by
  have hstore : (refundOrder c.faults o c.refundAmount c.reason c.response l.store).state =
      l.store := by
    unfold RefundCall.accepts at h
    unfold refundOrder
    cases hcall : refundCall l.store o c.refundAmount with
    | error e => rfl
    | ok request =>
      cases hresponse : c.response with
      | accepted responseData => simp [hcall, hresponse] at h
      | rejected => rfl
      | raised e => rfl
  unfold refundStep
  rw [h, hstore]

/-- The gateway is asked for fulfilled orders only. -/
theorem accepts_fulfilled {request : PaymentData} {responseData : Option PaymentData}
    (h : c.accepts s o = some (request, responseData)) : (s.order o).state = .fulfilled := by
  unfold RefundCall.accepts at h
  split at h
  · rename_i hcall _
    unfold refundCall at hcall
    split at hcall
    · split at hcall
      · cases hcall
      · rename_i hstate
        simpa using hstate
    · cases hcall
  · cases h

/-- What a call does whose refund the gateway accepts. -/
theorem refundStep_of_accepted {request : PaymentData} {responseData : Option PaymentData}
    (h : c.accepts l.store o = some (request, responseData)) :
    (refundStep o l c).accepted = l.accepted ++ [request.reqAmount.getD 0] ∧
      (refundStep o l c).store = match request.reqAmount with
        | none => l.store
        | some amount =>
          (refund c.faults o responseData amount c.reason l.store).state := by
  refine ⟨by simp [refundStep, h], ?_⟩
  unfold RefundCall.accepts at h
  split at h
  · rename_i hcall hresponse
    cases h
    unfold refundStep refundOrder
    dsimp only
    rw [hcall, hresponse]
    cases hamount : request.reqAmount <;> simp [hamount]
  · cases h

/-- After an accepted refund the order is refunded exactly when the refund could be recorded. -/
theorem refund_order_state (f : Faults) (responseData : Option PaymentData) (amount : ℚ)
    (reason : String) (hstate : (s.order o).state = .fulfilled) :
    (((refund f o responseData amount reason s).state.order o).state = .refunded ↔
      Recordable f s o responseData amount reason) ∧
    ((refund f o responseData amount reason s).state.order o).amountPaid =
      (s.order o).amountPaid := by
  have hbody := refundBody_records (f := f) (o := o) responseData amount reason s
  obtain ⟨hret, hstay⟩ := callTransition_order_state (f := f) (t := ⟨some [.fulfilled], .refunded⟩)
    hbody.state
  constructor
  · rw [← refund_returns_iff hstate]
    constructor
    · intro hrefunded
      by_contra hno
      have hsame := hstay hno
      unfold refund at hrefunded
      rw [hrefunded, hstate] at hsame
      cases hsame
    · exact hret
  · unfold refund Order.amountPaid
    rcases callTransition_cases f ⟨some [.fulfilled], .refunded⟩ o
      (refundBody f o responseData amount reason) s with ⟨-, h⟩ | ⟨-, -, h, -⟩ | ⟨-, h⟩
    · rw [h]
    · rw [h, hbody.totalPricePaid]
    · rw [h, Store.setState_order_self, hbody.totalPricePaid]

/-- One call: what it leaves is safe exactly when an accepted refund could be recorded. -/
theorem safeAfter_iff (h : RefundState o l) : SafeAfter o l c ↔ AcceptedIsRecordable o l c := by
  unfold SafeAfter AcceptedIsRecordable
  cases hacc : c.accepts l.store o with
  | none =>
    rw [refundStep_of_not_accepted hacc]
    exact ⟨fun _ _ _ h => (by cases h), fun _ => h.safe⟩
  | some r =>
    obtain ⟨request, responseData⟩ := r
    have hful := accepts_fulfilled hacc
    obtain ⟨haccepted, hstore⟩ := refundStep_of_accepted hacc
    cases h with
    | refunded state => rw [hful] at state; cases state
    | fulfilled state accepted =>
      unfold RefundSafe
      rw [haccepted, accepted, hstore]
      cases hamount : request.reqAmount with
      | none => simp [hful, hamount]
      | some amount =>
        obtain ⟨hstate, htotal⟩ := refund_order_state c.faults responseData amount c.reason hful
        simp only [htotal, hstate, Option.getD_some, List.nil_append, List.sum_singleton, ne_eq,
          List.cons_ne_nil, not_false_eq_true, iff_true, Option.some.injEq, Prod.mk.injEq]
        constructor
        · rintro ⟨hle, hrec⟩ request' responseData' ⟨rfl, rfl⟩
          exact ⟨amount, hamount, hle, hrec⟩
        · intro hall
          obtain ⟨amount', hamount', hle, hrec⟩ := hall request responseData ⟨rfl, rfl⟩
          rw [hamount] at hamount'
          cases hamount'
          exact ⟨hle, hrec⟩

/-- One call keeps the order before its refund or after it. -/
theorem refundState_step (h : RefundState o l) (hc : AcceptedIsRecordable o l c) :
    RefundState o (refundStep o l c) := by
  cases hacc : c.accepts l.store o with
  | none => rwa [refundStep_of_not_accepted hacc]
  | some r =>
    obtain ⟨request, responseData⟩ := r
    have hful := accepts_fulfilled hacc
    obtain ⟨haccepted, hstore⟩ := refundStep_of_accepted hacc
    obtain ⟨amount, hamount, hle, hrec⟩ := hc request responseData hacc
    rw [hamount] at hstore haccepted
    obtain ⟨hstate, htotal⟩ := refund_order_state c.faults responseData amount c.reason hful
    cases h with
    | refunded state => rw [hful] at state; cases state
    | fulfilled state accepted =>
      refine RefundState.refunded ?_ amount ?_ ?_
      · rw [hstore]
        exact hstate.mpr hrec
      · rw [haccepted, accepted]
        rfl
      · rw [hstore]
        exact htotal ▸ hle

/-- For every run of refund calls on a fulfilled order: the refunds are safe after every call exactly
when every refund that the gateway accepts can be recorded and is at most what was paid. -/
theorem refunds_safe_iff {s : Store} {o : OrderId} (hstate : (s.order o).state = .fulfilled)
    (calls : List RefundCall) :
    Trace.Along (refundStep o) (SafeAfter o) ⟨s, []⟩ calls ↔
      Trace.Along (refundStep o) (AcceptedIsRecordable o) ⟨s, []⟩ calls :=
  Trace.along_iff_of_invariant (RefundState o) (fun _ _ h hc => refundState_step h hc)
    (fun _ _ h => safeAfter_iff h) (RefundState.fulfilled hstate rfl)

/-- A payment of a hundred dollars at Cybersource. -/
def cybersourcePayment : PaymentData :=
  ⟨some "ch_1", some 100, none, none, false, none, none, some 100⟩

/-- An order that was fulfilled with this payment. -/
def fulfilledOrder : Order :=
  { pendingStripeOrder with
    state := .fulfilled
    gatewayType := .cybersource
    transactions := [⟨.processor "ch_1", 100, cybersourcePayment, .payment, ""⟩] }

/-- A refund that the gateway accepts with a response without an id. -/
def refundWithoutId : RefundCall where
  refundAmount := none
  reason := ""
  response := .accepted (some { cybersourcePayment with transactionId := none })
  faults := Faults.none

/-- The refund without an id leaves the order fulfilled, and it is refunded once more: two hundred
dollars for one hundred paid. -/
theorem refund_without_id_is_issued_twice :
    ¬∀ (s : Store) (o : OrderId) (calls : List RefundCall), (s.order o).state = .fulfilled →
      Trace.Along (refundStep o) (SafeAfter o) ⟨s, []⟩ calls := by
  intro h
  have hrun := h (storeWith fulfilledOrder) 1 [refundWithoutId, refundWithoutId] rfl
  exact absurd hrun.2.1.1 (by decide +kernel)

theorem refunds_safe_iff_example :
    Trace.Along (refundStep 1) (SafeAfter 1) ⟨storeWith fulfilledOrder, []⟩ [refundWithoutId] ↔
      Trace.Along (refundStep 1) (AcceptedIsRecordable 1) ⟨storeWith fulfilledOrder, []⟩
        [refundWithoutId] :=
  refunds_safe_iff rfl _

end MitxOnline

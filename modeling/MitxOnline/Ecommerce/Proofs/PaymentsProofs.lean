import MitxOnline.Ecommerce.Payments
import MitxOnline.Ecommerce.Proofs.OrderFlowProofs
import MitxOnline.Lib.Trace

/-!
# Which orders the payment paths move

The callbacks of Cybersource and the resolution look for a pending order before they act; fulfilling,
declining and refunding are transitions out of one state. The webhooks of Stripe cancel an order in
whatever state they find it.
-/

namespace MitxOnline

open Autocommit StateFlow

variable {f : Faults} {cat : Catalog} {now : Instant} {o : OrderId} {s : Store} {data : PaymentData}

/-! ## Each path touches one order -/

theorem touchesOnly_addTransaction (t : Transaction) (s : Store) :
    TouchesOnly o s (addTransaction o t s) := by
  unfold addTransaction
  exact touchesOnly_setOrder s _

theorem createTransaction_touchesOnly (reason : String) :
    Keeps (TouchesOnly o) (createTransaction f o data reason) :=
  keeps_createTransaction (touchesOnly_frame o) touchesOnly_addTransaction

theorem createEnrollments_touchesOnly : Keeps (TouchesOnly o) (createEnrollments f cat now o) :=
  fun s => touchesOnly_of_ordersKept (createEnrollments_orders s)

theorem cancel_touchesOnly (apiResponseData : Option PaymentData) :
    Keeps (TouchesOnly o) (cancel f o apiResponseData) := by
  apply keeps_touchesOnly_callTransition
  cases apiResponseData with
  | none => exact keeps_skip (touchesOnly_frame o)
  | some data => exact createTransaction_touchesOnly ""

theorem errored_touchesOnly (apiResponseData : Option PaymentData) :
    Keeps (TouchesOnly o) (errored f o apiResponseData) := by
  apply keeps_touchesOnly_callTransition
  cases apiResponseData with
  | none => exact keeps_skip (touchesOnly_frame o)
  | some data => exact createTransaction_touchesOnly ""

theorem decline_touchesOnly : Keeps (TouchesOnly o) (decline f o) :=
  keeps_touchesOnly_callTransition (keeps_update fun s => touchesOnly_setOrder s _)

theorem fulfill_touchesOnly (opts : FulfillOptions) (inTransaction : Bool) :
    Keeps (TouchesOnly o) (fulfill f cat now o data opts inTransaction) := by
  have hbody : Keeps (TouchesOnly o) (fulfillBody f cat now o data opts inTransaction) :=
    keeps_fulfillBody (touchesOnly_frame o) touchesOnly_addTransaction createEnrollments_touchesOnly
  exact keeps_touchesOnly_callTransition hbody

theorem refund_touchesOnly (apiResponseData : Option PaymentData) (amount : ℚ) (reason : String) :
    Keeps (TouchesOnly o) (refund f o apiResponseData amount reason) := by
  have hbody : Keeps (TouchesOnly o) (refundBody f o apiResponseData amount reason) :=
    keeps_refundBody (touchesOnly_frame o) touchesOnly_addTransaction
  exact keeps_touchesOnly_callTransition hbody

/-- The database without the basket of a user. -/
def Store.withoutBasket (user : UserId) (s : Store) : Store :=
  { s with baskets := fun user' => if user' = user then none else s.baskets user' }

theorem keeps_clearBasket {r : Store → Store → Prop} (hr : IsFrame r)
    (h : ∀ user s, r s (s.withoutBasket user)) : Keeps r (clearBasket f o) := by
  intro s
  unfold clearBasket
  split
  · exact hr.refl s
  · split
    · exact keeps_write hr (h _) s
    · exact keeps_mayFail hr s

/-- What follows the transition in `fulfill_completed_order` only deletes a basket. -/
theorem fulfillCompletedOrder_after {r : Store → Store → Prop} (hr : IsFrame r)
    (h : ∀ user s, r s (s.withoutBasket user)) (opts : FulfillOptions) (inTransaction : Bool)
    (s : Store) : r (fulfill f cat now o data opts inTransaction s).state
      (fulfillCompletedOrder f cat now o data opts inTransaction s).state := by
  have hrest : Keeps r (seq [mayFail f .syncHubspotDeal, clearBasket f o]) :=
    keeps_seq_cons hr (keeps_mayFail hr)
      (keeps_seq_cons hr (keeps_clearBasket hr h) (keeps_seq_nil hr))
  exact seq_cons_after hr hrest s

theorem fulfillCompletedOrder_orders (opts : FulfillOptions) (inTransaction : Bool) (s : Store) :
    OrdersKept (fulfill f cat now o data opts inTransaction s).state
      (fulfillCompletedOrder f cat now o data opts inTransaction s).state :=
  fulfillCompletedOrder_after ordersKept_frame (fun _ _ => rfl) opts inTransaction s

/-- Syncing the deal after something else leaves the orders. -/
theorem syncHubspotDeal_orders (a : Code) (s : Store) :
    OrdersKept (a s).state (seq [a, mayFail f .syncHubspotDeal] s).state := by
  have hr := ordersKept_frame
  exact seq_cons_after hr (keeps_seq_cons hr (keeps_mayFail hr) (keeps_seq_nil hr)) s

theorem fulfillCompletedOrder_touchesOnly (opts : FulfillOptions) (inTransaction : Bool) :
    Keeps (TouchesOnly o) (fulfillCompletedOrder f cat now o data opts inTransaction) := by
  intro s
  have hfulfill : TouchesOnly o s (fulfill f cat now o data opts inTransaction s).state :=
    fulfill_touchesOnly opts inTransaction s
  have hafter : TouchesOnly o (fulfill f cat now o data opts inTransaction s).state
      (fulfillCompletedOrder f cat now o data opts inTransaction s).state :=
    touchesOnly_of_ordersKept (fulfillCompletedOrder_orders opts inTransaction s)
  exact (touchesOnly_frame o).trans _ _ _ hfulfill hafter

theorem processCybersource_touchesOnly (state : ProcessorState) (reason100 : Bool) :
    Keeps (TouchesOnly o) (processCybersourcePaymentResponse f cat now o state reason100 data) := by
  have hr := touchesOnly_frame o
  refine keeps_seq_cons hr ?_ (keeps_seq_cons hr (keeps_mayFail hr) (keeps_seq_nil hr))
  cases state with
  | accepted => exact fulfillCompletedOrder_touchesOnly _ true
  | declined => exact decline_touchesOnly
  | error => exact errored_touchesOnly none
  | cancelled => exact cancel_touchesOnly none
  | review => exact cancel_touchesOnly none
  | other =>
    dsimp only
    split
    · exact fulfillCompletedOrder_touchesOnly _ true
    · exact cancel_touchesOnly none

/-! ## Bodies leave the state of the order alone -/

theorem fulfillBody_records (opts : FulfillOptions) (inTransaction : Bool) :
    Keeps (OnlyRecords o) (fulfillBody f cat now o data opts inTransaction) := by
  have henrollments : Keeps (OnlyRecords o) (createEnrollments f cat now o) := by
    intro s
    exact onlyRecords_of_ordersKept (createEnrollments_orders s)
  exact keeps_fulfillBody (onlyRecords_frame o) (fun t s => onlyRecords_addTransaction s t)
    henrollments

theorem createTransaction_records (reason : String) :
    Keeps (OnlyRecords o) (createTransaction f o data reason) :=
  keeps_createTransaction (onlyRecords_frame o) fun t s => onlyRecords_addTransaction s t

theorem refundBody_records (apiResponseData : Option PaymentData) (amount : ℚ) (reason : String) :
    Keeps (OnlyRecords o) (refundBody f o apiResponseData amount reason) :=
  keeps_refundBody (onlyRecords_frame o) fun t s => onlyRecords_addTransaction s t

/-! ## Moves -/

/-- The move of an order from one state to another that is allowed once it is settled: none, but from
fulfilled to refunded. -/
def AllowedMove (before after : OrderStatus) : Prop :=
  match before with
  | .canceled | .refunded | .declined | .errored => after = before
  | .fulfilled => after = .fulfilled ∨ after = .refunded
  | _ => True

instance (before after : OrderStatus) : Decidable (AllowedMove before after) := by
  unfold AllowedMove
  split <;> infer_instance

theorem allowedMove_refl (a : OrderStatus) : AllowedMove a a := by
  cases a <;> simp [AllowedMove]

theorem allowedMove_of_pending (a : OrderStatus) : AllowedMove .pending a := trivial

/-- Only pending orders change their state. -/
def MovesPending (s s' : Store) : Prop :=
  s'.orders.keys = s.orders.keys ∧
    ∀ o, (s'.order o).state = (s.order o).state ∨ (s.order o).state = .pending

theorem movesPending_frame : IsFrame MovesPending := by
  constructor
  · intro s
    exact ⟨rfl, fun _ => Or.inl rfl⟩
  · intro s t u h h'
    refine ⟨h'.1.trans h.1, fun o => ?_⟩
    rcases h.2 o with hst | hpending
    · rw [← hst]
      exact h'.2 o
    · exact Or.inr hpending

theorem movesPending_of_ordersKept {s s' : Store} (h : OrdersKept s s') : MovesPending s s' := by
  refine ⟨congrArg Table.keys h, fun o => Or.inl ?_⟩
  rw [order_of_ordersKept h o]

/-- Code that touches one order, which is pending. -/
theorem movesPending_of_touchesOnly {s s' : Store} (h : TouchesOnly o s s')
    (hp : (s.order o).state = .pending) : MovesPending s s' := by
  refine ⟨h.keys, fun o' => ?_⟩
  by_cases ho : o' = o
  · rw [ho]
    exact Or.inr hp
  · exact Or.inl (by rw [h.others o' ho])

theorem allowedMove_of_movesPending {s s' : Store} (h : MovesPending s s') (o : OrderId) :
    AllowedMove (s.order o).state (s'.order o).state := by
  rcases h.2 o with hsame | hpending
  · rw [hsame]
    exact allowedMove_refl _
  · rw [hpending]
    exact allowedMove_of_pending _

theorem fulfill_movesPending (opts : FulfillOptions) (inTransaction : Bool) (s : Store) :
    MovesPending s (fulfill f cat now o data opts inTransaction s).state := by
  by_cases hp : (s.order o).state = .pending
  · exact movesPending_of_touchesOnly (fulfill_touchesOnly opts inTransaction s) hp
  · have hallow : StateFlow.Transition.allows ⟨some [OrderStatus.pending], .fulfilled⟩
        (s.order o).state = false := by
      simp [StateFlow.Transition.allows, hp]
    have hstate : (fulfill f cat now o data opts inTransaction s).state = s := by
      unfold fulfill callTransition
      rw [call_of_not_allowed (fun s : Store => (s.order o).state) hallow]
    rw [hstate]
    exact movesPending_frame.refl s

theorem fulfillCompletedOrder_movesPending (opts : FulfillOptions) (inTransaction : Bool)
    (s : Store) :
    MovesPending s (fulfillCompletedOrder f cat now o data opts inTransaction s).state := by
  have hfulfill : MovesPending s (fulfill f cat now o data opts inTransaction s).state :=
    fulfill_movesPending opts inTransaction s
  have hafter : MovesPending (fulfill f cat now o data opts inTransaction s).state
      (fulfillCompletedOrder f cat now o data opts inTransaction s).state :=
    movesPending_of_ordersKept (fulfillCompletedOrder_orders opts inTransaction s)
  exact movesPending_frame.trans _ _ _ hfulfill hafter

/-- A round of the resolution moves its order if it is pending. -/
theorem resolvePendingOrder_movesPending {resolve : Code} (h : Keeps (TouchesOnly o) resolve) :
    Keeps MovesPending (resolvePendingOrder o resolve) := by
  intro s
  unfold resolvePendingOrder
  rw [attempt_state]
  split
  · rename_i hp
    exact movesPending_of_touchesOnly (h s) hp.2
  · exact movesPending_frame.refl s

theorem resolution_movesPending (faults : OrderId → Faults) (g : Gateway) (refnos : List OrderId)
    (checkStatus skipFulfillment : Bool) :
    Keeps MovesPending (checkAndProcessPendingOrdersForResolution faults cat now g refnos checkStatus
      skipFulfillment) := by
  have hr := movesPending_frame
  have hround : ∀ (o : OrderId) (a : Code), Keeps (TouchesOnly o) a → Keeps MovesPending
      (resolvePendingOrder o (seq [a, mayFail (faults o) .syncHubspotDeal])) := by
    intro o a ha
    have hto := touchesOnly_frame o
    apply resolvePendingOrder_movesPending
    exact keeps_seq_cons hto ha (keeps_seq_cons hto (keeps_mayFail hto) (keeps_seq_nil hto))
  intro s
  refine keeps_seq_cons hr (keeps_seq hr ?_) (keeps_seq_cons hr (keeps_seq hr ?_)
    (keeps_seq_nil hr)) s
  · intro a ha
    obtain ⟨⟨o, payload⟩, -, rfl⟩ := List.mem_map.mp ha
    exact hround o _ (fulfill_touchesOnly _ false)
  · intro a ha
    obtain ⟨⟨o, payload⟩, -, rfl⟩ := List.mem_map.mp ha
    exact hround o _ (cancel_touchesOnly _)

theorem cybersourceCallback_movesPending (state : ProcessorState) (reason100 : Bool) :
    Keeps MovesPending (cybersourceCallback f cat now o state reason100 data) := by
  apply keeps_atomic movesPending_frame
  intro s
  dsimp only
  split
  · rename_i hp
    exact movesPending_of_touchesOnly (processCybersource_touchesOnly state reason100 s) hp.2
  · exact movesPending_frame.refl s

/-! ## Webhooks that do not look at the state -/

/-- The states of an order that is done with. -/
def OrderStatus.settled : OrderStatus → Bool
  | .fulfilled | .canceled | .declined | .errored | .refunded => true
  | _ => false

/-- The order, the target and the payload of a transition that a webhook calls whatever the state of
the order. -/
def PaymentEvent.unguarded : PaymentEvent → Option (OrderId × OrderStatus × PaymentData)
  | .checkoutCompleted o .cancelled data => some (o, .canceled, data)
  | .checkoutCompleted o .error data => some (o, .errored, data)
  | .checkoutExpired o data => some (o, .canceled, data)
  | _ => none

/-- The payload of the webhook cannot be recorded, or the order cannot be saved. -/
def Refused (f : Faults) (s : Store) (o : OrderId) (data : PaymentData) : Prop :=
  f .transaction ≠ none ∨ (∃ e, recordPayment o data "" s = .error e) ∨ f .orderSave ≠ none

/-- A webhook that does not look at the state meets an order that is not settled, or that is in the
target state already, or it is refused. -/
def MeetsOpenOrder (s : Store) (d : Delivery) : Prop :=
  ∀ o target data, d.event.unguarded = some (o, target, data) → o ∈ s.orders.keys →
    (s.order o).state.settled = true → (s.order o).state = target ∨ Refused (d.faults o) s o data

/-- Every order makes an allowed move. -/
def MovesAllowed (cat : Catalog) (s : Store) (d : Delivery) : Prop :=
  ∀ o, AllowedMove (s.order o).state ((deliver cat s d).order o).state

theorem createTransaction_error (reason : String) :
    (createTransaction f o data reason s).error = none ↔
      f .transaction = none ∧ ∃ s', recordPayment o data reason s = .ok s' := by
  unfold createTransaction fallible
  cases f .transaction with
  | some e => simp
  | none =>
    cases h : recordPayment o data reason s with
    | ok s' => simp [statement_ok h]
    | error e => simp [statement_error h]

theorem returns_iff_not_refused {target : OrderStatus} :
    Returns f ⟨none, target⟩ o (createTransaction f o data "") s ↔ ¬Refused f s o data := by
  unfold Returns Refused
  rw [createTransaction_error]
  cases h : recordPayment o data "" s with
  | ok s' => simp [StateFlow.Transition.allows]
  | error e => simp

theorem allowedMove_iff {before target : OrderStatus} (h : target = .canceled ∨ target = .errored) :
    AllowedMove before target ↔ (before.settled = true → before = target) := by
  rcases h with rfl | rfl <;> cases before <;> simp [AllowedMove, OrderStatus.settled]

/-- A transition out of any state makes allowed moves exactly when its order is not settled or the
transition is refused. -/
theorem unguarded_moves {target : OrderStatus} (h : target = .canceled ∨ target = .errored) :
    (∀ o', AllowedMove (s.order o').state ((callTransition f ⟨none, target⟩ o
      (createTransaction f o data "") s).state.order o').state) ↔
      ((s.order o).state.settled = true → (s.order o).state = target ∨ Refused f s o data) := by
  have hbody : ((createTransaction f o data "" s).state.order o).state = (s.order o).state :=
    (createTransaction_records "" s).state
  obtain ⟨hret, hstay⟩ := callTransition_order_state (f := f) (t := ⟨none, target⟩) hbody
  have htouches : Keeps (TouchesOnly o) (createTransaction f o data "") :=
    createTransaction_touchesOnly ""
  have hothers := (keeps_touchesOnly_callTransition (f := f) (t := ⟨none, target⟩) htouches s).others
  rw [returns_iff_not_refused] at hret hstay
  constructor
  · intro hmoves hsettled
    by_cases href : Refused f s o data
    · exact Or.inr href
    · have hmove := hmoves o
      rw [hret href] at hmove
      exact Or.inl ((allowedMove_iff h).mp hmove hsettled)
  · intro hcond o'
    by_cases ho : o' = o
    · subst ho
      by_cases href : Refused f s o' data
      · rw [hstay (fun h => h href)]
        exact allowedMove_refl _
      · rw [hret href]
        exact (allowedMove_iff h).mpr fun hsettled => (hcond hsettled).resolve_right href
    · rw [hothers o' ho]
      exact allowedMove_refl _

theorem refundOrder_moves (amount : Option ℚ) (reason : String) (response : RefundResponse)
    (o' : OrderId) :
    AllowedMove (s.order o').state ((refundOrder f o amount reason response s).state.order o').state := by
  unfold refundOrder
  split
  · exact allowedMove_refl _
  · split
    · exact allowedMove_refl _
    · exact allowedMove_refl _
    · split
      · exact allowedMove_refl _
      · rename_i responseData _ amount' _
        by_cases ho : o' = o
        · subst ho
          have hbody := refundBody_records (f := f) (o := o') responseData amount' reason s
          obtain ⟨hret, hstay⟩ := callTransition_order_state (f := f)
            (t := ⟨some [.fulfilled], .refunded⟩) hbody.state
          unfold refund
          by_cases hreturns : Returns f ⟨some [.fulfilled], .refunded⟩ o'
              (refundBody f o' responseData amount' reason) s
          · rw [hret hreturns]
            have hfulfilled : (s.order o').state = .fulfilled := by
              simpa [StateFlow.Transition.allows] using hreturns.1
            rw [hfulfilled]
            exact Or.inr rfl
          · rw [hstay hreturns]
            exact allowedMove_refl _
        · rw [(refund_touchesOnly responseData amount' reason s).others o' ho]
          exact allowedMove_refl _

/-- An event that looks at the state before it acts. -/
theorem movesAllowed_iff_of_guarded {d : Delivery} (hguarded : d.event.unguarded = none)
    (hmoves : Keeps MovesPending (d.handle cat)) : MovesAllowed cat s d ↔ MeetsOpenOrder s d := by
  constructor
  · intro _ o target data h
    rw [hguarded] at h
    cases h
  · intro _ o
    unfold deliver
    exact allowedMove_of_movesPending (hmoves s) o

/-- A webhook that calls a transition out of any state, if its order exists. -/
theorem movesAllowed_iff_of_unguarded {d : Delivery} {target : OrderStatus}
    (hevent : d.event.unguarded = some (o, target, data))
    (htarget : target = .canceled ∨ target = .errored)
    (hin : o ∈ s.orders.keys → (d.handle cat s).state = (callTransition (d.faults o) ⟨none, target⟩ o
      (createTransaction (d.faults o) o data "") s).state)
    (hout : o ∉ s.orders.keys → (d.handle cat s).state = s) :
    MovesAllowed cat s d ↔ MeetsOpenOrder s d := by
  by_cases hkey : o ∈ s.orders.keys
  · unfold MovesAllowed deliver
    rw [hin hkey, unguarded_moves htarget]
    constructor
    · intro h o' target' data' hevent' _ hsettled
      rw [hevent] at hevent'
      cases hevent'
      exact h hsettled
    · intro h
      exact h o target data hevent hkey
  · constructor
    · intro _ o' target' data' hevent' hkey'
      rw [hevent] at hevent'
      cases hevent'
      exact absurd hkey' hkey
    · intro _ o'
      unfold deliver
      rw [hout hkey]
      exact allowedMove_refl _

/-- An event moves orders as it may exactly when no webhook hits a settled order. -/
theorem movesAllowed_iff (cat : Catalog) (s : Store) (d : Delivery) :
    MovesAllowed cat s d ↔ MeetsOpenOrder s d := by
  obtain ⟨event, now, faults⟩ := d
  cases event with
  | checkoutCompleted o status data =>
    cases status with
    | cancelled =>
      refine movesAllowed_iff_of_unguarded rfl (Or.inl rfl) (fun hkey => ?_) (fun hkey => ?_) <;>
        simp [Delivery.handle, processStripeCheckoutCompleted, hkey, cancel]
    | error =>
      refine movesAllowed_iff_of_unguarded rfl (Or.inr rfl) (fun hkey => ?_) (fun hkey => ?_) <;>
        simp [Delivery.handle, processStripeCheckoutCompleted, hkey, errored]
    | pending =>
      apply movesAllowed_iff_of_guarded rfl
      intro s
      show MovesPending s (processStripeCheckoutCompleted (faults o) cat now o .pending data s).state
      unfold processStripeCheckoutCompleted
      split <;> exact movesPending_frame.refl s
    | pendingAction =>
      apply movesAllowed_iff_of_guarded rfl
      intro s
      show MovesPending s
        (processStripeCheckoutCompleted (faults o) cat now o .pendingAction data s).state
      unfold processStripeCheckoutCompleted
      split <;> exact movesPending_frame.refl s
    | paid =>
      apply movesAllowed_iff_of_guarded rfl
      intro s
      show MovesPending s (processStripeCheckoutCompleted (faults o) cat now o .paid data s).state
      unfold processStripeCheckoutCompleted
      split
      · exact fulfillCompletedOrder_movesPending _ false s
      · exact movesPending_frame.refl s
  | checkoutExpired o data =>
    refine movesAllowed_iff_of_unguarded rfl (Or.inl rfl) (fun hkey => ?_) (fun hkey => ?_) <;>
      simp [Delivery.handle, processStripeCheckoutExpired, hkey, cancel]
  | resolution g refnos checkStatus skipFulfillment =>
    exact movesAllowed_iff_of_guarded rfl
      (resolution_movesPending faults g refnos checkStatus skipFulfillment)
  | cybersource o state reason100 data =>
    exact movesAllowed_iff_of_guarded rfl (cybersourceCallback_movesPending state reason100)
  | refund o amount reason response =>
    constructor
    · intro _ o' target data' h
      cases h
    · intro _ o'
      exact refundOrder_moves amount reason response o'

/-- Along every run, orders that are settled stay as they are, but for refunds of fulfilled ones,
exactly when no webhook that does not look at the state hits a settled order. -/
theorem terminal_states_iff (cat : Catalog) (s : Store) (events : List Delivery) :
    Trace.Along (deliver cat) (MovesAllowed cat) s events ↔
      Trace.Along (deliver cat) MeetsOpenOrder s events :=
  Trace.along_iff_of_invariant (fun _ => True) (fun _ _ _ _ => trivial)
    (fun s d _ => movesAllowed_iff cat s d) trivial

/-- A catalog whose products cost a hundred dollars. -/
def hundredDollarCatalog : Catalog := Catalog.ofPrices fun _ => ⟨10000⟩

/-- The line for product 1 of that catalog. -/
def hundredDollarLine : Line :=
  Line.new hundredDollarCatalog 1 ⟨1, 1, hundredDollarCatalog.product 1⟩

/-- A pending Stripe order of user 1 for product 1. -/
def pendingStripeOrder : Order :=
  { Order.new 1 .stripe with
    totalPricePaid := 100
    lines := ⟨[hundredDollarLine], List.pairwise_singleton _ _⟩ }

/-- The database with one order, under key 1. -/
def storeWith (row : Order) : Store :=
  { Store.empty with orders := ⟨[1], fun _ => row, List.pairwise_singleton _ _⟩ }

/-- A Stripe event with an id of its own. -/
def stripeEvent (id : String) : PaymentData :=
  ⟨none, none, some id, some 10000, false, none, none, none⟩

/-- The payment completes the order, and the expiry of an earlier session cancels it afterwards. -/
theorem expired_session_cancels_fulfilled_order :
    ¬∀ (cat : Catalog) (s : Store) (events : List Delivery),
      Trace.Along (deliver cat) (MovesAllowed cat) s events := by
  intro h
  have hrun := h hundredDollarCatalog (storeWith pendingStripeOrder)
    [⟨.checkoutCompleted 1 .paid (stripeEvent "evt_1"), 0, fun _ => Faults.none⟩,
     ⟨.checkoutExpired 1 (stripeEvent "evt_2"), 1, fun _ => Faults.none⟩]
  have hmove := hrun.2.1 1
  exact absurd hmove (by decide +kernel)

end MitxOnline

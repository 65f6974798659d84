import MitxOnline.Ecommerce.OrderFlow

/-!
# How payments reach orders (`ecommerce/api.py`)

Webhooks of Stripe, callbacks of Cybersource and the resolution of pending orders all look up an order
by the reference number that the payment carries and drive its flow. They run outside transactions,
except for the callbacks of Cybersource.
-/

namespace MitxOnline

open Autocommit

/-- `Basket.compare_to_order`, for the basket of the purchaser: as many items and discounts, and every
item and discount the same as every line and redemption. -/
def Basket.compareToOrder (b : Basket) (o : Order) : Bool :=
  b.basketItems.length == o.lines.rows.length && b.discounts.length == o.discounts.length &&
    (b.basketItems.all fun item => o.lines.rows.all fun l =>
      l.productVersion.objectId == item.product) &&
    b.discounts.all fun basketDiscount => o.discounts.all fun redemption =>
      redemption.redeemedDiscount == basketDiscount.redeemedDiscount

/-- Delete the purchaser's basket if it is the one that was bought. -/
def clearBasket (f : Faults) (o : OrderId) : Code := fun s =>
  match s.baskets (s.order o).purchaser with
  | none => ⟨s, none⟩
  | some basket =>
    if basket.compareToOrder (s.order o) = true then
      fallible f .basketDelete (update fun t => { t with baskets := fun user =>
        if user = (s.order o).purchaser then none else t.baskets user }) s
    else mayFail f .basketDelete s

/-- `fulfill_completed_order`, with the basket of the purchaser. -/
def fulfillCompletedOrder (f : Faults) (cat : Catalog) (now : Instant) (o : OrderId)
    (paymentData : PaymentData) (opts : FulfillOptions) (inTransaction : Bool) : Code :=
  seq
    [ fulfill f cat now o paymentData opts inTransaction,
      mayFail f .syncHubspotDeal,
      clearBasket f o ]

/-! ## Stripe -/

inductive SessionStatus where
  | openSession
  | complete
  | expired
  deriving DecidableEq, Repr

inductive SessionPaymentStatus where
  | paid
  | unpaid
  | noPaymentRequired
  deriving DecidableEq, Repr

/-- The status of a payment intent, as far as it is told apart. -/
inductive PaymentIntentStatus where
  | processing
  | succeeded
  | cancelled
  | other
  deriving DecidableEq, Repr

/-- A checkout session, as retrieved from Stripe. `transaction` is the session as a dict. -/
structure StripeSession where
  status : SessionStatus
  paymentStatus : SessionPaymentStatus
  paymentIntent : Option PaymentIntentStatus
  transaction : PaymentData
  deriving DecidableEq

/-- The overall status of a checkout. `error` is compared with but never set. -/
inductive CheckoutStatus where
  | pending
  | pendingAction
  | paid
  | cancelled
  | error
  deriving DecidableEq, Repr

/-- `process_stripe_checkout_session_status` -/
def processStripeCheckoutSessionStatus (cs : StripeSession) : CheckoutStatus :=
  match cs.paymentIntent with
  | none =>
    if cs.status = .openSession ∨ (cs.status = .complete ∧ cs.paymentStatus = .unpaid) then .pending
    else if cs.status = .complete ∧
        (cs.paymentStatus = .noPaymentRequired ∨ cs.paymentStatus = .paid) then .paid
    else if cs.status = .expired ∧ cs.paymentStatus = .unpaid then .cancelled
    else .pending
  | some .processing => .pending
  | some .succeeded => .paid
  | some .cancelled => .cancelled
  | some .other => .pendingAction

/-- `process_stripe_checkout_completed`, for an event whose session refers to order `o` and has the
given status; `data` is the event as a dict. -/
def processStripeCheckoutCompleted (f : Faults) (cat : Catalog) (now : Instant) (o : OrderId)
    (status : CheckoutStatus) (data : PaymentData) : Code := fun s =>
  if o ∈ s.orders.keys then
    match status with
    | .cancelled => cancel f o (some data) s
    | .error => errored f o (some data) s
    | .pending => ⟨s, none⟩
    | .pendingAction => ⟨s, none⟩
    | .paid => fulfillCompletedOrder f cat now o data FulfillOptions.default false s
  else ⟨s, none⟩

/-- `process_stripe_checkout_expired` -/
def processStripeCheckoutExpired (f : Faults) (o : OrderId) (data : PaymentData) : Code := fun s =>
  if o ∈ s.orders.keys then cancel f o (some data) s else ⟨s, some .doesNotExist⟩

/-! ## Resolution of pending orders -/

/-- `ADMIN_FULFILLED_PAYMENT_DATA` -/
def adminFulfilledPaymentData : PaymentData where
  transactionId := some "administratively-fulfilled"
  amount := some 0
  id := none
  amountTotal := none
  isAdministrative := true
  object := none
  paypalToken := none
  reqAmount := none

/-- `ZERO_PAYMENT_DATA` -/
def zeroPaymentData : PaymentData where
  transactionId := some "zero-payment-transaction"
  amount := some 0
  id := none
  amountTotal := none
  isAdministrative := true
  object := none
  paypalToken := none
  reqAmount := none

/-- What the gateways know: the transactions that Cybersource finds, with whether the reason code is
100, and the sessions that Stripe retrieves. -/
structure Gateway where
  cybersource : OrderId → Option (Bool × PaymentData)
  stripe : String → StripeSession

/-- The pending orders with one of the reference numbers, or all of them. -/
def pendingOrders (s : Store) (refnos : List OrderId) : List OrderId :=
  s.orders.keys.filter fun o =>
    (s.order o).state == .pending && (refnos.isEmpty || refnos.contains o)

/-- `_retrieve_pending_cybersource_orders`, for one order: whether it is completed or cancelled, and
the payload. -/
def retrievePendingCybersourceOrder (g : Gateway) (o : OrderId) : Option (Bool × PaymentData) :=
  g.cybersource o

/-- `_retrieve_pending_stripe_orders`, for one order. -/
def retrievePendingStripeOrder (g : Gateway) (o : Order) : Option (Bool × PaymentData) :=
  match o.transactions.find? fun t => t.reason == "Initial CheckoutSession" with
  | none => none
  | some t =>
    match t.data.id with
    | none => none
    | some session =>
      if t.data.object ≠ some "checkout.session" ∨ session = "" then none
      else
        match processStripeCheckoutSessionStatus (g.stripe session) with
        | .cancelled => some (false, (g.stripe session).transaction)
        | .paid => some (true, (g.stripe session).transaction)
        | _ => none

/-- What the gateway of an order says about it. -/
def retrievePendingOrder (g : Gateway) (s : Store) (o : OrderId) : Option (Bool × PaymentData) :=
  match (s.order o).gatewayType with
  | .cybersource => retrievePendingCybersourceOrder g o
  | .stripe => retrievePendingStripeOrder g (s.order o)
  | .other => none

/-- One round of the loops of the resolution: the order is fetched again, and only a pending one is
found. An exception is logged. -/
def resolvePendingOrder (o : OrderId) (resolve : Code) : Code :=
  attempt fun s =>
    if o ∈ s.orders.keys ∧ (s.order o).state = .pending then resolve s else ⟨s, some .doesNotExist⟩

/-- A round for an order that was paid for. -/
def resolveSuccess (f : Faults) (cat : Catalog) (now : Instant) (skipFulfillment : Bool) (o : OrderId)
    (payload : PaymentData) : Code :=
  resolvePendingOrder o <| seq
    [ fulfill f cat now o payload ⟨false, false, skipFulfillment⟩ false, mayFail f .syncHubspotDeal ]

/-- A round for an order that was cancelled. -/
def resolveCancel (f : Faults) (o : OrderId) (payload : PaymentData) : Code :=
  resolvePendingOrder o <| seq [cancel f o (some payload), mayFail f .syncHubspotDeal]

/-- `check_and_process_pending_orders_for_resolution`; `f` are the faults of each order's round. -/
def checkAndProcessPendingOrdersForResolution (f : OrderId → Faults) (cat : Catalog) (now : Instant)
    (g : Gateway) (refnos : List OrderId) (checkStatus skipFulfillment : Bool) : Code := fun s =>
  let pending := pendingOrders s refnos
  let found := pending.filterMap fun o => (retrievePendingOrder g s o).map fun r => (o, r.1, r.2)
  let successOrders : List (OrderId × PaymentData) :=
    if checkStatus = true then (found.filter (·.2.1)).map fun r => (r.1, r.2.2)
    else pending.map fun o => (o, adminFulfilledPaymentData)
  let cancelOrders : List (OrderId × PaymentData) :=
    if checkStatus = true then (found.filter (!·.2.1)).map fun r => (r.1, r.2.2) else []
  seq
    [ seq (successOrders.map fun r => resolveSuccess (f r.1) cat now skipFulfillment r.1 r.2),
      seq (cancelOrders.map fun r => resolveCancel (f r.1) r.1 r.2) ] s

/-! ## Cybersource -/

/-- The state of a processor response; `other` is any other. -/
inductive ProcessorState where
  | accepted
  | declined
  | error
  | cancelled
  | review
  | other
  deriving DecidableEq, Repr

/-- `process_cybersource_payment_response`; `reason100` says that the reason code is 100. -/
def processCybersourcePaymentResponse (f : Faults) (cat : Catalog) (now : Instant) (o : OrderId)
    (state : ProcessorState) (reason100 : Bool) (data : PaymentData) : Code :=
  seq
    [ match state with
      | .declined => decline f o
      | .error => errored f o none
      | .cancelled => cancel f o none
      | .review => cancel f o none
      | .accepted => fulfillCompletedOrder f cat now o data FulfillOptions.default true
      | .other =>
        if reason100 = true then fulfillCompletedOrder f cat now o data FulfillOptions.default true
        else cancel f o none,
      mayFail f .syncHubspotDeal ]

/-- `BackofficeCallbackView.post` and `CheckoutCallbackView.post`: a response is processed in a
transaction, and only for a pending order. -/
def cybersourceCallback (f : Faults) (cat : Catalog) (now : Instant) (o : OrderId)
    (state : ProcessorState) (reason100 : Bool) (data : PaymentData) : Code :=
  atomic fun s =>
    if o ∈ s.orders.keys ∧ (s.order o).state = .pending then
      processCybersourcePaymentResponse f cat now o state reason100 data s
    else ⟨s, none⟩

/-! ## Refunds -/

/-- What the gateway did with a refund: it accepted it (`REFUND_SUCCESS_STATES`) with a response, or
answered otherwise, or the call raised. -/
inductive RefundResponse where
  | accepted (responseData : Option PaymentData)
  | rejected
  | raised (e : Error)
  deriving DecidableEq

/-- The payload that a refund is requested with: that of the payment, and the amount that is asked
for. An amount of zero counts as none. -/
def refundRequest (data : PaymentData) (refundAmount : Option ℚ) : PaymentData :=
  match refundAmount with
  | none => data
  | some amount => if amount = 0 then data else { data with reqAmount := some amount }

/-- The call of the gateway that `refund_order` makes, if it gets that far. -/
def refundCall (s : Store) (o : OrderId) (refundAmount : Option ℚ) : Except Error PaymentData :=
  if o ∈ s.orders.keys then
    if (s.order o).state ≠ .fulfilled then .error .failure
    else
      match (s.order o).transactions.head? with
      | none => .error .failure
      | some t =>
        if t.data.paypalToken.isSome then .error .failure
        else .ok (refundRequest t.data refundAmount)
  else .error .doesNotExist

/-- `refund_order`. Where the source returns `False` with a message the model raises; neither changes
anything. -/
def refundOrder (f : Faults) (o : OrderId) (refundAmount : Option ℚ) (reason : String)
    (response : RefundResponse) : Code := fun s =>
  match refundCall s o refundAmount with
  | .error e => ⟨s, some e⟩
  | .ok request =>
    match response with
    | .raised e => ⟨s, some e⟩
    | .rejected => ⟨s, some .gatewayError⟩
    | .accepted responseData =>
      match request.reqAmount with
      | none => ⟨s, some (.keyError "req_amount")⟩
      | some amount => refund f o responseData amount reason s

/-- A call of `refund_order` on an order, with what the gateway answers if it is asked. -/
structure RefundCall where
  refundAmount : Option ℚ
  reason : String
  response : RefundResponse
  faults : Faults

/-- The database, and the amounts that the gateway has accepted to refund for the order. -/
structure RefundLedger where
  store : Store
  accepted : List ℚ

/-- The gateway accepts the refund of a call with this response. -/
def RefundCall.accepts (c : RefundCall) (s : Store) (o : OrderId) :
    Option (PaymentData × Option PaymentData) :=
  match refundCall s o c.refundAmount, c.response with
  | .ok request, .accepted responseData => some (request, responseData)
  | _, _ => none

/-- A call of `refund_order`, and what it adds to the accepted amounts. -/
def refundStep (o : OrderId) (l : RefundLedger) (c : RefundCall) : RefundLedger where
  store := (refundOrder c.faults o c.refundAmount c.reason c.response l.store).state
  accepted :=
    match c.accepts l.store o with
    | some (request, _) => l.accepted ++ [request.reqAmount.getD 0]
    | none => l.accepted

/-! ## Runs -/

/-- What the payment paths deliver, in any order, late or more than once. -/
inductive PaymentEvent where
  | checkoutCompleted (o : OrderId) (status : CheckoutStatus) (data : PaymentData)
  | checkoutExpired (o : OrderId) (data : PaymentData)
  | resolution (g : Gateway) (refnos : List OrderId) (checkStatus skipFulfillment : Bool)
  | cybersource (o : OrderId) (state : ProcessorState) (reason100 : Bool) (data : PaymentData)
  | refund (o : OrderId) (amount : Option ℚ) (reason : String) (response : RefundResponse)

/-- An event, the instant it is handled and the statements that fail; those of a resolution may
differ from order to order. -/
structure Delivery where
  event : PaymentEvent
  now : Instant
  faults : OrderId → Faults

/-- Handle an event. -/
def Delivery.handle (cat : Catalog) (d : Delivery) : Code :=
  match d.event with
  | .checkoutCompleted o status data =>
    processStripeCheckoutCompleted (d.faults o) cat d.now o status data
  | .checkoutExpired o data => processStripeCheckoutExpired (d.faults o) o data
  | .resolution g refnos checkStatus skipFulfillment =>
    checkAndProcessPendingOrdersForResolution d.faults cat d.now g refnos checkStatus skipFulfillment
  | .cybersource o state reason100 data =>
    cybersourceCallback (d.faults o) cat d.now o state reason100 data
  | .refund o amount reason response => refundOrder (d.faults o) o amount reason response

/-- The database after an event. -/
def deliver (cat : Catalog) (s : Store) (d : Delivery) : Store := (d.handle cat s).state

end MitxOnline

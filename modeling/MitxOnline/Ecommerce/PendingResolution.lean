import MitxOnline.Ecommerce.Payments
import MitxOnline.Lib.Dict

/-!
# The resolution of pending orders and its counts (`ecommerce/api.py`)

The gateways are asked about the pending orders, their answers are sorted into orders to fulfill and orders
to cancel, and two loops go over these. An exception ends the round of one order; an exception of a gateway
ends the resolution before its first round.
-/

namespace MitxOnline

open Autocommit

/-! ## Retrieval -/

/-- A payload of `find_and_get_transactions`, with its reason code as a number. -/
structure CybersourcePayload where
  reqReferenceNumber : OrderId
  reasonCode : ℤ
  data : PaymentData

/-- What the gateways answer: the payloads that Cybersource finds for some reference numbers, and the
session that Stripe retrieves. -/
structure GatewayAnswers where
  findAndGetTransactions : List OrderId → Except Error (Dict OrderId CybersourcePayload)
  retrieve : String → Except Error StripeSession

/-- The two dictionaries that results are sorted into. -/
structure Buckets where
  completed : Dict OrderId PaymentData
  cancelled : Dict OrderId PaymentData

/-- No results. -/
def Buckets.empty : Buckets := ⟨.empty, .empty⟩

/-- A result that a gateway gave: the order is paid for, or it is cancelled. -/
structure RetrievedResult where
  order : OrderId
  completed : Bool
  payload : PaymentData

/-- Sort a result. -/
def Buckets.sort (b : Buckets) (r : RetrievedResult) : Buckets :=
  if r.completed = true then { b with completed := b.completed.set r.order r.payload }
  else { b with cancelled := b.cancelled.set r.order r.payload }

/-- The result in a payload of Cybersource. -/
def CybersourcePayload.result (payload : CybersourcePayload) : RetrievedResult :=
  ⟨payload.reqReferenceNumber, payload.reasonCode == 100, payload.data⟩

/-- `_retrieve_pending_cybersource_orders` -/
def retrievePendingCybersourceOrders (g : GatewayAnswers) (orders : List OrderId) :
    Except Error Buckets :=
  if orders.length = 0 then .ok .empty
  else
    match g.findAndGetTransactions orders with
    | .error e => .error e
    | .ok results =>
      .ok ((results.entries.map Prod.snd).foldl (fun b payload => b.sort payload.result) .empty)

/-- What Stripe says about an order, if it has a session and the session is settled. -/
def stripeResult (g : GatewayAnswers) (s : Store) (o : OrderId) :
    Except Error (Option RetrievedResult) :=
  match (s.order o).transactions.find? fun t => t.reason == "Initial CheckoutSession" with
  | none => .ok none
  | some t =>
    match t.data.id with
    | none => .ok none
    | some session =>
      if t.data.object ≠ some "checkout.session" ∨ session = "" then .ok none
      else
        match g.retrieve session with
        | .error e => .error e
        | .ok cs =>
          match processStripeCheckoutSessionStatus cs with
          | .cancelled => .ok (some ⟨o, false, cs.transaction⟩)
          | .paid => .ok (some ⟨o, true, cs.transaction⟩)
          | _ => .ok none

/-- `_retrieve_pending_stripe_orders` -/
def retrievePendingStripeOrders (g : GatewayAnswers) (s : Store) :
    List OrderId → Buckets → Except Error Buckets
  | [], b => .ok b
  | o :: orders, b =>
    match stripeResult g s o with
    | .error e => .error e
    | .ok none => retrievePendingStripeOrders g s orders b
    | .ok (some r) => retrievePendingStripeOrders g s orders (b.sort r)

/-- `{**a, **b}` -/
def Buckets.merge (a b : Buckets) : Buckets :=
  ⟨a.completed.setAll b.completed.entries, a.cancelled.setAll b.cancelled.entries⟩

/-- The orders to fulfill and those to cancel. -/
def ordersToResolve (g : GatewayAnswers) (s : Store) (pending : List OrderId) (checkStatus : Bool) :
    Except Error Buckets :=
  if checkStatus = true then
    match
      retrievePendingCybersourceOrders g
        (pending.filter fun o => (s.order o).gatewayType == .cybersource),
      retrievePendingStripeOrders g s (pending.filter fun o => (s.order o).gatewayType == .stripe)
        .empty with
    | .error e, _ => .error e
    | .ok _, .error e => .error e
    | .ok cs, .ok stripe => .ok (cs.merge stripe)
  else .ok ⟨Dict.empty.setAll (pending.map fun o => (o, adminFulfilledPaymentData)), .empty⟩

/-! ## The loops -/

/-- What a loop does with its orders. -/
inductive ResolutionKind where
  | fulfillment
  | cancellation
  deriving DecidableEq, Repr

/-- What is logged about an order: it was resolved, or an exception ended its round. -/
inductive ResolutionMessage where
  | resolved (kind : ResolutionKind) (o : OrderId)
  | failed (kind : ResolutionKind) (o : OrderId)
  deriving DecidableEq, Repr

/-- The database, the counts and the log. -/
structure Resolution where
  store : Store
  fulfilledCount : ℕ
  cancelCount : ℕ
  errorCount : ℕ
  log : List ResolutionMessage

/-- Count and log an order that was resolved. -/
def Resolution.countResolved (acc : Resolution) (kind : ResolutionKind) (o : OrderId) : Resolution :=
  match kind with
  | .fulfillment =>
    { acc with fulfilledCount := acc.fulfilledCount + 1, log := acc.log ++ [.resolved kind o] }
  | .cancellation =>
    { acc with cancelCount := acc.cancelCount + 1, log := acc.log ++ [.resolved kind o] }

/-- What a round does with its order: fulfill or cancel it, and sync the deal. -/
def resolveCode (f : Faults) (cat : Catalog) (now : Instant) (skipFulfillment : Bool)
    (kind : ResolutionKind) (o : OrderId) (payload : PaymentData) : Code :=
  match kind with
  | .fulfillment =>
    seq [fulfill f cat now o payload ⟨false, false, skipFulfillment⟩ false, mayFail f .syncHubspotDeal]
  | .cancellation => seq [cancel f o (some payload), mayFail f .syncHubspotDeal]

/-- The body of the `try` block of a round: the order is fetched again, and only a pending one is found. -/
def resolvePending (o : OrderId) (resolve : Code) : Code := fun s =>
  if o ∈ s.orders.keys ∧ (s.order o).state = .pending then resolve s else ⟨s, some .doesNotExist⟩

/-- A round of one of the loops. -/
def resolutionRound (f : OrderId → Faults) (cat : Catalog) (now : Instant) (skipFulfillment : Bool)
    (kind : ResolutionKind) (acc : Resolution) (r : OrderId × PaymentData) : Resolution :=
  let out := resolvePending r.1 (resolveCode (f r.1) cat now skipFulfillment kind r.1 r.2) acc.store
  match out.error with
  | none => Resolution.countResolved { acc with store := out.state } kind r.1
  | some _ =>
    { acc with
      store := out.state
      errorCount := acc.errorCount + 1
      log := acc.log ++ [.failed kind r.1] }

/-- `check_and_process_pending_orders_for_resolution`; `f` are the faults of each order's round. -/
def resolvePendingOrders (f : OrderId → Faults) (cat : Catalog) (now : Instant) (g : GatewayAnswers)
    (refnos : List OrderId) (checkStatus skipFulfillment : Bool) (s : Store) :
    Except Error Resolution :=
  if (pendingOrders s refnos).length = 0 then .ok ⟨s, 0, 0, 0, []⟩
  else
    match ordersToResolve g s (pendingOrders s refnos) checkStatus with
    | .error e => .error e
    | .ok b =>
      .ok (b.cancelled.entries.foldl (resolutionRound f cat now skipFulfillment .cancellation)
        (b.completed.entries.foldl (resolutionRound f cat now skipFulfillment .fulfillment)
          ⟨s, 0, 0, 0, []⟩))

end MitxOnline

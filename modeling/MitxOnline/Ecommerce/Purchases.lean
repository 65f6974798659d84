import MitxOnline.Ecommerce.Checkout

/-!
# The purchases of one user

A user changes the basket and checks out any number of times. Every session that a checkout has
started stays payable, and its payment is reported some time later: by the webhook of Stripe, by the
callback of Cybersource, or by the resolution of pending orders.
-/

namespace MitxOnline

open Autocommit

/-- Where a payment is reported. -/
inductive PaymentChannel where
  | webhook
  | callback
  | resolution (skipFulfillment : Bool)
  deriving DecidableEq, Repr

/-- The report of a payment; `data` is the payload that the order flow gets. -/
structure PaymentNotice where
  channel : PaymentChannel
  data : PaymentData
  now : Instant
  faults : Faults

/-- Handle the report of a payment for an order. -/
def PaymentNotice.handle (cat : Catalog) (n : PaymentNotice) (o : OrderId) : Code :=
  match n.channel with
  | .webhook => processStripeCheckoutCompleted n.faults cat n.now o .paid n.data
  | .callback => cybersourceCallback n.faults cat n.now o .accepted true n.data
  | .resolution skipFulfillment => resolveSuccess n.faults cat n.now skipFulfillment o n.data

/-- The database after the report of a payment for an order. -/
def attemptPayment (cat : Catalog) (o : OrderId) (s : Store) (n : PaymentNotice) : Store :=
  (n.handle cat o s).state

/-- The database and the sessions that were started, the first one first. -/
structure Purchases where
  store : Store
  sessions : List Session

inductive PurchaseEvent where
  | changeBasket (basket : Basket)
  | checkout (req : CheckoutRequest)
  /-- The payment of the session at a place in the list is reported. -/
  | payment (i : ℕ) (notice : PaymentNotice)

/-- The session that a checkout has started, if it has. -/
def startedSession : Except Error CheckoutPayload → Option Session
  | .ok (.payment session) => some session
  | _ => none

/-- What an event does for the user. -/
def purchaseStep (cat : Catalog) (user : UserId) (p : Purchases) : PurchaseEvent → Purchases
  | .changeBasket basket => { p with store := setBasket user basket p.store }
  | .checkout req =>
    { store := (generateCheckoutPayload cat user req p.store).1
      sessions := p.sessions ++
        (startedSession (generateCheckoutPayload cat user req p.store).2).toList }
  | .payment i notice =>
    match p.sessions[i]? with
    | none => p
    | some session => { p with store := attemptPayment cat session.reference p.store notice }

end MitxOnline

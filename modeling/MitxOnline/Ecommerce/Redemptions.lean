import MitxOnline.Ecommerce.Purchases

/-!
# Checkouts of many users

Any number of users check out at the same time. A checkout validates the basket, makes a pending order
of what the basket holds then, and charges the order; a session that it starts is paid some time
later. Between any two of these steps other checkouts may take theirs, so that a discount which was
valid in the first step may have been redeemed by the time the order is fulfilled.
-/

namespace MitxOnline

open Autocommit

/-- The redemption rules of `check_validity`: it returns `False` where one of them is broken. -/
structure RedemptionsLeft (cat : Catalog) (s : Store) (d : DiscountId) (user : UserId) : Prop where
  oneTime : (cat.discount d).redemptionType = .oneTime → s.fulfilledRedemptions d = 0
  oneTimePerUser : (cat.discount d).redemptionType = .oneTimePerUser →
    s.fulfilledRedemptionsBy d user = 0
  maxRedemptions : ∀ m, (cat.discount d).maxRedemptions = some m → 0 < m →
    s.fulfilledRedemptions d < m

/-- No discount is redeemed by more fulfilled orders than it may be. A limit of zero is none. -/
structure LimitsKept (cat : Catalog) (s : Store) : Prop where
  oneTime : ∀ d, (cat.discount d).redemptionType = .oneTime → s.fulfilledRedemptions d ≤ 1
  oneTimePerUser : ∀ d, (cat.discount d).redemptionType = .oneTimePerUser →
    ∀ user, s.fulfilledRedemptionsBy d user ≤ 1
  maxRedemptions : ∀ d m, (cat.discount d).maxRedemptions = some m → 0 < m →
    s.fulfilledRedemptions d ≤ m

/-- The redemption rules leave every discount of the order to whoever redeems it. -/
def LeftFor (cat : Catalog) (s : Store) (o : OrderId) : Prop :=
  ∀ r ∈ (s.order o).discounts, RedemptionsLeft cat s r.redeemedDiscount r.redeemedBy

/-! ## The steps of a checkout -/

/-- The checks of a checkout, and what they leave of the basket if they find invalid discounts. -/
def validateBasket (cat : Catalog) (user : UserId) (req : CheckoutRequest) (s : Store) :
    Store × Option CheckoutError :=
  let basket := s.basketOf user
  let s := setBasket user basket s
  match checkoutRefusal cat s user basket req with
  | some .invalidDiscounts =>
    (setBasket user (applyUserDiscounts cat s req.now user req.userDiscount
      { basket with discounts := [] }) s, some .invalidDiscounts)
  | refusal => (s, refusal)

/-- `fulfill_completed_order` for a free order that the checkout has loaded before: its flow goes by
the state that the order had then, which is pending. -/
def fulfillLoadedOrder (cat : Catalog) (req : CheckoutRequest) (o : OrderId) : Code := fun s =>
  fulfillCompletedOrder req.faults cat req.now o zeroPaymentData ⟨false, req.skipReceipt, false⟩ true
    (s.setState o .pending)

/-- The zero-price path, for an order that was loaded before. -/
def fulfillLoadedFreeOrder (cat : Catalog) (req : CheckoutRequest) (o : OrderId) : Code :=
  andThen (atomic (fulfillLoadedOrder cat req o)) fun s =>
    if sendsReceipt cat (s.order o) ⟨false, req.skipReceipt, false⟩ = true
    then mayFail req.faults .email s else ⟨s, none⟩

/-- The last step of a checkout, for the order that it has made. -/
def chargeLoadedOrder (cat : Catalog) (req : CheckoutRequest) (o : OrderId) (s : Store) :
    Store × Except Error CheckoutPayload :=
  if (s.order o).linesTotal cat = .ok 0 then
    let out := fulfillLoadedFreeOrder cat req o s
    match out.error with
    | none => (out.state, .ok (.noCheckout o))
    | some e => (out.state, .error e)
  else chargeOrder cat req o s

/-! ## Runs -/

/-- The database, the checkouts whose basket is validated, those whose order is made, and the sessions
that were started. -/
structure Checkouts where
  store : Store
  validated : List (UserId × CheckoutRequest)
  made : List (CheckoutRequest × OrderId)
  sessions : List Session

/-- A step of some checkout, or a change of a basket. The places are those in the lists of open
checkouts and sessions. A basket has a discount once (`unique_basket_discount`). -/
inductive CheckoutStep where
  | changeBasket (user : UserId) (basket : Basket)
    (unique : (basket.discounts.map (·.redeemedDiscount)).Nodup)
  | validate (user : UserId) (req : CheckoutRequest)
  | makeOrder (i : ℕ)
  | charge (i : ℕ)
  /-- The payment of a session is reported. -/
  | payment (i : ℕ) (notice : PaymentNotice)

/-- What a step does. -/
def checkoutStep (cat : Catalog) (p : Checkouts) : CheckoutStep → Checkouts
  | .changeBasket user basket _ => { p with store := setBasket user basket p.store }
  | .validate user req =>
    { p with
      store := (validateBasket cat user req p.store).1
      validated := p.validated ++
        if (validateBasket cat user req p.store).2 = none then [(user, req)] else [] }
  | .makeOrder i =>
    match p.validated[i]? with
    | none => p
    | some (user, req) =>
      match createFromBasket cat p.store user (p.store.basketOf user) req.gatewayType with
      | .error _ => { p with validated := p.validated.eraseIdx i }
      | .ok (o, store) =>
        { p with store, validated := p.validated.eraseIdx i, made := p.made ++ [(req, o)] }
  | .charge i =>
    match p.made[i]? with
    | none => p
    | some (req, o) =>
      { p with
        store := (chargeLoadedOrder cat req o p.store).1
        made := p.made.eraseIdx i
        sessions := p.sessions ++ (startedSession (chargeLoadedOrder cat req o p.store).2).toList }
  | .payment i notice =>
    match p.sessions[i]? with
    | none => p
    | some session => { p with store := attemptPayment cat session.reference p.store notice }

/-- Nothing raises that has to return for the order to be fulfilled by the report of its payment: what
`fulfill` does and, inside the transaction of a callback, what comes after it. -/
def PaymentNotice.Completes (cat : Catalog) (n : PaymentNotice) (o : OrderId) (s : Store) : Prop :=
  match n.channel with
  | .webhook =>
    (fulfill n.faults cat n.now o n.data FulfillOptions.default false s).error = none
  | .callback =>
    (processCybersourcePaymentResponse n.faults cat n.now o .accepted true n.data s).error = none
  | .resolution skipFulfillment =>
    (fulfill n.faults cat n.now o n.data ⟨false, false, skipFulfillment⟩ false s).error = none

/-- An order that the step fulfils, because it is free or its payment is reported, has all that the
redemption rules ask for. -/
def FulfilsWhatIsLeft (cat : Catalog) (p : Checkouts) : CheckoutStep → Prop
  | .charge i => ∀ req o, p.made[i]? = some (req, o) → (p.store.order o).state ≠ .fulfilled →
      (p.store.order o).linesTotal cat = .ok 0 →
      (fulfillLoadedOrder cat req o p.store).error = none → LeftFor cat p.store o
  | .payment i notice => ∀ session, p.sessions[i]? = some session →
      (p.store.order session.reference).state ≠ .fulfilled →
      notice.Completes cat session.reference p.store → LeftFor cat p.store session.reference
  | _ => True

/-- Baskets and orders have a discount once, and the orders of open checkouts and sessions exist. -/
structure Consistent (p : Checkouts) : Prop where
  baskets : ∀ user, ((p.store.basketOf user).discounts.map (·.redeemedDiscount)).Nodup
  orders : ∀ o, ((p.store.order o).discounts.map (·.redeemedDiscount)).Nodup
  made : ∀ x ∈ p.made, x.2 ∈ p.store.orders.keys
  sessions : ∀ session ∈ p.sessions, session.reference ∈ p.store.orders.keys

end MitxOnline

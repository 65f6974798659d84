import MitxOnline.B2b.Validation
import MitxOnline.Ecommerce.Payments

/-!
# Checkout (`generate_checkout_payload`)

The basket passes a row of checks, a pending order is made of it or an earlier one is reused, and the
prices of all lines of the order are added up. A total of zero fulfils the order at once, in a
transaction; otherwise the gateway starts a payment session for the total, under the reference
number of the order.
-/

namespace MitxOnline

open Autocommit

/-- Why a checkout is refused; the payloads differ in their error and a flag. -/
inductive CheckoutError where
  | countryBlocked
  | purchasedSameCourserun
  | purchasedNonUpgradeableCourserun
  | invalidDiscounts
  | missingEnrollmentCode
  | invalidBasket
  | basketEmpty
  deriving DecidableEq, Repr

/-- A payment session at the gateway: the order it refers to, what it charges, and the discounts the
order had when it was priced. -/
structure Session where
  reference : OrderId
  amount : ℚ
  discounts : List DiscountId
  deriving DecidableEq

/-- What a checkout returns. -/
inductive CheckoutPayload where
  | refused (error : CheckoutError)
  /-- The order was free and is fulfilled. -/
  | noCheckout (o : OrderId)
  | payment (session : Session)

/-- The arguments of a checkout, and what the gateway and the flexible prices answer during it. -/
structure CheckoutRequest where
  gatewayType : GatewayType
  skipDiscountCheck : Bool
  skipReceipt : Bool
  /-- `determine_courseware_flexible_price_discount`, or the first `UserDiscount` of the user. -/
  userDiscount : Option DiscountId
  /-- `PaymentGateway.start_payment`: the session as a dict, or an exception. -/
  startPayment : Except Error PaymentData
  now : Instant
  faults : Faults

/-- The course runs whose products are in the basket. -/
def Basket.courseRuns (cat : Catalog) (basket : Basket) : List RunId :=
  basket.getProducts.filterMap fun p =>
    match (cat.product p).contentType with
    | .courseRun => some (cat.product p).objectId
    | .program => none

/-- `Basket.has_user_blocked_products` -/
def Basket.hasUserBlockedProducts (cat : Catalog) (basket : Basket) (user : UserId) : Bool :=
  (basket.courseRuns cat).any fun r =>
    (cat.blockedCountries (cat.courseRun r).course).contains (cat.country user)

/-- `PaidCourseRun.fulfilled_paid_course_run_exists` -/
def fulfilledPaidCourseRunExists (s : Store) (user : UserId) (r : RunId) : Bool :=
  s.paidCourseRuns.any fun row =>
    row.user == user && row.courseRun == r && (s.order row.order).state == .fulfilled

/-- `Basket.has_user_purchased_same_courserun` -/
def Basket.hasUserPurchasedSameCourserun (cat : Catalog) (s : Store) (basket : Basket)
    (user : UserId) : Bool :=
  (basket.courseRuns cat).any (fulfilledPaidCourseRunExists s user)

/-- `CourseRun.is_upgradable` -/
def isUpgradable (cat : Catalog) (now : Instant) (r : RunId) : Bool :=
  (cat.courseRun r).live &&
    ((cat.courseRun r).upgradeDeadline.all fun deadline => decide (now < deadline)) &&
    (cat.productIds.any fun p => (cat.product p).isActive &&
      (cat.product p).contentType == .courseRun && (cat.product p).objectId == r) &&
    (cat.courseRun r).verifiedMode

/-- `Basket.has_user_purchased_non_upgradable_courserun`: the loop returns at the first item. -/
def Basket.hasUserPurchasedNonUpgradableCourserun (cat : Catalog) (now : Instant) (basket : Basket) :
    Bool :=
  match basket.basketItems with
  | [] => false
  | item :: _ => (cat.product item.product).contentType == .courseRun &&
      !isUpgradable cat now (cat.product item.product).objectId

/-- The checks of the checkout in their order: the first that refuses, if one does. -/
def checkoutRefusal (cat : Catalog) (s : Store) (user : UserId) (basket : Basket)
    (req : CheckoutRequest) : Option CheckoutError :=
  if basket.hasUserBlockedProducts cat user = true then some .countryBlocked
  else if basket.hasUserPurchasedSameCourserun cat s user = true then some .purchasedSameCourserun
  else if basket.hasUserPurchasedNonUpgradableCourserun cat req.now = true then
    some .purchasedNonUpgradeableCourserun
  else if req.skipDiscountCheck = false ∧
      checkBasketDiscountsForValidity cat s req.now user basket = false then some .invalidDiscounts
  else if isDiscountSuppliedForB2bPurchase cat s req.now user basket
      (getActiveContractsFromBasketItems cat basket) = false then some .missingEnrollmentCode
  else if validateBasketForB2bPurchase cat s req.now user basket
      (getActiveContractsFromBasketItems cat basket) = false then some .invalidBasket
  else if basket.basketItems.length = 0 then some .basketEmpty
  else none

/-- Write the basket of a user. -/
def setBasket (user : UserId) (basket : Basket) (s : Store) : Store :=
  { s with baskets := fun user' => if user' = user then some basket else s.baskets user' }

/-- The basket of a user; `establish_basket` creates an empty one. -/
def Store.basketOf (s : Store) (user : UserId) : Basket := (s.baskets user).getD ⟨[], []⟩

/-- `apply_user_discounts` -/
def applyUserDiscounts (cat : Catalog) (s : Store) (now : Instant) (user : UserId)
    (userDiscount : Option DiscountId) (basket : Basket) : Basket :=
  let kept := basket.discounts.filter fun basketDiscount =>
    (cat.discount basketDiscount.redeemedDiscount).paymentType != some .financialAssistance
  if 0 < kept.length ∨ basket.basketItems.length = 0 then { basket with discounts := kept }
  else
    match userDiscount with
    | none => { basket with discounts := kept }
    | some d =>
      if checkValidityWithProducts cat now d basket.getProducts = true ∧
          checkValidity cat s now d user = true
      then { basket with discounts := kept ++ [⟨user, d⟩] } else { basket with discounts := kept }

/-- The sum of the discounted prices of lines. -/
def linesTotal (cat : Catalog) (discounts : List DiscountId) : List Line → Except Error ℚ
  | [] => .ok 0
  | l :: rest =>
    match l.discountedPrice cat discounts with
    | .error e => .error e
    | .ok price =>
      match linesTotal cat discounts rest with
      | .error e => .error e
      | .ok total => .ok (price + total)

/-- The total that a checkout charges for an order: over all of its lines. -/
def Order.linesTotal (cat : Catalog) (o : Order) : Except Error ℚ :=
  MitxOnline.linesTotal cat (o.discounts.map (·.redeemedDiscount)) o.lines.rows

/-- The zero-price path: the order is fulfilled in a transaction, and its receipt is queued after the
commit. -/
def fulfillFreeOrder (cat : Catalog) (req : CheckoutRequest) (o : OrderId) : Code :=
  andThen (atomic (fulfillCompletedOrder req.faults cat req.now o zeroPaymentData
      ⟨false, req.skipReceipt, false⟩ true))
    fun s =>
      if sendsReceipt cat (s.order o) ⟨false, req.skipReceipt, false⟩ = true
      then mayFail req.faults .email s else ⟨s, none⟩

/-- The checkout from the order on: the order is fulfilled if the total is zero, or a session is
started and, with Stripe, recorded. -/
def chargeOrder (cat : Catalog) (req : CheckoutRequest) (o : OrderId) (s : Store) :
    Store × Except Error CheckoutPayload :=
  match (s.order o).linesTotal cat with
  | .error e => (s, .error e)
  | .ok total =>
    if total = 0 then
      let out := fulfillFreeOrder cat req o s
      match out.error with
      | none => (out.state, .ok (.noCheckout o))
      | some e => (out.state, .error e)
    else
      match req.startPayment with
      | .error e => (s, .error e)
      | .ok session =>
        let payload := CheckoutPayload.payment
          ⟨o, total, (s.order o).discounts.map (·.redeemedDiscount)⟩
        if req.gatewayType = .stripe then
          let out := createTransaction req.faults o session "Initial CheckoutSession" s
          match out.error with
          | none => (out.state, .ok payload)
          | some e => (out.state, .error e)
        else (s, .ok payload)

/-- `generate_checkout_payload` -/
def generateCheckoutPayload (cat : Catalog) (user : UserId) (req : CheckoutRequest) (s : Store) :
    Store × Except Error CheckoutPayload :=
  let basket := s.basketOf user
  let s := setBasket user basket s
  match checkoutRefusal cat s user basket req with
  | some .invalidDiscounts =>
    (setBasket user (applyUserDiscounts cat s req.now user req.userDiscount
      { basket with discounts := [] }) s, .ok (.refused .invalidDiscounts))
  | some e => (s, .ok (.refused e))
  | none =>
    match createFromBasket cat s user basket req.gatewayType with
    | .error e => (s, .error e)
    | .ok (o, s) => chargeOrder cat req o s

end MitxOnline

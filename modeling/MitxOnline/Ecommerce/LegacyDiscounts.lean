import MitxOnline.Ecommerce.DiscountValidity
import MitxOnline.FlexiblePricing.Approval
import MitxOnline.Lib.Numerals

/-!
# Discount codes in the legacy checkout (`ecommerce/views/legacy`)

The view takes a discount code for the basket of the user who sends it. It runs outside a transaction, so
what it deleted before it raises stays deleted.
-/

namespace MitxOnline

inductive RedeemError where
  | doesNotExist
  | multipleObjectsReturned
  | finaid (e : FinaidError)
  deriving DecidableEq, Repr

/-- The response, or the exception that nobody handles. -/
inductive RedeemOutcome where
  /-- "Discount applied" -/
  | applied (code : String)
  /-- HTTP 406 -/
  | notAcceptable (message : String)
  /-- HTTP 404 -/
  | notFound (message : String)
  | raised (e : RedeemError)
  deriving DecidableEq, Repr

/-- `Product.purchasable_object` -/
def Product.purchasableObject (product : Product) : Courseware :=
  match product.contentType with
  | .courseRun => .courseRun product.objectId
  | .program => .program product.objectId

/-- What is written to the discounts of the basket of a user. -/
def Store.setDiscounts (s : Store) (user : UserId) (discounts : List BasketDiscount) : Store :=
  { s with baskets := fun user' =>
      if user' = user then (s.baskets user).map fun basket => { basket with discounts }
      else s.baskets user' }

/-- `BasketItem.objects.get` -/
def Basket.getItem (basket : Basket) : Except RedeemError BasketItem :=
  match basket.basketItems with
  | [] => .error .doesNotExist
  | [item] => .ok item
  | _ => .error .multipleObjectsReturned

/-- `request.data["discount"].strip` -/
def stripCode (code : String) : String := String.ofList (strip code.toList)

section Redeem

variable (cat : Catalog) (fin : Finaid) (codes : Table String) (now : Instant) (user : UserId)

/-- The discounts with a code, without those of financial assistance; `codes` are the codes of the rows. -/
def discountsWithCode (code : String) : List DiscountId :=
  codes.keys.filter fun d =>
    decide ((cat.discount d).paymentType ≠ some .financialAssistance) && codes.row d == code

/-- `Discount.objects.exclude(payment_type=…).get(discount_code=…)` -/
def getDiscount (code : String) : Except RedeemError DiscountId :=
  match discountsWithCode cat codes code with
  | [] => .error .doesNotExist
  | [d] => .ok d
  | _ => .error .multipleObjectsReturned

/-- The discount of the code, if it can be used. -/
def findDiscount (s : Store) (basket : Basket) (code : String) : Except RedeemError DiscountId :=
  match getDiscount cat codes code with
  | .error e => .error e
  | .ok discount =>
    if checkValidityWithProducts cat now discount basket.getProducts = false then .error .doesNotExist
    else if checkValidity cat s now discount user = false then .error .doesNotExist
    else .ok discount

/-- `determine_courseware_flexible_price_discount` of the product of an item. -/
def flexiblePriceDiscount (item : BasketItem) : Except FinaidError (Option DiscountId) :=
  determineCoursewareFlexiblePriceDiscount { fin with discount := cat.discount } now
    (some (cat.product item.product).purchasableObject) (some user)

/-- The better one of the discount of the code and that of the tier. -/
def chooseDiscount (item : BasketItem) (discount : DiscountId) : Except RedeemError DiscountId :=
  match flexiblePriceDiscount cat fin now user item with
  | .error e => .error (.finaid e)
  | .ok none => .ok discount
  | .ok (some flexiblePriceDiscount) =>
    let flexiblePrice := bestPrice cat [flexiblePriceDiscount] (cat.product item.product)
    let discountedPrice := bestPrice cat [discount] (cat.product item.product)
    if flexiblePrice < discountedPrice then .ok flexiblePriceDiscount else .ok discount

/-- `CheckoutApiViewSet.redeem_discount` -/
def redeemDiscount (code : String) (s : Store) : Store × RedeemOutcome :=
  match s.baskets user with
  | none => (s, .notAcceptable "No basket")
  | some basket =>
    match findDiscount cat codes now user s basket (stripCode code) with
    | .error .doesNotExist => (s, .notFound s!"Discount '{code}' not found.")
    | .error e => (s, .raised e)
    | .ok discount =>
      -- the discounts go before anything else is looked up
      let s := s.setDiscounts user []
      match basket.getItem with
      | .error e => (s, .raised e)
      | .ok item =>
        match chooseDiscount cat fin now user item discount with
        | .error e => (s, .raised e)
        | .ok discount => (s.setDiscounts user [⟨user, discount⟩], .applied (codes.row discount))

end Redeem

end MitxOnline

import MitxOnline.Ecommerce.Discounts

/-!
# Discount validity

The rule which discounts may be used is written three times in `ecommerce/models.py`: for a user
(`check_validity`), for a list of products (`check_validity_with_products`) and for a basket
(`is_valid`). Redemptions are counted over the orders of the database.
-/

namespace MitxOnline

/-- The redemptions that pass a test on the order and the redemption, over all orders. -/
def Store.redemptionCount (s : Store) (test : Order → DiscountRedemption → Bool) : ℕ :=
  (s.orders.keys.map fun o => (s.order o).discounts.countP (test (s.order o))).sum

/-- The number of redemptions of `d` in orders of any state (`order_redemptions.count`). -/
def Store.orderRedemptions (s : Store) (d : DiscountId) : ℕ :=
  s.redemptionCount fun _ r => r.redeemedDiscount == d

/-- The number of redemptions of `d` in fulfilled orders. -/
def Store.fulfilledRedemptions (s : Store) (d : DiscountId) : ℕ :=
  s.redemptionCount fun o r => o.state == .fulfilled && r.redeemedDiscount == d

/-- The number of redemptions of `d` by `user` in fulfilled orders. -/
def Store.fulfilledRedemptionsBy (s : Store) (d : DiscountId) (user : UserId) : ℕ :=
  s.redemptionCount fun o r =>
    o.state == .fulfilled && r.redeemedDiscount == d && r.redeemedBy == user

/-- `self.products.filter(product__in=products).exists()` -/
def Discount.hasProductIn (d : Discount) (products : List ProductId) : Bool :=
  d.products.any fun product => product.any fun p => decide (p ∈ products)

/-- `Discount.valid_now` -/
def Discount.validNow (d : Discount) (now : Instant) : Bool :=
  !(d.activationDate.any fun activation => decide (now < activation)) &&
    !(d.expirationDate.any fun expiration => decide (expiration ≤ now))

/-- `Discount.check_validity` -/
def checkValidity (cat : Catalog) (s : Store) (now : Instant) (d : DiscountId) (user : UserId) : Bool :=
  if (cat.discount d).redemptionType = .oneTime ∧ 0 < s.fulfilledRedemptions d then false
  else if (cat.discount d).redemptionType = .oneTimePerUser ∧
      0 < s.fulfilledRedemptionsBy d user then false
  else if 0 < (cat.discount d).maxRedemptions.getD 0 ∧
      (cat.discount d).maxRedemptions.getD 0 ≤ s.fulfilledRedemptions d then false
  else (cat.discount d).validNow now

/-- `Discount.check_validity_with_products` -/
def checkValidityWithProducts (cat : Catalog) (now : Instant) (d : DiscountId)
    (products : List ProductId) : Bool :=
  if (cat.discount d).products ≠ [] ∧ (cat.discount d).hasProductIn products = false then false
  else (cat.discount d).validNow now

/-- `check_basket_discounts_for_validity` -/
def checkBasketDiscountsForValidity (cat : Catalog) (s : Store) (now : Instant) (user : UserId)
    (basket : Basket) : Bool :=
  basket.discounts.all fun basketDiscount =>
    checkValidity cat s now basketDiscount.redeemedDiscount user &&
      checkValidityWithProducts cat now basketDiscount.redeemedDiscount basket.getProducts

/-- `_discount_product_in_basket` -/
def Discount.productInBasket (d : Discount) (basket : Basket) : Bool :=
  d.products.length == 0 || d.hasProductIn basket.getProducts

/-- `_discount_user_has_discount` -/
def Discount.userHasDiscount (d : Discount) (user : UserId) : Bool :=
  d.users.length == 0 || d.users.contains user

/-- `_discount_redemption_limit_valid`: comparing a count with an unset limit raises. -/
def redemptionLimitValid (cat : Catalog) (s : Store) (d : DiscountId) : Except Error Bool :=
  match (cat.discount d).maxRedemptions with
  | some 0 => .ok true
  | some maxRedemptions => .ok (decide (s.orderRedemptions d < maxRedemptions))
  | none => .error (.typeError "'<' not supported between instances of 'int' and 'NoneType'")

/-- `_discount_activation_date_valid` and `_discount_expiration_date_valid` -/
def Discount.datesValid (d : Discount) (now : Instant) : Bool :=
  (d.activationDate.all fun activation => decide (activation ≤ now)) &&
    (d.expirationDate.all fun expiration => decide (now ≤ expiration))

/-- The checks of `is_valid` that come before the redemption limit. -/
def Discount.suits (d : Discount) (allowFinaid : Bool) (user : UserId) (basket : Basket) : Bool :=
  (allowFinaid || d.paymentType != some .financialAssistance) &&
    d.productInBasket basket && d.userHasDiscount user

/-- `Discount.is_valid`, for the basket of `user`. -/
def isValid (cat : Catalog) (s : Store) (now : Instant) (d : DiscountId) (allowFinaid : Bool)
    (user : UserId) (basket : Basket) : Except Error Bool :=
  if (cat.discount d).suits allowFinaid user basket = true then
    match redemptionLimitValid cat s d with
    | .ok true => .ok ((cat.discount d).datesValid now)
    | .ok false => .ok false
    | .error e => .error e
  else .ok false

end MitxOnline

import MitxOnline.Ecommerce.DiscountValidity
import MitxOnline.FlexiblePricing.Approval

/-!
# Discounts that are applied to a basket (`apply_discount_to_basket`)

A basket holds one discount of its user. Another one replaces it by rules that depend on what the two are:
a discount that is assigned to the user, one of a financial assistance tier, or any other. The views apply
the discounts that apply automatically one after the other.
-/

namespace MitxOnline

open FixedPoint

/-- `BasketDiscount.objects.update_or_create` for the user of the basket. -/
def Basket.updateOrCreateDiscount (basket : Basket) (user : UserId) (d : DiscountId) : Basket :=
  { basket with
    discounts :=
      if (basket.discounts.any fun r => r.redeemedBy == user) = true then
        basket.discounts.map fun r => if r.redeemedBy = user then ⟨user, d⟩ else r
      else basket.discounts ++ [⟨user, d⟩] }

/-- `flexible_price_tiers.exists` of a discount. -/
def isTierDiscount (tiers : List FlexiblePriceTier) (d : DiscountId) : Bool :=
  tiers.any fun tier => tier.discount == d

/-- `user_discount_discount.filter(user=user).exists` of a discount. -/
def isUserDiscount (cat : Catalog) (user : UserId) (d : DiscountId) : Bool :=
  (cat.discount d).users.contains user

/-- `Discount.discount_product` -/
def discountProduct (cat : Catalog) (s : Store) (now : Instant) (user : UserId) (d : DiscountId)
    (p : ProductId) : Option ℚ :=
  if checkValidity cat s now d user = true then some (rounded 2 (bestPrice cat [d] (cat.product p)))
  else none

/-- `found_better`: a price that is zero or `None` is not compared. -/
def foundBetter (cat : Catalog) (s : Store) (now : Instant) (user : UserId) (basket : Basket)
    (d : DiscountId) : Bool :=
  basket.basketItems.any fun item =>
    (discountProduct cat s now user d item.product).any fun testPrice =>
      decide (testPrice ≠ 0) && decide (testPrice ≤ basket.itemDiscountedPrice cat item)

/-- `apply_discount_to_basket`, for the basket of `user`. -/
def applyDiscountToBasket (cat : Catalog) (tiers : List FlexiblePriceTier) (s : Store) (now : Instant)
    (user : UserId) (allowFinaid : Bool) (basket : Basket) (d : DiscountId) : Except Error Basket :=
  match isValid cat s now d allowFinaid user basket with
  | .error e => .error e
  | .ok false => .ok basket
  | .ok true =>
    if 0 < basket.discounts.length ∧ 0 < basket.basketItems.length then
      if isUserDiscount cat user d = true then
        if (basket.discounts.any fun r => isTierDiscount tiers r.redeemedDiscount) = true then .ok basket
        else .ok (basket.updateOrCreateDiscount user d)
      else
        let isFinaidDiscount := isTierDiscount tiers d
        let hasUserDiscount := basket.discounts.any fun r => isUserDiscount cat user r.redeemedDiscount
        if isFinaidDiscount = true ∧ allowFinaid = false then .ok basket
        else if hasUserDiscount = true ∧ isFinaidDiscount = true ∧ allowFinaid = true then
          .ok (basket.updateOrCreateDiscount user d)
        else if hasUserDiscount = true then .ok basket
        else if foundBetter cat s now user basket d = false then .ok basket
        else .ok (basket.updateOrCreateDiscount user d)
    else .ok (basket.updateOrCreateDiscount user d)

/-- The loop of the views over the discounts that apply automatically. -/
def applyDiscounts (cat : Catalog) (tiers : List FlexiblePriceTier) (s : Store) (now : Instant)
    (user : UserId) : Basket → List DiscountId → Except Error Basket
  | basket, [] => .ok basket
  | basket, d :: rest =>
    match applyDiscountToBasket cat tiers s now user true basket d with
    | .error e => .error e
    | .ok basket => applyDiscounts cat tiers s now user basket rest

end MitxOnline

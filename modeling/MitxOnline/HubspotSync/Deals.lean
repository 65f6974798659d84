import MitxOnline.Ecommerce.Discounts

/-!
# Deals (`hubspot_sync/serializers.py`)

HubSpot gets an order as a deal, with the amount that its discount takes off and the percentage that this is of
the price of the product. Both are computed from the columns of the discount and written with two digits.
-/

namespace MitxOnline

open FixedPoint

/-- What the methods of the serializer raise. -/
inductive DealError where
  | raised (e : Error)
  | attributeError (msg : String)
  /-- `decimal.DivisionByZero` -/
  | divisionByZero
  /-- `decimal.InvalidOperation`, for zero divided by zero. -/
  | invalidOperation
  deriving DecidableEq, Repr

/-- The division of decimals. Its 28 digits decide how the quotient of two columns is rounded to two. -/
def decimalDiv (a b : ℚ) : Except DealError ℚ :=
  if b = 0 then if a = 0 then .error .invalidOperation else .error .divisionByZero
  else .ok (a / b)

/-- `format_decimal`, as the number that is written. -/
def formatDecimal (amount : ℚ) : Decimal 2 := quantize 2 amount

/-- `OrderToDealSerializer._get_product` -/
def Order.dealProduct (cat : Catalog) (order : Order) : Except DealError (Option Product) :=
  match order.lines.rows.head? with
  | none => .ok none
  | some firstLine =>
    match resolveProductVersion cat firstLine.productVersion.objectId (some firstLine.productVersion) with
    | .ok product => .ok (some product)
    | .error e => .error (.raised e)

/-- `_get_product(instance).price` -/
def Order.dealProductPrice (cat : Catalog) (order : Order) : Except DealError ℚ :=
  match order.dealProduct cat with
  | .error e => .error e
  | .ok none => .error (.attributeError "'NoneType' object has no attribute 'price'")
  | .ok (some product) => .ok product.price.toRat

/-- `OrderToDealSerializer._get_discount` -/
def Order.dealDiscount (cat : Catalog) (order : Order) : Option Discount :=
  order.discounts.head?.map fun redemption => cat.discount redemption.redeemedDiscount

/-- `OrderToDealSerializer.get_discount_amount` -/
def Order.getDiscountAmount (cat : Catalog) (order : Order) : Except DealError (Decimal 2) :=
  match order.dealDiscount cat with
  | none => .ok ⟨0⟩
  | some discount =>
    match order.dealProductPrice cat with
    | .error e => .error e
    | .ok productPrice =>
      .ok <| formatDecimal <| match discount.discountType with
        | .percentOff => productPrice * (discount.amount.toRat / 100)
        | .dollarsOff => discount.amount.toRat
        | .fixedPrice => productPrice - discount.amount.toRat

/-- `OrderToDealSerializer.get_discount_percent` -/
def Order.getDiscountPercent (cat : Catalog) (order : Order) : Except DealError (Decimal 2) :=
  match order.dealDiscount cat with
  | none => .ok ⟨0⟩
  | some discount =>
    match order.dealProductPrice cat with
    | .error e => .error e
    | .ok productPrice =>
      match discount.discountType with
      | .percentOff => .ok (formatDecimal discount.amount.toRat)
      | .dollarsOff =>
        match decimalDiv discount.amount.toRat productPrice with
        | .error e => .error e
        | .ok part => .ok (formatDecimal (part * 100))
      | .fixedPrice =>
        if discount.amount.toRat = 0 ∨ productPrice = 0 then .ok (formatDecimal 100)
        else
          match decimalDiv (productPrice - discount.amount.toRat) productPrice with
          | .error e => .error e
          | .ok part => .ok (formatDecimal (part * 100))

end MitxOnline

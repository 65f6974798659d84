import MitxOnline.Ecommerce.Models

/-!
# Discounted prices (`ecommerce/discounts.py`)

The price of a product under a list of discounts is the smallest of its own price and the prices the
discounts give it one by one. Prices are exact rationals until they are quantized to cents.
-/

namespace MitxOnline

open FixedPoint

/-- `resolve_product_version`: the product as it was in the given version, or as it is now. -/
def resolveProductVersion (cat : Catalog) (p : ProductId) : Option Version → Except Error Product
  | none => .ok (cat.product p)
  | some productVersion =>
    match cat.versions p with
    | [] => .ok (cat.product p)
    | versions =>
      match versions.find? (fun testVersion => testVersion.id == productVersion.id) with
      | some testVersion => .ok testVersion.fieldDict
      | none => .error (.typeError "Invalid product version specified")

/-- `DiscountType.get_product_price` of the three kinds of discount. -/
def Discount.getProductPrice (d : Discount) (product : Product) : ℚ :=
  match d.discountType with
  | .percentOff =>
    rounded 2 (product.price.toRat - product.price.toRat * (d.amount.toRat / 100))
  | .dollarsOff =>
    if product.price.toRat < d.amount.toRat then 0 else product.price.toRat - d.amount.toRat
  | .fixedPrice => d.amount.toRat

/-- The loop of `DiscountType.get_discounted_price` over the discounts. -/
def bestPrice (cat : Catalog) (discounts : List DiscountId) (product : Product) : ℚ :=
  discounts.foldl (fun price d => min ((cat.discount d).getProductPrice product) price)
    product.price.toRat

/-- `DiscountType.get_discounted_price` -/
def getDiscountedPrice (cat : Catalog) (discounts : List DiscountId) (p : ProductId)
    (productVersion : Option Version) : Except Error ℚ :=
  match resolveProductVersion cat p productVersion with
  | .ok product => .ok (bestPrice cat discounts product)
  | .error e => .error e

/-- `BasketItem.discounted_price` -/
def Basket.itemDiscountedPrice (cat : Catalog) (b : Basket) (item : BasketItem) : ℚ :=
  rounded 2 (bestPrice cat (b.discounts.map (·.redeemedDiscount)) (cat.product item.product)) *
    item.quantity

/-- `BasketItem.base_price` -/
def BasketItem.basePrice (cat : Catalog) (item : BasketItem) : ℚ :=
  (cat.product item.product).price.toRat * item.quantity

/-- `BasketWithProductSerializer.get_total_price` -/
def Basket.getTotalPrice (cat : Catalog) (b : Basket) : ℚ :=
  (b.basketItems.map (·.basePrice cat)).sum

/-- `BasketWithProductSerializer.get_discounted_price` -/
def Basket.getDiscountedPrice (cat : Catalog) (b : Basket) : ℚ :=
  if b.discounts.length = 0 then b.getTotalPrice cat
  else (b.basketItems.map (b.itemDiscountedPrice cat)).sum

/-- The quantized price of one unit of a line, under the discounts of its order. -/
def Line.unitDiscountedPrice (cat : Catalog) (discounts : List DiscountId) (l : Line) :
    Except Error ℚ :=
  match MitxOnline.getDiscountedPrice cat discounts l.productVersion.objectId
      (some l.productVersion) with
  | .ok price => .ok (rounded 2 price)
  | .error e => .error e

/-- `Line.discounted_price` -/
def Line.discountedPrice (cat : Catalog) (discounts : List DiscountId) (l : Line) : Except Error ℚ :=
  match l.unitDiscountedPrice cat discounts with
  | .ok price => .ok (price * l.quantity)
  | .error e => .error e

end MitxOnline

import MitxOnline.Ecommerce.Discounts

/-!
# Pending orders (`PendingOrder._get_or_create`)

A checkout looks for a pending order of the same user and gateway that already has a line for one of
the requested products at its latest version. If there is one it is reused, after its discount
redemptions are deleted; otherwise an order is created. Every requested product then gets a line
unless the order has one, and the order's total is summed over the requested products. The whole is a
transaction, so it either returns an order or leaves the database as it was.
-/

namespace MitxOnline

open FixedPoint

/-- A line that purchases the given object. -/
def Line.purchases (contentType : ContentType) (objectId : ℕ) (l : Line) : Bool :=
  l.purchasedContentType == some contentType && l.purchasedObjectId == some objectId

/-- A line that purchases the object of product `p`. -/
def Line.isFor (cat : Catalog) (p : ProductId) (l : Line) : Bool :=
  l.purchases (cat.product p).contentType (cat.product p).objectId

/-- The line that is created for a product that has none. -/
def Line.new (cat : Catalog) (p : ProductId) (productVersion : Version) : Line where
  productVersion := productVersion
  quantity := 1
  purchasedContentType := some (cat.product p).contentType
  purchasedObjectId := some (cat.product p).objectId

theorem Line.samePurchase_new {cat : Catalog} {p : ProductId} {v : Version} {l : Line}
    (h : l.isFor cat p = false) : l.samePurchase (Line.new cat p v) = false := by
  unfold Line.isFor Line.purchases at h
  unfold Line.samePurchase Line.new
  grind

/-- `Line.objects.get_or_create` for product `p`. -/
def Lines.getOrCreate (cat : Catalog) (lines : Lines) (p : ProductId) (productVersion : Version) :
    Line × Lines :=
  match h : lines.rows.find? (Line.isFor cat p) with
  | some l => (l, lines)
  | none => (Line.new cat p productVersion,
      { rows := lines.rows ++ [Line.new cat p productVersion]
        unique_order_purchased_object := List.pairwise_append.mpr
          ⟨lines.unique_order_purchased_object, List.pairwise_singleton _ _, fun a ha b hb => by
            obtain rfl := List.mem_singleton.mp hb
            have hfor := List.find?_eq_none.mp h a ha
            exact Line.samePurchase_new (by simpa using hfor)⟩ })

/-- The latest version of every product: `Version.objects.get_for_object(product).first()`. -/
def productVersions (cat : Catalog) : List ProductId → Except Error (List Version)
  | [] => .ok []
  | p :: products =>
    match cat.versions p with
    | [] => .error (.valueError "Product is improperly constructed: no versions")
    | v :: _ =>
      match productVersions cat products with
      | .ok versions => .ok (v :: versions)
      | .error e => .error e

/-- The line joins of the query for a reusable order, all three on the same line. -/
def Line.matchesRequest (cat : Catalog) (products : List ProductId) (versions : List Version)
    (l : Line) : Bool :=
  products.any (fun p => l.purchasedObjectId == some (cat.product p).objectId) &&
    products.any (fun p => l.purchasedContentType == some (cat.product p).contentType) &&
    versions.any (fun v => v.id == l.productVersion.id)

/-- The query for a reusable order. -/
def Order.isReusable (cat : Catalog) (products : List ProductId) (versions : List Version)
    (user : UserId) (gatewayType : GatewayType) (o : Order) : Bool :=
  o.lines.rows.any (Line.matchesRequest cat products versions) && o.state == .pending &&
    o.purchaser == user && o.gatewayType == gatewayType

/-- The order that the checkout reuses: the first one the query finds. -/
def reusableOrder (cat : Catalog) (s : Store) (products : List ProductId) (versions : List Version)
    (user : UserId) (gatewayType : GatewayType) : Option OrderId :=
  s.orders.first fun _ o => o.isReusable cat products versions user gatewayType

/-- The row of `Order.objects.create`. -/
def Order.new (user : UserId) (gatewayType : GatewayType) : Order where
  state := .pending
  purchaser := user
  totalPricePaid := 0
  gatewayType := gatewayType
  lines := Lines.empty
  discounts := []
  transactions := []

/-- `order.discounts.create` for every discount that is given. -/
def redemptions (user : UserId) (discounts : List (Option DiscountId)) : List DiscountRedemption :=
  discounts.filterMap fun discount => discount.map fun d => ⟨user, d⟩

/-- The loop over the requested products: get or create the line, add its discounted price. -/
def addLines (cat : Catalog) (discounts : List DiscountId) :
    List (ProductId × Version) → Lines → ℚ → Except Error (Lines × ℚ)
  | [], lines, total => .ok (lines, total)
  | (p, v) :: rest, lines, total =>
    match (lines.getOrCreate cat p v).1.discountedPrice cat discounts with
    | .ok price => addLines cat discounts rest (lines.getOrCreate cat p v).2 (total + price)
    | .error e => .error e

/-- The rest of `_get_or_create`, from an order whose old redemptions are gone. -/
def Order.fill (cat : Catalog) (user : UserId) (discounts : List (Option DiscountId))
    (requested : List (ProductId × Version)) (o : Order) : Except Error Order :=
  match addLines cat ((redemptions user discounts).map (·.redeemedDiscount)) requested o.lines 0 with
  | .ok (lines, total) =>
    .ok { o with lines, totalPricePaid := total, discounts := redemptions user discounts }
  | .error e => .error e

/-- `PendingOrder._get_or_create` -/
def getOrCreate (cat : Catalog) (s : Store) (products : List ProductId) (user : UserId)
    (discounts : List (Option DiscountId)) (gatewayType : GatewayType) :
    Except Error (OrderId × Store) :=
  match productVersions cat products with
  | .error e => .error e
  | .ok versions =>
    match reusableOrder cat s products versions user gatewayType with
    | some o =>
      match (s.order o).fill cat user discounts (products.zip versions) with
      | .ok row => .ok (o, s.setOrder o row)
      | .error e => .error e
    | none =>
      match (Order.new user gatewayType).fill cat user discounts (products.zip versions) with
      | .ok row => .ok (s.orders.nextKey, { s with orders := s.orders.create row })
      | .error e => .error e

/-- `PendingOrder.create_from_basket` -/
def createFromBasket (cat : Catalog) (s : Store) (user : UserId) (basket : Basket)
    (gatewayType : GatewayType) : Except Error (OrderId × Store) :=
  getOrCreate cat s basket.getProducts user
    (basket.discounts.map fun basketDiscount => some basketDiscount.redeemedDiscount) gatewayType

/-- `PendingOrder.create_from_product` -/
def createFromProduct (cat : Catalog) (s : Store) (p : ProductId) (user : UserId)
    (discount : Option DiscountId) (gatewayType : GatewayType) : Except Error (OrderId × Store) :=
  getOrCreate cat s [p] user [discount] gatewayType

end MitxOnline

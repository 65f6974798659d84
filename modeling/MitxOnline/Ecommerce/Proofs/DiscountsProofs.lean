import Mathlib.Algebra.Order.Field.Rat
import Mathlib.Tactic.Ring
import MitxOnline.Ecommerce.DiscountValidity
import MitxOnline.Ecommerce.Proofs.PendingOrderProofs
import MitxOnline.Lib.FixedPoint
import MitxOnline.Lib.Proofs.FoldsProofs

/-!
# Prices of baskets and of orders

The best price is a minimum, so a discount leaves a price as it is exactly when something else is as
good. A basket is priced at the current rows of its products and by its quantities, an order at the
latest versions and one unit each.
-/

namespace MitxOnline

open FixedPoint Folds

variable {cat : Catalog} {s s' : Store} {ds : List DiscountId} {d : DiscountId} {product : Product}
  {basket : Basket} {user : UserId} {gatewayType : GatewayType} {o : OrderId}

/-! ## The best price is a minimum -/

theorem le_bestPrice_iff (cat : Catalog) (ds : List DiscountId) (product : Product) (x : ℚ) :
    x ≤ bestPrice cat ds product ↔
    x ≤ product.price.toRat ∧ ∀ e ∈ ds, x ≤ (cat.discount e).getProductPrice product := by
  unfold bestPrice
  exact le_foldl_min_iff (fun e => (cat.discount e).getProductPrice product) ds _ x

/-- The best price is the price of the product or what one of the discounts gives. -/
theorem bestPrice_cases (cat : Catalog) (ds : List DiscountId) (product : Product) :
    bestPrice cat ds product = product.price.toRat ∨
      ∃ e ∈ ds, bestPrice cat ds product = (cat.discount e).getProductPrice product := by
  unfold bestPrice
  exact foldl_min_cases (fun e => (cat.discount e).getProductPrice product) ds _

/-- A discount takes part in the best price through its own price only. -/
theorem bestPrice_eq_min (hd : d ∈ ds) : bestPrice cat ds product =
    min ((cat.discount d).getProductPrice product) (bestPrice cat (ds.filter (· != d)) product) := by
  apply eq_of_forall_le_iff
  intro x
  rw [le_min_iff, le_bestPrice_iff, le_bestPrice_iff]
  constructor
  · rintro ⟨hp, hds⟩
    refine ⟨hds d hd, hp, fun e he => ?_⟩
    exact hds e (List.mem_of_mem_filter he)
  · rintro ⟨hxd, hp, hds⟩
    refine ⟨hp, fun e he => ?_⟩
    by_cases hed : e = d
    · rw [hed]
      exact hxd
    · have hmem : e ∈ ds.filter (· != d) := List.mem_filter.mpr ⟨he, by simpa using hed⟩
      exact hds e hmem

/-- To the cent, discount `d` prices the product no lower than its own price does, or than another
of the discounts. -/
def Matched (cat : Catalog) (ds : List DiscountId) (d : DiscountId) (product : Product) : Prop :=
  product.price.toRat ≤ rounded 2 ((cat.discount d).getProductPrice product) ∨
    ∃ e ∈ ds, e ≠ d ∧ rounded 2 ((cat.discount e).getProductPrice product) ≤
      rounded 2 ((cat.discount d).getProductPrice product)

theorem rounded_bestPrice_le_iff (cat : Catalog) (ds : List DiscountId) (d : DiscountId)
    (product : Product) :
    rounded 2 (bestPrice cat (ds.filter (· != d)) product) ≤
      rounded 2 ((cat.discount d).getProductPrice product) ↔ Matched cat ds d product := by
  constructor
  · intro h
    rcases bestPrice_cases cat (ds.filter (· != d)) product with hbest | ⟨e, he, hbest⟩
    · rw [hbest, rounded_toRat] at h
      exact Or.inl h
    · rw [hbest] at h
      obtain ⟨heds, hne⟩ := List.mem_filter.mp he
      exact Or.inr ⟨e, heds, by simpa using hne, h⟩
  · obtain ⟨hp, hds⟩ := (le_bestPrice_iff cat (ds.filter (· != d)) product _).mp le_rfl
    rintro (h | ⟨e, he, hne, h⟩)
    · have hle := rounded_mono (p := 2) hp
      rw [rounded_toRat] at hle
      exact hle.trans h
    · have hmem : e ∈ ds.filter (· != d) := List.mem_filter.mpr ⟨he, by simpa using hne⟩
      have hle := rounded_mono (p := 2) (hds e hmem)
      exact hle.trans h

/-- The rounded price is the same without discount `d` exactly when `d` is matched. -/
theorem rounded_bestPrice_eq_iff (hd : d ∈ ds) :
    rounded 2 (bestPrice cat ds product) = rounded 2 (bestPrice cat (ds.filter (· != d)) product) ↔
      Matched cat ds d product := by
  rw [bestPrice_eq_min hd, rounded_min, min_eq_right_iff, rounded_bestPrice_le_iff]

/-! ## Discounts for some products -/

/-- The basket without a discount. -/
def Basket.without (b : Basket) (d : DiscountId) : Basket :=
  { b with discounts := b.discounts.filter fun basketDiscount => basketDiscount.redeemedDiscount != d }

theorem without_discountIds (basket : Basket) (d : DiscountId) :
    (basket.without d).discountIds = basket.discountIds.filter (· != d) := by
  simp [Basket.without, Basket.discountIds, List.filter_map, Function.comp_def]

/-- Items and lines of products that `d` is not for have the price they have without `d`. -/
structure ReducesOnlyItsProducts (cat : Catalog) (basket : Basket) (d : DiscountId) (row : Order) :
    Prop where
  items : ∀ item ∈ basket.basketItems, some item.product ∉ (cat.discount d).products →
    basket.itemDiscountedPrice cat item = (basket.without d).itemDiscountedPrice cat item
  lines : ∀ l ∈ row.lines.rows, some l.productVersion.objectId ∉ (cat.discount d).products →
    l.discountedPrice cat row.discountIds = l.discountedPrice cat (row.discountIds.filter (· != d))

/-- Wherever `d` meets a product that it is not for, it is matched or there is nothing to pay for:
in the basket, on the lines of the order that is reused, and on the lines that are created. -/
structure MatchedElsewhere (cat : Catalog) (s : Store) (user : UserId) (basket : Basket)
    (gatewayType : GatewayType) (d : DiscountId) : Prop where
  items : ∀ item ∈ basket.basketItems, some item.product ∉ (cat.discount d).products →
    item.quantity = 0 ∨ Matched cat basket.discountIds d (cat.product item.product)
  reused : ∀ l ∈ (startingOrder cat s basket.getProducts user gatewayType).lines.rows,
    some l.productVersion.objectId ∉ (cat.discount d).products → l.quantity = 0 ∨
      ∀ product, resolveProductVersion cat l.productVersion.objectId (some l.productVersion) =
        .ok product → Matched cat basket.discountIds d product
  created : ∀ p ∈ basket.getProducts, some p ∉ (cat.discount d).products →
    (∀ l ∈ (startingOrder cat s basket.getProducts user gatewayType).lines.rows,
      l.isFor cat p = false) →
    ∀ v, (cat.versions p).head? = some v → Matched cat basket.discountIds d v.fieldDict

theorem item_price_eq_iff (hd : d ∈ basket.discountIds) (item : BasketItem) :
    basket.itemDiscountedPrice cat item = (basket.without d).itemDiscountedPrice cat item ↔
      item.quantity = 0 ∨ Matched cat basket.discountIds d (cat.product item.product) := by
  have hother : (basket.without d).itemDiscountedPrice cat item = rounded 2 (bestPrice cat
      (basket.discountIds.filter (· != d)) (cat.product item.product)) * item.quantity := by
    rw [← without_discountIds]
    rfl
  rw [hother, Basket.itemDiscountedPrice, mul_eq_mul_right_iff, Nat.cast_eq_zero, or_comm]
  exact or_congr_right (rounded_bestPrice_eq_iff hd)

theorem discountedPrice_of_resolve {l : Line}
    (h : resolveProductVersion cat l.productVersion.objectId (some l.productVersion) = .ok product)
    (ds : List DiscountId) :
    l.discountedPrice cat ds = .ok (rounded 2 (bestPrice cat ds product) * l.quantity) := by
  simp [Line.discountedPrice, Line.unitDiscountedPrice, MitxOnline.getDiscountedPrice, h]

theorem discountedPrice_of_resolve_error {l : Line} {e : Error}
    (h : resolveProductVersion cat l.productVersion.objectId (some l.productVersion) = .error e)
    (ds : List DiscountId) : l.discountedPrice cat ds = .error e := by
  simp [Line.discountedPrice, Line.unitDiscountedPrice, MitxOnline.getDiscountedPrice, h]

theorem line_price_eq_iff (hd : d ∈ ds) (l : Line) :
    l.discountedPrice cat ds = l.discountedPrice cat (ds.filter (· != d)) ↔
      l.quantity = 0 ∨ ∀ product, resolveProductVersion cat l.productVersion.objectId
        (some l.productVersion) = .ok product → Matched cat ds d product := by
  cases h : resolveProductVersion cat l.productVersion.objectId (some l.productVersion) with
  | error e => simp [discountedPrice_of_resolve_error h]
  | ok product =>
    rw [discountedPrice_of_resolve h, discountedPrice_of_resolve h, Except.ok.injEq,
      mul_eq_mul_right_iff, Nat.cast_eq_zero, or_comm]
    refine or_congr_right ((rounded_bestPrice_eq_iff hd).trans ?_)
    constructor
    · rintro hm product' heq
      cases heq
      exact hm
    · exact fun hm => hm product rfl

/-- The latest version of a product resolves to what it stores. -/
theorem resolve_head {p : ProductId} {v : Version} (h : (cat.versions p).head? = some v) :
    resolveProductVersion cat v.objectId (some v) = .ok v.fieldDict := by
  cases hvs : cat.versions p with
  | nil => simp [hvs] at h
  | cons w ws =>
    obtain rfl : w = v := by simpa [hvs] using h
    have hobj : w.objectId = p := cat.versions_objectId p w (by simp [hvs])
    unfold resolveProductVersion
    simp [hobj, hvs]

theorem objectId_of_head {p : ProductId} {v : Version} (h : (cat.versions p).head? = some v) :
    v.objectId = p :=
  cat.versions_objectId p v (List.mem_of_mem_head? h)

/-- The lines of the order are those it starts with and new ones for products that had none. -/
theorem CheckedOut.mem_rows {products : List ProductId}
    (h : CheckedOut cat s s' products user ds gatewayType o) (l : Line) :
    l ∈ (s'.order o).lines.rows ↔
      l ∈ (startingOrder cat s products user gatewayType).lines.rows ∨
        ∃ p ∈ products, (∀ l ∈ (startingOrder cat s products user gatewayType).lines.rows,
          l.isFor cat p = false) ∧ ∃ v, (cat.versions p).head? = some v ∧ l = Line.new cat p v := by
  rw [h.filled.rows]
  constructor
  · rintro (hl | ⟨⟨p, v⟩, hr, rfl⟩)
    · exact Or.inl hl
    · by_cases hfor : ∃ l ∈ (startingOrder cat s products user gatewayType).lines.rows,
          l.isFor cat p = true
      · obtain ⟨l, hl, hlp⟩ := hfor
        rw [Lines.lineFor_of_mem hl hlp]
        exact Or.inl hl
      · have hnone : ∀ l ∈ (startingOrder cat s products user gatewayType).lines.rows,
            l.isFor cat p = false := by
          intro l hl
          by_contra hlp
          exact hfor ⟨l, hl, by simpa using hlp⟩
        rw [Lines.lineFor_of_none hnone]
        exact Or.inr ⟨p, mem_of_requested hr, hnone, v, requested_head hr, rfl⟩
  · rintro (hl | ⟨p, hp, hnone, v, hv, rfl⟩)
    · exact Or.inl hl
    · rw [← h.requests] at hp
      obtain ⟨⟨p', w⟩, hr, rfl⟩ := List.mem_map.mp hp
      have hw := requested_head hr
      obtain rfl : w = v := Option.some.inj (hw.symm.trans hv)
      exact Or.inr ⟨_, hr, (Lines.lineFor_of_none hnone w).symm⟩

theorem basket_reduceOption (basket : Basket) :
    (basket.discounts.map fun basketDiscount => some basketDiscount.redeemedDiscount).reduceOption =
      basket.discountIds := by
  unfold Basket.discountIds
  induction basket.discounts with
  | nil => rfl
  | cons bd bds ih => rw [List.map_cons, List.reduceOption_cons_of_some, ih, List.map_cons]

theorem createFromBasket_spec (h : createFromBasket cat s user basket gatewayType = .ok (o, s')) :
    CheckedOut cat s s' basket.getProducts user basket.discountIds gatewayType o := by
  have := getOrCreate_spec h
  rwa [basket_reduceOption] at this

/-- For a discount of the basket and the order built from it: the discount reduces only its own
products exactly when it is matched wherever it meets another one. -/
theorem reducesOnlyItsProducts_iff (hd : d ∈ basket.discountIds)
    (hbuilt : createFromBasket cat s user basket gatewayType = .ok (o, s')) :
    ReducesOnlyItsProducts cat basket d (s'.order o) ↔
      MatchedElsewhere cat s user basket gatewayType d := by
  have hout := createFromBasket_spec hbuilt
  have hids : (s'.order o).discountIds = basket.discountIds := hout.filled.discounts_ids
  constructor
  · rintro ⟨hitems, hlines⟩
    rw [hids] at hlines
    constructor
    · intro item hitem hcov
      exact (item_price_eq_iff hd item).mp (hitems item hitem hcov)
    · intro l hl hcov
      have hrow : l ∈ (s'.order o).lines.rows := (hout.mem_rows l).mpr (Or.inl hl)
      exact (line_price_eq_iff hd l).mp (hlines l hrow hcov)
    · intro p hp hcov hnone v hv
      have hl := (hout.mem_rows (Line.new cat p v)).mpr (Or.inr ⟨p, hp, hnone, v, hv, rfl⟩)
      have hobj := objectId_of_head hv
      have hprice := hlines _ hl (by simpa [Line.new, hobj] using hcov)
      rcases (line_price_eq_iff hd _).mp hprice with hq | hm
      · simp [Line.new] at hq
      · exact hm _ (resolve_head hv)
  · rintro ⟨hitems, hreused, hcreated⟩
    constructor
    · intro item hitem hcov
      exact (item_price_eq_iff hd item).mpr (hitems item hitem hcov)
    · intro l hl hcov
      rw [hids]
      rcases (hout.mem_rows l).mp hl with hl | ⟨p, hp, hnone, v, hv, rfl⟩
      · exact (line_price_eq_iff hd l).mpr (hreused l hl hcov)
      · have hobj := objectId_of_head hv
        have hm := hcreated p hp (by simpa [Line.new, hobj] using hcov) hnone v hv
        refine (line_price_eq_iff hd _).mpr (Or.inr fun product hproduct => ?_)
        obtain rfl : v.fieldDict = product := Except.ok.inj ((resolve_head hv).symm.trans hproduct)
        exact hm

/-- A discount of fifty dollars for product 1 only. -/
def discountForProductOne : Discount :=
  ⟨⟨5000000⟩, .dollarsOff, .unlimited, none, some 0, none, none, [some 1], []⟩

/-- The products cost a hundred dollars each. -/
def discountedCatalog : Catalog :=
  { Catalog.ofPrices (fun _ => ⟨10000⟩) with discount := fun _ => discountForProductOne }

/-- A basket with products 1 and 2 and the discount. -/
def discountedBasket : Basket := ⟨[⟨1, 1⟩, ⟨2, 1⟩], [⟨1, 7⟩]⟩

/-- The checks let the discount stay in the basket, and it takes fifty dollars off product 2. -/
theorem discount_reduces_other_products :
    ¬∀ (cat : Catalog) (s s' : Store) (now : Instant) (user : UserId) (basket : Basket)
      (gatewayType : GatewayType) (d : DiscountId) (o : OrderId),
      d ∈ basket.discountIds → (cat.discount d).products ≠ [] →
      isValid cat s now d false user basket = .ok true →
      checkBasketDiscountsForValidity cat s now user basket = true →
      createFromBasket cat s user basket gatewayType = .ok (o, s') →
      ReducesOnlyItsProducts cat basket d (s'.order o) := by
  intro h
  obtain ⟨o, s', hbuilt⟩ : ∃ o s', createFromBasket discountedCatalog Store.empty 1
      discountedBasket .stripe = .ok (o, s') := ⟨_, _, rfl⟩
  have hitems := (h discountedCatalog Store.empty s' 0 1 discountedBasket .stripe 7 o (by decide)
    (by decide) (by decide) (by decide) hbuilt).items ⟨2, 1⟩ (by decide) (by decide)
  exact absurd hitems (by decide +kernel)

theorem reducesOnlyItsProducts_iff_example : ∃ o s',
    createFromBasket discountedCatalog Store.empty 1 discountedBasket .stripe = .ok (o, s') ∧
      (ReducesOnlyItsProducts discountedCatalog discountedBasket 7 (s'.order o) ↔
        MatchedElsewhere discountedCatalog Store.empty 1 discountedBasket .stripe 7) := by
  obtain ⟨o, s', hbuilt⟩ : ∃ o s', createFromBasket discountedCatalog Store.empty 1
      discountedBasket .stripe = .ok (o, s') := ⟨_, _, rfl⟩
  exact ⟨o, s', hbuilt, reducesOnlyItsProducts_iff (by decide) hbuilt⟩

/-! ## The total of a basket and of its order -/

/-- The rounded price of product `p` at its current row. -/
def currentUnitPrice (cat : Catalog) (ds : List DiscountId) (p : ProductId) : ℚ :=
  rounded 2 (bestPrice cat ds (cat.product p))

/-- The rounded price of product `p` at its latest version. -/
def latestUnitPrice (cat : Catalog) (ds : List DiscountId) (p : ProductId) : ℚ :=
  match (cat.versions p).head? with
  | some v => rounded 2 (bestPrice cat ds v.fieldDict)
  | none => 0

/-- The units of the items beyond the first one of each cost as much as the latest versions of the
products cost more than the current rows. -/
def ExtraUnitsMakeUpForDrift (cat : Catalog) (basket : Basket) : Prop :=
  (basket.basketItems.map fun item =>
      ((item.quantity : ℚ) - 1) * currentUnitPrice cat basket.discountIds item.product).sum =
    (basket.basketItems.map fun item => latestUnitPrice cat basket.discountIds item.product -
      currentUnitPrice cat basket.discountIds item.product).sum

theorem basket_total_eq (cat : Catalog) (basket : Basket) :
    basket.getDiscountedPrice cat = (basket.basketItems.map fun item =>
      item.quantity * currentUnitPrice cat basket.discountIds item.product).sum := by
  unfold Basket.getDiscountedPrice
  split
  · -- without discounts the serializer shows the total price
    rename_i hlen
    have hnil : basket.discountIds = [] := by
      simp [Basket.discountIds, List.length_eq_zero_iff.mp hlen]
    unfold Basket.getTotalPrice
    congr 1
    apply List.map_congr_left
    intro item _
    rw [hnil]
    simp [BasketItem.basePrice, currentUnitPrice, bestPrice, mul_comm]
  · congr 1
    apply List.map_congr_left
    intro item _
    rw [mul_comm]
    rfl

theorem order_total_eq (hbuilt : createFromBasket cat s user basket gatewayType = .ok (o, s'))
    (hnew : reusedOrder cat s basket.getProducts user gatewayType = none) :
    (s'.order o).totalPricePaid = (basket.basketItems.map fun item =>
      latestUnitPrice cat basket.discountIds item.product).sum := by
  have hout := createFromBasket_spec hbuilt
  have hlines : (startingOrder cat s basket.getProducts user gatewayType).lines.rows = [] := by
    simp [startingOrder, hnew, Order.new]
  have hprice : ∀ r ∈ requested cat basket.getProducts,
      ((startingOrder cat s basket.getProducts user gatewayType).lines.lineFor cat r.1 r.2).price cat
        basket.discountIds = latestUnitPrice cat basket.discountIds r.1 := by
    rintro ⟨p, v⟩ hr
    have hv := requested_head hr
    rw [Lines.lineFor_of_none (by simp [hlines])]
    have hresolve := resolve_head hv
    rw [price_of_ok (discountedPrice_of_resolve (l := Line.new cat p v) hresolve _)]
    simp [latestUnitPrice, hv, Line.new]
  rw [hout.filled.total, List.map_congr_left hprice]
  have hmap : (requested cat basket.getProducts).map
      (fun r => latestUnitPrice cat basket.discountIds r.1) =
      basket.getProducts.map (latestUnitPrice cat basket.discountIds) := by
    conv_rhs => rw [← hout.requests, List.map_map]
    rfl
  rw [hmap, Basket.getProducts, List.map_map]
  rfl

/-- Where the latest versions have the prices of the current rows and no price is negative, extra
units make up for nothing: every item is bought once or costs nothing. -/
theorem extraUnits_iff_of_no_drift
    (hdrift : ∀ item ∈ basket.basketItems, latestUnitPrice cat basket.discountIds item.product =
      currentUnitPrice cat basket.discountIds item.product)
    (hpos : ∀ item ∈ basket.basketItems,
      1 ≤ item.quantity ∧ 0 ≤ currentUnitPrice cat basket.discountIds item.product) :
    ExtraUnitsMakeUpForDrift cat basket ↔ ∀ item ∈ basket.basketItems,
      item.quantity = 1 ∨ currentUnitPrice cat basket.discountIds item.product = 0 := by
  have hzero : (basket.basketItems.map fun item => latestUnitPrice cat basket.discountIds item.product -
      currentUnitPrice cat basket.discountIds item.product).sum = 0 := by
    apply List.sum_eq_zero
    intro x hx
    obtain ⟨item, hitem, rfl⟩ := List.mem_map.mp hx
    exact sub_eq_zero.mpr (hdrift item hitem)
  have hextra : ∀ item ∈ basket.basketItems,
      0 ≤ ((item.quantity : ℚ) - 1) * currentUnitPrice cat basket.discountIds item.product := by
    intro item hitem
    obtain ⟨hq, hprice⟩ := hpos item hitem
    have hq' : (1 : ℚ) ≤ item.quantity := by exact_mod_cast hq
    exact mul_nonneg (by linarith) hprice
  unfold ExtraUnitsMakeUpForDrift
  rw [hzero, sum_map_eq_zero_iff hextra]
  refine forall₂_congr fun item _ => ?_
  rw [mul_eq_zero, sub_eq_zero, Nat.cast_eq_one]

/-- The total that is shown is the total of the order exactly when the extra units make up for the
drift of the prices. Where there is no drift, this is so exactly when every item is bought once or costs
nothing. -/
theorem basket_total_eq_order_total_iff
    (hbuilt : createFromBasket cat s user basket gatewayType = .ok (o, s'))
    (hnew : reusedOrder cat s basket.getProducts user gatewayType = none) :
    (basket.getDiscountedPrice cat = (s'.order o).totalPricePaid ↔ ExtraUnitsMakeUpForDrift cat basket) ∧
      ((∀ item ∈ basket.basketItems, latestUnitPrice cat basket.discountIds item.product =
          currentUnitPrice cat basket.discountIds item.product) →
        (∀ item ∈ basket.basketItems,
          1 ≤ item.quantity ∧ 0 ≤ currentUnitPrice cat basket.discountIds item.product) →
        (basket.getDiscountedPrice cat = (s'.order o).totalPricePaid ↔ ∀ item ∈ basket.basketItems,
          item.quantity = 1 ∨ currentUnitPrice cat basket.discountIds item.product = 0)) := by
  have htotals : basket.getDiscountedPrice cat = (s'.order o).totalPricePaid ↔
      ExtraUnitsMakeUpForDrift cat basket := by
    rw [basket_total_eq, order_total_eq hbuilt hnew]
    have hextra : (basket.basketItems.map fun item =>
        ((item.quantity : ℚ) - 1) * currentUnitPrice cat basket.discountIds item.product) =
        basket.basketItems.map fun item =>
          item.quantity * currentUnitPrice cat basket.discountIds item.product -
            currentUnitPrice cat basket.discountIds item.product := by
      apply List.map_congr_left
      intro item _
      ring
    unfold ExtraUnitsMakeUpForDrift
    rw [hextra, sum_map_sub, sum_map_sub, sub_left_inj]
  exact ⟨htotals, fun hdrift hpos => htotals.trans (extraUnits_iff_of_no_drift hdrift hpos)⟩

/-- Product 1 at a hundred dollars, twice. -/
def doubleBasket : Basket := ⟨[⟨1, 2⟩], []⟩

/-- The basket shows two hundred dollars, the order comes to one hundred. -/
theorem basket_total_ne_order_total :
    ¬∀ (cat : Catalog) (s s' : Store) (user : UserId) (basket : Basket) (gatewayType : GatewayType)
      (o : OrderId), (∀ item ∈ basket.basketItems, 1 ≤ item.quantity) →
      createFromBasket cat s user basket gatewayType = .ok (o, s') →
      reusedOrder cat s basket.getProducts user gatewayType = none →
      basket.getDiscountedPrice cat = (s'.order o).totalPricePaid := by
  intro h
  have := h discountedCatalog Store.empty _ 1 doubleBasket .stripe _ (by decide) rfl (by decide)
  exact absurd this (by decide +kernel)

theorem basket_total_eq_order_total_iff_example : ∃ o s',
    createFromBasket discountedCatalog Store.empty 1 doubleBasket .stripe = .ok (o, s') ∧
      (doubleBasket.getDiscountedPrice discountedCatalog = (s'.order o).totalPricePaid ↔
        ExtraUnitsMakeUpForDrift discountedCatalog doubleBasket) ∧
      (doubleBasket.getDiscountedPrice discountedCatalog = (s'.order o).totalPricePaid ↔
        ∀ item ∈ doubleBasket.basketItems, item.quantity = 1 ∨
          currentUnitPrice discountedCatalog doubleBasket.discountIds item.product = 0) := by
  obtain ⟨o, s', hbuilt⟩ : ∃ o s', createFromBasket discountedCatalog Store.empty 1 doubleBasket
      .stripe = .ok (o, s') := ⟨_, _, rfl⟩
  obtain ⟨htotals, hplain⟩ := basket_total_eq_order_total_iff hbuilt (by decide)
  exact ⟨o, s', hbuilt, htotals, hplain (by decide +kernel) (by decide +kernel)⟩

end MitxOnline

import MitxOnline.B2b.Proofs.RunSeatsProofs
import MitxOnline.Ecommerce.DuplicateRedemptions

/-!
# A member of a free contract gets in

Where nothing fails, a learner of a contract without a price who asks for one of its runs leaves with a
fulfilled order and a verified enrollment, whichever code there was or had to be made.
-/

namespace MitxOnline

open Autocommit FixedPoint

variable {cat : ContractCatalog} {req : B2bRequest} {user : UserId} {p : ProductId} {r : RunId}
  {c : ContractId} {db db1 : SeatStore} {s : Store} {o : OrderId} {d : DiscountId} {now : Instant}

/-- The code takes everything off and can be used now, as often as its type says. -/
structure IsFreeCode (now : Instant) (row : Discount) : Prop where
  discountType : row.discountType = .fixedPrice
  amount : row.amount.toRat = 0
  maxRedemptions : row.maxRedemptions.getD 0 = 0
  validNow : row.validNow now = true

/-- Nothing stands in the way of a request: nothing fails, the run can be upgraded and is not blocked for
the learner, who has not bought it or begun to, and the codes of the product are free. -/
structure ReadyToEnroll (cat : ContractCatalog) (req : B2bRequest) (user : UserId) (p : ProductId)
    (r : RunId) (c : ContractId) (db : SeatStore) : Prop where
  basketFaults : req.basketFaults = fun _ => none
  faults : req.faults = Faults.none
  validated : Validated cat db.store req.now user p r c
  free : (cat.contract c).isFree = true
  country : cat.country user ∉ cat.blockedCountries (cat.courseRun r).course
  upgradable : isUpgradable cat.toCatalog req.now r = true
  notPaid : ∀ row ∈ db.store.paidCourseRuns, row.user = user → row.courseRun ≠ r
  notBegun : ∀ o ∈ db.store.orders.keys, (db.store.order o).state = .pending →
    (db.store.order o).purchaser = user →
      ∀ l ∈ (db.store.order o).lines.rows, l.purchases .courseRun r = false
  price : 0 ≤ (cat.product p).price.toRat
  version : ∃ v, (cat.versions p).head? = some v ∧ 0 ≤ v.fieldDict.price.toRat
  codes : ∀ d, availableCode db p = some d → IsFreeCode req.now (db.discounts.row d)

/-! ## The basket -/

theorem validate_of_validated (h : Validated cat s now user p r c) :
    validateB2bEnrollmentPrerequisites cat s now (some user) p = .ok none := by
  unfold validateB2bEnrollmentPrerequisites
  rw [h.contentType]
  dsimp only
  rw [h.objectId, h.contract]
  dsimp only
  have hmember : inUserContracts cat.toCatalog s now user c = true :=
    inUserContracts_iff.mpr ⟨h.member, h.active⟩
  rw [if_neg (by rw [h.enrollable]; simp), if_neg (by rw [h.active]; simp),
    if_neg (by rw [hmember]; simp), if_neg (by rw [h.notVerified]; simp)]

theorem b2bStatement_of_noFaults (h : req.basketFaults = fun _ => none) (point : BasketPoint)
    (g : SeatStore → SeatStore) (db : SeatStore) : req.statement point g db = ⟨g db, none⟩ := by
  unfold B2bRequest.statement
  rw [h]

theorem prepareBasket_noFaults (h : req.basketFaults = fun _ => none) (db : SeatStore) :
    (prepareBasket req user p db).error = none ∧
      (prepareBasket req user p db).state.discounts = db.discounts ∧
      (prepareBasket req user p db).state.isBulk = db.isBulk ∧
      (prepareBasket req user p db).state.productDiscounts = db.productDiscounts := by
  unfold prepareBasket
  simp only [seq_cons, seq_nil, andThen, b2bStatement_of_noFaults h, skip_apply, true_and]
  exact ⟨rfl, rfl, rfl⟩

theorem availableCode_congr (hdiscounts : db1.discounts = db.discounts) (hbulk : db1.isBulk = db.isBulk)
    (hrows : db1.productDiscounts = db.productDiscounts)
    (horders : db1.store.orders = db.store.orders) : availableCode db1 p = availableCode db p := by
  have hsame : isApplicable db1 = isApplicable db := by
    funext d
    unfold isApplicable
    rw [hdiscounts, hbulk, orderRedemptions_of_orders horders]
  unfold availableCode
  rw [hsame, hrows]

/-- A new code of a contract without a price takes everything off. -/
theorem isFreeCode_newCode {page : ContractPage} (h : page.isFree = true)
    (redemptionType : RedemptionType) (products : List (Option ProductId)) :
    IsFreeCode now { CodeStore.newCode 0 page.codeAmount redemptionType with products } := by
  refine ⟨rfl, ?_, rfl, rfl⟩
  show page.codeAmount.toRat = 0
  unfold ContractPage.codeAmount
  cases hprice : page.enrollmentFixedPrice with
  | none => simp [Decimal.toRat]
  | some price =>
    have hunits : price.units = 0 := by
      unfold ContractPage.isFree at h
      rw [hprice] at h
      simpa using h
    simp [Decimal.toRat, hunits]

/-- What the basket has when it gets to the checkout. -/
structure FreeBasket (now : Instant) (user : UserId) (p : ProductId) (d : DiscountId) (db1 : SeatStore) :
    Prop where
  has : HasCode user p d db1
  free : IsFreeCode now (db1.discounts.row d)
  product : some p ∈ (db1.discounts.row d).products
  unused : (db1.discounts.row d).redemptionType = .unlimited ∨ db1.store.orderRedemptions d = 0

theorem createCodeFor_free {page : ContractPage} (hfaults : req.basketFaults = fun _ => none)
    (hfree : page.isFree = true) (hbasket : db.store.basketOf user = ⟨[⟨p, 1⟩], []⟩)
    (hunused : db.store.orderRedemptions db.discounts.nextKey = 0) :
    (createCodeFor req user p page db).error = none ∧
      FreeBasket now user p db.discounts.nextKey (createCodeFor req user p page db).state := by
  have hmem := db.nextKey_mem_saveDiscount page.codeAmount page.codeRedemptionType
  let coded := (db.saveDiscount page.codeAmount page.codeRedemptionType).saveDiscountProduct
    db.discounts.nextKey p hmem
  have hcode : createCodeFor req user p page db =
      addBasketDiscount req user db.discounts.nextKey coded := by
    unfold createCodeFor
    rw [hfaults]
  have hrow : coded.discounts.row db.discounts.nextKey =
      { CodeStore.newCode 0 page.codeAmount page.codeRedemptionType with products := [some p] } := by
    have hsaved : (db.saveDiscount page.codeAmount page.codeRedemptionType).discounts.row
        db.discounts.nextKey =
          { CodeStore.newCode 0 page.codeAmount page.codeRedemptionType with products := [] } :=
      Table.create_row_self _ _
    have hset : coded.discounts.row db.discounts.nextKey =
        { (db.saveDiscount page.codeAmount page.codeRedemptionType).discounts.row db.discounts.nextKey with
          products := ((db.saveDiscount page.codeAmount page.codeRedemptionType).discounts.row
            db.discounts.nextKey).products ++ [some p] } := Table.set_row_self _ _ _
    rw [hset, hsaved]
    rfl
  have hok : (addBasketDiscount req user db.discounts.nextKey coded).error = none := by
    unfold addBasketDiscount
    rw [b2bStatement_of_noFaults hfaults]
  have hadds : Prepares user coded (addBasketDiscount req user db.discounts.nextKey coded).state :=
    addBasketDiscount_prepares coded
  rw [hcode]
  refine ⟨hok, addBasketDiscount_ok hbasket hok, ?_, ?_, Or.inr ?_⟩
  · rw [hadds.rows _ hmem, hrow]
    exact isFreeCode_newCode hfree _ _
  · rw [hadds.rows _ hmem, hrow]
    exact List.mem_singleton_self _
  · rw [hadds.orderRedemptions]
    exact hunused

theorem productContractPage_of_validated (h : Validated cat s now user p r c) :
    productContractPage cat p = some (cat.contract c) := by
  unfold productContractPage productContract
  rw [h.contentType, h.objectId]
  dsimp only
  rw [h.contract]
  rfl

theorem fillBasket_free (hready : ReadyToEnroll cat req user p r c db) (hknown : RedemptionsKnown db) :
    (fillBasket cat req user p db).error = none ∧
      ∃ d, FreeBasket req.now user p d (fillBasket cat req user p db).state := by
  have hfaults := hready.basketFaults
  obtain ⟨herror, hdiscounts, hbulk, hrows⟩ := prepareBasket_noFaults (p := p) hfaults db
  have hprepares : Prepares user db (prepareBasket req user p db).state := prepareBasket_prepares db
  have hbasket := prepareBasket_ok herror
  unfold fillBasket
  rw [andThen_of_ok herror]
  generalize (prepareBasket req user p db).state = db1 at hdiscounts hbulk hrows hprepares hbasket ⊢
  have hcodes := availableCode_congr (p := p) hdiscounts hbulk hrows hprepares.orders
  unfold applyAvailableDiscount
  cases hcode : availableCode db1 p with
  | some d =>
    have hfree := hready.codes d (hcodes ▸ hcode)
    have hkey := (db1.productDiscounts_iff p d).mp (List.mem_of_find?_eq_some hcode)
    have happlicable := List.find?_some hcode
    simp only [isApplicable, Bool.and_eq_true, Bool.or_eq_true, beq_iff_eq] at happlicable
    have hadd : addBasketDiscount req user d db1 = ⟨_, none⟩ := b2bStatement_of_noFaults hfaults _ _ db1
    have hadds : Prepares user db1 (addBasketDiscount req user d db1).state := addBasketDiscount_prepares db1
    have hok : (addBasketDiscount req user d db1).error = none := by rw [hadd]
    refine ⟨hok, d, addBasketDiscount_ok hbasket hok, ?_, ?_, ?_⟩
    · rw [hadds.rows d hkey.1, hdiscounts]
      exact hfree
    · rw [hadds.rows d hkey.1]
      exact hkey.2
    · rw [hadds.rows d hkey.1, hadds.orderRedemptions]
      exact happlicable.2.symm
  | none =>
    have hnew : db1.store.orderRedemptions db1.discounts.nextKey = 0 := by
      rw [hprepares.orderRedemptions, hdiscounts]
      exact orderRedemptions_eq_zero hknown db.discounts.nextKey_not_mem
    dsimp only
    rw [productContractPage_of_validated hready.validated]
    have hcreated : (createCodeFor req user p (cat.contract c) db1).error = none ∧ FreeBasket req.now user
        p db1.discounts.nextKey (createCodeFor req user p (cat.contract c) db1).state :=
      createCodeFor_free hfaults hready.free hbasket hnew
    exact ⟨hcreated.1, _, hcreated.2⟩

/-! ## The checkout -/

variable {catalog : Catalog} {checkout : CheckoutRequest}

theorem bestPrice_of_free (hfree : IsFreeCode now (catalog.discount d)) {product : Product}
    (hprice : 0 ≤ product.price.toRat) : bestPrice catalog [d] product = 0 := by
  have hfixed : (catalog.discount d).getProductPrice product = 0 := by
    unfold Discount.getProductPrice
    rw [hfree.discountType]
    exact hfree.amount
  show min ((catalog.discount d).getProductPrice product) product.price.toRat = 0
  rw [hfixed, min_eq_left hprice]

theorem rounded_zero : rounded 2 0 = 0 := by
  have h := rounded_toRat (⟨0⟩ : Decimal 2)
  simpa [Decimal.toRat] using h

theorem itemsTotal_of_free (hfree : IsFreeCode now (catalog.discount d))
    (hprice : 0 ≤ (catalog.product p).price.toRat) :
    Basket.itemsTotal catalog ⟨[⟨p, 1⟩], [⟨user, d⟩]⟩ = 0 := by
  show rounded 2 (bestPrice catalog [d] (catalog.product p)) * ((1 : ℕ) : ℚ) + 0 = 0
  rw [bestPrice_of_free hfree hprice, rounded_zero]
  simp

theorem checkValidity_of_free (hfree : IsFreeCode now (catalog.discount d))
    (hunused : (catalog.discount d).redemptionType = .unlimited ∨ s.orderRedemptions d = 0) :
    checkValidity catalog s now d user = true := by
  have hone : ¬((catalog.discount d).redemptionType = .oneTime ∧ 0 < s.fulfilledRedemptions d) := by
    rintro ⟨htype, hpos⟩
    have hle := fulfilledRedemptions_le s d
    rcases hunused with hunlimited | hzero
    · rw [htype] at hunlimited
      cases hunlimited
    · omega
  have hper : ¬((catalog.discount d).redemptionType = .oneTimePerUser ∧
      0 < s.fulfilledRedemptionsBy d user) := by
    rintro ⟨htype, hpos⟩
    have hle := fulfilledRedemptions_le s d
    have hby := fulfilledRedemptionsBy_le s d user
    rcases hunused with hunlimited | hzero
    · rw [htype] at hunlimited
      cases hunlimited
    · omega
  unfold checkValidity
  rw [if_neg hone, if_neg hper, if_neg (by rw [hfree.maxRedemptions]; omega)]
  exact hfree.validNow

/-- A free code for the product is valid in the basket. -/
theorem checkBasketDiscounts_of_free (hfree : IsFreeCode now (catalog.discount d))
    (hproduct : some p ∈ (catalog.discount d).products)
    (hunused : (catalog.discount d).redemptionType = .unlimited ∨ s.orderRedemptions d = 0) :
    checkBasketDiscountsForValidity catalog s now user ⟨[⟨p, 1⟩], [⟨user, d⟩]⟩ = true := by
  have hin : (catalog.discount d).hasProductIn [p] = true := by
    unfold Discount.hasProductIn
    exact List.any_eq_true.mpr ⟨some p, hproduct, by simp⟩
  have hproducts : checkValidityWithProducts catalog now d [p] = true := by
    unfold checkValidityWithProducts
    rw [if_neg (by rw [hin]; simp)]
    exact hfree.validNow
  simp [checkBasketDiscountsForValidity, checkValidity_of_free hfree hunused, Basket.getProducts, hproducts]

/-- The checks for contracts find nothing missing in a member's basket for a run of a free contract that
is active. -/
theorem contractChecks_of_free (htype : (catalog.product p).contentType = .courseRun)
    (hid : (catalog.product p).objectId = r) (hcontract : (catalog.courseRun r).b2bContract = some c)
    (hmember : inUserContracts catalog s now user c = true)
    (hisFree : (catalog.contract c).isFree = true) :
    isDiscountSuppliedForB2bPurchase catalog s now user ⟨[⟨p, 1⟩], [⟨user, d⟩]⟩
        (getActiveContractsFromBasketItems catalog ⟨[⟨p, 1⟩], [⟨user, d⟩]⟩) = true ∧
      validateBasketForB2bPurchase catalog s now user ⟨[⟨p, 1⟩], [⟨user, d⟩]⟩
        (getActiveContractsFromBasketItems catalog ⟨[⟨p, 1⟩], [⟨user, d⟩]⟩) = true := by
  have hactive : ∀ c' ∈ getActiveContractsFromBasketItems catalog ⟨[⟨p, 1⟩], [⟨user, d⟩]⟩, c' = c := by
    intro c' hc'
    have hhas := (Bool.and_eq_true_iff.mp (List.mem_filter.mp hc').2).1
    simp only [Basket.hasContract, Basket.getProducts, List.map_cons, List.map_nil, List.any_cons,
      List.any_nil, Bool.or_false, beq_iff_eq, productContract, htype, hid, hcontract] at hhas
    exact (Option.some.inj hhas).symm
  have hremaining : remainingFreeContracts catalog s now user
      (getActiveContractsFromBasketItems catalog ⟨[⟨p, 1⟩], [⟨user, d⟩]⟩) = [] := by
    rw [remainingFreeContracts, List.filter_eq_nil_iff]
    intro c' hc'
    simp [hactive c' hc', hmember]
  have hnonfree : nonfreeContracts catalog
      (getActiveContractsFromBasketItems catalog ⟨[⟨p, 1⟩], [⟨user, d⟩]⟩) = [] := by
    rw [nonfreeContracts, List.filter_eq_nil_iff]
    intro c' hc'
    simp [hactive c' hc', hisFree]
  constructor
  · unfold isDiscountSuppliedForB2bPurchase
    simp [hremaining, hnonfree]
  · unfold validateBasketForB2bPurchase
    simp [hremaining, hnonfree]

/-- No check of the checkout refuses the basket. -/
theorem checkoutRefusal_of_free (htype : (catalog.product p).contentType = .courseRun)
    (hid : (catalog.product p).objectId = r)
    (hcountry : catalog.country user ∉ catalog.blockedCountries (catalog.courseRun r).course)
    (hupgradable : isUpgradable catalog checkout.now r = true)
    (hnotPaid : ∀ row ∈ s.paidCourseRuns, row.user = user → row.courseRun ≠ r)
    (hcontract : (catalog.courseRun r).b2bContract = some c)
    (hmember : inUserContracts catalog s checkout.now user c = true)
    (hisFree : (catalog.contract c).isFree = true)
    (hfree : IsFreeCode checkout.now (catalog.discount d))
    (hproduct : some p ∈ (catalog.discount d).products)
    (hunused : (catalog.discount d).redemptionType = .unlimited ∨ s.orderRedemptions d = 0) :
    checkoutRefusal catalog s user ⟨[⟨p, 1⟩], [⟨user, d⟩]⟩ checkout = none := by
  have hruns : Basket.courseRuns catalog ⟨[⟨p, 1⟩], [⟨user, d⟩]⟩ = [r] := by
    simp [Basket.courseRuns, Basket.getProducts, htype, hid]
  have hblocked : Basket.hasUserBlockedProducts catalog ⟨[⟨p, 1⟩], [⟨user, d⟩]⟩ user = false := by
    simp [Basket.hasUserBlockedProducts, hruns, hcountry]
  have hbought : Basket.hasUserPurchasedSameCourserun catalog s ⟨[⟨p, 1⟩], [⟨user, d⟩]⟩ user = false := by
    simp only [Basket.hasUserPurchasedSameCourserun, hruns, List.any_cons, List.any_nil, Bool.or_false,
      fulfilledPaidCourseRunExists, List.any_eq_false, Bool.and_eq_true, beq_iff_eq, not_and]
    intro row hrow hboth
    exact absurd hboth.2 (hnotPaid row hrow hboth.1)
  have hupgrade : Basket.hasUserPurchasedNonUpgradableCourserun catalog checkout.now
      ⟨[⟨p, 1⟩], [⟨user, d⟩]⟩ = false := by
    simp [Basket.hasUserPurchasedNonUpgradableCourserun, htype, hid, hupgradable]
  have hvalid : checkBasketDiscountsForValidity catalog s checkout.now user ⟨[⟨p, 1⟩], [⟨user, d⟩]⟩ =
      true := checkBasketDiscounts_of_free hfree hproduct hunused
  obtain ⟨hsupplied, hvalidated⟩ :=
    contractChecks_of_free (d := d) htype hid hcontract hmember hisFree
  unfold checkoutRefusal
  simp [hblocked, hbought, hupgrade, hvalid, hsupplied, hvalidated]

/-- The row of an order for one product that is free by a discount. -/
def freeOrder (catalog : Catalog) (user : UserId) (gatewayType : GatewayType) (p : ProductId) (v : Version)
    (d : DiscountId) : Order :=
  { Order.new user gatewayType with
    lines := ⟨[Line.new catalog p v], List.pairwise_singleton _ _⟩
    discounts := [⟨user, d⟩] }

/-- The database with a new order. -/
def Store.withNewOrder (s : Store) (row : Order) : Store := { s with orders := s.orders.create row }

/-- A learner who has begun no order for the run has none to reuse. -/
theorem reusableOrder_of_notBegun {v : Version} (htype : (catalog.product p).contentType = .courseRun)
    (hid : (catalog.product p).objectId = r)
    (hnotBegun : ∀ o ∈ s.orders.keys, (s.order o).state = .pending → (s.order o).purchaser = user →
      ∀ l ∈ (s.order o).lines.rows, l.purchases .courseRun r = false)
    (hversions : productVersions catalog [p] = .ok [v]) (gatewayType : GatewayType) :
    reusableOrder catalog s [p] [v] user gatewayType = none := by
  cases hreused : reusableOrder catalog s [p] [v] user gatewayType with
  | none => rfl
  | some o =>
    have hreusedOrder : reusedOrder catalog s [p] user gatewayType = some o := by
      unfold reusedOrder
      rw [hversions]
      exact hreused
    obtain ⟨hkey, hpending, hpurchaser, -⟩ := reusedOrder_spec hreusedOrder
    obtain ⟨l, hl, hfor⟩ := exists_isFor_of_reused hreusedOrder
    rw [Line.isFor, htype, hid, hnotBegun o hkey hpending hpurchaser l hl] at hfor
    cases hfor

theorem newLine_discountedPrice_of_free {v : Version} (hversion : (catalog.versions p).head? = some v)
    (hprice : 0 ≤ v.fieldDict.price.toRat) (hfree : IsFreeCode now (catalog.discount d)) :
    (Line.new catalog p v).discountedPrice catalog [d] = .ok 0 := by
  have hline : (Line.new catalog p v).discountedPrice catalog [d] =
      .ok (rounded 2 (bestPrice catalog [d] v.fieldDict) * ((1 : ℕ) : ℚ)) :=
    discountedPrice_of_resolve (resolve_head hversion) [d]
  rw [hline, bestPrice_of_free hfree hprice, rounded_zero, zero_mul]

/-- A new order for the product gets one line and the discount. -/
theorem fill_of_free {v : Version} (hprices : (Line.new catalog p v).discountedPrice catalog [d] = .ok 0)
    (gatewayType : GatewayType) :
    (Order.new user gatewayType).fill catalog user [some d] [(p, v)] =
      .ok (freeOrder catalog user gatewayType p v d) := by
  have hlines : addLines catalog [d] [(p, v)] Lines.empty 0 =
      .ok (⟨[Line.new catalog p v], List.pairwise_singleton _ _⟩, 0 + 0) := by
    have hgot : Lines.empty.getOrCreate catalog p v = (Line.new catalog p v,
        ⟨[Line.new catalog p v], List.pairwise_singleton _ _⟩) := rfl
    unfold addLines
    rw [hgot]
    dsimp only
    rw [hprices]
    rfl
  have hnew : (Order.new user gatewayType).lines = Lines.empty := rfl
  have hids : (redemptions user [some d]).map (·.redeemedDiscount) = [d] := rfl
  unfold Order.fill
  rw [hnew, hids, hlines, add_zero]
  rfl

/-- The order that is made of the basket when the learner has none for the run. -/
theorem createFromBasket_of_free (catalog : Catalog) (gatewayType : GatewayType) {v : Version}
    (htype : (catalog.product p).contentType = .courseRun) (hid : (catalog.product p).objectId = r)
    (hnotBegun : ∀ o ∈ s.orders.keys, (s.order o).state = .pending → (s.order o).purchaser = user →
      ∀ l ∈ (s.order o).lines.rows, l.purchases .courseRun r = false)
    (hversion : (catalog.versions p).head? = some v) (hprice : 0 ≤ v.fieldDict.price.toRat)
    (hfree : IsFreeCode now (catalog.discount d)) :
    createFromBasket catalog s user ⟨[⟨p, 1⟩], [⟨user, d⟩]⟩ gatewayType = .ok (s.orders.nextKey,
        s.withNewOrder (freeOrder catalog user gatewayType p v d)) ∧
      (freeOrder catalog user gatewayType p v d).linesTotal catalog = .ok 0 := by
  have hversions : productVersions catalog [p] = .ok [v] := by
    unfold productVersions
    obtain ⟨rest, hrest⟩ := List.head?_eq_some_iff.mp hversion
    rw [hrest]
    rfl
  have hprices := newLine_discountedPrice_of_free hversion hprice hfree
  constructor
  · have hgets : getOrCreate catalog s [p] user [some d] gatewayType = .ok (s.orders.nextKey,
        { s with orders := s.orders.create (freeOrder catalog user gatewayType p v d) }) := by
      have hzip : [p].zip [v] = [(p, v)] := rfl
      unfold getOrCreate
      rw [hversions]
      dsimp only
      rw [reusableOrder_of_notBegun htype hid hnotBegun hversions gatewayType, hzip]
      dsimp only
      rw [fill_of_free hprices]
    exact hgets
  · show linesTotal catalog [d] [Line.new catalog p v] = _
    unfold linesTotal linesTotal
    rw [hprices]
    simp

/-- Without failures, a free order that is not paid for is fulfilled. -/
theorem chargeOrder_noCheckout (hfaults : checkout.faults = Faults.none)
    (hpending : (s.order o).state = .pending) (hfree : IsFree catalog s o) :
    (chargeOrder catalog checkout o s).2 = .ok (.noCheckout o) ∧
      ((chargeOrder catalog checkout o s).1.order o).state = .fulfilled := by
  have hful : (fulfill Faults.none catalog checkout.now o zeroPaymentData checkout.freeOptions true s).error =
      none := fulfill_of_linesNotPaid hpending hfree.lines
  have herror : (fulfillCompletedOrder checkout.faults catalog checkout.now o zeroPaymentData
      ⟨false, checkout.skipReceipt, false⟩ true s).error = none := by
    rw [hfaults]
    exact (fulfillCompletedOrder_noFaults catalog checkout.now o checkout.freeOptions s).1.trans hful
  have hdone := (fulfilled_of_error_none (seq_cons_error herror).1).kept
    (fulfillCompletedOrder_orders ⟨false, checkout.skipReceipt, false⟩ true s)
  have hatomic : atomic (fulfillCompletedOrder checkout.faults catalog checkout.now o zeroPaymentData
      ⟨false, checkout.skipReceipt, false⟩ true) s = ⟨_, none⟩ := atomic_of_ok herror
  have hout : fulfillFreeOrder catalog checkout o s = ⟨(fulfillCompletedOrder checkout.faults catalog
      checkout.now o zeroPaymentData ⟨false, checkout.skipReceipt, false⟩ true s).state, none⟩ := by
    unfold fulfillFreeOrder
    rw [andThen_of_ok (by rw [hatomic]), hatomic, hfaults]
    dsimp only
    split <;> rfl
  unfold chargeOrder
  rw [hfree.total]
  dsimp only
  rw [if_pos rfl, hout]
  exact ⟨rfl, hdone.fulfilled⟩

/-! ## The request -/

/-- What the checkout of a free basket leaves: a new fulfilled order, and the run as verified. -/
structure BoughtRun (user : UserId) (r : RunId) (s s' : Store) (o : OrderId) : Prop where
  new : o ∉ s.orders.keys
  fulfilled : (s'.order o).state = .fulfilled
  purchaser : (s'.order o).purchaser = user
  verified : s'.activeMode user r = some .verified
  others : ∀ r' ≠ r, s'.activeMode user r' = s.activeMode user r'

/-- The order of a free basket before it is charged: a pending order of the user for the run. -/
structure FreeOrderForRun (catalog : Catalog) (user : UserId) (r : RunId) (checkout : CheckoutRequest)
    (s : Store) (o : OrderId) (t : Store) : Prop where
  makes : MakesFreeOrder catalog user checkout s o t
  forRun : OrderForRun user r o t
  line : ∃ l, l ∈ (t.order o).lines.rows

/-- Without failures, the checkout of a free basket fulfills its order, and the run is verified. -/
theorem FreeOrderForRun.boughtRun {t : Store} (h : FreeOrderForRun catalog user r checkout s o t)
    (hfaults : checkout.faults = Faults.none) (hnew : o ∉ s.orders.keys) :
    (generateCheckoutPayload catalog user checkout s).2 = .ok (.noCheckout o) ∧
      BoughtRun user r s (generateCheckoutPayload catalog user checkout s).1 o := by
  have hpending : (t.order o).state = .pending := (createFromBasket_spec h.makes.made).pending.1
  have hout : generateCheckoutPayload catalog user checkout s = chargeOrder catalog checkout o t := by
    unfold generateCheckoutPayload
    dsimp only
    rw [h.makes.refusal, h.makes.made]
  have hgrants := generateCheckoutPayload_of_free hfaults h.makes
  obtain ⟨hresult, hfulfilled⟩ := chargeOrder_noCheckout hfaults hpending h.makes.free
  have hcharged : OrderForRun user r o (chargeOrder catalog checkout o t).1 :=
    (chargeOrder_enrollsFor t h.forRun).2
  refine ⟨?_, hnew, ?_, ?_, ?_, fun r' hne => ?_⟩
  · rw [hout]
    exact hresult
  · rw [hout]
    exact hfulfilled
  · rw [hout]
    exact hcharged.purchaser
  · obtain ⟨l, hl⟩ := h.line
    exact hgrants.granted r ⟨l, hl, Or.inl (h.forRun.lines l hl)⟩
  · refine hgrants.others r' fun l hl hg => ?_
    rcases hg with hrun | ⟨program, hprogram, -⟩
    · exact hne (purchases_inj hrun (h.forRun.lines l hl)).2
    · cases (purchases_inj hprogram (h.forRun.lines l hl)).1

theorem withNewOrder_order (s : Store) (row : Order) :
    (s.withNewOrder row).order s.orders.nextKey = row := Table.create_row_self _ _

/-- The order that is made of a free basket is for the run of its product. -/
theorem withNewOrder_forRun {v : Version} (htype : (catalog.product p).contentType = .courseRun)
    (hid : (catalog.product p).objectId = r) (gatewayType : GatewayType) :
    OrderForRun user r s.orders.nextKey (s.withNewOrder (freeOrder catalog user gatewayType p v d)) := by
  have horder := withNewOrder_order s (freeOrder catalog user gatewayType p v d)
  refine ⟨?_, fun l hl => ?_⟩
  · rw [horder]
    rfl
  · rw [horder] at hl
    obtain rfl := List.mem_singleton.mp hl
    have hnew : (Line.new catalog p v).isFor catalog p = true := isFor_new p v
    unfold Line.isFor at hnew
    change Line.purchases (catalog.product p).contentType (catalog.product p).objectId _ = true at hnew
    rwa [htype, hid] at hnew

/-- The lines of an order for a run that the user has not bought are not paid for. -/
theorem OrderForRun.linesNotPaid (h : OrderForRun user r o s)
    (hnotPaid : ∀ row ∈ s.paidCourseRuns, row.user = user → row.courseRun ≠ r) : LinesNotPaid s o := by
  intro l hl
  rw [h.purchaser]
  constructor
  · intro run hrun hmem
    obtain ⟨-, rfl⟩ := purchases_inj hrun (h.lines l hl)
    exact hnotPaid _ hmem rfl rfl
  · intro program hprogram
    cases (purchases_inj hprogram (h.lines l hl)).1

/-- The basket that was filled for a learner with nothing in the way makes a free order. -/
theorem freeOrderForRun_of_ready {p : ProductId} (hready : ReadyToEnroll cat req user p r c db)
    (hprepares : Prepares user db db1) (hbasket : FreeBasket req.now user p d db1) :
    ∃ t, FreeOrderForRun (cat.withDiscounts db1) user r req.checkout db1.store db1.store.orders.nextKey t := by
  have hvalid := hready.validated
  obtain ⟨v, hversion, hprice⟩ := hready.version
  have hrest := hprepares.rest
  have hpaid : db1.store.paidCourseRuns = db.store.paidCourseRuns := by rw [← hrest]
  have hmembers : db1.store.contractUsers = db.store.contractUsers := by rw [← hrest]
  have hnotPaid : ∀ row ∈ db1.store.paidCourseRuns, row.user = user → row.courseRun ≠ r := by
    rw [hpaid]
    exact hready.notPaid
  let s0 := setBasket user ⟨[⟨p, 1⟩], [⟨user, d⟩]⟩ db1.store
  have hrefusal : checkoutRefusal (cat.withDiscounts db1) s0 user ⟨[⟨p, 1⟩], [⟨user, d⟩]⟩ req.checkout =
      none := by
    refine checkoutRefusal_of_free hvalid.contentType hvalid.objectId hready.country hready.upgradable
      hnotPaid hvalid.contract ?_ hready.free hbasket.free hbasket.product hbasket.unused
    refine inUserContracts_iff.mpr ⟨?_, hvalid.active⟩
    show user ∈ db1.store.contractUsers c
    rw [hmembers]
    exact hvalid.member
  have hnotBegun : ∀ o ∈ s0.orders.keys, (s0.order o).state = .pending → (s0.order o).purchaser = user →
      ∀ l ∈ (s0.order o).lines.rows, l.purchases .courseRun r = false := by
    have horders : s0.orders = db.store.orders := hprepares.orders
    intro o ho
    rw [horders] at ho
    rw [order_of_ordersKept horders]
    exact hready.notBegun o ho
  obtain ⟨hmade, htotal⟩ := createFromBasket_of_free (cat.withDiscounts db1) req.gatewayType
    hvalid.contentType hvalid.objectId hnotBegun hversion hprice hbasket.free
  let row := freeOrder (cat.withDiscounts db1) user req.gatewayType p v d
  have horder : (s0.withNewOrder row).order db1.store.orders.nextKey = row := withNewOrder_order s0 row
  have hforRun : OrderForRun user r db1.store.orders.nextKey (s0.withNewOrder row) :=
    withNewOrder_forRun (s := s0) hvalid.contentType hvalid.objectId req.gatewayType
  refine ⟨s0.withNewOrder row, ⟨?_, ?_, ?_, hforRun.linesNotPaid hnotPaid⟩, hforRun, ?_⟩
  · rw [hbasket.has]
    exact hrefusal
  · rw [hbasket.has]
    exact hmade
  · rw [horder]
    exact htotal
  · rw [horder]
    exact ⟨_, List.mem_singleton_self _⟩

theorem generateCheckoutPayload_of_ready {p : ProductId} (hready : ReadyToEnroll cat req user p r c db)
    (hprepares : Prepares user db db1) (hbasket : FreeBasket req.now user p d db1) :
    ∃ o, (generateCheckoutPayload (cat.withDiscounts db1) user req.checkout db1.store).2 =
        .ok (.noCheckout o) ∧
      BoughtRun user r db.store
        (generateCheckoutPayload (cat.withDiscounts db1) user req.checkout db1.store).1 o := by
  have hfaults : req.checkout.faults = Faults.none := hready.faults
  obtain ⟨t, ht⟩ := freeOrderForRun_of_ready hready hprepares hbasket
  obtain ⟨hresult, hbought⟩ := ht.boughtRun hfaults db1.store.orders.nextKey_not_mem
  have hmodes : ∀ r', db1.store.activeMode user r' = db.store.activeMode user r' :=
    activeMode_of_enrollments hprepares.enrollments
  refine ⟨db1.store.orders.nextKey, hresult, ?_, hbought.fulfilled, hbought.purchaser, hbought.verified,
    fun r' hne => (hbought.others r' hne).trans (hmodes r')⟩
  rw [← hprepares.orders]
  exact hbought.new

theorem createProgramEnrollments_ok (f : Faults) (programs : List ProgramId) (mode : EnrollmentMode)
    (s : Store) : (createProgramEnrollments f user programs mode s).error = none := by
  refine seq_error (fun a ha t => ?_) s
  obtain ⟨q, -, rfl⟩ := List.mem_map.mp ha
  unfold recordProgramEnrollment
  split <;> rfl

/-- Without failures, a learner who is enrolled in a program has the mode that was asked for. -/
theorem createProgramEnrollments_mode (q : ProgramId) (mode : EnrollmentMode) (s : Store) :
    ∃ e, (createProgramEnrollments Faults.none user [q] mode s).state.programEnrollments user q = some e ∧
      e.enrollmentMode = mode := by
  unfold createProgramEnrollments
  rw [List.map_singleton, seq_singleton]
  unfold recordProgramEnrollment
  cases hrow : s.programEnrollments user q with
  | none => exact ⟨⟨true, none, mode⟩, by simp [attempt, fallible, Faults.none, update,
      setProgramEnrollment], rfl⟩
  | some e =>
    dsimp only
    split
    · exact ⟨{ e with active := true, changeStatus := none, enrollmentMode := mode }, by
        simp [attempt, seq_cons, andThen, fallible, Faults.none, update, setProgramEnrollment], rfl⟩
    · exact ⟨{ e with enrollmentMode := mode }, by
        simp [attempt, seq_cons, andThen, fallible, Faults.none, update, setProgramEnrollment], rfl⟩

/-- What a request of a member comes to: the run is bought, and where the request names a program of the
contract, the learner is verified in it. -/
structure MemberEnrolled (cat : ContractCatalog) (req : B2bRequest) (user : UserId) (r : RunId)
    (c : ContractId) (s s' : Store) (o : OrderId) : Prop where
  bought : BoughtRun user r s s' o
  program : ∀ name q, req.programId = some name → name ≠ "" → cat.programNamed name = some q →
    q ∈ cat.contractPrograms c → ∃ e, s'.programEnrollments user q = some e ∧ e.enrollmentMode = .verified

theorem programStep_ok (s : Store) : (programStep cat req user p s).error = none := by
  unfold programStep enrollInProgramForB2b
  cases req.programId with
  | none => rfl
  | some name =>
    dsimp only
    by_cases hname : name = ""
    · rw [if_pos hname]
      rfl
    · rw [if_neg hname]
      cases cat.programNamed name with
      | none => rfl
      | some q =>
        cases productContract cat.toCatalog p with
        | none => rfl
        | some c =>
          dsimp only
          by_cases hmem : q ∈ cat.contractPrograms c
          · rw [if_pos hmem]
            exact createProgramEnrollments_ok ..
          · rw [if_neg hmem]
            rfl

theorem programStep_of_bought {t : Store} (hfaults : req.faults = Faults.none)
    (hvalid : Validated cat s now user p r c) (hbought : BoughtRun user r s t o) :
    (programStep cat req user p t).error = none ∧
      MemberEnrolled cat req user r c s (programStep cat req user p t).state o := by
  obtain ⟨horders, henrollments, -, -⟩ : (programStep cat req user p t).state.orders = t.orders ∧
      (programStep cat req user p t).state.enrollments = t.enrollments ∧
      (programStep cat req user p t).state.baskets = t.baskets ∧
      (programStep cat req user p t).state.contractUsers = t.contractUsers := programStep_writes t
  have horder := order_of_ordersKept horders o
  have hmodes : ∀ r', (programStep cat req user p t).state.activeMode user r' = t.activeMode user r' :=
    activeMode_of_enrollments henrollments
  have hcontract : productContract cat.toCatalog p = some c := by
    unfold productContract
    rw [hvalid.contentType, hvalid.objectId]
    exact hvalid.contract
  refine ⟨programStep_ok t, ⟨hbought.new, ?_, ?_, ?_, fun r' hne => ?_⟩,
    fun name q hname hne hq hmem => ?_⟩
  · rw [horder]
    exact hbought.fulfilled
  · rw [horder]
    exact hbought.purchaser
  · rw [hmodes]
    exact hbought.verified
  · rw [hmodes]
    exact hbought.others r' hne
  · have hstep : programStep cat req user p = createProgramEnrollments req.faults user [q] .verified := by
      unfold programStep enrollInProgramForB2b
      rw [hname]
      dsimp only
      rw [if_neg hne, hq, hcontract]
      dsimp only
      rw [if_pos hmem]
    rw [hstep, hfaults]
    exact createProgramEnrollments_mode q .verified t

/-- A member of a contract without a price who asks for a run of it, with nothing in the way, gets a new
order, which is fulfilled, and a verified enrollment in this run; whatever was in the basket, whichever code
there was, and whatever the learner has in other runs, which stays as it is. -/
theorem member_enrolls (cat : ContractCatalog) (req : B2bRequest) (db : SeatStore)
    (hready : ReadyToEnroll cat req user p r c db) (hknown : RedemptionsKnown db) :
    ∃ o, (createB2bEnrollment cat req (some user) p db).2 = .ok (.enrolled (some o)) ∧
      MemberEnrolled cat req user r c db.store (createB2bEnrollment cat req (some user) p db).1.store o := by
  obtain ⟨herror, d, hbasket⟩ := fillBasket_free hready hknown
  have hprepares : Prepares user db (fillBasket cat req user p db).state := fillBasket_prepares db
  have hstart : createB2bEnrollment cat req (some user) p db =
      checkoutB2bBasket cat req user p (fillBasket cat req user p db).state := by
    unfold createB2bEnrollment
    rw [validate_of_validated hready.validated]
    dsimp only
    rw [herror]
  rw [hstart]
  generalize (fillBasket cat req user p db).state = db1 at hbasket hprepares
  have hprice : (db1.store.basketOf user).itemsTotal (cat.withDiscounts db1) = 0 := by
    rw [hbasket.has]
    exact itemsTotal_of_free hbasket.free hready.price
  obtain ⟨o, hresult, hbought⟩ := generateCheckoutPayload_of_ready hready hprepares hbasket
  unfold checkoutB2bBasket
  dsimp only
  rw [if_pos hprice]
  generalize generateCheckoutPayload (cat.withDiscounts db1) user req.checkout db1.store = out
    at hresult hbought ⊢
  obtain ⟨t, result⟩ := out
  dsimp only at hresult hbought
  rw [hresult]
  dsimp only
  obtain ⟨hok, henrolled⟩ := programStep_of_bought hready.faults hready.validated hbought
  rw [hok]
  exact ⟨o, rfl, henrolled⟩

theorem oneSeat_ready : ReadyToEnroll oneSeat plainRequest 1 0 0 0 oneSeatStart where
  basketFaults := rfl
  faults := rfl
  validated := ⟨rfl, rfl, rfl, by decide, by decide, by decide, rfl⟩
  free := rfl
  country := by decide
  upgradable := by decide
  notPaid row hrow := by simp [oneSeatStart, Store.empty] at hrow
  notBegun o ho := by simp [oneSeatStart, Store.empty] at ho
  price := by simp [oneSeat, Catalog.ofPrices, Decimal.toRat]
  version := ⟨⟨0, 0, ⟨.courseRun, 0, ⟨0⟩, true⟩⟩, rfl, by simp [Decimal.toRat]⟩
  codes d hd := by simp [availableCode, oneSeatStart] at hd

theorem member_enrolls_oneSeat :
    ∃ o, (createB2bEnrollment oneSeat plainRequest (some 1) 0 oneSeatStart).2 = .ok (.enrolled (some o)) ∧
      MemberEnrolled oneSeat plainRequest 1 0 0 oneSeatStart.store
        (createB2bEnrollment oneSeat plainRequest (some 1) 0 oneSeatStart).1.store o :=
  member_enrolls oneSeat plainRequest oneSeatStart oneSeat_ready
    fun o ho => by simp [oneSeatStart, Store.empty] at ho

end MitxOnline

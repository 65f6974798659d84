import MitxOnline.Ecommerce.DiscountCreation
import MitxOnline.Ecommerce.Proofs.AutoDiscountsProofs
import MitxOnline.Ecommerce.Proofs.DiscountsProofs
import MitxOnline.Lib.FixedPoint

/-!
# Discounted prices as a function of the discounts

The discounted price is the smallest of the prices, so it does not matter in which order and how often the
discounts come, and more of them make it no higher. It is negative exactly if one of the prices is.
-/

namespace MitxOnline

open FixedPoint

variable {cat : Catalog} {ds ds' : List DiscountId} {p : ProductId} {product : Product} {d : Discount}

/-- The price of a product under some discounts is between zero and its own, is the same for the same
discounts in any order and number, and does not rise with more discounts. -/
structure PricesWell (cat : Catalog) (ds : List DiscountId) (p : ProductId) : Prop where
  bounded : ∃ price, getDiscountedPrice cat ds p none = .ok price ∧
    0 ≤ price ∧ price ≤ (cat.product p).price.toRat
  sameDiscounts : ∀ ds', (∀ e, e ∈ ds' ↔ e ∈ ds) →
    getDiscountedPrice cat ds' p none = getDiscountedPrice cat ds p none
  moreDiscounts : ∀ ds', (∀ e ∈ ds, e ∈ ds') → ∃ price price',
    getDiscountedPrice cat ds p none = .ok price ∧ getDiscountedPrice cat ds' p none = .ok price' ∧
      price' ≤ price

/-- The discount has no negative amount if it is a fixed price, and takes off no more than half a cent over
the price if it is a percentage. -/
def Discount.LeavesPrice (d : Discount) (product : Product) : Prop :=
  match d.discountType with
  | .percentOff => product.price.toRat * (d.amount.toRat / 100 - 1) ≤ 1 / 200
  | .dollarsOff => True
  | .fixedPrice => 0 ≤ d.amount.toRat

/-! ## Prices that are not negative -/

theorem getProductPrice_nonneg_iff (d : Discount) (product : Product) :
    0 ≤ d.getProductPrice product ↔ d.LeavesPrice product := by
  unfold Discount.getProductPrice Discount.LeavesPrice
  cases d.discountType with
  | percentOff =>
    dsimp only
    rw [rounded_nonneg_iff]
    constructor <;> intro h <;> linarith
  | dollarsOff =>
    dsimp only
    refine iff_of_true ?_ trivial
    split
    · exact le_rfl
    · rename_i hprice
      exact sub_nonneg.mpr (not_lt.mp hprice)
  | fixedPrice => exact Iff.rfl

/-- A percentage of at most a hundred takes off no more than the price. -/
theorem leavesPrice_of_percent (hprice : 0 ≤ product.price.toRat) (htype : d.discountType = .percentOff)
    (hamount : d.amount.toRat ≤ 100) : d.LeavesPrice product := by
  unfold Discount.LeavesPrice
  rw [htype]
  dsimp only
  have hratio : d.amount.toRat / 100 - 1 ≤ 0 := by linarith
  have hoff : product.price.toRat * (d.amount.toRat / 100 - 1) ≤ 0 :=
    mul_nonpos_of_nonneg_of_nonpos hprice hratio
  linarith

/-! ## Generated codes -/

theorem mem_createRows {now : Instant} {row : Discount} {codes : List String} {x : String × Discount}
    (h : x ∈ (createRows now row codes).created) : x.2 = row := by
  induction codes with
  | nil => cases h
  | cons code codes ih =>
    unfold createRows at h
    split at h
    · cases h
    · rename_i saved hsave
      rcases List.mem_cons.mp h with rfl | hrest
      · unfold Discount.save at hsave
        split_ifs at hsave
        cases hsave
        rfl
      · exact ih hrest

theorem checkedTypes_percent {kwargs : GenerateArguments} {paymentType : PaymentType}
    (h : checkedTypes kwargs = .ok (.percentOff, paymentType)) : kwargs.amount.toRat ≤ 100 := by
  unfold checkedTypes at h
  split at h
  · cases h
  · cases h
  · split_ifs at h with hamount
    cases h
    exact not_lt.mp fun hlt => hamount ⟨rfl, hlt⟩

/-- A generated code leaves every product a price, unless it is for a fixed price below zero. -/
theorem generated_leavesPrice_iff {parseSuppliedDate : String → Except Error Instant}
    {uuid4 : ℕ → String} {now : Instant} {kwargs : GenerateArguments} {code : String}
    (h : (code, d) ∈ (generateDiscountCode parseSuppliedDate uuid4 now kwargs).created)
    (hprice : 0 ≤ product.price.toRat) :
    d.LeavesPrice product ↔ (d.discountType = .fixedPrice → 0 ≤ d.amount.toRat) := by
  cases htype : d.discountType with
  | percentOff =>
    refine iff_of_true (leavesPrice_of_percent hprice htype ?_) (by simp)
    unfold generateDiscountCode at h
    split at h
    · cases h
    · cases h
    · cases h
    · cases h
    · rename_i discountType paymentType codes expirationDate activationDate htypes _ _ _
      have hrow := mem_createRows h
      simp only at hrow
      subst hrow
      obtain rfl : discountType = .percentOff := htype
      exact checkedTypes_percent htypes
  | dollarsOff => exact iff_of_true (by simp [Discount.LeavesPrice, htype]) (by simp)
  | fixedPrice => simp [Discount.LeavesPrice, htype]

/-! ## More discounts -/

theorem bestPrice_anti (h : ∀ e ∈ ds, e ∈ ds') : bestPrice cat ds' product ≤ bestPrice cat ds product := by
  obtain ⟨hprice, hds⟩ := (le_bestPrice_iff cat ds' product _).mp le_rfl
  exact (le_bestPrice_iff cat ds product _).mpr ⟨hprice, fun e he => hds e (h e he)⟩

theorem bestPrice_congr (h : ∀ e, e ∈ ds' ↔ e ∈ ds) :
    bestPrice cat ds' product = bestPrice cat ds product :=
  le_antisymm (bestPrice_anti fun e => (h e).mpr) (bestPrice_anti fun e => (h e).mp)

/-- Dollars off leave no price below zero. -/
theorem getProductPrice_dollarsOff (htype : d.discountType = .dollarsOff) :
    d.getProductPrice product = max (product.price.toRat - d.amount.toRat) 0 := by
  unfold Discount.getProductPrice
  rw [htype]
  dsimp only
  split_ifs with h
  · exact (max_eq_right (sub_nonpos.mpr h.le)).symm
  · exact (max_eq_left (sub_nonneg.mpr (not_lt.mp h))).symm

/-- The price under one discount, in cents. -/
theorem quantize_bestPrice (cat : Catalog) (e : DiscountId) (product : Product) :
    quantize 2 (bestPrice cat [e] product) =
      ⟨min (roundHalfEven ((cat.discount e).getProductPrice product * 10 ^ 2)) product.price.units⟩ :=
  quantize_min_toRat _ _

/-- Prices are bounded, do not depend on the order of the discounts and are monotone exactly if every
discount leaves the product a price. -/
theorem pricesWell_iff (hprice : 0 ≤ (cat.product p).price.toRat) :
    PricesWell cat ds p ↔ ∀ e ∈ ds, (cat.discount e).LeavesPrice (cat.product p) := by
  constructor
  · intro h e he
    obtain ⟨price, hget, hnonneg, -⟩ := h.bounded
    cases hget
    have hall := ((le_bestPrice_iff cat ds (cat.product p) 0).mp hnonneg).2
    exact (getProductPrice_nonneg_iff _ _).mp (hall e he)
  · intro h
    have hnonneg : 0 ≤ bestPrice cat ds (cat.product p) := by
      refine (le_bestPrice_iff cat ds (cat.product p) 0).mpr ⟨hprice, fun e he => ?_⟩
      exact (getProductPrice_nonneg_iff _ _).mpr (h e he)
    have hle := ((le_bestPrice_iff cat ds (cat.product p) _).mp le_rfl).1
    refine ⟨⟨_, rfl, hnonneg, hle⟩, fun ds' hsame => ?_, fun ds' hmore => ?_⟩
    · exact congrArg Except.ok (bestPrice_congr hsame)
    · exact ⟨_, _, rfl, rfl, bestPrice_anti hmore⟩

/-- Half off leaves a price. -/
theorem pricesWell_half : PricesWell (percentCatalog fun _ => 50) [1, 2] 1 := by
  have hamount : (⟨50 * 100000⟩ : Decimal 5).toRat ≤ 100 := by decide +kernel
  refine (pricesWell_iff (by decide +kernel)).mpr fun e _ => ?_
  exact leavesPrice_of_percent (by decide +kernel) rfl hamount

/-- What the API accepts for a fixed price of fifty dollars below zero. -/
def negativePrice : DiscountData :=
  ⟨⟨-5000000⟩, .fixedPrice, .unlimited, some .marketing, some 0, "NEGATIVE", none, none⟩

/-- The products cost a hundred dollars, and with the discount fifty dollars below zero. -/
def negativeCatalog : Catalog :=
  { Catalog.ofPrices (fun _ => ⟨10000⟩) with
    discount := fun _ =>
      ⟨⟨-5000000⟩, .fixedPrice, .unlimited, some .marketing, some 0, none, none, [], []⟩ }

theorem not_pricesWell :
    ¬∀ (cat : Catalog) (ds : List DiscountId) (p : ProductId),
      (∀ e ∈ ds, (cat.discount e).Creatable) → 0 ≤ (cat.product p).price.toRat →
      PricesWell cat ds p := by
  intro h
  have hcreatable : ∀ e ∈ [7], (negativeCatalog.discount e).Creatable := fun _ _ =>
    .posted 0 negativePrice rfl
  obtain ⟨price, hget, hnonneg, -⟩ :=
    (h negativeCatalog [7] 1 hcreatable (by decide +kernel)).bounded
  cases hget
  exact absurd hnonneg (by decide +kernel)

end MitxOnline

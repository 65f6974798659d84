import MitxOnline.Ecommerce.Discounts
import MitxOnline.Lib.FixedPoint
import MitxOnline.Ecommerce.Proofs.DiscountPricesProofs

/-!
# Prices in the frontend (`frontend/public/src/lib/util.js`)

For a learner with financial assistance the API serves a product with the discount of the tier, and the page
computes the price from it. Its numbers are taken to be exact.
-/

namespace MitxOnline

open FixedPoint

/-- What of a served discount the page reads. -/
structure ProductFlexiblePrice where
  amount : Decimal 5
  discountType : DiscountType
  deriving DecidableEq, Repr

/-- What of a served product the page reads. -/
structure ServedProduct where
  price : Decimal 2
  productFlexiblePrice : Option ProductFlexiblePrice
  deriving DecidableEq, Repr

/-- `ProductFlexibilePriceSerializer` -/
def serveProduct (cat : Catalog) (p : ProductId) (discount : Option DiscountId) : ServedProduct where
  price := (cat.product p).price
  productFlexiblePrice := discount.map fun d => ⟨(cat.discount d).amount, (cat.discount d).discountType⟩

/-- `getFlexiblePriceForProduct` -/
def getFlexiblePriceForProduct (product : ServedProduct) : ℚ :=
  let flexDiscountAmount : ℚ := (product.productFlexiblePrice.map (·.amount.toRat)).getD 0
  let flexDiscountType : Option DiscountType := product.productFlexiblePrice.map (·.discountType)
  match flexDiscountType with
  | some .dollarsOff => product.price.toRat - flexDiscountAmount
  | some .percentOff => product.price.toRat - flexDiscountAmount / 100 * product.price.toRat
  | some .fixedPrice => flexDiscountAmount
  | none => product.price.toRat

/-- `formatLocalePrice`: the cents that are shown. -/
def formatLocalePrice (amount : Option ℚ) : Decimal 2 :=
  match amount with
  | none => quantizeAway 2 0
  | some amount => if amount < 0 then quantizeAway 2 0 else quantizeAway 2 amount

/-!
## Whether the page shows the price that is charged

The page does not compare the discounted price with that of the product, and it rounds half cents away from
zero. The two prices agree where neither matters.
-/

variable {cat : Catalog} {d : DiscountId} {p : ProductId} {x y : ℚ} {price : Decimal 2}

/-- The price that the page shows is, to the cent, the one that is charged. -/
def ShowsCharge (cat : Catalog) (d : DiscountId) (p : ProductId) : Prop :=
  ∃ charged, getDiscountedPrice cat [d] p none = .ok charged ∧
    formatLocalePrice (some (getFlexiblePriceForProduct (serveProduct cat p (some d)))) =
      quantize 2 charged

/-- The amount is half a cent more than an even number of cents. -/
def HalfOverEvenCent (x : ℚ) : Prop := 0 ≤ x ∧ IsHalfway (x * 10 ^ 2) ∧ Even ⌊x * 10 ^ 2⌋

/-- The discount takes off less than half a cent below zero, leaves a percentage or a fixed price no more than
half a cent below zero, a fixed price is less than half a cent above the price, and the discounted price is not
half a cent more than an even number of cents. -/
def Discount.ShownRight (d : Discount) (product : Product) : Prop :=
  match d.discountType with
  | .percentOff => -(1 / 200) < product.price.toRat * (d.amount.toRat / 100) ∧
      product.price.toRat * (d.amount.toRat / 100 - 1) ≤ 1 / 200 ∧
      ¬HalfOverEvenCent (product.price.toRat - product.price.toRat * (d.amount.toRat / 100))
  | .dollarsOff => -(1 / 200) < d.amount.toRat ∧ ¬HalfOverEvenCent (product.price.toRat - d.amount.toRat)
  | .fixedPrice => -(1 / 200) ≤ d.amount.toRat ∧ d.amount.toRat < product.price.toRat + 1 / 200 ∧
      ¬HalfOverEvenCent d.amount.toRat

/-! ## Cents -/

/-- What is shown for a price. -/
theorem formatLocalePrice_some (x : ℚ) :
    formatLocalePrice (some x) = ⟨roundHalfAway (max x 0 * 10 ^ 2)⟩ := by
  unfold formatLocalePrice quantizeAway
  dsimp only
  split_ifs with h
  · rw [max_eq_right h.le]
  · rw [max_eq_left (not_lt.mp h)]

/-- A number of cents that is shown and charged. -/
theorem shown_eq_charged_iff (hx : 0 ≤ x) :
    roundHalfAway (x * 10 ^ 2) = min (roundHalfEven (x * 10 ^ 2)) price.units ↔
      x < price.toRat + 1 / 200 ∧ ¬HalfOverEvenCent x := by
  have hcents : (0 : ℚ) ≤ x * 10 ^ 2 := by positivity
  have hunits := price.toRat_mul_pow
  have heven := roundHalfAway_eq_roundHalfEven_iff hcents
  have haway : roundHalfAway (x * 10 ^ 2) = roundHalfEven (x * 10 ^ 2) ↔ ¬HalfOverEvenCent x := by
    rw [heven]
    unfold HalfOverEvenCent
    tauto
  rcases le_or_gt (x * 10 ^ 2) (price.units : ℚ) with hle | hlt
  · have hbelow : x < price.toRat + 1 / 200 := by
      norm_num at hle hunits
      linarith
    rw [min_eq_left (roundHalfEven_le_intCast hle), haway]
    exact (and_iff_right hbelow).symm
  · rw [min_eq_right (intCast_le_roundHalfEven hlt.le), roundHalfAway_eq_iff hcents]
    have hlt' : price.toRat < x := by
      norm_num at hlt hunits
      linarith
    constructor
    · rintro ⟨hhalf, -⟩
      have hbelow : x < price.toRat + 1 / 200 := by
        norm_num at hhalf hunits
        linarith
      refine ⟨hbelow, fun ⟨_, hhalfway, _⟩ => ?_⟩
      -- over the price there is no half cent below half a cent
      have hfloor : ⌊x * 10 ^ 2⌋ = price.units := by
        rw [Int.floor_eq_iff]
        exact ⟨hlt.le, by linarith⟩
      unfold IsHalfway at hhalfway
      rw [hfloor] at hhalfway
      linarith
    · rintro ⟨hbelow, -⟩
      norm_num at hunits ⊢
      constructor <;> linarith

/-- Below zero nothing is shown, so nothing may be charged. -/
theorem shown_eq_charged_iff_of_neg (hprice : 0 ≤ price.units) (hx : x < 0) :
    roundHalfAway (max x 0 * 10 ^ 2) = min (roundHalfEven (x * 10 ^ 2)) price.units ↔ -(1 / 200) ≤ x := by
  have hzero : roundHalfAway (max x 0 * 10 ^ 2) = 0 := by
    rw [max_eq_right hx.le, zero_mul]
    decide +kernel
  have hneg : x * 10 ^ 2 ≤ (0 : ℤ) := by
    push_cast
    nlinarith
  have hround := roundHalfEven_le_intCast hneg
  rw [hzero, min_eq_left (hround.trans hprice), eq_comm, roundHalfEven_eq_zero_iff]
  norm_num
  constructor
  · rintro ⟨h, -⟩
    linarith
  · intro h
    constructor <;> linarith

/-- A price that is shown and charged as it is, unless it is below zero. -/
theorem shown_iff (hprice : 0 ≤ price.units) :
    roundHalfAway (max x 0 * 10 ^ 2) = min (roundHalfEven (x * 10 ^ 2)) price.units ↔
      -(1 / 200) ≤ x ∧ x < price.toRat + 1 / 200 ∧ ¬HalfOverEvenCent x := by
  rcases lt_or_ge x 0 with hx | hx
  · have hnonneg : 0 ≤ price.toRat := (Decimal.toRat_nonneg_iff price).mpr hprice
    have hbelow : x < price.toRat + 1 / 200 := by linarith
    have hnot : ¬HalfOverEvenCent x := fun h => absurd h.1 (not_le.mpr hx)
    rw [shown_eq_charged_iff_of_neg hprice hx]
    exact (and_iff_left ⟨hbelow, hnot⟩).symm
  · have habove : -(1 / 200) ≤ x := by linarith
    rw [max_eq_left hx, shown_eq_charged_iff hx]
    exact (and_iff_right habove).symm

/-! ## The three types -/

theorem halfOverEvenCent_max (x : ℚ) : HalfOverEvenCent (max x 0) ↔ HalfOverEvenCent x := by
  rcases le_or_gt 0 x with h | h
  · rw [max_eq_left h]
  · rw [max_eq_right h.le]
    refine iff_of_false (fun hhalf => ?_) fun hhalf => absurd hhalf.1 (not_le.mpr h)
    have hnot : ¬IsHalfway (0 * 10 ^ 2) := by decide +kernel
    exact hnot hhalf.2.1

/-- The page shows what is charged exactly if the discount is one that it shows right. -/
theorem showsCharge_iff (cat : Catalog) (d : DiscountId) (p : ProductId)
    (hprice : 0 ≤ (cat.product p).price.toRat) :
    ShowsCharge cat d p ↔ (cat.discount d).ShownRight (cat.product p) := by
  have hunits : 0 ≤ (cat.product p).price.units := (Decimal.toRat_nonneg_iff _).mp hprice
  have hshows : ShowsCharge cat d p ↔
      formatLocalePrice (some (getFlexiblePriceForProduct (serveProduct cat p (some d)))) =
        quantize 2 (bestPrice cat [d] (cat.product p)) := by
    constructor
    · rintro ⟨charged, hcharged, hshown⟩
      cases hcharged
      exact hshown
    · intro hshown
      exact ⟨_, rfl, hshown⟩
  rw [hshows, formatLocalePrice_some, quantize_bestPrice, Decimal.mk.injEq]
  unfold getFlexiblePriceForProduct serveProduct Discount.ShownRight
  dsimp only [Option.map_some, Option.getD_some]
  cases htype : (cat.discount d).discountType with
  | percentOff =>
    unfold Discount.getProductPrice
    rw [htype]
    dsimp only
    rw [roundHalfEven_rounded, mul_comm ((cat.discount d).amount.toRat / 100), shown_iff hunits]
    refine and_left_comm.trans (and_congr ?_ (and_congr_left' ?_))
    · constructor <;> intro h <;> linarith
    · constructor <;> intro h <;> linarith
  | dollarsOff =>
    dsimp only
    have hnonneg := le_max_right ((cat.product p).price.toRat - (cat.discount d).amount.toRat) 0
    have hzero : -(1 / 200) ≤ max ((cat.product p).price.toRat - (cat.discount d).amount.toRat) 0 := by
      linarith
    have hshown := shown_iff (x := max ((cat.product p).price.toRat - (cat.discount d).amount.toRat) 0)
      hunits
    rw [max_eq_left hnonneg] at hshown
    rw [getProductPrice_dollarsOff htype, hshown, and_iff_right hzero, halfOverEvenCent_max, max_lt_iff]
    refine and_congr_left' ⟨fun h => ?_, fun h => ⟨?_, ?_⟩⟩
    · linarith [h.1]
    · linarith
    · linarith
  | fixedPrice =>
    unfold Discount.getProductPrice
    rw [htype]
    exact shown_iff hunits

/-- Every product has one price, and every discount is the same, one of financial assistance. -/
def flexibleCatalog (price : Decimal 2) (amount : Decimal 5) (discountType : DiscountType) : Catalog :=
  { Catalog.ofPrices (fun _ => price) with
    discount := fun _ =>
      ⟨amount, discountType, .unlimited, some .financialAssistance, some 0, none, none, [], []⟩ }

/-- With a quarter off, 80 dollars is shown and charged for 106.67 dollars. -/
theorem showsCharge_quarter :
    ShowsCharge (flexibleCatalog ⟨10667⟩ ⟨2500000⟩ .percentOff) 1 1 := by
  refine (showsCharge_iff _ _ _ (by decide +kernel)).mpr ⟨by decide +kernel, by decide +kernel, ?_⟩
  exact fun h => absurd h.2.1 (by decide +kernel)

/-- What the API accepts for a fixed price of 150 dollars. -/
def dearPrice : DiscountData :=
  ⟨⟨15000000⟩, .fixedPrice, .unlimited, some .financialAssistance, some 0, "DEAR", none, none⟩

/-- For a product of 100 dollars, 150 dollars is shown and 100 dollars is charged. -/
theorem not_showsCharge :
    ¬∀ (cat : Catalog) (d : DiscountId) (p : ProductId), (cat.discount d).Creatable →
      0 ≤ (cat.product p).price.toRat → ShowsCharge cat d p := by
  intro h
  have hcreatable : ((flexibleCatalog ⟨10000⟩ ⟨15000000⟩ .fixedPrice).discount 1).Creatable :=
    .posted 0 dearPrice rfl
  obtain ⟨charged, hcharged, hshown⟩ := h _ 1 1 hcreatable (by decide +kernel)
  cases hcharged
  revert hshown
  decide +kernel

end MitxOnline

import MitxOnline.Ecommerce.Proofs.DiscountPricesProofs
import MitxOnline.HubspotSync.Deals

/-!
# Whether a deal reports what was charged

The serializer computes the discount again and does not hold it between zero and the price. It reports what
was charged for the discounts that pricing does not cut off either.
-/

namespace MitxOnline

open FixedPoint

variable {cat : Catalog} {order : Order} {l : Line} {d : DiscountId} {price : Decimal 2} {x y : ℚ}

/-- The order has one line, at the current price of its product, and at most one discount. -/
structure SinglyDiscounted (cat : Catalog) (order : Order) (l : Line) (price : Decimal 2) : Prop where
  rows : order.lines.rows = [l]
  discounts : order.discounts.length ≤ 1
  version : ∃ product, resolveProductVersion cat l.productVersion.objectId (some l.productVersion) =
    .ok product ∧ product.price = price
  current : (cat.product l.productVersion.objectId).price = price
  nonneg : 0 ≤ price.toRat

/-- The deal has an amount and a percentage. The amount is what the line was charged less than the price, and
the percentage is at most the whole and is that of the amount, before both are written with two digits. -/
structure ReportsCharge (cat : Catalog) (order : Order) (l : Line) (price amount percent : Decimal 2) :
    Prop where
  amountWritten : order.getDiscountAmount cat = .ok amount
  percentWritten : order.getDiscountPercent cat = .ok percent
  charged : ∃ charged, l.unitDiscountedPrice cat order.discountIds = .ok charged ∧
    amount.toRat = price.toRat - charged
  nonneg : 0 ≤ percent.toRat
  le_hundred : percent.toRat ≤ 100
  relative : ∃ x y, x * 100 = y * price.toRat ∧ quantize 2 x = amount ∧ quantize 2 y = percent

/-- An amount taken off the price is at most half a cent below zero, and a positive one is not halfway between
two cents unless the price is an even number of cents. -/
def OffPrice (price : Decimal 2) (x : ℚ) : Prop :=
  -(1 / 200) ≤ x ∧ (IsHalfway (x * 10 ^ 2) → 0 ≤ x → Even price.units)

/-- What is taken off is reported right: a percentage between zero and a hundred, an amount between zero and a
price that is not zero, a fixed price between zero and the price, each up to what is rounded away. -/
def Discount.ReportedRight (d : Discount) (price : Decimal 2) : Prop :=
  match d.discountType with
  | .percentOff => -(1 / 200) ≤ d.amount.toRat ∧ d.amount.toRat ≤ 100 + 1 / 200 ∧
      OffPrice price (price.toRat * (d.amount.toRat / 100))
  | .dollarsOff => price.toRat ≠ 0 ∧ OffPrice price d.amount.toRat ∧
      d.amount.toRat ≤ price.toRat + 1 / 200 ∧
      -(price.toRat / 20000) ≤ d.amount.toRat ∧ d.amount.toRat ≤ price.toRat + price.toRat / 20000
  | .fixedPrice => OffPrice price (price.toRat - d.amount.toRat) ∧
      (price.toRat = 0 → -(1 / 200) ≤ d.amount.toRat) ∧
      (price.toRat ≠ 0 → -(price.toRat / 20000) ≤ price.toRat - d.amount.toRat ∧
        -(price.toRat / 20000) ≤ d.amount.toRat)

/-! ## Amounts -/

theorem offPrice_iff : roundHalfEven (x * 10 ^ 2) =
    price.units - min (roundHalfEven ((price.toRat - x) * 10 ^ 2)) price.units ↔ OffPrice price x := by
  have hsub : (price.toRat - x) * 10 ^ 2 = price.units - x * 10 ^ 2 := by
    rw [sub_mul, price.toRat_mul_pow]
  rw [hsub, roundHalfEven_eq_sub_min_iff]
  unfold OffPrice
  have hcents : (0 ≤ x * 10 ^ 2) ↔ 0 ≤ x := by
    constructor <;> intro h <;> linarith
  have hbelow : -(1 / 2) ≤ x * 10 ^ 2 ↔ -(1 / 200) ≤ x := by
    constructor <;> intro h <;> linarith
  rw [hcents, hbelow]

/-- A price less an amount is not below zero, so an amount over the price takes off the price. -/
theorem offPrice_max_iff (hprice : 0 ≤ price.units) : roundHalfEven (x * 10 ^ 2) =
    price.units - min (roundHalfEven (max (price.toRat - x) 0 * 10 ^ 2)) price.units ↔
      OffPrice price x ∧ x ≤ price.toRat + 1 / 200 := by
  have hunits := price.toRat_mul_pow
  rcases le_or_gt x price.toRat with hle | hlt
  · rw [max_eq_left (sub_nonneg.mpr hle), offPrice_iff]
    exact (and_iff_left (by linarith)).symm
  · have hzero : roundHalfEven (max (price.toRat - x) 0 * 10 ^ 2) = 0 := by
      rw [max_eq_right (by linarith), zero_mul]
      decide +kernel
    have hnonneg : 0 ≤ price.toRat := (Decimal.toRat_nonneg_iff price).mpr hprice
    have hover : (price.units : ℚ) < x * 10 ^ 2 := by linarith
    rw [hzero, min_eq_left hprice, sub_zero, roundHalfEven_eq_iff]
    unfold OffPrice
    constructor
    · rintro (⟨hupper, -⟩ | ⟨hhalf | hhalf, heven⟩)
      · refine ⟨⟨by linarith, fun hhalfway _ => ?_⟩, by linarith⟩
        exfalso
        have hfloor : ⌊x * 10 ^ 2⌋ = price.units := Int.floor_eq_iff.mpr ⟨hover.le, by linarith⟩
        unfold IsHalfway at hhalfway
        rw [hfloor] at hhalfway
        linarith
      · exact ⟨⟨by linarith, fun _ _ => heven⟩, by linarith⟩
      · linarith
    · rintro ⟨⟨-, heven⟩, hupper⟩
      rcases hupper.lt_or_eq with hupper | hupper
      · exact .inl ⟨by linarith, by linarith⟩
      · have hhalf : x * 10 ^ 2 - price.units = 1 / 2 := by linarith
        have hfloor : ⌊x * 10 ^ 2⌋ = price.units := Int.floor_eq_iff.mpr ⟨hover.le, by linarith⟩
        have hhalfway : IsHalfway (x * 10 ^ 2) := by
          unfold IsHalfway
          rw [hfloor]
          exact hhalf
        exact .inr ⟨.inl hhalf, heven hhalfway (by linarith)⟩

/-! ## Percentages -/

theorem quantize_nonneg_iff : 0 ≤ (quantize 2 y).toRat ↔ -(1 / 200) ≤ y := by
  have h : 0 ≤ (quantize 2 y).toRat ↔ -(1 / 2) ≤ y * 10 ^ 2 := rounded_nonneg_iff y
  rw [h]
  constructor <;> intro h <;> linarith

theorem quantize_le_hundred_iff : (quantize 2 y).toRat ≤ 100 ↔ y ≤ 100 + 1 / 200 := by
  have hunits : (quantize 2 y).toRat ≤ 100 ↔ roundHalfEven (y * 10 ^ 2) ≤ 10000 := by
    have hmul := (quantize 2 y).toRat_mul_pow
    have hcast : (roundHalfEven (y * 10 ^ 2) : ℚ) ≤ (10000 : ℤ) ↔ roundHalfEven (y * 10 ^ 2) ≤ 10000 :=
      Int.cast_le
    rw [← hcast]
    have hround : (quantize 2 y).units = roundHalfEven (y * 10 ^ 2) := rfl
    rw [hround] at hmul
    push_cast
    constructor <;> intro h <;> linarith
  rw [hunits, roundHalfEven_le_iff_of_even (by decide)]
  push_cast
  constructor <;> intro h <;> linarith

/-- The part of a price in percent. -/
theorem part_bounds_iff (hprice : 0 < price.toRat) :
    -(1 / 200) ≤ x / price.toRat * 100 ∧ x / price.toRat * 100 ≤ 100 + 1 / 200 ↔
      -(price.toRat / 20000) ≤ x ∧ x ≤ price.toRat + price.toRat / 20000 := by
  have hpart : x / price.toRat * 100 = x * 100 / price.toRat := by ring
  rw [hpart, le_div_iff₀ hprice, div_le_iff₀ hprice]
  refine and_congr ?_ ?_ <;> constructor <;> intro h <;> linarith

/-! ## The order -/

theorem SinglyDiscounted.dealProductPrice_eq (h : SinglyDiscounted cat order l price) :
    order.dealProductPrice cat = .ok price.toRat := by
  obtain ⟨product, hresolve, hprice⟩ := h.version
  unfold Order.dealProductPrice Order.dealProduct
  simp [h.rows, hresolve, hprice]

theorem SinglyDiscounted.unitDiscountedPrice_eq (h : SinglyDiscounted cat order l price) :
    ∃ product, product.price = price ∧
      l.unitDiscountedPrice cat order.discountIds =
        .ok (rounded 2 (bestPrice cat order.discountIds product)) := by
  obtain ⟨product, hresolve, hprice⟩ := h.version
  refine ⟨product, hprice, ?_⟩
  unfold Line.unitDiscountedPrice MitxOnline.getDiscountedPrice
  simp [hresolve]

theorem SinglyDiscounted.units_nonneg (h : SinglyDiscounted cat order l price) : 0 ≤ price.units :=
  (Decimal.toRat_nonneg_iff price).mp h.nonneg

/-- What the line is charged less than the price under one discount. -/
theorem SinglyDiscounted.charged_iff {redemption : DiscountRedemption}
    (h : SinglyDiscounted cat order l price) (hone : order.discounts = [redemption]) :
    ∃ product, product.price = price ∧ ∀ x,
      (∃ charged, l.unitDiscountedPrice cat order.discountIds = .ok charged ∧
        (quantize 2 x).toRat = price.toRat - charged) ↔
      roundHalfEven (x * 10 ^ 2) = price.units - min (roundHalfEven
        ((cat.discount redemption.redeemedDiscount).getProductPrice product * 10 ^ 2)) price.units := by
  obtain ⟨product, hprice, hunit⟩ := h.unitDiscountedPrice_eq
  have hids : order.discountIds = [redemption.redeemedDiscount] := by
    unfold Order.discountIds
    rw [hone]
    rfl
  rw [hids] at hunit ⊢
  refine ⟨product, hprice, fun x => ?_⟩
  rw [hunit, rounded, quantize_bestPrice, hprice]
  have hcents : ∀ m n : ℤ, (⟨m⟩ : Decimal 2).toRat = price.toRat - (⟨n⟩ : Decimal 2).toRat ↔
      m = price.units - n := by
    intro m n
    have hm := (⟨m⟩ : Decimal 2).toRat_mul_pow
    have hn := (⟨n⟩ : Decimal 2).toRat_mul_pow
    have hp := price.toRat_mul_pow
    dsimp only at hm hn
    have hcast : m = price.units - n ↔ (m : ℚ) = price.units - n := by
      rw [← Int.cast_sub, Int.cast_inj]
    rw [hcast]
    constructor <;> intro heq <;> linarith
  unfold quantize
  rw [← hcents]
  constructor
  · rintro ⟨charged, hcharged, hamount⟩
    cases hcharged
    exact hamount
  · exact fun hamount => ⟨_, rfl, hamount⟩

/-- A report whose numbers are known. -/
theorem reportsCharge_iff_of_written {amount percent : Decimal 2}
    (hamount : order.getDiscountAmount cat = .ok amount)
    (hpercent : order.getDiscountPercent cat = .ok percent) :
    (∃ amount percent, ReportsCharge cat order l price amount percent) ↔
      (∃ charged, l.unitDiscountedPrice cat order.discountIds = .ok charged ∧
        amount.toRat = price.toRat - charged) ∧ (0 ≤ percent.toRat ∧ percent.toRat ≤ 100) ∧
      ∃ x y, x * 100 = y * price.toRat ∧ quantize 2 x = amount ∧ quantize 2 y = percent := by
  constructor
  · rintro ⟨amount', percent', h⟩
    have hamount' := h.amountWritten
    have hpercent' := h.percentWritten
    rw [hamount] at hamount'
    rw [hpercent] at hpercent'
    cases hamount'
    cases hpercent'
    exact ⟨h.charged, ⟨h.nonneg, h.le_hundred⟩, h.relative⟩
  · rintro ⟨hcharged, ⟨hnonneg, hle⟩, hrelative⟩
    exact ⟨amount, percent, hamount, hpercent, hcharged, hnonneg, hle, hrelative⟩

/-- Nothing is the amount of a product that is free, whatever the percentage. -/
theorem relative_zero_iff {percent : Decimal 2} (hzero : price.toRat = 0) :
    (∃ x' y', x' * 100 = y' * price.toRat ∧ quantize 2 x' = quantize 2 (price.toRat - x) ∧
      quantize 2 y' = percent) ↔ -(1 / 200) ≤ -x ∧ -x ≤ 1 / 200 := by
  have hround : quantize 2 0 = quantize 2 (price.toRat - x) ↔ -(1 / 200) ≤ -x ∧ -x ≤ 1 / 200 := by
    have hnone : roundHalfEven (0 * 10 ^ 2) = 0 := by decide +kernel
    unfold quantize
    rw [Decimal.mk.injEq, hnone, eq_comm, roundHalfEven_eq_zero_iff, hzero]
    refine and_congr ?_ ?_ <;> constructor <;> intro h <;> linarith
  rw [← hround]
  constructor
  · rintro ⟨x', y', hrelative, hx', -⟩
    have hx'zero : x' = 0 := by
      rw [hzero, mul_zero] at hrelative
      linarith
    rw [← hx', hx'zero]
  · intro h
    exact ⟨0, percent.toRat, by rw [hzero, zero_mul, mul_zero], h, quantize_toRat percent⟩

/-- What a fixed price of nothing, or of a free product, takes off is all of the price. -/
theorem relative_hundred_iff (hprice : 0 ≤ price.toRat) (hwhole : x = 0 ∨ price.toRat = 0)
    (hcents : OffPrice price (price.toRat - x)) :
    (∃ x' y', x' * 100 = y' * price.toRat ∧ quantize 2 x' = quantize 2 (price.toRat - x) ∧
      quantize 2 y' = quantize 2 100) ↔
      (price.toRat = 0 → -(1 / 200) ≤ x) ∧
        (price.toRat ≠ 0 → -(price.toRat / 20000) ≤ price.toRat - x ∧ -(price.toRat / 20000) ≤ x) := by
  by_cases hzero : price.toRat = 0
  · rw [imp_iff_right hzero, and_iff_left fun hne => absurd hzero hne]
    rw [relative_zero_iff hzero]
    have hlow := hcents.1
    rw [hzero] at hlow
    constructor
    · rintro ⟨-, hle⟩
      linarith
    · intro hle
      exact ⟨by linarith, by linarith⟩
  · have hxzero := hwhole.resolve_right hzero
    have hpos : 0 < price.toRat := lt_of_le_of_ne hprice (Ne.symm hzero)
    rw [hxzero]
    refine iff_of_true ⟨price.toRat, 100, mul_comm _ _, by rw [sub_zero], rfl⟩ ?_
    exact ⟨fun heq => absurd heq hzero, fun _ => ⟨by linarith, by linarith⟩⟩

section OneDiscount

variable {redemption : DiscountRedemption} (h : SinglyDiscounted cat order l price)
  (hone : order.discounts = [redemption])

include h hone

theorem SinglyDiscounted.percentOff_iff
    (htype : (cat.discount redemption.redeemedDiscount).discountType = .percentOff) :
    (∃ amount percent, ReportsCharge cat order l price amount percent) ↔
      (cat.discount redemption.redeemedDiscount).ReportedRight price := by
  have hproduct := h.dealProductPrice_eq
  obtain ⟨product, hprice, hcharged⟩ := h.charged_iff hone
  have hamount : order.getDiscountAmount cat = .ok (quantize 2
      (price.toRat * ((cat.discount redemption.redeemedDiscount).amount.toRat / 100))) := by
    simp [Order.getDiscountAmount, Order.dealDiscount, hone, hproduct, htype, formatDecimal]
  have hpercent : order.getDiscountPercent cat =
      .ok (quantize 2 (cat.discount redemption.redeemedDiscount).amount.toRat) := by
    simp [Order.getDiscountPercent, Order.dealDiscount, hone, hproduct, htype, formatDecimal]
  rw [reportsCharge_iff_of_written hamount hpercent, hcharged, quantize_nonneg_iff, quantize_le_hundred_iff]
  unfold Discount.ReportedRight Discount.getProductPrice
  rw [htype, hprice]
  dsimp only
  have hrelative : ∃ x y, x * 100 = y * price.toRat ∧
      quantize 2 x = quantize 2
        (price.toRat * ((cat.discount redemption.redeemedDiscount).amount.toRat / 100)) ∧
      quantize 2 y = quantize 2 (cat.discount redemption.redeemedDiscount).amount.toRat :=
    ⟨_, _, by ring, rfl, rfl⟩
  rw [roundHalfEven_rounded, offPrice_iff, and_iff_left hrelative, and_comm, and_assoc]

theorem SinglyDiscounted.dollarsOff_iff
    (htype : (cat.discount redemption.redeemedDiscount).discountType = .dollarsOff) :
    (∃ amount percent, ReportsCharge cat order l price amount percent) ↔
      (cat.discount redemption.redeemedDiscount).ReportedRight price := by
  have hproduct := h.dealProductPrice_eq
  obtain ⟨product, hprice, hcharged⟩ := h.charged_iff hone
  have hamount : order.getDiscountAmount cat =
      .ok (quantize 2 (cat.discount redemption.redeemedDiscount).amount.toRat) := by
    simp [Order.getDiscountAmount, Order.dealDiscount, hone, hproduct, htype, formatDecimal]
  by_cases hzero : price.toRat = 0
  · have hraised : ∀ percent, order.getDiscountPercent cat ≠ .ok percent := by
      intro percent
      simp only [Order.getDiscountPercent, Order.dealDiscount, hone, hproduct, htype, decimalDiv, hzero,
        List.head?_cons, Option.map_some, if_true]
      split_ifs <;> simp
    unfold Discount.ReportedRight
    rw [htype]
    dsimp only
    refine iff_of_false ?_ fun hright => hright.1 hzero
    rintro ⟨amount, percent, hreports⟩
    exact hraised percent hreports.percentWritten
  · have hpos : 0 < price.toRat := lt_of_le_of_ne h.nonneg (Ne.symm hzero)
    have hpercent : order.getDiscountPercent cat = .ok (quantize 2
        ((cat.discount redemption.redeemedDiscount).amount.toRat / price.toRat * 100)) := by
      simp [Order.getDiscountPercent, Order.dealDiscount, hone, hproduct, htype, formatDecimal, decimalDiv,
        hzero]
    rw [reportsCharge_iff_of_written hamount hpercent, hcharged, quantize_nonneg_iff,
      quantize_le_hundred_iff, part_bounds_iff hpos]
    rw [getProductPrice_dollarsOff htype, hprice]
    unfold Discount.ReportedRight
    rw [htype]
    dsimp only
    have hrelative : ∃ x y, x * 100 = y * price.toRat ∧
        quantize 2 x = quantize 2 (cat.discount redemption.redeemedDiscount).amount.toRat ∧
        quantize 2 y = quantize 2
          ((cat.discount redemption.redeemedDiscount).amount.toRat / price.toRat * 100) :=
      ⟨_, _, by field_simp, rfl, rfl⟩
    rw [offPrice_max_iff h.units_nonneg, and_iff_left hrelative, and_iff_right hzero, and_assoc]

theorem SinglyDiscounted.fixedPrice_iff
    (htype : (cat.discount redemption.redeemedDiscount).discountType = .fixedPrice) :
    (∃ amount percent, ReportsCharge cat order l price amount percent) ↔
      (cat.discount redemption.redeemedDiscount).ReportedRight price := by
  have hproduct := h.dealProductPrice_eq
  obtain ⟨product, hprice, hcharged⟩ := h.charged_iff hone
  have hamount : order.getDiscountAmount cat = .ok (quantize 2
      (price.toRat - (cat.discount redemption.redeemedDiscount).amount.toRat)) := by
    simp [Order.getDiscountAmount, Order.dealDiscount, hone, hproduct, htype, formatDecimal]
  have hright : (cat.discount redemption.redeemedDiscount).ReportedRight price ↔
      OffPrice price (price.toRat - (cat.discount redemption.redeemedDiscount).amount.toRat) ∧
        (price.toRat = 0 → -(1 / 200) ≤ (cat.discount redemption.redeemedDiscount).amount.toRat) ∧
        (price.toRat ≠ 0 →
          -(price.toRat / 20000) ≤ price.toRat - (cat.discount redemption.redeemedDiscount).amount.toRat ∧
          -(price.toRat / 20000) ≤ (cat.discount redemption.redeemedDiscount).amount.toRat) := by
    unfold Discount.ReportedRight
    rw [htype]
  have hoff : ∀ x, x = price.toRat - (cat.discount redemption.redeemedDiscount).amount.toRat →
      (roundHalfEven (x * 10 ^ 2) = price.units - min (roundHalfEven
        ((cat.discount redemption.redeemedDiscount).getProductPrice product * 10 ^ 2)) price.units ↔
          OffPrice price x) := by
    rintro x rfl
    rw [← offPrice_iff, sub_sub_cancel]
    unfold Discount.getProductPrice
    rw [htype]
  rw [hright]
  by_cases hwhole : (cat.discount redemption.redeemedDiscount).amount.toRat = 0 ∨ price.toRat = 0
  · have hpercent : order.getDiscountPercent cat = .ok (quantize 2 100) := by
      simp [Order.getDiscountPercent, Order.dealDiscount, hone, hproduct, htype, formatDecimal, hwhole]
    have hhundred : 0 ≤ (quantize 2 100).toRat ∧ (quantize 2 100).toRat ≤ 100 := by decide +kernel
    rw [reportsCharge_iff_of_written hamount hpercent, hcharged, hoff _ rfl]
    refine and_congr_right fun hcents => (and_iff_right hhundred).trans ?_
    exact relative_hundred_iff h.nonneg hwhole hcents
  · obtain ⟨hamountNe, hzero⟩ := not_or.mp hwhole
    have hpos : 0 < price.toRat := lt_of_le_of_ne h.nonneg (Ne.symm hzero)
    have hpercent : order.getDiscountPercent cat = .ok (quantize 2
        ((price.toRat - (cat.discount redemption.redeemedDiscount).amount.toRat) / price.toRat * 100)) := by
      simp [Order.getDiscountPercent, Order.dealDiscount, hone, hproduct, htype, formatDecimal, decimalDiv,
        hzero, hamountNe]
    have hrelative : ∃ x y, x * 100 = y * price.toRat ∧
        quantize 2 x = quantize 2
          (price.toRat - (cat.discount redemption.redeemedDiscount).amount.toRat) ∧
        quantize 2 y = quantize 2
          ((price.toRat - (cat.discount redemption.redeemedDiscount).amount.toRat) / price.toRat * 100) :=
      ⟨_, _, by field_simp, rfl, rfl⟩
    rw [reportsCharge_iff_of_written hamount hpercent, hcharged, hoff _ rfl, quantize_nonneg_iff,
      quantize_le_hundred_iff, part_bounds_iff hpos, and_iff_left hrelative]
    refine and_congr_right fun _ => ?_
    rw [imp_iff_right hzero, and_iff_right fun heq => absurd heq hzero]
    refine and_congr_right fun _ => ?_
    constructor <;> intro hle <;> linarith

end OneDiscount

/-- A deal reports the discount that was charged exactly if it is one that is reported right. -/
theorem reportsCharge_iff (h : SinglyDiscounted cat order l price) :
    (∃ amount percent, ReportsCharge cat order l price amount percent) ↔
      ∀ redemption ∈ order.discounts, (cat.discount redemption.redeemedDiscount).ReportedRight price := by
  have hlength := h.discounts
  cases hdiscounts : order.discounts with
  | nil =>
    obtain ⟨product, hprice, hunit⟩ := h.unitDiscountedPrice_eq
    have hamount : order.getDiscountAmount cat = .ok ⟨0⟩ := by
      simp [Order.getDiscountAmount, Order.dealDiscount, hdiscounts]
    have hpercent : order.getDiscountPercent cat = .ok ⟨0⟩ := by
      simp [Order.getDiscountPercent, Order.dealDiscount, hdiscounts]
    have hzero : (⟨0⟩ : Decimal 2).toRat = 0 := by decide +kernel
    have hbest : bestPrice cat order.discountIds product = price.toRat := by
      unfold Order.discountIds bestPrice
      rw [hdiscounts, hprice]
      rfl
    rw [hbest, rounded_toRat] at hunit
    have hnone : ∀ redemption ∈ ([] : List DiscountRedemption),
        (cat.discount redemption.redeemedDiscount).ReportedRight price :=
      fun _ hmem => absurd hmem List.not_mem_nil
    rw [reportsCharge_iff_of_written hamount hpercent, hzero]
    refine iff_of_true ⟨⟨_, hunit, (sub_self _).symm⟩, ⟨le_rfl, by norm_num⟩, 0, 0, ?_, ?_, ?_⟩ hnone
    · rw [zero_mul, zero_mul]
    · decide +kernel
    · decide +kernel
  | cons redemption rest =>
    rw [hdiscounts, List.length_cons] at hlength
    have hrest : rest = [] := List.eq_nil_of_length_eq_zero (by omega)
    rw [hrest] at hdiscounts ⊢
    rw [List.forall_mem_singleton]
    cases htype : (cat.discount redemption.redeemedDiscount).discountType with
    | percentOff => exact h.percentOff_iff hdiscounts htype
    | dollarsOff => exact h.dollarsOff_iff hdiscounts htype
    | fixedPrice => exact h.fixedPrice_iff hdiscounts htype

/-- Every product has one price, and every discount is the same. -/
def dealCatalog (price : Decimal 2) (amount : Decimal 5) (discountType : DiscountType) : Catalog :=
  { Catalog.ofPrices (fun _ => price) with
    discount := fun _ => ⟨amount, discountType, .unlimited, some .marketing, some 0, none, none, [], []⟩ }

/-- The line for product 1. -/
def dealLine (cat : Catalog) : Line := Line.new cat 1 ⟨1, 1, cat.product 1⟩

/-- An order for product 1 with discount 1. -/
def dealOrder (cat : Catalog) : Order :=
  { Order.new 1 .stripe with
    lines := ⟨[dealLine cat], List.pairwise_singleton _ _⟩
    discounts := [⟨1, 1⟩] }

theorem dealOrder_singlyDiscounted (price : Decimal 2) (amount : Decimal 5) (discountType : DiscountType)
    (hnonneg : 0 ≤ price.toRat) :
    SinglyDiscounted (dealCatalog price amount discountType)
      (dealOrder (dealCatalog price amount discountType))
      (dealLine (dealCatalog price amount discountType)) price :=
  ⟨rfl, le_rfl, ⟨_, rfl, rfl⟩, rfl, hnonneg⟩

/-- A quarter off 100 dollars is reported as 25 dollars. -/
theorem reportsCharge_quarter :
    ∃ amount percent, ReportsCharge (dealCatalog ⟨10000⟩ ⟨2500000⟩ .percentOff)
      (dealOrder (dealCatalog ⟨10000⟩ ⟨2500000⟩ .percentOff))
      (dealLine (dealCatalog ⟨10000⟩ ⟨2500000⟩ .percentOff)) ⟨10000⟩ amount percent := by
  have hsingle := dealOrder_singlyDiscounted ⟨10000⟩ ⟨2500000⟩ .percentOff (by decide +kernel)
  have hright : ((dealCatalog ⟨10000⟩ ⟨2500000⟩ .percentOff).discount 1).ReportedRight ⟨10000⟩ :=
    ⟨by decide +kernel, by decide +kernel, by decide +kernel, fun _ _ => by decide⟩
  exact (reportsCharge_iff hsingle).mpr fun _ _ => hright

/-- What the API accepts for 150 dollars off. -/
def deepDiscount : DiscountData :=
  ⟨⟨15000000⟩, .dollarsOff, .unlimited, some .marketing, some 0, "DEEP", none, none⟩

/-- Of 150 dollars off 100 dollars, 150 dollars are reported and 100 dollars are given. -/
theorem not_reportsCharge :
    ¬∀ (cat : Catalog) (order : Order) (l : Line) (price : Decimal 2),
      (∀ redemption ∈ order.discounts, (cat.discount redemption.redeemedDiscount).Creatable) →
      SinglyDiscounted cat order l price →
      ∃ amount percent, ReportsCharge cat order l price amount percent := by
  intro h
  have hcreatable : ((dealCatalog ⟨10000⟩ ⟨15000000⟩ .dollarsOff).discount 1).Creatable :=
    .posted 0 deepDiscount rfl
  have hsingle := dealOrder_singlyDiscounted ⟨10000⟩ ⟨15000000⟩ .dollarsOff (by decide +kernel)
  obtain ⟨amount, percent, hreports⟩ := h _ _ _ _ (fun _ _ => hcreatable) hsingle
  have hamount := hreports.amountWritten
  obtain ⟨charged, hcharged, heq⟩ := hreports.charged
  cases hamount
  cases hcharged
  exact absurd heq (by decide +kernel)

end MitxOnline

import MitxOnline.Ecommerce.Proofs.AutoDiscountsProofs
import MitxOnline.Ecommerce.Proofs.DiscountsProofs

/-!
# The better discount of two

A discount that a basket gets replaces the one it has if it is better for some item, where the price of
one unit is compared with that of all units now and an item that would be free is passed over. What the
user wants is the lower total.
-/

namespace MitxOnline

open FixedPoint

variable {cat : Catalog} {tiers : List FlexiblePriceTier} {s : Store} {now : Instant} {user : UserId}
  {basket : Basket} {allowFinaid : Bool} {c d : DiscountId}

/-- The total of the basket with one discount. -/
def totalWith (cat : Catalog) (basket : Basket) (user : UserId) (d : DiscountId) : ℚ :=
  (basket.withDiscount user d).getDiscountedPrice cat

/-- The basket with the current discount `c` takes `d` if the total is lower with it, and so has the
lower total afterwards. -/
structure TakesLowerTotal (cat : Catalog) (tiers : List FlexiblePriceTier) (s : Store) (now : Instant)
    (user : UserId) (allowFinaid : Bool) (basket : Basket) (c d : DiscountId) : Prop where
  takes : applyDiscountToBasket cat tiers s now user allowFinaid (basket.withDiscount user c) d =
    .ok (if totalWith cat basket user d < totalWith cat basket user c then basket.withDiscount user d
      else basket.withDiscount user c)
  total : ∀ basket',
    applyDiscountToBasket cat tiers s now user allowFinaid (basket.withDiscount user c) d = .ok basket' →
      basket'.getDiscountedPrice cat =
        min (totalWith cat basket user c) (totalWith cat basket user d)

/-- The item is not free with `d`, and one unit of it costs at most what all its units cost with `c`. -/
def Favours (cat : Catalog) (c d : DiscountId) (item : BasketItem) : Prop :=
  currentUnitPrice cat [d] item.product ≠ 0 ∧
    currentUnitPrice cat [d] item.product ≤ currentUnitPrice cat [c] item.product * item.quantity

/-- Where `d` gives a lower total, `c` is not assigned to the user and `d` can be used and favours some
item. Elsewhere there are items and one of these fails, or the two are the same discount. -/
structure FavoursLowerTotal (cat : Catalog) (s : Store) (now : Instant) (user : UserId) (basket : Basket)
    (c d : DiscountId) : Prop where
  lower : totalWith cat basket user d < totalWith cat basket user c →
    isUserDiscount cat user c = false ∧ checkValidity cat s now d user = true ∧
      ∃ item ∈ basket.basketItems, Favours cat c d item
  notLower : totalWith cat basket user c ≤ totalWith cat basket user d → c ≠ d →
    basket.basketItems ≠ [] ∧ (isUserDiscount cat user c = true ∨
      checkValidity cat s now d user = false ∨ ∀ item ∈ basket.basketItems, ¬Favours cat c d item)

/-! ## When the discount is replaced -/

theorem foundBetter_iff :
    foundBetter cat s now user (basket.withDiscount user c) d = true ↔
      checkValidity cat s now d user = true ∧ ∃ item ∈ basket.basketItems, Favours cat c d item := by
  unfold foundBetter discountProduct Favours
  rw [List.any_eq_true]
  cases checkValidity cat s now d user with
  | false => simp
  | true =>
    simp only [if_true, Option.any_some, Bool.and_eq_true, decide_eq_true_eq, true_and]
    exact Iff.rfl

/-- The new discount is put in the place of the current one. -/
def Replaces (cat : Catalog) (s : Store) (now : Instant) (user : UserId) (basket : Basket)
    (c d : DiscountId) : Prop :=
  basket.basketItems = [] ∨ isUserDiscount cat user c = false ∧
    checkValidity cat s now d user = true ∧ ∃ item ∈ basket.basketItems, Favours cat c d item

theorem applyDiscountToBasket_ordinary
    (hvalid : isValid cat s now d allowFinaid user basket = .ok true)
    (huser : isUserDiscount cat user d = false) (htier : isTierDiscount tiers d = false) :
    (Replaces cat s now user basket c d →
      applyDiscountToBasket cat tiers s now user allowFinaid (basket.withDiscount user c) d =
        .ok (basket.withDiscount user d)) ∧
    (¬Replaces cat s now user basket c d →
      applyDiscountToBasket cat tiers s now user allowFinaid (basket.withDiscount user c) d =
        .ok (basket.withDiscount user c)) := by
  have hvalid' : isValid cat s now d allowFinaid user (basket.withDiscount user c) = .ok true := hvalid
  have hheld : (basket.withDiscount user c).discounts = [⟨user, c⟩] := rfl
  have hitems : (basket.withDiscount user c).basketItems = basket.basketItems := rfl
  unfold applyDiscountToBasket Replaces
  rw [hvalid', updateOrCreateDiscount_withDiscount, ← foundBetter_iff]
  simp only [hheld, hitems, huser, htier, List.any_cons, List.any_nil, Bool.or_false,
    List.length_singleton, Nat.lt_one_iff]
  cases hitem : basket.basketItems with
  | nil => simp
  | cons item rest =>
    cases isUserDiscount cat user c <;>
      cases foundBetter cat s now user (basket.withDiscount user c) d <;> simp

theorem totalWith_of_empty (hempty : basket.basketItems = []) (c : DiscountId) :
    totalWith cat basket user c = 0 := by
  simp [totalWith, basket_total_eq, Basket.withDiscount, hempty]

theorem withDiscount_injective (h : basket.withDiscount user c = basket.withDiscount user d) : c = d := by
  simpa [Basket.withDiscount] using h

theorem not_replaces_iff :
    ¬Replaces cat s now user basket c d ↔
      basket.basketItems ≠ [] ∧ (isUserDiscount cat user c = true ∨
        checkValidity cat s now d user = false ∨
          ∀ item ∈ basket.basketItems, ¬Favours cat c d item) := by
  unfold Replaces
  grind

/-! ## When the lower total is taken -/

/-- The total after the call follows from which discount the basket has then. -/
theorem takesLowerTotal_of_takes
    (h : applyDiscountToBasket cat tiers s now user allowFinaid (basket.withDiscount user c) d =
      .ok (if totalWith cat basket user d < totalWith cat basket user c then basket.withDiscount user d
        else basket.withDiscount user c)) :
    TakesLowerTotal cat tiers s now user allowFinaid basket c d := by
  refine ⟨h, fun basket' hafter => ?_⟩
  rw [h] at hafter
  cases hafter
  split
  · rename_i hlower
    exact (min_eq_right hlower.le).symm
  · rename_i hlower
    exact (min_eq_left (not_lt.mp hlower)).symm

/-- A discount that is neither assigned to the user nor one of a tier is taken for the lower total
exactly if it is favoured there. -/
theorem takesLowerTotal_iff (hvalid : isValid cat s now d allowFinaid user basket = .ok true)
    (huser : isUserDiscount cat user d = false) (htier : isTierDiscount tiers d = false) :
    TakesLowerTotal cat tiers s now user allowFinaid basket c d ↔
      FavoursLowerTotal cat s now user basket c d := by
  obtain ⟨hreplaces, hkeeps⟩ := applyDiscountToBasket_ordinary (c := c) hvalid huser htier
  constructor
  · intro h
    constructor
    · intro hlower
      have htakes := h.takes
      rw [if_pos hlower] at htakes
      by_cases hrep : Replaces cat s now user basket c d
      · refine hrep.resolve_left fun hempty => ?_
        rw [totalWith_of_empty hempty, totalWith_of_empty hempty] at hlower
        exact lt_irrefl 0 hlower
      · rw [hkeeps hrep] at htakes
        have hsame : c = d := withDiscount_injective (Except.ok.inj htakes)
        rw [hsame] at hlower
        exact absurd hlower (lt_irrefl _)
    · intro hle hne
      have htakes := h.takes
      rw [if_neg (not_lt.mpr hle)] at htakes
      refine not_replaces_iff.mp fun hrep => hne ?_
      rw [hreplaces hrep] at htakes
      exact (withDiscount_injective (Except.ok.inj htakes)).symm
  · intro h
    apply takesLowerTotal_of_takes
    by_cases hlower : totalWith cat basket user d < totalWith cat basket user c
    · rw [if_pos hlower, hreplaces (Or.inr (h.lower hlower))]
    · rw [if_neg hlower]
      by_cases hsame : c = d
      · by_cases hrep : Replaces cat s now user basket c d
        · rw [hreplaces hrep, hsame]
        · exact hkeeps hrep
      · exact hkeeps (not_replaces_iff.mpr (h.notLower (not_lt.mp hlower) hsame))

/-- Where the new discount makes no item free, a lower total is favoured: some item gets cheaper. -/
theorem exists_favoured_of_lower (hlower : totalWith cat basket user d < totalWith cat basket user c)
    (hfree : ∀ item ∈ basket.basketItems, 0 < currentUnitPrice cat [d] item.product) :
    ∃ item ∈ basket.basketItems, Favours cat c d item := by
  unfold totalWith at hlower
  rw [basket_total_eq, basket_total_eq] at hlower
  obtain ⟨item, hitem, hlt⟩ := List.exists_lt_of_sum_lt _ _ hlower
  have hpos := hfree item hitem
  have hcheaper : (item.quantity : ℚ) * currentUnitPrice cat [d] item.product <
      item.quantity * currentUnitPrice cat [c] item.product := hlt
  have hunits : (1 : ℚ) ≤ item.quantity := by
    rw [Nat.one_le_cast, Nat.one_le_iff_ne_zero]
    intro hzero
    simp [hzero] at hcheaper
  refine ⟨item, hitem, hpos.ne', ?_⟩
  calc currentUnitPrice cat [d] item.product
      ≤ item.quantity * currentUnitPrice cat [d] item.product := le_mul_of_one_le_left hpos.le hunits
    _ ≤ currentUnitPrice cat [c] item.product * item.quantity := by
      rw [mul_comm (currentUnitPrice cat [c] item.product)]
      exact hcheaper.le

/-- Of ten and twenty percent off, twenty are taken. -/
theorem takesLowerTotal_ten_twenty :
    TakesLowerTotal (percentCatalog (10 * ·)) [] Store.empty 0 1 false ⟨[⟨1, 1⟩], []⟩ 1 2 := by
  have hfavours : Favours (percentCatalog (10 * ·)) 1 2 ⟨1, 1⟩ :=
    ⟨by decide +kernel, by decide +kernel⟩
  refine (takesLowerTotal_iff (by decide) (by decide) (by decide)).mpr ⟨fun _ => ?_, fun hle => ?_⟩
  · exact ⟨by decide, by decide, ⟨1, 1⟩, List.mem_singleton_self _, hfavours⟩
  · exact absurd hle (by decide +kernel)

/-- A hundred percent off make the basket free, and are not taken in the place of ten. -/
theorem not_takesLowerTotal :
    ¬∀ (cat : Catalog) (tiers : List FlexiblePriceTier) (s : Store) (now : Instant) (user : UserId)
      (allowFinaid : Bool) (basket : Basket) (c d : DiscountId),
      isValid cat s now d allowFinaid user basket = .ok true → isUserDiscount cat user d = false →
      isTierDiscount tiers d = false →
      TakesLowerTotal cat tiers s now user allowFinaid basket c d := by
  intro h
  have htakes := h (percentCatalog (10 * ·)) [] Store.empty 0 1 false ⟨[⟨1, 1⟩], []⟩ 1 10 (by decide)
    (by decide) (by decide)
  have htotal := htakes.total ⟨[⟨1, 1⟩], [⟨1, 1⟩]⟩ (by decide +kernel)
  revert htotal
  decide +kernel

end MitxOnline

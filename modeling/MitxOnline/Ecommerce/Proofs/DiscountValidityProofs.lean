import Mathlib.Algebra.Order.BigOperators.Group.List
import MitxOnline.Ecommerce.DiscountValidity

/-!
# Do the validity predicates agree?

`is_valid` compares the redemption count with a limit that may be unset, and it looks neither at
one-time use nor at the last instant of the expiration date as the checks of the checkout do. Where
none of this comes into play, what it accepts the other two accept.
-/

namespace MitxOnline

variable {cat : Catalog} {s : Store} {now : Instant} {d : DiscountId} {allowFinaid : Bool}
  {user : UserId} {basket : Basket}

/-- `is_valid` answers, and what it accepts the checks of the checkout accept. -/
def ValidityAgrees (cat : Catalog) (s : Store) (now : Instant) (d : DiscountId) (allowFinaid : Bool)
    (user : UserId) (basket : Basket) : Prop :=
  (∃ answer, isValid cat s now d allowFinaid user basket = .ok answer) ∧
  (isValid cat s now d allowFinaid user basket = .ok true →
    checkValidity cat s now d user = true ∧
      checkValidityWithProducts cat now d basket.getProducts = true)

/-- The discount is not used up by its kind of redemption and does not expire at this very
instant. -/
structure NotUsedUp (cat : Catalog) (s : Store) (now : Instant) (d : DiscountId) (user : UserId) :
    Prop where
  oneTime : (cat.discount d).redemptionType = .oneTime → s.fulfilledRedemptions d = 0
  oneTimePerUser : (cat.discount d).redemptionType = .oneTimePerUser →
    s.fulfilledRedemptionsBy d user = 0
  expiration : (cat.discount d).expirationDate ≠ some now

/-- A discount that suits the basket has a limit, and if it is below the limit and within its dates
it is not used up. -/
def ValidityCondition (cat : Catalog) (s : Store) (now : Instant) (d : DiscountId)
    (allowFinaid : Bool) (user : UserId) (basket : Basket) : Prop :=
  (cat.discount d).suits allowFinaid user basket = true →
    (cat.discount d).maxRedemptions ≠ none ∧
      (redemptionLimitValid cat s d = .ok true → (cat.discount d).datesValid now = true →
        NotUsedUp cat s now d user)

theorem redemptionCount_mono (s : Store) {p q : Order → DiscountRedemption → Bool}
    (h : ∀ o r, p o r = true → q o r = true) : s.redemptionCount p ≤ s.redemptionCount q := by
  unfold Store.redemptionCount
  apply List.sum_le_sum
  intro o _
  exact List.countP_mono_left fun r _ hr => h _ r hr

theorem fulfilledRedemptions_le (s : Store) (d : DiscountId) :
    s.fulfilledRedemptions d ≤ s.orderRedemptions d := by
  apply redemptionCount_mono
  intro o r h
  exact (Bool.and_eq_true_iff.mp h).2

theorem redemptionLimitValid_ok (h : (cat.discount d).maxRedemptions ≠ none) :
    ∃ answer, redemptionLimitValid cat s d = .ok answer := by
  unfold redemptionLimitValid
  split
  · exact ⟨_, rfl⟩
  · exact ⟨_, rfl⟩
  · exact absurd ‹_› h

/-- Below the limit of `is_valid` the discount is below the limit of `check_validity`. -/
theorem below_limit (h : redemptionLimitValid cat s d = .ok true) :
    ¬(0 < (cat.discount d).maxRedemptions.getD 0 ∧
      (cat.discount d).maxRedemptions.getD 0 ≤ s.fulfilledRedemptions d) := by
  rintro ⟨hpos, hle⟩
  have hcount := fulfilledRedemptions_le s d
  unfold redemptionLimitValid at h
  cases hm : (cat.discount d).maxRedemptions with
  | none => simp [hm] at h
  | some m =>
    rw [hm, Option.getD_some] at hpos hle
    have hlt : s.orderRedemptions d < m := by
      cases m with
      | zero => omega
      | succ n => simpa [hm] using h
    omega

/-- Within the dates of `is_valid`, a discount is valid now unless it expires at this instant. -/
theorem validNow_iff (h : (cat.discount d).datesValid now = true) :
    (cat.discount d).validNow now = true ↔ (cat.discount d).expirationDate ≠ some now := by
  unfold Discount.datesValid at h
  unfold Discount.validNow
  obtain ⟨hact, hexp⟩ := Bool.and_eq_true_iff.mp h
  have hact' : ((cat.discount d).activationDate.any fun a => decide (now < a)) = false := by
    cases ha : (cat.discount d).activationDate with
    | none => rfl
    | some a =>
      have : a ≤ now := by simpa [ha] using hact
      simp [this]
  cases he : (cat.discount d).expirationDate with
  | none => simp [hact']
  | some e =>
    have hle : now ≤ e := by simpa [he] using hexp
    have hne : ¬e ≤ now ↔ e ≠ now := not_congr ⟨fun h => le_antisymm h hle, le_of_eq⟩
    simpa [hact'] using hne

theorem isValid_eq_true :
    isValid cat s now d allowFinaid user basket = .ok true ↔
      (cat.discount d).suits allowFinaid user basket = true ∧ redemptionLimitValid cat s d = .ok true ∧
        (cat.discount d).datesValid now = true := by
  unfold isValid
  by_cases hs : (cat.discount d).suits allowFinaid user basket = true
  · rw [if_pos hs]
    rcases redemptionLimitValid cat s d with e | b
    · simp
    · cases b <;> simp [hs]
  · simp [hs]

theorem isValid_ok_iff :
    (∃ answer, isValid cat s now d allowFinaid user basket = .ok answer) ↔
      ((cat.discount d).suits allowFinaid user basket = true →
        (cat.discount d).maxRedemptions ≠ none) := by
  unfold isValid
  by_cases hs : (cat.discount d).suits allowFinaid user basket = true
  · rw [if_pos hs]
    constructor
    · rintro ⟨answer, h⟩ _ hnone
      simp [redemptionLimitValid, hnone] at h
    · intro h
      obtain ⟨b, hb⟩ := redemptionLimitValid_ok (s := s) (h hs)
      rw [hb]
      cases b <;> exact ⟨_, rfl⟩
  · rw [if_neg hs]
    exact ⟨fun _ h => absurd h hs, fun _ => ⟨_, rfl⟩⟩

/-- A discount that suits the basket has a product in it, if it has products at all. -/
theorem products_of_suits (h : (cat.discount d).suits allowFinaid user basket = true) :
    ¬((cat.discount d).products ≠ [] ∧
      (cat.discount d).hasProductIn basket.getProducts = false) := by
  unfold Discount.suits Discount.productInBasket at h
  rintro ⟨hne, hin⟩
  simp [hin, hne] at h

/-- For a discount that `is_valid` accepts the other checks come down to `NotUsedUp`. -/
theorem checks_iff_notUsedUp (hs : (cat.discount d).suits allowFinaid user basket = true)
    (hl : redemptionLimitValid cat s d = .ok true) (hd : (cat.discount d).datesValid now = true) :
    (checkValidity cat s now d user = true ∧
      checkValidityWithProducts cat now d basket.getProducts = true) ↔
      NotUsedUp cat s now d user := by
  unfold checkValidity checkValidityWithProducts
  rw [if_neg (below_limit hl), if_neg (products_of_suits hs)]
  constructor
  · rintro ⟨h, hnow⟩
    refine ⟨fun hone => ?_, fun hone => ?_, (validNow_iff hd).mp hnow⟩
    · by_contra hused
      rw [if_pos ⟨hone, Nat.pos_of_ne_zero hused⟩] at h
      exact absurd h (by simp)
    · by_contra hused
      rw [if_neg (by simp [hone]), if_pos ⟨hone, Nat.pos_of_ne_zero hused⟩] at h
      exact absurd h (by simp)
  · intro h
    have hnow := (validNow_iff hd).mpr h.expiration
    have hone : ¬((cat.discount d).redemptionType = .oneTime ∧ 0 < s.fulfilledRedemptions d) := by
      rintro ⟨hkind, hused⟩
      exact absurd (h.oneTime hkind) (by omega)
    have huser : ¬((cat.discount d).redemptionType = .oneTimePerUser ∧
        0 < s.fulfilledRedemptionsBy d user) := by
      rintro ⟨hkind, hused⟩
      exact absurd (h.oneTimePerUser hkind) (by omega)
    rw [if_neg hone, if_neg huser]
    exact ⟨hnow, hnow⟩

/-- The predicates agree exactly under `ValidityCondition`. -/
theorem isValid_agrees_iff (cat : Catalog) (s : Store) (now : Instant) (d : DiscountId)
    (allowFinaid : Bool) (user : UserId) (basket : Basket) :
    ValidityAgrees cat s now d allowFinaid user basket ↔
      ValidityCondition cat s now d allowFinaid user basket := by
  unfold ValidityAgrees ValidityCondition
  rw [isValid_ok_iff, isValid_eq_true]
  constructor
  · rintro ⟨hok, hagree⟩ hs
    exact ⟨hok hs, fun hl hd => (checks_iff_notUsedUp hs hl hd).mp (hagree ⟨hs, hl, hd⟩)⟩
  · intro h
    refine ⟨fun hs => (h hs).1, ?_⟩
    rintro ⟨hs, hl, hd⟩
    exact (checks_iff_notUsedUp hs hl hd).mpr ((h hs).2 hl hd)

/-- A discount without a limit on its redemptions. -/
def unlimitedDiscount : Discount :=
  ⟨⟨1000000⟩, .dollarsOff, .unlimited, none, none, none, none, [], []⟩

/-- For a discount whose limit is unset `is_valid` raises. -/
theorem isValid_raises_without_limit :
    ¬∀ (cat : Catalog) (s : Store) (now : Instant) (d : DiscountId) (user : UserId)
      (basket : Basket), ValidityAgrees cat s now d false user basket := by
  intro h
  obtain ⟨⟨answer, hok⟩, -⟩ :=
    h { Catalog.ofPrices (fun _ => ⟨10000⟩) with discount := fun _ => unlimitedDiscount }
      Store.empty 0 1 1 ⟨[⟨1, 1⟩], []⟩
  exact absurd hok (by simp [isValid, Discount.suits, unlimitedDiscount, Discount.productInBasket,
    Discount.userHasDiscount, redemptionLimitValid])

end MitxOnline

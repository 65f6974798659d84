import MitxOnline.Ecommerce.DiscountValidity
import MitxOnline.Ecommerce.Proofs.DiscountValidityProofs

/-!
# Discounts that were redeemed too often (`check_for_duplicate_discount_redemptions`)

A discount of one time, or of one time per user, may get redeemed more than once if the orders are
completed at the same time. The check lists such discounts and logs what it found.
-/

namespace MitxOnline

/-- The redemptions in fulfilled orders that pass a test. -/
def Store.redemptionsFulfilled (s : Store) (test : DiscountRedemption → Bool) :
    List DiscountRedemption :=
  s.orders.keys.flatMap fun o =>
    if (s.order o).state = .fulfilled then (s.order o).discounts.filter test else []

/-- The number of redemptions of `d` by `user` in orders of any state. -/
def Store.orderRedemptionsBy (s : Store) (d : DiscountId) (user : UserId) : ℕ :=
  s.redemptionCount fun _ r => r.redeemedDiscount == d && r.redeemedBy == user

/-- What is logged. -/
inductive DuplicateMessage where
  | redeemedMoreThanOnce (d : DiscountId)
  | redeemedMoreThanOnceBy (d : DiscountId) (user : UserId)
  deriving DecidableEq, Repr

/-- The discounts that were seen, and the log. -/
structure DuplicateCheck where
  seen : List DiscountId
  log : List DuplicateMessage
  deriving DecidableEq, Repr

/-- The users in `seen_user` after a redemption. -/
def seeUser (s : Store) (d : DiscountId) (seenUser : List UserId) (r : DiscountRedemption) :
    List UserId :=
  if r.redeemedBy ∈ seenUser then seenUser
  else if 1 < s.orderRedemptionsBy d r.redeemedBy then seenUser ++ [r.redeemedBy]
  else seenUser

/-- The loop over the users of a discount of one time per user. -/
def seenUsers (s : Store) (d : DiscountId) : List UserId :=
  (s.redemptionsFulfilled fun r => r.redeemedDiscount == d).foldl (seeUser s d) []

/-- The body of the loop over the redemptions. -/
def checkRedemption (cat : Catalog) (s : Store) (check : DuplicateCheck) (r : DiscountRedemption) :
    DuplicateCheck :=
  if r.redeemedDiscount ∈ check.seen then check
  else if 1 < s.fulfilledRedemptions r.redeemedDiscount then
    match (cat.discount r.redeemedDiscount).redemptionType with
    | .oneTime =>
      ⟨check.seen ++ [r.redeemedDiscount],
        check.log ++ [.redeemedMoreThanOnce r.redeemedDiscount]⟩
    | .oneTimePerUser =>
      ⟨check.seen ++ [r.redeemedDiscount],
        check.log ++ (seenUsers s r.redeemedDiscount).map (.redeemedMoreThanOnceBy r.redeemedDiscount)⟩
    | .unlimited => check
  else check

/-- A discount of one time or of one time per user. -/
def Discount.isLimited (d : Discount) : Bool :=
  d.redemptionType == .oneTime || d.redemptionType == .oneTimePerUser

/-- `check_for_duplicate_discount_redemptions` -/
def checkForDuplicateDiscountRedemptions (cat : Catalog) (s : Store) : DuplicateCheck :=
  (s.redemptionsFulfilled fun r => (cat.discount r.redeemedDiscount).isLimited).foldl
    (checkRedemption cat s) ⟨[], []⟩

/-- The discount was redeemed too often in fulfilled orders: more than once, or more than once by one
user. -/
def RedeemedTooOften (cat : Catalog) (s : Store) (d : DiscountId) : Prop :=
  match (cat.discount d).redemptionType with
  | .oneTime => 1 < s.fulfilledRedemptions d
  | .oneTimePerUser => ∃ user, 1 < s.fulfilledRedemptionsBy d user
  | .unlimited => False

/-- The check returns the discounts that were redeemed too often, each once. -/
structure DetectsDuplicates (cat : Catalog) (s : Store) : Prop where
  exact : ∀ d, d ∈ (checkForDuplicateDiscountRedemptions cat s).seen ↔ RedeemedTooOften cat s d
  once : (checkForDuplicateDiscountRedemptions cat s).seen.Nodup

/-!
## What the check for duplicate redemptions finds

The check lists the limited discounts that were redeemed more than once, by whomever. For a discount of
one time per user that is too much: it is listed as soon as two users have redeemed it.
-/

variable {cat : Catalog} {s : Store} {d : DiscountId} {check : DuplicateCheck} {r : DiscountRedemption}
  {rows : List DiscountRedemption}

/-- The discount is limited and was redeemed more than once. -/
def RedeemedTwice (cat : Catalog) (s : Store) (d : DiscountId) : Prop :=
  (cat.discount d).redemptionType ≠ .unlimited ∧ 1 < s.fulfilledRedemptions d

/-! ## The loop over the redemptions -/

/-- A redemption adds its discount, if that was redeemed twice. -/
theorem mem_checkRedemption :
    d ∈ (checkRedemption cat s check r).seen ↔
      d ∈ check.seen ∨ (d = r.redeemedDiscount ∧ RedeemedTwice cat s d) := by
  unfold checkRedemption RedeemedTwice
  split_ifs with hseen hcount
  · constructor
    · exact Or.inl
    · rintro (h | ⟨rfl, -⟩)
      · exact h
      · exact hseen
  · cases htype : (cat.discount r.redeemedDiscount).redemptionType <;> grind
  · grind

theorem nodup_checkRedemption (h : check.seen.Nodup) : (checkRedemption cat s check r).seen.Nodup := by
  unfold checkRedemption
  split_ifs with hseen hcount
  · exact h
  · have happend : (check.seen ++ [r.redeemedDiscount]).Nodup := by
      rw [List.nodup_append]
      refine ⟨h, List.nodup_singleton _, fun a ha b hb => ?_⟩
      rw [List.mem_singleton.mp hb]
      exact fun heq => hseen (heq ▸ ha)
    cases (cat.discount r.redeemedDiscount).redemptionType with
    | oneTime => exact happend
    | oneTimePerUser => exact happend
    | unlimited => exact h
  · exact h

/-- The loop lists the discounts of the redemptions that were redeemed twice. -/
theorem mem_checkRedemptions :
    d ∈ (rows.foldl (checkRedemption cat s) check).seen ↔
      d ∈ check.seen ∨ (RedeemedTwice cat s d ∧ ∃ r ∈ rows, r.redeemedDiscount = d) := by
  induction rows generalizing check with
  | nil => simp
  | cons r rows ih =>
    rw [List.foldl_cons, ih, mem_checkRedemption]
    simp only [List.mem_cons, exists_eq_or_imp]
    grind

theorem nodup_checkRedemptions (h : check.seen.Nodup) :
    (rows.foldl (checkRedemption cat s) check).seen.Nodup := by
  induction rows generalizing check with
  | nil => exact h
  | cons r rows ih => exact ih (nodup_checkRedemption h)

/-! ## Redemptions and their number -/

/-- A discount that was redeemed has a redemption. -/
theorem exists_redemption {test : DiscountRedemption → Bool} (h : 0 < s.fulfilledRedemptions d)
    (htest : ∀ r, r.redeemedDiscount = d → test r = true) :
    ∃ r ∈ s.redemptionsFulfilled test, r.redeemedDiscount = d := by
  unfold Store.fulfilledRedemptions Store.redemptionCount at h
  obtain ⟨count, hcount, hpos⟩ : ∃ n ∈ s.orders.keys.map fun o => (s.order o).discounts.countP
      fun r => (s.order o).state == .fulfilled && r.redeemedDiscount == d, 0 < n := by
    by_contra hnone
    refine h.ne' (List.sum_eq_zero fun n hn => ?_)
    exact Nat.eq_zero_of_not_pos fun hpos => hnone ⟨n, hn, hpos⟩
  obtain ⟨o, ho, rfl⟩ := List.mem_map.mp hcount
  obtain ⟨r, hr, hmatch⟩ := List.countP_pos_iff.mp hpos
  simp only [Bool.and_eq_true, beq_iff_eq] at hmatch
  refine ⟨r, List.mem_flatMap.mpr ⟨o, ho, ?_⟩, hmatch.2⟩
  rw [if_pos hmatch.1]
  exact List.mem_filter.mpr ⟨hr, htest r hmatch.2⟩

theorem fulfilledRedemptionsBy_le (s : Store) (d : DiscountId) (user : UserId) :
    s.fulfilledRedemptionsBy d user ≤ s.fulfilledRedemptions d := by
  apply redemptionCount_mono
  intro o r h
  exact (Bool.and_eq_true_iff.mp h).1

/-- The check returns the limited discounts that were redeemed more than once. -/
theorem mem_checkForDuplicates :
    d ∈ (checkForDuplicateDiscountRedemptions cat s).seen ↔ RedeemedTwice cat s d := by
  unfold checkForDuplicateDiscountRedemptions
  rw [mem_checkRedemptions]
  constructor
  · rintro (h | ⟨h, -⟩)
    · cases h
    · exact h
  · intro h
    refine Or.inr ⟨h, exists_redemption (Nat.zero_lt_of_lt h.2) fun r hr => ?_⟩
    have htype := h.1
    unfold Discount.isLimited
    rw [hr]
    cases ht : (cat.discount d).redemptionType with
    | oneTime => rfl
    | oneTimePerUser => rfl
    | unlimited => exact absurd ht htype

/-! ## When the check is exact -/

/-- Every discount of one time per user that was redeemed more than once was so by one user. -/
def RepeatedByOneUser (cat : Catalog) (s : Store) : Prop :=
  ∀ d, (cat.discount d).redemptionType = .oneTimePerUser → 1 < s.fulfilledRedemptions d →
    ∃ user, 1 < s.fulfilledRedemptionsBy d user

theorem redeemedTwice_of_tooOften (h : RedeemedTooOften cat s d) : RedeemedTwice cat s d := by
  unfold RedeemedTooOften at h
  unfold RedeemedTwice
  cases ht : (cat.discount d).redemptionType with
  | oneTime =>
    rw [ht] at h
    exact ⟨by simp, h⟩
  | oneTimePerUser =>
    rw [ht] at h
    obtain ⟨user, huser⟩ := h
    exact ⟨by simp, huser.trans_le (fulfilledRedemptionsBy_le s d user)⟩
  | unlimited =>
    rw [ht] at h
    exact h.elim

theorem detectsDuplicates_iff (cat : Catalog) (s : Store) :
    DetectsDuplicates cat s ↔ RepeatedByOneUser cat s := by
  constructor
  · intro h d htype hcount
    have htwice : RedeemedTwice cat s d := ⟨by simp [htype], hcount⟩
    have hoften := (h.exact d).mp (mem_checkForDuplicates.mpr htwice)
    rwa [RedeemedTooOften, htype] at hoften
  · intro h
    refine ⟨fun d => ?_, nodup_checkRedemptions List.nodup_nil⟩
    rw [mem_checkForDuplicates]
    refine ⟨fun htwice => ?_, redeemedTwice_of_tooOften⟩
    unfold RedeemedTooOften
    cases ht : (cat.discount d).redemptionType with
    | oneTime => exact htwice.2
    | oneTimePerUser => exact h d ht htwice.2
    | unlimited => exact absurd ht htwice.1

/-- A discount of one time per user. -/
def perUserCatalog : Catalog :=
  { Catalog.ofPrices (fun _ => ⟨10000⟩) with
    discount := fun _ => ⟨⟨100000⟩, .dollarsOff, .oneTimePerUser, none, some 0, none, none, [], []⟩ }

/-- Users 1 and 2 have redeemed discount 7 once each. -/
def redeemedByTwo : Store :=
  { Store.empty with
    orders := ⟨[1, 2], fun o => ⟨.fulfilled, o, 0, .stripe, Lines.empty, [⟨o, 7⟩], []⟩, by decide⟩ }

/-- The discount is listed, though no user has redeemed it more than once. -/
theorem not_detectsDuplicates : ¬∀ (cat : Catalog) (s : Store), DetectsDuplicates cat s := by
  intro h
  have hoften : ∃ user, 1 < redeemedByTwo.fulfilledRedemptionsBy 7 user :=
    ((h perUserCatalog redeemedByTwo).exact 7).mp (by decide)
  obtain ⟨user, huser⟩ := hoften
  simp only [Store.fulfilledRedemptionsBy, Store.redemptionCount, redeemedByTwo, Store.order,
    List.map_cons, List.map_nil, List.sum_cons, List.sum_nil, List.countP_singleton] at huser
  grind

end MitxOnline

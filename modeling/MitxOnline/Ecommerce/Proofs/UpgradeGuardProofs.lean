import MitxOnline.Ecommerce.Checkout

/-!
# The guard against course runs that cannot be upgraded

The loop of `has_user_purchased_non_upgradable_courserun` returns at its first item, so what it says of a
basket is what is true of the item that the database lists first.
-/

namespace MitxOnline

variable {cat : Catalog} {now : Instant} {user : UserId} {req : CheckoutRequest} {s : Store}
  {basket : Basket} {r : RunId} {items : List BasketItem}

/-- The item is for a course run that is not upgradable. -/
def BasketItem.IsNonUpgradable (cat : Catalog) (now : Instant) (item : BasketItem) : Prop :=
  (cat.product item.product).contentType = .courseRun ∧
    isUpgradable cat now (cat.product item.product).objectId = false

/-- The guard says whether an item cannot be upgraded, and a checkout with such an item is refused. -/
structure GuardCovers (cat : Catalog) (user : UserId) (req : CheckoutRequest) (s : Store) : Prop where
  guard : (s.basketOf user).hasUserPurchasedNonUpgradableCourserun cat req.now = true ↔
    ∃ item ∈ (s.basketOf user).basketItems, item.IsNonUpgradable cat req.now
  refused : (∃ item ∈ (s.basketOf user).basketItems, item.IsNonUpgradable cat req.now) →
    ∃ error, (generateCheckoutPayload cat user req s).2 = .ok (.refused error)

theorem isUpgradable_iff : isUpgradable cat now r = true ↔
    (cat.courseRun r).live = true ∧ (∀ deadline ∈ (cat.courseRun r).upgradeDeadline, now < deadline) ∧
      (∃ p ∈ cat.productIds, (cat.product p).isActive = true ∧
        (cat.product p).contentType = .courseRun ∧ (cat.product p).objectId = r) ∧
      (cat.courseRun r).verifiedMode = true := by
  simp only [isUpgradable, Bool.and_eq_true, Option.all_eq_true, decide_eq_true_eq, List.any_eq_true,
    beq_iff_eq, and_assoc, Option.mem_def]

theorem guard_iff_first : basket.hasUserPurchasedNonUpgradableCourserun cat now = true ↔
    ∃ item ∈ basket.basketItems.head?, item.IsNonUpgradable cat now := by
  unfold Basket.hasUserPurchasedNonUpgradableCourserun BasketItem.IsNonUpgradable
  cases basket.basketItems with
  | nil => simp
  | cons item rest => simp

/-- The guard is right about a basket whose first item cannot be upgraded, and about one with no such
item. -/
theorem guard_right_iff : (basket.hasUserPurchasedNonUpgradableCourserun cat now = true ↔
      ∃ item ∈ basket.basketItems, item.IsNonUpgradable cat now) ↔
    (∃ item ∈ basket.basketItems.head?, item.IsNonUpgradable cat now) ∨
      ∀ item ∈ basket.basketItems, ¬item.IsNonUpgradable cat now := by
  rw [guard_iff_first]
  constructor
  · intro h
    by_cases hsome : ∃ item ∈ basket.basketItems, item.IsNonUpgradable cat now
    · exact Or.inl (h.mpr hsome)
    · exact Or.inr fun item hitem hnot => hsome ⟨item, hitem, hnot⟩
  · rintro (⟨item, hitem, hnot⟩ | hnone)
    · have hmem : item ∈ basket.basketItems := List.mem_of_head? hitem
      exact iff_of_true ⟨item, hitem, hnot⟩ ⟨item, hmem, hnot⟩
    · refine iff_of_false ?_ ?_
      · rintro ⟨item, hitem, hnot⟩
        exact hnone item (List.mem_of_head? hitem) hnot
      · rintro ⟨item, hitem, hnot⟩
        exact hnone item hitem hnot

/-- Whatever order the database lists the items in, the guard is right exactly if all of them are course
runs that cannot be upgraded, or none is. -/
theorem guard_right_of_perm_iff : (∀ items', items'.Perm items →
      ((⟨items', basket.discounts⟩ : Basket).hasUserPurchasedNonUpgradableCourserun cat now = true ↔
        ∃ item ∈ items', item.IsNonUpgradable cat now)) ↔
    (∀ item ∈ items, item.IsNonUpgradable cat now) ∨ ∀ item ∈ items, ¬item.IsNonUpgradable cat now := by
  simp only [guard_right_iff]
  constructor
  · intro h
    by_contra hmixed
    obtain ⟨hall, hnone⟩ := not_or.mp hmixed
    -- list an item first that can be upgraded
    obtain ⟨item, hitem, hupgradable⟩ : ∃ item ∈ items, ¬item.IsNonUpgradable cat now := by
      simpa using hall
    obtain ⟨before, after, rfl⟩ := List.append_of_mem hitem
    have hperm : (item :: (before ++ after)).Perm (before ++ item :: after) := List.perm_middle.symm
    rcases h _ hperm with ⟨first, hfirst, hnot⟩ | hnot
    · cases hfirst
      exact hupgradable hnot
    · exact hnone fun item' hitem' => hnot item' (hperm.mem_iff.mpr hitem')
  · rintro (hall | hnone) items' hperm
    · cases items' with
      | nil => exact Or.inr fun item hitem => absurd hitem List.not_mem_nil
      | cons first rest => exact Or.inl ⟨first, rfl, hall first (hperm.mem_iff.mp List.mem_cons_self)⟩
    · exact Or.inr fun item hitem => hnone item (hperm.mem_iff.mp hitem)

/-- A checkout that a check refuses does not get to an order. -/
theorem generateCheckoutPayload_refused {error : CheckoutError}
    (h : checkoutRefusal cat (setBasket user (s.basketOf user) s) user (s.basketOf user) req =
      some error) : (generateCheckoutPayload cat user req s).2 = .ok (.refused error) := by
  unfold generateCheckoutPayload
  dsimp only
  rw [h]
  cases error <;> rfl

/-- Where the guard speaks up, one of the checks refuses. -/
theorem checkoutRefusal_of_guard
    (h : basket.hasUserPurchasedNonUpgradableCourserun cat req.now = true) :
    ∃ error, checkoutRefusal cat s user basket req = some error := by
  unfold checkoutRefusal
  split_ifs
  · exact ⟨_, rfl⟩
  · exact ⟨_, rfl⟩
  · exact ⟨_, rfl⟩

/-- The guard covers the basket exactly if the item that is listed first cannot be upgraded, or no item
is of that kind. -/
theorem guardCovers_iff (cat : Catalog) (user : UserId) (req : CheckoutRequest) (s : Store) :
    GuardCovers cat user req s ↔
      (∃ item ∈ (s.basketOf user).basketItems.head?, item.IsNonUpgradable cat req.now) ∨
        ∀ item ∈ (s.basketOf user).basketItems, ¬item.IsNonUpgradable cat req.now := by
  rw [← guard_right_iff]
  constructor
  · exact GuardCovers.guard
  · intro hright
    refine ⟨hright, fun hsome => ?_⟩
    obtain ⟨error, hrefusal⟩ := checkoutRefusal_of_guard (hright.mpr hsome)
    exact ⟨error, generateCheckoutPayload_refused hrefusal⟩

/-- Products 1 and 2 sell runs 1 and 2; the upgrade deadline of run 2 is the instant 0. -/
def deadlineCatalog : Catalog :=
  { Catalog.ofPrices fun _ => ⟨100⟩ with
    productIds := [1, 2]
    courseRun := fun r => ⟨r, true, if r = 2 then some 0 else none, true, false, false, none⟩ }

/-- A basket with both, run 1 first. -/
def upgradableFirst : Store :=
  { Store.empty with baskets := fun _ => some ⟨[⟨1, 1⟩, ⟨2, 1⟩], []⟩ }

/-- The guard looks at run 1 only. -/
theorem not_guardCovers :
    ¬ ∀ (cat : Catalog) (user : UserId) (req : CheckoutRequest) (s : Store),
      GuardCovers cat user req s := by
  intro h
  have hguard := (h deadlineCatalog 7
    ⟨.cybersource, false, false, none, .error .gatewayError, 5, Faults.none⟩ upgradableFirst).guard
  have htrue := hguard.mpr ⟨⟨2, 1⟩, by decide, rfl, by decide⟩
  revert htrue
  decide

end MitxOnline

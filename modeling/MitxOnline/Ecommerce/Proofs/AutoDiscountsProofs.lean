import MitxOnline.Ecommerce.AutoDiscounts
import MitxOnline.Lib.Displacement

/-!
# Discounts in any order

The valid ones of the discounts are offers to the basket: the first is taken, and another one is taken if
it displaces the one that is held. So the total does not depend on the order exactly if all discounts that
can be held in the end give the same total.
-/

namespace MitxOnline

open FixedPoint Displacement

variable {cat : Catalog} {tiers : List FlexiblePriceTier} {s : Store} {now : Instant} {user : UserId}
  {basket : Basket} {c d : DiscountId} {discounts l : List DiscountId}

/-- The basket with one discount of its user. -/
def Basket.withDiscount (basket : Basket) (user : UserId) (d : DiscountId) : Basket :=
  { basket with discounts := [⟨user, d⟩] }

/-- Discount `d` replaces discount `c` if it is valid: a discount that is assigned to the user replaces all
but those of tiers, and only these replace it; any other has to be better for some item. -/
def displaces (cat : Catalog) (tiers : List FlexiblePriceTier) (s : Store) (now : Instant)
    (user : UserId) (basket : Basket) (c d : DiscountId) : Bool :=
  if basket.basketItems.length = 0 then true
  else if isUserDiscount cat user d = true then !isTierDiscount tiers c
  else if isUserDiscount cat user c = true then isTierDiscount tiers d
  else foundBetter cat s now user (basket.withDiscount user c) d

/-- Validity looks at the items of the basket. -/
theorem isValid_withDiscount {allowFinaid : Bool} :
    isValid cat s now d allowFinaid user (basket.withDiscount user c) =
      isValid cat s now d allowFinaid user basket := rfl

/-- Every exception of the check is that of an unset limit. -/
theorem isValid_error {allowFinaid : Bool} {e : Error}
    (h : isValid cat s now d allowFinaid user basket = .error e) :
    e = .typeError "'<' not supported between instances of 'int' and 'NoneType'" := by
  unfold isValid redemptionLimitValid at h
  rcases hmax : (cat.discount d).maxRedemptions with _ | _ | n <;> grind

/-! ## One discount -/

theorem applyDiscountToBasket_first (hempty : basket.discounts = []) :
    applyDiscountToBasket cat tiers s now user true basket d =
      (isValid cat s now d true user basket).map fun valid =>
        if valid = true then basket.withDiscount user d else basket := by
  unfold applyDiscountToBasket
  rcases isValid cat s now d true user basket with e | _ | _
  · rfl
  · rfl
  · simp [hempty, Basket.updateOrCreateDiscount, Basket.withDiscount, Except.map]

theorem updateOrCreateDiscount_withDiscount :
    (basket.withDiscount user c).updateOrCreateDiscount user d = basket.withDiscount user d := by
  simp [Basket.updateOrCreateDiscount, Basket.withDiscount]

theorem applyDiscountToBasket_next :
    applyDiscountToBasket cat tiers s now user true (basket.withDiscount user c) d =
      (isValid cat s now d true user basket).map fun valid =>
        if valid = true ∧ displaces cat tiers s now user basket c d = true then basket.withDiscount user d
        else basket.withDiscount user c := by
  unfold applyDiscountToBasket
  rw [isValid_withDiscount, updateOrCreateDiscount_withDiscount]
  rcases isValid cat s now d true user basket with e | _ | _
  · rfl
  · rfl
  · have hheld : (basket.withDiscount user c).discounts = [⟨user, c⟩] := rfl
    have hitems : (basket.withDiscount user c).basketItems = basket.basketItems := rfl
    simp only [hheld, hitems, Except.map, displaces]
    grind

/-! ## One after the other -/

/-- The valid ones of the discounts. -/
def validDiscounts (cat : Catalog) (s : Store) (now : Instant) (user : UserId) (basket : Basket)
    (discounts : List DiscountId) : List DiscountId :=
  discounts.filter fun d => isValid cat s now d true user basket == .ok true

/-- Some discount cannot be checked. -/
def SomeRaises (cat : Catalog) (s : Store) (now : Instant) (user : UserId) (basket : Basket)
    (discounts : List DiscountId) : Prop :=
  ∃ d ∈ discounts, ∃ e, isValid cat s now d true user basket = .error e

theorem validDiscounts_of_valid (h : isValid cat s now d true user basket = .ok true) :
    validDiscounts cat s now user basket (d :: l) = d :: validDiscounts cat s now user basket l :=
  List.filter_cons_of_pos (by simp [h])

theorem validDiscounts_of_invalid (h : isValid cat s now d true user basket = .ok false) :
    validDiscounts cat s now user basket (d :: l) = validDiscounts cat s now user basket l :=
  List.filter_cons_of_neg (by simp [h])

theorem SomeRaises.cons (h : SomeRaises cat s now user basket l) :
    SomeRaises cat s now user basket (d :: l) := by
  obtain ⟨d', hd', he⟩ := h
  exact ⟨d', List.mem_cons_of_mem d hd', he⟩

theorem applyDiscounts_next (hok : ¬SomeRaises cat s now user basket discounts) :
    applyDiscounts cat tiers s now user (basket.withDiscount user c) discounts =
      .ok (basket.withDiscount user (hold (displaces cat tiers s now user basket) c
        (validDiscounts cat s now user basket discounts))) := by
  induction discounts generalizing c with
  | nil => rfl
  | cons d rest ih =>
    have hrest : ¬SomeRaises cat s now user basket rest := fun h => hok h.cons
    rw [applyDiscounts, applyDiscountToBasket_next]
    rcases hvalid : isValid cat s now d true user basket with e | _ | _
    · exact absurd ⟨d, List.mem_cons_self, e, hvalid⟩ hok
    · rw [validDiscounts_of_invalid hvalid]
      exact ih hrest
    · rw [validDiscounts_of_valid hvalid, hold]
      by_cases hdisplaces : displaces cat tiers s now user basket c d = true
      · simp only [Except.map, hdisplaces, and_self, if_true]
        exact ih hrest
      · simp only [Except.map, hdisplaces]
        exact ih hrest

/-- The basket with the discount that is held in the end, if there is one. -/
def Basket.withHeld (basket : Basket) (user : UserId) : Option DiscountId → Basket
  | none => basket
  | some d => basket.withDiscount user d

theorem applyDiscounts_first (hempty : basket.discounts = [])
    (hok : ¬SomeRaises cat s now user basket discounts) :
    applyDiscounts cat tiers s now user basket discounts =
      .ok (basket.withHeld user (settle (displaces cat tiers s now user basket)
        (validDiscounts cat s now user basket discounts))) := by
  induction discounts with
  | nil => rfl
  | cons d rest ih =>
    have hrest : ¬SomeRaises cat s now user basket rest := fun h => hok h.cons
    rw [applyDiscounts, applyDiscountToBasket_first hempty]
    rcases hvalid : isValid cat s now d true user basket with e | _ | _
    · exact absurd ⟨d, List.mem_cons_self, e, hvalid⟩ hok
    · rw [validDiscounts_of_invalid hvalid]
      exact ih hrest
    · rw [validDiscounts_of_valid hvalid]
      exact applyDiscounts_next hrest

/-- The items of a basket stay. -/
theorem applyDiscountToBasket_items {allowFinaid : Bool} {basket' : Basket}
    (h : applyDiscountToBasket cat tiers s now user allowFinaid basket d = .ok basket') :
    basket'.basketItems = basket.basketItems := by
  have hupdate : (basket.updateOrCreateDiscount user d).basketItems = basket.basketItems := rfl
  unfold applyDiscountToBasket at h
  rcases isValid cat s now d allowFinaid user basket with e | _ | _ <;> grind

theorem isValid_congr {allowFinaid : Bool} {basket' : Basket}
    (h : basket'.basketItems = basket.basketItems) :
    isValid cat s now d allowFinaid user basket' = isValid cat s now d allowFinaid user basket := by
  unfold isValid Discount.suits Discount.productInBasket Basket.getProducts
  rw [h]

theorem applyDiscountToBasket_raises {allowFinaid : Bool} {e : Error}
    (h : isValid cat s now d allowFinaid user basket = .error e) :
    applyDiscountToBasket cat tiers s now user allowFinaid basket d = .error e := by
  rw [applyDiscountToBasket, h]

/-- A discount that can be checked is applied or not. -/
theorem exists_applyDiscountToBasket (tiers : List FlexiblePriceTier) {allowFinaid valid : Bool}
    (h : isValid cat s now d allowFinaid user basket = .ok valid) :
    ∃ basket', applyDiscountToBasket cat tiers s now user allowFinaid basket d = .ok basket' := by
  unfold applyDiscountToBasket
  rw [h]
  cases valid with
  | false => exact ⟨basket, rfl⟩
  | true =>
    dsimp only
    split_ifs <;> exact ⟨_, rfl⟩

/-- Where some discount cannot be checked, its exception ends the loop in every order. -/
theorem applyDiscounts_raises (hraises : SomeRaises cat s now user basket discounts) :
    applyDiscounts cat tiers s now user basket discounts =
      .error (.typeError "'<' not supported between instances of 'int' and 'NoneType'") := by
  induction discounts generalizing basket with
  | nil => simp [SomeRaises] at hraises
  | cons d rest ih =>
    rw [applyDiscounts]
    rcases hvalid : isValid cat s now d true user basket with e | valid
    · rw [applyDiscountToBasket_raises hvalid, isValid_error hvalid]
    · obtain ⟨basket', hbasket'⟩ := exists_applyDiscountToBasket tiers hvalid
      obtain ⟨d', hd', e, he⟩ := hraises
      rw [hbasket']
      refine ih ⟨d', ?_, e, (isValid_congr (applyDiscountToBasket_items hbasket')).trans he⟩
      rcases List.mem_cons.mp hd' with rfl | hd'
      · rw [hvalid] at he
        cases he
      · exact hd'

/-! ## The totals of all orders -/

/-- The discounted total of the basket after the discounts of a list. -/
def finalTotal (cat : Catalog) (tiers : List FlexiblePriceTier) (s : Store) (now : Instant)
    (user : UserId) (basket : Basket) (discounts : List DiscountId) : Except Error ℚ :=
  (applyDiscounts cat tiers s now user basket discounts).map (·.getDiscountedPrice cat)

/-- The discounts give one total, whatever their order. -/
def OrderIndependent (cat : Catalog) (tiers : List FlexiblePriceTier) (s : Store) (now : Instant)
    (user : UserId) (basket : Basket) (discounts : List DiscountId) : Prop :=
  ∀ l l', l.Perm discounts → l'.Perm discounts →
    finalTotal cat tiers s now user basket l = finalTotal cat tiers s now user basket l'

/-- Discount `d` can be held in the end. -/
def LastsInBasket (cat : Catalog) (tiers : List FlexiblePriceTier) (s : Store) (now : Instant)
    (user : UserId) (basket : Basket) (discounts : List DiscountId) (d : DiscountId) : Prop :=
  Lasts (displaces cat tiers s now user basket) (validDiscounts cat s now user basket discounts) d

/-- Some discount cannot be checked, or all discounts that can be held in the end give one total. -/
def LastingTotalsAgree (cat : Catalog) (tiers : List FlexiblePriceTier) (s : Store) (now : Instant)
    (user : UserId) (basket : Basket) (discounts : List DiscountId) : Prop :=
  SomeRaises cat s now user basket discounts ∨
    ∀ c d, LastsInBasket cat tiers s now user basket discounts c →
      LastsInBasket cat tiers s now user basket discounts d →
        (basket.withDiscount user c).getDiscountedPrice cat =
          (basket.withDiscount user d).getDiscountedPrice cat

theorem SomeRaises.perm (hperm : l.Perm discounts) (h : SomeRaises cat s now user basket discounts) :
    SomeRaises cat s now user basket l := by
  obtain ⟨d, hd, he⟩ := h
  exact ⟨d, hperm.mem_iff.mpr hd, he⟩

theorem finalTotal_eq (hempty : basket.discounts = []) (hok : ¬SomeRaises cat s now user basket l) :
    finalTotal cat tiers s now user basket l =
      .ok ((basket.withHeld user (settle (displaces cat tiers s now user basket)
        (validDiscounts cat s now user basket l))).getDiscountedPrice cat) := by
  rw [finalTotal, applyDiscounts_first hempty hok]
  rfl

/-- A discount that lasts is held after some order of all discounts. -/
theorem LastsInBasket.exists_order (hlasts : LastsInBasket cat tiers s now user basket discounts d) :
    ∃ l, l.Perm discounts ∧ settle (displaces cat tiers s now user basket)
      (validDiscounts cat s now user basket l) = some d := by
  obtain ⟨order, hperm, hsettle⟩ := exists_settle_iff.mpr hlasts
  refine ⟨order ++ discounts.filter fun d => !(isValid cat s now d true user basket == .ok true),
    (hperm.append_right _).trans (List.filter_append_perm _ discounts), ?_⟩
  have hvalid : validDiscounts cat s now user basket order = order :=
    List.filter_eq_self.mpr fun d hd => (List.mem_filter.mp (hperm.mem_iff.mp hd)).2
  rw [validDiscounts, List.filter_append, List.filter_filter]
  rw [validDiscounts] at hvalid
  simp [hvalid, hsettle]

/-- The total does not depend on the order exactly if the discounts that last give one total. -/
theorem orderIndependent_iff (hempty : basket.discounts = []) :
    OrderIndependent cat tiers s now user basket discounts ↔
      LastingTotalsAgree cat tiers s now user basket discounts := by
  by_cases hraises : SomeRaises cat s now user basket discounts
  · refine ⟨fun _ => Or.inl hraises, fun _ l l' hl hl' => ?_⟩
    rw [finalTotal, finalTotal, applyDiscounts_raises (hraises.perm hl),
      applyDiscounts_raises (hraises.perm hl')]
  · have hok : ∀ {l : List DiscountId}, l.Perm discounts → ¬SomeRaises cat s now user basket l :=
      fun hl h => hraises (h.perm hl.symm)
    constructor
    · intro h
      refine Or.inr fun c d hc hd => ?_
      obtain ⟨l, hl, hsettle⟩ := hc.exists_order
      obtain ⟨l', hl', hsettle'⟩ := hd.exists_order
      have htotal := h l l' hl hl'
      rw [finalTotal_eq hempty (hok hl), finalTotal_eq hempty (hok hl'), hsettle, hsettle'] at htotal
      exact Except.ok.inj htotal
    · rintro (h | h) l l' hl hl'
      · exact absurd h hraises
      rw [finalTotal_eq hempty (hok hl), finalTotal_eq hempty (hok hl')]
      have hvalid : (validDiscounts cat s now user basket l).Perm
          (validDiscounts cat s now user basket discounts) := hl.filter _
      have hvalid' : (validDiscounts cat s now user basket l').Perm
          (validDiscounts cat s now user basket discounts) := hl'.filter _
      rcases hnone : validDiscounts cat s now user basket discounts with _ | ⟨first, rest⟩
      · rw [hnone] at hvalid hvalid'
        rw [hvalid.eq_nil, hvalid'.eq_nil]
      · have hsome : ∀ {l : List DiscountId}, l.Perm (first :: rest) →
            ∃ d, settle (displaces cat tiers s now user basket) l = some d := by
          intro l hperm
          cases l with
          | nil => exact absurd hperm.nil_eq (by simp)
          | cons a l => exact ⟨_, rfl⟩
        obtain ⟨c, hc⟩ := hsome (hnone ▸ hvalid)
        obtain ⟨d, hd⟩ := hsome (hnone ▸ hvalid')
        have htotal := h c d (exists_settle_iff.mp ⟨_, hvalid, hc⟩) (exists_settle_iff.mp ⟨_, hvalid', hd⟩)
        rw [hc, hd]
        exact congrArg Except.ok htotal

/-! ### Two percentages -/

/-- A catalog in which every product costs 100 dollars and discounts take off percentages. -/
def percentCatalog (percent : DiscountId → ℕ) : Catalog :=
  { Catalog.ofPrices fun _ => ⟨10000⟩ with
    discount := fun d =>
      ⟨⟨percent d * 100000⟩, .percentOff, .unlimited, none, some 0, none, none, [], []⟩ }

/-- Of two percentages below 100, the larger one is held in the end. -/
theorem orderIndependent_ten_twenty :
    OrderIndependent (percentCatalog (10 * ·)) [] Store.empty 0 1 ⟨[⟨1, 1⟩], []⟩ [1, 2] := by
  refine (orderIndependent_iff rfl).mpr (Or.inr fun c d hc hd => ?_)
  have hbest : ∀ c, LastsInBasket (percentCatalog (10 * ·)) [] Store.empty 0 1 ⟨[⟨1, 1⟩], []⟩ [1, 2] c →
      c = 2 := by
    intro c hc
    have hvalid : validDiscounts (percentCatalog (10 * ·)) Store.empty 0 1 ⟨[⟨1, 1⟩], []⟩ [1, 2] =
        [1, 2] := by decide
    rw [LastsInBasket, hvalid] at hc
    exact hc.eq_best (by decide) (by decide +kernel) (by decide +kernel)
  rw [hbest c hc, hbest d hd]

/-- A percentage of 100 makes the price zero, which is not compared. -/
theorem not_orderIndependent : ¬ ∀ (cat : Catalog) (tiers : List FlexiblePriceTier) (s : Store)
    (now : Instant) (user : UserId) (basket : Basket) (discounts : List DiscountId),
      basket.discounts = [] → OrderIndependent cat tiers s now user basket discounts := by
  intro h
  have htotals := h (percentCatalog (10 * ·)) [] Store.empty 0 1 ⟨[⟨1, 1⟩], []⟩ [1, 10] rfl [1, 10] [10, 1]
    (List.Perm.refl _) (List.Perm.swap 1 10 [])
  revert htotals
  decide +kernel

end MitxOnline

import MitxOnline.Ecommerce.LegacyDiscounts
import MitxOnline.Ecommerce.Proofs.BestDiscountProofs
import MitxOnline.FlexiblePricing.Proofs.ApprovalProofs

/-!
# Redeeming a code in a legacy basket

After its checks the view succeeds for a basket with one item whose financial aid can be looked up. For
other baskets it raises, and the discounts of the basket are gone.
-/

namespace MitxOnline

open FixedPoint

variable {cat : Catalog} {fin : Finaid} {codes : Table String} {now : Instant} {user : UserId}
  {s : Store} {basket : Basket} {item : BasketItem} {code : String} {c d : DiscountId}

/-! ## The discounts of a basket -/

/-- The discounts that are applied to the basket of a user. -/
def Store.appliedDiscounts (s : Store) (user : UserId) : Option (List BasketDiscount) :=
  (s.baskets user).map (·.discounts)

theorem appliedDiscounts_setDiscounts (hbasket : s.baskets user = some basket)
    (discounts : List BasketDiscount) :
    (s.setDiscounts user discounts).appliedDiscounts user = some discounts := by
  simp [Store.appliedDiscounts, Store.setDiscounts, hbasket]

/-- Writing the discounts again replaces what was written before. -/
theorem setDiscounts_setDiscounts (discounts discounts' : List BasketDiscount) :
    (s.setDiscounts user discounts).setDiscounts user discounts' = s.setDiscounts user discounts' := by
  unfold Store.setDiscounts
  congr 1
  funext user'
  by_cases h : user' = user
  · simp [h, Function.comp_def]
  · simp [h]

/-! ## What the view looks up -/

/-- The code names one discount, and the user can use it for the products of the basket. -/
structure Redeems (cat : Catalog) (codes : Table String) (now : Instant) (user : UserId) (s : Store)
    (basket : Basket) (code : String) (d : DiscountId) : Prop where
  named : discountsWithCode cat codes code = [d]
  validForProducts : checkValidityWithProducts cat now d basket.getProducts = true
  valid : checkValidity cat s now d user = true

theorem getDiscount_cases (cat : Catalog) (codes : Table String) (code : String) :
    (discountsWithCode cat codes code = [] ∧ getDiscount cat codes code = .error .doesNotExist) ∨
    (∃ d, discountsWithCode cat codes code = [d] ∧ getDiscount cat codes code = .ok d) ∨
    (1 < (discountsWithCode cat codes code).length ∧
      getDiscount cat codes code = .error .multipleObjectsReturned) := by
  unfold getDiscount
  rcases discountsWithCode cat codes code with _ | ⟨d, _ | ⟨e, rest⟩⟩
  · exact .inl ⟨rfl, rfl⟩
  · exact .inr (.inl ⟨d, rfl, rfl⟩)
  · exact .inr (.inr ⟨by simp, rfl⟩)

/-- What the checks of the view come to: no discount, several, or the one that is redeemed. -/
theorem findDiscount_cases (cat : Catalog) (codes : Table String) (now : Instant) (user : UserId)
    (s : Store) (basket : Basket) (code : String) :
    (findDiscount cat codes now user s basket code = .error .doesNotExist ∧
      (discountsWithCode cat codes code).length ≤ 1 ∧ ∀ d, ¬Redeems cat codes now user s basket code d) ∨
    (findDiscount cat codes now user s basket code = .error .multipleObjectsReturned ∧
      1 < (discountsWithCode cat codes code).length) ∨
    (∃ d, findDiscount cat codes now user s basket code = .ok d ∧
      Redeems cat codes now user s basket code d) := by
  unfold findDiscount
  rcases getDiscount_cases cat codes code with ⟨hnamed, hget⟩ | ⟨d, hnamed, hget⟩ | ⟨hseveral, hget⟩
  · rw [hget]
    refine .inl ⟨rfl, by simp [hnamed], fun d hd => ?_⟩
    rw [hd.named] at hnamed
    cases hnamed
  · rw [hget]
    have honly (e : DiscountId) (he : Redeems cat codes now user s basket code e) : e = d := by
      have heq := he.named.symm.trans hnamed
      exact (List.cons.inj heq).1
    cases hproducts : checkValidityWithProducts cat now d basket.getProducts with
    | false =>
      refine .inl ⟨by simp [hproducts], by simp [hnamed], fun e he => ?_⟩
      have hvalid := he.validForProducts
      rw [honly e he, hproducts] at hvalid
      cases hvalid
    | true =>
      cases huser : checkValidity cat s now d user with
      | false =>
        refine .inl ⟨by simp [hproducts, huser], by simp [hnamed], fun e he => ?_⟩
        have hvalid := he.valid
        rw [honly e he, huser] at hvalid
        cases hvalid
      | true => exact .inr (.inr ⟨d, by simp [hproducts, huser], ⟨hnamed, hproducts, huser⟩⟩)
  · rw [hget]
    exact .inr (.inl ⟨rfl, hseveral⟩)

theorem totalWith_le_of_bestPrice_le (hitems : basket.basketItems = [item])
    (h : bestPrice cat [c] (cat.product item.product) ≤ bestPrice cat [d] (cat.product item.product)) :
    totalWith cat basket user c ≤ totalWith cat basket user d := by
  have hround : currentUnitPrice cat [c] item.product ≤ currentUnitPrice cat [d] item.product :=
    rounded_mono h
  have htotal (e : DiscountId) :
      totalWith cat basket user e = item.quantity * currentUnitPrice cat [e] item.product := by
    rw [totalWith, basket_total_eq]
    simp [Basket.withDiscount, Basket.discountIds, hitems]
  rw [htotal, htotal]
  exact mul_le_mul_of_nonneg_left hround (Nat.cast_nonneg _)

variable (user d) in
/-- The choice is one of the two discounts, and neither gives a lower total. -/
theorem chooseDiscount_spec (hitems : basket.basketItems = [item]) {fa : Option DiscountId}
    (hfinaid : flexiblePriceDiscount cat fin now user item = .ok fa) :
    ∃ c, chooseDiscount cat fin now user item d = .ok c ∧ (c = d ∨ c ∈ fa) ∧
      totalWith cat basket user c ≤ totalWith cat basket user d ∧
      ∀ f ∈ fa, totalWith cat basket user c ≤ totalWith cat basket user f := by
  unfold chooseDiscount
  rw [hfinaid]
  cases fa with
  | none => exact ⟨d, rfl, .inl rfl, le_refl _, fun f hf => absurd hf (Option.not_mem_none f)⟩
  | some f =>
    dsimp only
    by_cases hlt : bestPrice cat [f] (cat.product item.product) < bestPrice cat [d] (cat.product item.product)
    · rw [if_pos hlt]
      refine ⟨f, rfl, .inr rfl, totalWith_le_of_bestPrice_le hitems hlt.le, fun g hg => ?_⟩
      obtain rfl := Option.mem_some_iff.mp hg
      exact le_refl _
    · rw [if_neg hlt]
      refine ⟨d, rfl, .inl rfl, le_refl _, fun g hg => ?_⟩
      obtain rfl := Option.mem_some_iff.mp hg
      exact totalWith_le_of_bestPrice_le hitems (not_lt.mp hlt)

/-! ## What is expected of the view -/

/-- The user can use an applied discount for the products of the basket. -/
def StillValid (cat : Catalog) (now : Instant) (user : UserId) (s : Store) (basket : Basket)
    (r : BasketDiscount) : Prop :=
  checkValidity cat s now r.redeemedDiscount user = true ∧
    checkValidityWithProducts cat now r.redeemedDiscount basket.getProducts = true

/-- The discounts that the basket may have: that of the code, those of financial aid for its items, and
those that are applied already. -/
inductive Applicable (cat : Catalog) (fin : Finaid) (codes : Table String) (now : Instant) (user : UserId)
    (s : Store) (basket : Basket) (code : String) : DiscountId → Prop where
  | code {d : DiscountId} (h : Redeems cat codes now user s basket code d) :
      Applicable cat fin codes now user s basket code d
  | financialAid {d : DiscountId} {item : BasketItem} (hitem : item ∈ basket.basketItems)
      (h : flexiblePriceDiscount cat fin now user item = .ok (some d)) :
      Applicable cat fin codes now user s basket code d
  | applied {r : BasketDiscount} (hr : r ∈ basket.discounts)
      (h : StillValid cat now user s basket r) :
      Applicable cat fin codes now user s basket code r.redeemedDiscount

/-- The basket has an applicable discount, and none gives a lower total. -/
def HoldsBest (cat : Catalog) (fin : Finaid) (codes : Table String) (now : Instant) (user : UserId)
    (s : Store) (basket : Basket) (code : String) (discounts : List BasketDiscount) : Prop :=
  ∃ c, discounts = [⟨user, c⟩] ∧ Applicable cat fin codes now user s basket code c ∧
    ∀ d, Applicable cat fin codes now user s basket code d →
      totalWith cat basket user c ≤ totalWith cat basket user d

/-- The view puts the best discount into the basket, or it fails and the discounts are what they were; for
several items it raises nothing. -/
structure RedeemsAtomically (cat : Catalog) (fin : Finaid) (codes : Table String) (now : Instant)
    (user : UserId) (code : String) (s : Store) : Prop where
  succeeds : ∀ applied, (redeemDiscount cat fin codes now user code s).2 = .applied applied →
    ∃ basket discounts, s.baskets user = some basket ∧
      (redeemDiscount cat fin codes now user code s).1.appliedDiscounts user = some discounts ∧
      HoldsBest cat fin codes now user s basket (stripCode code) discounts
  fails : (∀ applied, (redeemDiscount cat fin codes now user code s).2 ≠ .applied applied) →
    (redeemDiscount cat fin codes now user code s).1.appliedDiscounts user = s.appliedDiscounts user
  handled : ∀ basket, s.baskets user = some basket → 1 < basket.basketItems.length →
    ∀ e, (redeemDiscount cat fin codes now user code s).2 ≠ .raised e

/-- The code of several discounts is not sent for several items. For the code of a discount that the user
can use there is at most one item; if there is none, or its financial aid cannot be looked up, nothing is
applied; and no applied discount that is still valid is better than that of the code and that of the
financial aid. -/
structure Redeemable (cat : Catalog) (fin : Finaid) (codes : Table String) (now : Instant)
    (user : UserId) (code : String) (s : Store) (basket : Basket) : Prop where
  ambiguous : 1 < (discountsWithCode cat codes code).length → basket.basketItems.length ≤ 1
  items : ∀ d, Redeems cat codes now user s basket code d → basket.basketItems.length ≤ 1
  empty : ∀ d, Redeems cat codes now user s basket code d → basket.basketItems = [] →
    basket.discounts = []
  lookup : ∀ d, Redeems cat codes now user s basket code d → ∀ item ∈ basket.basketItems, ∀ e,
    flexiblePriceDiscount cat fin now user item = .error e → basket.discounts = []
  best : ∀ d, Redeems cat codes now user s basket code d → ∀ item ∈ basket.basketItems, ∀ fa,
    flexiblePriceDiscount cat fin now user item = .ok fa →
    ∀ r ∈ basket.discounts, StillValid cat now user s basket r →
      totalWith cat basket user d ≤ totalWith cat basket user r.redeemedDiscount ∨
        ∃ f ∈ fa, totalWith cat basket user f ≤ totalWith cat basket user r.redeemedDiscount

/-! ## The cases of a request -/

/-- A request that leaves the discounts alone may only raise for a basket with at most one item. -/
theorem redeemsAtomically_iff_of_kept (hbasket : s.baskets user = some basket) {o : RedeemOutcome}
    (h : redeemDiscount cat fin codes now user code s = (s, o)) (ho : ∀ applied, o ≠ .applied applied) :
    RedeemsAtomically cat fin codes now user code s ↔
      (1 < basket.basketItems.length → ∀ e, o ≠ .raised e) := by
  constructor
  · intro hatomic hitems e
    have hhandled := hatomic.handled basket hbasket hitems e
    rwa [h] at hhandled
  · intro hhandled
    refine ⟨fun applied happlied => ?_, fun _ => by rw [h], fun basket' hbasket' hitems e => ?_⟩
    · rw [h] at happlied
      exact absurd happlied (ho applied)
    · obtain rfl : basket = basket' := Option.some.inj (hbasket.symm.trans hbasket')
      rw [h]
      exact hhandled hitems e

/-- A request that raises after the discounts are deleted. -/
theorem redeemsAtomically_iff_of_deleted (hbasket : s.baskets user = some basket) {e : RedeemError}
    (h : redeemDiscount cat fin codes now user code s = (s.setDiscounts user [], .raised e)) :
    RedeemsAtomically cat fin codes now user code s ↔
      basket.discounts = [] ∧ basket.basketItems.length ≤ 1 := by
  have hbefore : s.appliedDiscounts user = some basket.discounts := by
    rw [Store.appliedDiscounts, hbasket, Option.map_some]
  have hafter := appliedDiscounts_setDiscounts hbasket []
  constructor
  · intro hatomic
    have hkept := hatomic.fails (by simp [h])
    rw [h, hafter, hbefore] at hkept
    refine ⟨(Option.some.inj hkept).symm, not_lt.mp fun hitems => ?_⟩
    exact hatomic.handled basket hbasket hitems e (by rw [h])
  · rintro ⟨hnone, hitems⟩
    refine ⟨fun applied happlied => ?_, fun _ => ?_, fun basket' hbasket' hitems' => ?_⟩
    · rw [h] at happlied
      cases happlied
    · rw [h, hafter, hbefore, hnone]
    · obtain rfl : basket = basket' := Option.some.inj (hbasket.symm.trans hbasket')
      exact absurd hitems (not_le_of_gt hitems')

/-- A request that succeeds with a discount. -/
theorem redeemsAtomically_iff_of_applied (hbasket : s.baskets user = some basket) {applied : String}
    (h : redeemDiscount cat fin codes now user code s = (s.setDiscounts user [⟨user, c⟩], .applied applied)) :
    RedeemsAtomically cat fin codes now user code s ↔
      HoldsBest cat fin codes now user s basket (stripCode code) [⟨user, c⟩] := by
  have hafter := appliedDiscounts_setDiscounts hbasket [⟨user, c⟩]
  constructor
  · intro hatomic
    obtain ⟨basket', discounts, hbasket', hdiscounts, hbest⟩ := hatomic.succeeds applied (by rw [h])
    obtain rfl : basket = basket' := Option.some.inj (hbasket.symm.trans hbasket')
    rw [h, hafter] at hdiscounts
    rwa [← Option.some.inj hdiscounts] at hbest
  · intro hbest
    refine ⟨fun _ _ => ⟨basket, _, hbasket, by rw [h, hafter], hbest⟩, fun hnot => ?_, fun _ _ _ e => ?_⟩
    · exact absurd (by rw [h]) (hnot applied)
    · simp [h]

/-- The choice is best among the applicable discounts exactly if no applied discount is better than both
that of the code and that of the financial aid. -/
theorem holdsBest_iff (hd : Redeems cat codes now user s basket code d) (hitems : basket.basketItems = [item])
    {fa : Option DiscountId} (hfinaid : flexiblePriceDiscount cat fin now user item = .ok fa)
    (hchoice : c = d ∨ c ∈ fa) (hcode : totalWith cat basket user c ≤ totalWith cat basket user d)
    (haid : ∀ f ∈ fa, totalWith cat basket user c ≤ totalWith cat basket user f) :
    HoldsBest cat fin codes now user s basket code [⟨user, c⟩] ↔
      ∀ r ∈ basket.discounts, StillValid cat now user s basket r →
        totalWith cat basket user d ≤ totalWith cat basket user r.redeemedDiscount ∨
          ∃ f ∈ fa, totalWith cat basket user f ≤ totalWith cat basket user r.redeemedDiscount := by
  have hmem : item ∈ basket.basketItems := by
    rw [hitems]
    exact List.mem_singleton_self item
  constructor
  · rintro ⟨c', hc', -, hleast⟩ r hr hvalid
    obtain rfl : c = c' := by simpa using hc'
    have hle := hleast r.redeemedDiscount (.applied hr hvalid)
    rcases hchoice with rfl | hc
    · exact .inl hle
    · exact .inr ⟨c, hc, hle⟩
  · intro hbest
    refine ⟨c, rfl, ?_, fun e he => ?_⟩
    · rcases hchoice with rfl | hc
      · exact .code hd
      · exact .financialAid hmem (hfinaid.trans (congrArg Except.ok hc))
    · cases he with
      | code he =>
        have heq := he.named.symm.trans hd.named
        rw [(List.cons.inj heq).1]
        exact hcode
      | financialAid hitem' he =>
        rw [hitems, List.mem_singleton] at hitem'
        rw [hitem', hfinaid] at he
        exact haid e (Except.ok.inj he)
      | applied hr hvalid =>
        rcases hbest _ hr hvalid with hle | ⟨f, hf, hle⟩
        · exact hcode.trans hle
        · exact (haid f hf).trans hle

/-! ## Every request -/

theorem Redeems.unique (hc : Redeems cat codes now user s basket code c)
    (hd : Redeems cat codes now user s basket code d) : c = d := by
  have heq := hc.named.symm.trans hd.named
  exact (List.cons.inj heq).1

/-- The conditions for the discount that the code is for. -/
theorem redeemable_iff_of_redeems (hd : Redeems cat codes now user s basket code d) :
    Redeemable cat fin codes now user code s basket ↔
      basket.basketItems.length ≤ 1 ∧ (basket.basketItems = [] → basket.discounts = []) ∧
      ∀ item ∈ basket.basketItems,
        (∀ e, flexiblePriceDiscount cat fin now user item = .error e → basket.discounts = []) ∧
        ∀ fa, flexiblePriceDiscount cat fin now user item = .ok fa →
          ∀ r ∈ basket.discounts, StillValid cat now user s basket r →
            totalWith cat basket user d ≤ totalWith cat basket user r.redeemedDiscount ∨
              ∃ f ∈ fa, totalWith cat basket user f ≤ totalWith cat basket user r.redeemedDiscount := by
  constructor
  · intro h
    exact ⟨h.items d hd, h.empty d hd, fun item hitem => ⟨h.lookup d hd item hitem, h.best d hd item hitem⟩⟩
  · rintro ⟨hitems, hempty, hitem⟩
    refine ⟨fun _ => hitems, fun _ _ => hitems, fun _ _ => hempty, fun _ _ item hmem => (hitem item hmem).1,
      fun e he item hmem => ?_⟩
    rw [he.unique hd]
    exact (hitem item hmem).2

/-- Without a discount to redeem, the code may only be ambiguous for a basket with at most one item. -/
theorem redeemable_iff_of_not_redeems (hnone : ∀ d, ¬Redeems cat codes now user s basket code d) :
    Redeemable cat fin codes now user code s basket ↔
      (1 < (discountsWithCode cat codes code).length → basket.basketItems.length ≤ 1) :=
  ⟨fun h => h.ambiguous, fun h => ⟨h, fun d hd => absurd hd (hnone d), fun d hd => absurd hd (hnone d),
    fun d hd => absurd hd (hnone d), fun d hd => absurd hd (hnone d)⟩⟩

/-- A discount that the user can use is redeemed as expected exactly under the conditions. -/
theorem redeemsAtomically_iff_of_redeems (hbasket : s.baskets user = some basket)
    (hfind : findDiscount cat codes now user s basket (stripCode code) = .ok d)
    (hd : Redeems cat codes now user s basket (stripCode code) d) :
    RedeemsAtomically cat fin codes now user code s ↔
      Redeemable cat fin codes now user (stripCode code) s basket := by
  rw [redeemable_iff_of_redeems hd]
  rcases hitems : basket.basketItems with _ | ⟨item, _ | ⟨item', rest⟩⟩
  · have h : redeemDiscount cat fin codes now user code s =
        (s.setDiscounts user [], .raised .doesNotExist) := by
      simp [redeemDiscount, hbasket, hfind, Basket.getItem, hitems]
    rw [redeemsAtomically_iff_of_deleted hbasket h, hitems]
    simp
  · simp only [List.length_singleton, le_refl, true_and, List.cons_ne_nil, false_imp_iff,
      List.mem_singleton, forall_eq]
    cases hfinaid : flexiblePriceDiscount cat fin now user item with
    | error e =>
      have h : redeemDiscount cat fin codes now user code s =
          (s.setDiscounts user [], .raised (.finaid e)) := by
        simp [redeemDiscount, hbasket, hfind, Basket.getItem, hitems, chooseDiscount, hfinaid]
      rw [redeemsAtomically_iff_of_deleted hbasket h, hitems]
      simp
    | ok fa =>
      obtain ⟨c, hchoose, hchoice, hcode, haid⟩ := chooseDiscount_spec user d hitems hfinaid
      have h : redeemDiscount cat fin codes now user code s =
          (s.setDiscounts user [⟨user, c⟩], .applied (codes.row c)) := by
        simp [redeemDiscount, hbasket, hfind, Basket.getItem, hitems, hchoose, setDiscounts_setDiscounts]
      rw [redeemsAtomically_iff_of_applied hbasket h,
        holdsBest_iff hd hitems hfinaid hchoice hcode haid]
      simp
  · have h : redeemDiscount cat fin codes now user code s =
        (s.setDiscounts user [], .raised .multipleObjectsReturned) := by
      simp [redeemDiscount, hbasket, hfind, Basket.getItem, hitems]
    rw [redeemsAtomically_iff_of_deleted hbasket h, hitems]
    simp

/-- Redeeming a code is all or nothing exactly if, for the basket of the user: a code of several discounts
is not sent for several items; and for a discount that can be used there is at most one item, nothing is
applied where there is none or its financial aid cannot be looked up, and no applied discount that is still
valid is better than that of the code and that of the financial aid. -/
theorem redeemsAtomically_iff (cat : Catalog) (fin : Finaid) (codes : Table String) (now : Instant)
    (user : UserId) (code : String) (s : Store) :
    RedeemsAtomically cat fin codes now user code s ↔
      ∀ basket, s.baskets user = some basket →
        Redeemable cat fin codes now user (stripCode code) s basket := by
  cases hbasket : s.baskets user with
  | none =>
    have h : redeemDiscount cat fin codes now user code s = (s, .notAcceptable "No basket") := by
      simp [redeemDiscount, hbasket]
    constructor
    · intro _ basket hsome
      cases hsome
    · intro _
      refine ⟨fun applied happlied => ?_, fun _ => by rw [h], fun basket hsome => ?_⟩
      · rw [h] at happlied
        cases happlied
      · rw [hbasket] at hsome
        cases hsome
  | some basket =>
    simp only [Option.some.injEq, forall_eq']
    rcases findDiscount_cases cat codes now user s basket (stripCode code) with
      ⟨hfind, hnamed, hnone⟩ | ⟨hfind, hseveral⟩ | ⟨d, hfind, hd⟩
    · have h : redeemDiscount cat fin codes now user code s =
          (s, .notFound s!"Discount '{code}' not found.") := by
        simp [redeemDiscount, hbasket, hfind]
      rw [redeemsAtomically_iff_of_kept hbasket h (by simp), redeemable_iff_of_not_redeems hnone]
      have hunambiguous := not_lt_of_ge hnamed
      exact ⟨fun _ hseveral => absurd hseveral hunambiguous, fun _ _ e => by simp⟩
    · have h : redeemDiscount cat fin codes now user code s =
          (s, .raised .multipleObjectsReturned) := by
        simp [redeemDiscount, hbasket, hfind]
      have hnone (d : DiscountId) : ¬Redeems cat codes now user s basket (stripCode code) d := by
        intro hd
        rw [hd.named] at hseveral
        exact absurd hseveral (lt_irrefl 1)
      rw [redeemsAtomically_iff_of_kept hbasket h (by simp), redeemable_iff_of_not_redeems hnone]
      constructor
      · intro hraised _
        refine not_lt.mp fun hitems => ?_
        exact hraised hitems .multipleObjectsReturned rfl
      · intro hone hitems
        exact absurd (hone hseveral) (not_le_of_gt hitems)
    · exact redeemsAtomically_iff_of_redeems hbasket hfind hd

/-! ## Two items -/

/-- User 1 has products 1 and 2 in the basket, with discount 1 applied. -/
def twoItemsWithDiscount : Store :=
  { Store.empty with baskets := fun _ => some ⟨[⟨1, 1⟩, ⟨2, 1⟩], [⟨1, 1⟩]⟩ }

/-- The code of discount 2 makes the view raise, and discount 1 is gone. -/
theorem not_redeemsAtomically :
    ¬ ∀ (cat : Catalog) (fin : Finaid) (codes : Table String) (now : Instant) (user : UserId)
      (code : String) (s : Store), RedeemsAtomically cat fin codes now user code s := by
  intro h
  have hraised : redeemDiscount (percentCatalog (10 * ·)) relatedPrograms (.single 2 "TWENTY") 0 1 "TWENTY"
      twoItemsWithDiscount = (twoItemsWithDiscount.setDiscounts 1 [], .raised .multipleObjectsReturned) := rfl
  have hkept := (h (percentCatalog (10 * ·)) relatedPrograms (.single 2 "TWENTY") 0 1 "TWENTY"
    twoItemsWithDiscount).fails (by simp [hraised])
  rw [hraised] at hkept
  revert hkept
  decide

end MitxOnline

import MitxOnline.Ecommerce.Proofs.RetriesProofs
import MitxOnline.Ecommerce.Redemptions

/-!
# Redemption limits of concurrent checkouts

The number of redemptions of a discount in fulfilled orders grows when an order is fulfilled, by the
redemptions of that order, and in no other step. So the limits hold along a run exactly if every order
that is fulfilled still has what the redemption rules ask for at that moment; the checkout looks at
the rules before the order is made, and not when it is fulfilled.
-/

namespace MitxOnline

open Autocommit

variable {cat : Catalog} {s s' : Store} {user : UserId} {o : OrderId} {f : Faults} {now : Instant}
  {data : PaymentData} {req : CheckoutRequest}

/-! ## Validity -/

theorem checkValidity_iff {d : DiscountId} : checkValidity cat s now d user = true ↔
    RedemptionsLeft cat s d user ∧ (cat.discount d).validNow now = true := by
  unfold checkValidity
  constructor
  · intro h
    split_ifs at h with hone hper hmax
    refine ⟨⟨fun htype => ?_, fun htype => ?_, fun m hm hpos => ?_⟩, h⟩
    · have hnot := not_and.mp hone htype
      omega
    · have hnot := not_and.mp hper htype
      omega
    · rw [hm, Option.getD_some] at hmax
      have hnot := not_and.mp hmax hpos
      omega
  · rintro ⟨hleft, hnow⟩
    have hone : ¬((cat.discount d).redemptionType = .oneTime ∧ 0 < s.fulfilledRedemptions d) := by
      rintro ⟨htype, hpos⟩
      rw [hleft.oneTime htype] at hpos
      omega
    have hper : ¬((cat.discount d).redemptionType = .oneTimePerUser ∧
        0 < s.fulfilledRedemptionsBy d user) := by
      rintro ⟨htype, hpos⟩
      rw [hleft.oneTimePerUser htype] at hpos
      omega
    have hmax : ¬(0 < (cat.discount d).maxRedemptions.getD 0 ∧
        (cat.discount d).maxRedemptions.getD 0 ≤ s.fulfilledRedemptions d) := by
      rintro ⟨hpos, hle⟩
      cases hm : (cat.discount d).maxRedemptions with
      | none =>
        rw [hm] at hpos
        exact absurd hpos (Nat.lt_irrefl 0)
      | some m =>
        rw [hm, Option.getD_some] at hpos hle
        have hlt := hleft.maxRedemptions m hm hpos
        omega
    rw [if_neg hone, if_neg hper, if_neg hmax]
    exact hnow

/-! ## Counting redemptions -/

/-- The redemptions in fulfilled orders that pass a test. -/
def Store.fulfilledCount (s : Store) (test : DiscountRedemption → Bool) : ℕ :=
  s.redemptionCount fun row r => row.state == .fulfilled && test r

/-- The redemptions of an order that count, those that pass the test if the order is fulfilled. -/
def Order.counted (row : Order) (test : DiscountRedemption → Bool) : ℕ :=
  row.discounts.countP fun r => row.state == .fulfilled && test r

theorem fulfilledRedemptionsBy_eq (d : DiscountId) :
    s.fulfilledRedemptionsBy d user =
      s.fulfilledCount fun r => r.redeemedDiscount == d && r.redeemedBy == user := by
  unfold Store.fulfilledRedemptionsBy Store.fulfilledCount
  simp only [Bool.and_assoc]

theorem Order.counted_of_fulfilled {row : Order} (h : row.state = .fulfilled)
    (test : DiscountRedemption → Bool) : row.counted test = row.discounts.countP test := by
  unfold Order.counted
  simp [h]

theorem Order.counted_of_not_fulfilled {row : Order} (h : row.state ≠ .fulfilled)
    (test : DiscountRedemption → Bool) : row.counted test = 0 := by
  unfold Order.counted
  simp [h]

/-- The count over the orders other than one of them. -/
theorem fulfilledCount_erase (hkey : o ∈ s.orders.keys) (test : DiscountRedemption → Bool) :
    s.fulfilledCount test = (s.order o).counted test +
      ((s.orders.keys.erase o).map fun o' => (s.order o').counted test).sum :=
  (List.sum_map_erase (fun o' => (s.order o').counted test) hkey).symm

/-- Only the order that is touched counts for another number. -/
theorem fulfilledCount_of_touchesOnly (h : TouchesOnly o s s') (hkey : o ∈ s.orders.keys)
    (test : DiscountRedemption → Bool) :
    s'.fulfilledCount test + (s.order o).counted test =
      s.fulfilledCount test + (s'.order o).counted test := by
  have hkey' : o ∈ s'.orders.keys := by
    rw [h.keys]
    exact hkey
  have hrest : ((s'.orders.keys.erase o).map fun o' => (s'.order o').counted test) =
      (s.orders.keys.erase o).map fun o' => (s.order o').counted test := by
    rw [h.keys]
    refine List.map_congr_left fun o' ho' => ?_
    rw [h.others o' (s.orders.keys_nodup.mem_erase_iff.mp ho').1]
  rw [fulfilledCount_erase hkey, fulfilledCount_erase hkey', hrest]
  omega

theorem fulfilledCount_of_ordersKept (h : OrdersKept s s') (test : DiscountRedemption → Bool) :
    s'.fulfilledCount test = s.fulfilledCount test := by
  unfold Store.fulfilledCount Store.redemptionCount Store.order
  rw [h]

theorem LimitsKept.of_count (h : LimitsKept cat s)
    (hcount : ∀ test, s'.fulfilledCount test = s.fulfilledCount test) : LimitsKept cat s' := by
  have hby : ∀ d user, s'.fulfilledRedemptionsBy d user = s.fulfilledRedemptionsBy d user := by
    intro d user
    rw [fulfilledRedemptionsBy_eq, fulfilledRedemptionsBy_eq, hcount]
  refine ⟨fun d hd => ?_, fun d hd user => ?_, fun d m hm hpos => ?_⟩
  · exact (hcount _).trans_le (h.oneTime d hd)
  · rw [hby]
    exact h.oneTimePerUser d hd user
  · exact (hcount _).trans_le (h.maxRedemptions d m hm hpos)

/-! ## Orders that are fulfilled -/

/-- Nothing happens to the orders but that `o` may become fulfilled, and baskets are at most deleted. -/
structure OnlyFulfils (o : OrderId) (s s' : Store) : Prop where
  touches : TouchesOnly o s s'
  discounts : (s'.order o).discounts = (s.order o).discounts
  state : (s'.order o).state = (s.order o).state ∨ (s'.order o).state = .fulfilled
  baskets : ∀ user, s'.baskets user = s.baskets user ∨ s'.baskets user = none

theorem onlyFulfils_frame (o : OrderId) : IsFrame (OnlyFulfils o) := by
  constructor
  · intro s
    exact ⟨(touchesOnly_frame o).refl s, rfl, Or.inl rfl, fun _ => Or.inl rfl⟩
  · intro s t u h h'
    refine ⟨(touchesOnly_frame o).trans _ _ _ h.touches h'.touches,
      h'.discounts.trans h.discounts, ?_, fun user => ?_⟩
    · rcases h'.state with hsame | hfulfilled
      · rw [hsame]
        exact h.state
      · exact Or.inr hfulfilled
    · rcases h'.baskets user with hsame | hnone
      · rw [hsame]
        exact h.baskets user
      · exact Or.inr hnone

theorem onlyFulfils_of_ordersKept (h : OrdersKept s s')
    (hb : ∀ user, s'.baskets user = s.baskets user ∨ s'.baskets user = none) : OnlyFulfils o s s' := by
  have hrow := order_of_ordersKept h o
  exact ⟨touchesOnly_of_ordersKept h, by rw [hrow], Or.inl (by rw [hrow]), hb⟩

theorem countP_discount (row : Order) (d : DiscountId) :
    (row.discounts.countP fun r => r.redeemedDiscount == d) = row.discountIds.count d := by
  unfold Order.discountIds List.count
  rw [List.countP_map]
  rfl

/-- A discount that the order redeems once is redeemed by one user. -/
theorem countP_redemption_le {row : Order} (h : row.discountIds.Nodup) (d : DiscountId)
    (user : UserId) :
    (row.discounts.countP fun r => r.redeemedDiscount == d && r.redeemedBy == user) ≤ 1 := by
  have hle : (row.discounts.countP fun r => r.redeemedDiscount == d && r.redeemedBy == user) ≤
      row.discounts.countP fun r => r.redeemedDiscount == d :=
    List.countP_mono_left fun r _ hr => (Bool.and_eq_true_iff.mp hr).1
  rw [countP_discount] at hle
  exact hle.trans (List.nodup_iff_count_le_one.mp h d)

section Counts

variable (hcount : ∀ test, s'.fulfilledCount test =
  s.fulfilledCount test + (s.order o).discounts.countP test)

include hcount

theorem fulfilledRedemptions_add (d : DiscountId) : s'.fulfilledRedemptions d =
    s.fulfilledRedemptions d + (s.order o).discountIds.count d := by
  rw [← countP_discount]
  exact hcount _

theorem fulfilledRedemptionsBy_add (d : DiscountId) (user : UserId) :
    s'.fulfilledRedemptionsBy d user = s.fulfilledRedemptionsBy d user +
      (s.order o).discounts.countP fun r => r.redeemedDiscount == d && r.redeemedBy == user := by
  rw [fulfilledRedemptionsBy_eq, fulfilledRedemptionsBy_eq]
  exact hcount _

/-- What the order redeems was left for it, if the limits hold afterwards. -/
theorem leftFor_of_limitsKept (h : LimitsKept cat s') : LeftFor cat s o := by
  intro r hr
  have hmem : r.redeemedDiscount ∈ (s.order o).discountIds := List.mem_map_of_mem hr
  have hpos : 0 < (s.order o).discountIds.count r.redeemedDiscount := List.count_pos_iff.mpr hmem
  have hall := fulfilledRedemptions_add hcount r.redeemedDiscount
  refine ⟨fun htype => ?_, fun htype => ?_, fun m hm hm0 => ?_⟩
  · have hle := h.oneTime _ htype
    omega
  · have hle := h.oneTimePerUser _ htype r.redeemedBy
    have hby := fulfilledRedemptionsBy_add hcount r.redeemedDiscount r.redeemedBy
    have hposby : 0 < (s.order o).discounts.countP fun r' =>
        r'.redeemedDiscount == r.redeemedDiscount && r'.redeemedBy == r.redeemedBy :=
      List.countP_pos_iff.mpr ⟨r, hr, by simp⟩
    omega
  · have hle := h.maxRedemptions _ m hm hm0
    omega

/-- The limits hold afterwards, if what the order redeems was left for it. -/
theorem limitsKept_of_leftFor (hunique : (s.order o).discountIds.Nodup) (hlimits : LimitsKept cat s)
    (h : LeftFor cat s o) : LimitsKept cat s' := by
  have honce : ∀ d, (s.order o).discountIds.count d ≤ 1 := List.nodup_iff_count_le_one.mp hunique
  -- A discount that the order does not redeem counts as before.
  have hleft : ∀ d, (s.order o).discountIds.count d = 0 ∨
      ∃ r ∈ (s.order o).discounts, r.redeemedDiscount = d := by
    intro d
    by_cases hmem : d ∈ (s.order o).discountIds
    · exact Or.inr (List.mem_map.mp hmem)
    · exact Or.inl (List.count_eq_zero.mpr hmem)
  refine ⟨fun d htype => ?_, fun d htype user => ?_, fun d m hm hm0 => ?_⟩
  · have hle := hlimits.oneTime d htype
    have hcount1 := honce d
    rw [fulfilledRedemptions_add hcount]
    rcases hleft d with hzero | ⟨r, hr, rfl⟩
    · omega
    · have hzero := (h r hr).oneTime htype
      omega
  · have hle := hlimits.oneTimePerUser d htype user
    have hcount1 := countP_redemption_le hunique d user
    rw [fulfilledRedemptionsBy_add hcount]
    by_cases hpos : 0 < (s.order o).discounts.countP fun r =>
        r.redeemedDiscount == d && r.redeemedBy == user
    · obtain ⟨r, hr, htest⟩ := List.countP_pos_iff.mp hpos
      simp only [Bool.and_eq_true, beq_iff_eq] at htest
      obtain ⟨rfl, rfl⟩ := htest
      have hzero := (h r hr).oneTimePerUser htype
      omega
    · omega
  · have hle := hlimits.maxRedemptions d m hm hm0
    have hcount1 := honce d
    rw [fulfilledRedemptions_add hcount]
    rcases hleft d with hzero | ⟨r, hr, rfl⟩
    · omega
    · have hlt := (h r hr).maxRedemptions m hm hm0
      omega

end Counts

/-- Where only `o` may be fulfilled, the limits go on to hold exactly if, should it be fulfilled, the
redemption rules leave it its discounts. -/
theorem OnlyFulfils.limitsKept_iff (h : OnlyFulfils o s s') (hkey : o ∈ s.orders.keys)
    (hunique : (s.order o).discountIds.Nodup) (hlimits : LimitsKept cat s) :
    LimitsKept cat s' ↔
      ((s.order o).state ≠ .fulfilled → (s'.order o).state = .fulfilled → LeftFor cat s o) := by
  have hcount := fulfilledCount_of_touchesOnly h.touches hkey
  by_cases hbefore : (s.order o).state = .fulfilled
  · have hafter : (s'.order o).state = .fulfilled := by
      rcases h.state with hsame | hfulfilled
      · rw [hsame, hbefore]
      · exact hfulfilled
    refine iff_of_true (hlimits.of_count fun test => ?_) fun hne => absurd hbefore hne
    have hrest := hcount test
    rw [Order.counted_of_fulfilled hbefore, Order.counted_of_fulfilled hafter, h.discounts] at hrest
    omega
  · by_cases hafter : (s'.order o).state = .fulfilled
    · have hmore : ∀ test, s'.fulfilledCount test =
          s.fulfilledCount test + (s.order o).discounts.countP test := by
        intro test
        have hrest := hcount test
        rw [Order.counted_of_not_fulfilled hbefore, Order.counted_of_fulfilled hafter,
          h.discounts] at hrest
        exact hrest
      constructor
      · intro hkept _ _
        exact leftFor_of_limitsKept hmore hkept
      · intro hleft
        exact limitsKept_of_leftFor hmore hunique hlimits (hleft hbefore hafter)
    · refine iff_of_true (hlimits.of_count fun test => ?_) fun _ hfulfilled => absurd hfulfilled hafter
      have hrest := hcount test
      rw [Order.counted_of_not_fulfilled hbefore, Order.counted_of_not_fulfilled hafter] at hrest
      exact hrest

/-! ## Payments -/

theorem processTransactionLine_onlyFulfils (user : UserId) (l : Line) :
    Keeps (OnlyFulfils o) (processTransactionLine f cat now user o l) :=
  keeps_line_of_kept (onlyFulfils_frame o)
    (fun horders hbaskets =>
      onlyFulfils_of_ordersKept horders fun user => Or.inl (congrFun hbaskets user)) user l

theorem onlyFulfils_addTransaction (t : Transaction) (s : Store) :
    OnlyFulfils o s (addTransaction o t s) := by
  have hrecords : OnlyRecords o s (addTransaction o t s) := onlyRecords_addTransaction s t
  exact ⟨touchesOnly_setOrder s _, hrecords.discounts, Or.inl hrecords.state, fun _ => Or.inl rfl⟩

theorem fulfill_onlyFulfils (opts : FulfillOptions) (inTransaction : Bool) :
    Keeps (OnlyFulfils o) (fulfill f cat now o data opts inTransaction) := by
  have hr := onlyFulfils_frame o
  have hbody : Keeps (OnlyFulfils o) (fulfillBody f cat now o data opts inTransaction) :=
    keeps_fulfillBody hr onlyFulfils_addTransaction
      (keeps_createEnrollments hr fun _ l _ => processTransactionLine_onlyFulfils _ l)
  refine keeps_callTransition hr hbody fun s => ?_
  exact ⟨touchesOnly_setOrder s _, by simp, Or.inr (by simp), fun _ => Or.inl rfl⟩

theorem onlyFulfils_withoutBasket (user : UserId) (s : Store) :
    OnlyFulfils o s (s.withoutBasket user) := by
  refine onlyFulfils_of_ordersKept rfl fun user' => ?_
  by_cases h : user' = user
  · exact Or.inr (if_pos h)
  · exact Or.inl (if_neg h)

theorem handle_onlyFulfils (n : PaymentNotice) : Keeps (OnlyFulfils o) (n.handle cat o) :=
  keeps_handle (onlyFulfils_frame o) fulfill_onlyFulfils onlyFulfils_withoutBasket

/-- An order that was not fulfilled is, exactly if `fulfill` returns. -/
theorem fulfill_fulfils_iff {opts : FulfillOptions} {inTransaction : Bool}
    (h : (s.order o).state ≠ .fulfilled) :
    ((fulfill f cat now o data opts inTransaction s).state.order o).state = .fulfilled ↔
      (fulfill f cat now o data opts inTransaction s).error = none := by
  constructor
  · intro hafter
    rcases callTransition_cases f ⟨some [.pending], .fulfilled⟩ o
      (fulfillBody f cat now o data opts inTransaction) s with ⟨-, heq⟩ | ⟨-, -, hstate, -⟩ | ⟨-, heq⟩
    · unfold fulfill at hafter
      rw [heq] at hafter
      exact absurd hafter h
    · unfold fulfill at hafter
      rw [hstate, (fulfillBody_records opts inTransaction s).state] at hafter
      exact absurd hafter h
    · unfold fulfill
      rw [heq]
  · intro herror
    exact (fulfilled_of_error_none herror).fulfilled

/-- In a transaction, an order is fulfilled exactly if nothing in it raises. -/
theorem atomic_fulfils_iff {a : Code} (h : (s.order o).state ≠ .fulfilled)
    (hful : (a s).error = none → ((a s).state.order o).state = .fulfilled) :
    ((atomic a s).state.order o).state = .fulfilled ↔ (a s).error = none := by
  cases herror : (a s).error with
  | none =>
    rw [atomic_of_ok herror]
    exact iff_of_true (hful herror) rfl
  | some e =>
    rw [atomic_of_error herror]
    exact iff_of_false h (by simp)

theorem fulfillCompletedOrder_fulfils {opts : FulfillOptions} {inTransaction : Bool}
    (h : (fulfillCompletedOrder f cat now o data opts inTransaction s).error = none) :
    ((fulfillCompletedOrder f cat now o data opts inTransaction s).state.order o).state =
      .fulfilled := by
  rw [order_of_ordersKept (fulfillCompletedOrder_orders opts inTransaction s)]
  exact (fulfilled_of_error_none (seq_cons_error h).1).fulfilled

theorem fulfill_raises_of_not_pending {opts : FulfillOptions} {inTransaction : Bool}
    (h : (s.order o).state ≠ .pending) :
    (fulfill f cat now o data opts inTransaction s).error ≠ none := by
  intro hreturns
  exact h (fulfilled_of_error_none hreturns).pending

theorem webhook_fulfils_iff (hkey : o ∈ s.orders.keys) (h : (s.order o).state ≠ .fulfilled) :
    ((processStripeCheckoutCompleted f cat now o .paid data s).state.order o).state = .fulfilled ↔
      (fulfill f cat now o data FulfillOptions.default false s).error = none := by
  unfold processStripeCheckoutCompleted
  rw [if_pos hkey, order_of_ordersKept (fulfillCompletedOrder_orders _ false s)]
  exact fulfill_fulfils_iff h

theorem callback_fulfils_iff (hkey : o ∈ s.orders.keys) (h : (s.order o).state ≠ .fulfilled) :
    ((cybersourceCallback f cat now o .accepted true data s).state.order o).state = .fulfilled ↔
      (processCybersourcePaymentResponse f cat now o .accepted true data s).error = none := by
  unfold cybersourceCallback
  by_cases hpending : (s.order o).state = .pending
  · rw [atomic_fulfils_iff h]
    · rw [if_pos ⟨hkey, hpending⟩]
    · rw [if_pos ⟨hkey, hpending⟩]
      intro herror
      have hsync : OrdersKept (fulfillCompletedOrder f cat now o data FulfillOptions.default true s).state
          (processCybersourcePaymentResponse f cat now o .accepted true data s).state :=
        syncHubspotDeal_orders _ s
      rw [order_of_ordersKept hsync]
      exact fulfillCompletedOrder_fulfils (seq_cons_error herror).1
  · have hraises : (processCybersourcePaymentResponse f cat now o .accepted true data s).error ≠
        none := by
      intro herror
      exact fulfill_raises_of_not_pending hpending (seq_cons_error (seq_cons_error herror).1).1
    refine iff_of_false ?_ hraises
    unfold atomic
    dsimp only
    rw [if_neg fun hguard => hpending hguard.2]
    exact h

theorem resolution_fulfils_iff {skipFulfillment : Bool} (hkey : o ∈ s.orders.keys)
    (h : (s.order o).state ≠ .fulfilled) :
    ((resolveSuccess f cat now skipFulfillment o data s).state.order o).state = .fulfilled ↔
      (fulfill f cat now o data ⟨false, false, skipFulfillment⟩ false s).error = none := by
  unfold resolveSuccess resolvePendingOrder
  rw [attempt_state]
  by_cases hpending : (s.order o).state = .pending
  · rw [if_pos ⟨hkey, hpending⟩, order_of_ordersKept (syncHubspotDeal_orders _ s)]
    exact fulfill_fulfils_iff h
  · rw [if_neg fun hguard => hpending hguard.2]
    exact iff_of_false h (fulfill_raises_of_not_pending hpending)

/-- The report of a payment fulfils an order that was not fulfilled exactly if it completes. -/
theorem handle_fulfils_iff (n : PaymentNotice) (hkey : o ∈ s.orders.keys)
    (h : (s.order o).state ≠ .fulfilled) :
    ((n.handle cat o s).state.order o).state = .fulfilled ↔ n.Completes cat o s := by
  unfold PaymentNotice.handle PaymentNotice.Completes
  cases n.channel with
  | webhook => exact webhook_fulfils_iff hkey h
  | callback => exact callback_fulfils_iff hkey h
  | resolution skipFulfillment => exact resolution_fulfils_iff hkey h

/-! ## The other steps -/

/-- Making a pending order counts for nothing. -/
theorem fulfilledCount_of_checkedOut {products : List ProductId} {ds : List DiscountId}
    {gatewayType : GatewayType} (h : CheckedOut cat s s' products user ds gatewayType o)
    (test : DiscountRedemption → Bool) : s'.fulfilledCount test = s.fulfilledCount test := by
  have hnew : (s'.order o).counted test = 0 := by
    apply Order.counted_of_not_fulfilled
    rw [h.pending.1]
    simp
  have hothers : ∀ o' ≠ o, (s'.order o').counted test = (s.order o').counted test := by
    intro o' ho'
    rw [h.frame o' ho']
  by_cases hkey : o ∈ s.orders.keys
  · have hold : (s.order o).counted test = 0 := by
      apply Order.counted_of_not_fulfilled
      rw [h.pending.2.2 hkey]
      simp
    have hperm : s'.orders.keys.Perm s.orders.keys := by
      refine (List.perm_ext_iff_of_nodup s'.orders.keys_nodup s.orders.keys_nodup).mpr fun o' => ?_
      rw [h.keys]
      constructor
      · rintro (hmem | rfl)
        · exact hmem
        · exact hkey
      · exact Or.inl
    have hsum : s'.fulfilledCount test =
        (s.orders.keys.map fun o' => (s'.order o').counted test).sum := (hperm.map _).sum_eq
    rw [hsum]
    refine congrArg List.sum (List.map_congr_left fun o' _ => ?_)
    by_cases ho : o' = o
    · rw [ho, hnew]
      exact hold.symm
    · exact hothers o' ho
  · have hperm : s'.orders.keys.Perm (o :: s.orders.keys) := by
      refine (List.perm_ext_iff_of_nodup s'.orders.keys_nodup
        (List.nodup_cons.mpr ⟨hkey, s.orders.keys_nodup⟩)).mpr fun o' => ?_
      rw [h.keys, List.mem_cons]
      exact or_comm
    have hsum : s'.fulfilledCount test = (s'.order o).counted test +
        (s.orders.keys.map fun o' => (s'.order o').counted test).sum := (hperm.map _).sum_eq
    rw [hsum, hnew, Nat.zero_add]
    refine congrArg List.sum (List.map_congr_left fun o' ho' => ?_)
    exact hothers o' fun heq => hkey (heq ▸ ho')

theorem basketOf_setBasket (basket : Basket) (user' : UserId) :
    (setBasket user basket s).basketOf user' = if user' = user then basket else s.basketOf user' := by
  unfold Store.basketOf setBasket
  dsimp only
  split <;> rfl

/-- What validation leaves of a basket has a discount once if the basket had. -/
theorem applyUserDiscounts_nodup {userDiscount : Option DiscountId} {basket : Basket}
    (h : (basket.discounts.map (·.redeemedDiscount)).Nodup) :
    ((applyUserDiscounts cat s now user userDiscount basket).discounts.map
      (·.redeemedDiscount)).Nodup := by
  have hkept : ((basket.discounts.filter fun basketDiscount =>
      (cat.discount basketDiscount.redeemedDiscount).paymentType != some .financialAssistance).map
        (·.redeemedDiscount)).Nodup := h.sublist (List.filter_sublist.map _)
  unfold applyUserDiscounts
  dsimp only
  split
  · exact hkept
  · rename_i hnone
    have hempty : basket.discounts.filter (fun basketDiscount =>
        (cat.discount basketDiscount.redeemedDiscount).paymentType != some .financialAssistance) = [] :=
      List.eq_nil_of_length_eq_zero (by omega)
    rw [hempty]
    split
    · exact List.nodup_nil
    · split
      · exact List.nodup_singleton _
      · exact List.nodup_nil

theorem validateBasket_spec (cat : Catalog) (user : UserId) (req : CheckoutRequest) (s : Store) :
    OrdersKept s (validateBasket cat user req s).1 ∧
      ((∀ user', ((s.basketOf user').discounts.map (·.redeemedDiscount)).Nodup) → ∀ user',
        (((validateBasket cat user req s).1.basketOf user').discounts.map
          (·.redeemedDiscount)).Nodup) := by
  have hset : ∀ (s : Store) (basket : Basket), (basket.discounts.map (·.redeemedDiscount)).Nodup →
      (∀ user', ((s.basketOf user').discounts.map (·.redeemedDiscount)).Nodup) → ∀ user',
        (((setBasket user basket s).basketOf user').discounts.map (·.redeemedDiscount)).Nodup := by
    intro s basket hbasket h user'
    rw [basketOf_setBasket]
    split
    · exact hbasket
    · exact h user'
  unfold validateBasket
  dsimp only
  split
  · exact ⟨rfl, fun h => hset _ _ (applyUserDiscounts_nodup List.nodup_nil)
      (hset _ _ (h user) h)⟩
  · exact ⟨rfl, fun h => hset _ _ (h user) h⟩

theorem fulfillLoadedFreeOrder_state (cat : Catalog) (req : CheckoutRequest) (o : OrderId)
    (s : Store) : (fulfillLoadedFreeOrder cat req o s).state =
      (atomic (fulfillLoadedOrder cat req o) s).state := by
  unfold fulfillLoadedFreeOrder andThen
  dsimp only
  split
  · split
    · exact mayFail_state _ _ _
    · rfl
  · rfl

/-- A free order is at most fulfilled, and that exactly if nothing raises in the transaction. -/
theorem fulfillLoadedFreeOrder_spec (cat : Catalog) (req : CheckoutRequest) (o : OrderId) (s : Store) :
    OnlyFulfils o s (fulfillLoadedFreeOrder cat req o s).state ∧
      ((s.order o).state ≠ .fulfilled →
        (((fulfillLoadedFreeOrder cat req o s).state.order o).state = .fulfilled ↔
          (fulfillLoadedOrder cat req o s).error = none)) := by
  have hr := onlyFulfils_frame o
  rw [fulfillLoadedFreeOrder_state]
  refine ⟨?_, fun h => atomic_fulfils_iff h fulfillCompletedOrder_fulfils⟩
  cases herror : (fulfillLoadedOrder cat req o s).error with
  | some e =>
    rw [atomic_of_error herror]
    exact hr.refl s
  | none =>
    rw [atomic_of_ok herror]
    have hfulfilled := fulfillCompletedOrder_fulfils herror
    have hrest : OnlyFulfils o (s.setState o .pending) (fulfillLoadedOrder cat req o s).state :=
      hr.trans _ _ _ (fulfill_onlyFulfils _ true _)
        (fulfillCompletedOrder_after hr onlyFulfils_withoutBasket _ true _)
    have hpending : TouchesOnly o s (s.setState o .pending) := touchesOnly_setOrder s _
    refine ⟨(touchesOnly_frame o).trans _ _ _ hpending hrest.touches, ?_, Or.inr hfulfilled,
      hrest.baskets⟩
    rw [hrest.discounts]
    simp

/-- Charging an order that is not free leaves it in its state. -/
theorem chargeOrder_spec (h : (s.order o).linesTotal cat ≠ .ok 0) :
    OnlyFulfils o s (chargeOrder cat req o s).1 ∧
      ((chargeOrder cat req o s).1.order o).state = (s.order o).state := by
  have hr := onlyFulfils_frame o
  unfold chargeOrder
  split
  · exact ⟨hr.refl s, rfl⟩
  · rename_i total htotal
    have hne : total ≠ 0 := fun hzero => h (hzero ▸ htotal)
    rw [if_neg hne]
    split
    · exact ⟨hr.refl s, rfl⟩
    · rename_i session _
      have hrecords : OnlyFulfils o s
          (createTransaction req.faults o session "Initial CheckoutSession" s).state ∧
          ((createTransaction req.faults o session "Initial CheckoutSession" s).state.order o).state =
            (s.order o).state :=
        ⟨keeps_createTransaction hr onlyFulfils_addTransaction s,
          (createTransaction_records _ s).state⟩
      dsimp only
      split
      · split
        · exact hrecords
        · exact hrecords
      · exact ⟨hr.refl s, rfl⟩

/-- The last step of a checkout at most fulfils its order, and that exactly if it is free and nothing
raises in the transaction. -/
theorem chargeLoadedOrder_spec (cat : Catalog) (req : CheckoutRequest) (o : OrderId) (s : Store) :
    OnlyFulfils o s (chargeLoadedOrder cat req o s).1 ∧
      ((s.order o).state ≠ .fulfilled →
        (((chargeLoadedOrder cat req o s).1.order o).state = .fulfilled ↔
          (s.order o).linesTotal cat = .ok 0 ∧ (fulfillLoadedOrder cat req o s).error = none)) := by
  by_cases hfree : (s.order o).linesTotal cat = .ok 0
  · have hstate : (chargeLoadedOrder cat req o s).1 = (fulfillLoadedFreeOrder cat req o s).state := by
      unfold chargeLoadedOrder
      rw [if_pos hfree]
      dsimp only
      split <;> rfl
    obtain ⟨honly, hiff⟩ := fulfillLoadedFreeOrder_spec cat req o s
    rw [hstate]
    refine ⟨honly, fun h => (hiff h).trans ?_⟩
    exact (and_iff_right hfree).symm
  · have hcharge : chargeLoadedOrder cat req o s = chargeOrder cat req o s := by
      unfold chargeLoadedOrder
      rw [if_neg hfree]
    obtain ⟨honly, hstate⟩ := chargeOrder_spec hfree
    rw [hcharge]
    refine ⟨honly, fun h => iff_of_false ?_ fun hboth => hfree hboth.1⟩
    rw [hstate]
    exact h

/-! ## The steps in a row -/

theorem setState_of_state {state : OrderStatus} (h : (s.order o).state = state) :
    s.setState o state = s := by
  have hrow : { s.order o with state } = s.orders.row o := by
    rw [← h]
    rfl
  unfold Store.setState Store.setOrder
  rw [hrow, Table.set_row_eq]

/-- For an order that is pending still, charging it as it was loaded is charging it. -/
theorem chargeLoadedOrder_of_pending (h : (s.order o).state = .pending) :
    chargeLoadedOrder cat req o s = chargeOrder cat req o s := by
  have hloaded : fulfillLoadedFreeOrder cat req o s = fulfillFreeOrder cat req o s := by
    have hbody : fulfillLoadedOrder cat req o s = fulfillCompletedOrder req.faults cat req.now o
        zeroPaymentData ⟨false, req.skipReceipt, false⟩ true s := by
      unfold fulfillLoadedOrder
      rw [setState_of_state h]
    unfold fulfillLoadedFreeOrder fulfillFreeOrder andThen atomic
    rw [hbody]
  unfold chargeLoadedOrder
  split
  · rename_i htotal
    unfold chargeOrder
    rw [htotal, hloaded]
    rfl
  · rfl

/-- A checkout whose steps are not interrupted is `generate_checkout_payload`. -/
theorem generateCheckoutPayload_steps (cat : Catalog) (user : UserId) (req : CheckoutRequest)
    (s : Store) : generateCheckoutPayload cat user req s =
      match validateBasket cat user req s with
      | (s1, some e) => (s1, .ok (.refused e))
      | (s1, none) =>
        match createFromBasket cat s1 user (s1.basketOf user) req.gatewayType with
        | .error e => (s1, .error e)
        | .ok (o, s2) => chargeLoadedOrder cat req o s2 := by
  have hbasket : (setBasket user (s.basketOf user) s).basketOf user = s.basketOf user := by
    rw [basketOf_setBasket, if_pos rfl]
  unfold generateCheckoutPayload validateBasket
  dsimp only
  cases hrefusal : checkoutRefusal cat (setBasket user (s.basketOf user) s) user (s.basketOf user)
      req with
  | some e => cases e <;> rfl
  | none =>
    dsimp only
    rw [hbasket]
    cases hbuilt : createFromBasket cat (setBasket user (s.basketOf user) s) user (s.basketOf user)
        req.gatewayType with
    | error e => rfl
    | ok built =>
      obtain ⟨o, s2⟩ := built
      exact (chargeLoadedOrder_of_pending (createFromBasket_spec hbuilt).pending.1).symm

/-! ## Runs -/

theorem chargeLoadedOrder_session {session : Session}
    (h : startedSession (chargeLoadedOrder cat req o s).2 = some session) :
    session.reference = o := by
  unfold chargeLoadedOrder at h
  split at h
  · dsimp only at h
    split at h <;> cases h
  · exact (chargeOrder_session h).1

/-- Making an order drops the checkout if it cannot be made. -/
theorem makeOrder_cases (p : Checkouts) (i : ℕ) :
    (∃ validated, checkoutStep cat p (.makeOrder i) = { p with validated }) ∨
      ∃ user req o store, CheckedOut cat p.store store (p.store.basketOf user).getProducts user
          (p.store.basketOf user).discountIds req.gatewayType o ∧
        checkoutStep cat p (.makeOrder i) =
          { p with store, validated := p.validated.eraseIdx i, made := p.made ++ [(req, o)] } := by
  cases hvalidated : p.validated[i]? with
  | none =>
    refine Or.inl ⟨p.validated, ?_⟩
    simp [checkoutStep, hvalidated]
  | some x =>
    obtain ⟨user, req⟩ := x
    cases hbuilt : createFromBasket cat p.store user (p.store.basketOf user) req.gatewayType with
    | error e =>
      refine Or.inl ⟨p.validated.eraseIdx i, ?_⟩
      simp [checkoutStep, hvalidated, hbuilt]
    | ok built =>
      obtain ⟨o, store⟩ := built
      refine Or.inr ⟨user, req, o, store, createFromBasket_spec hbuilt, ?_⟩
      simp [checkoutStep, hvalidated, hbuilt]

theorem charge_cases (p : Checkouts) (i : ℕ) :
    (p.made[i]? = none ∧ checkoutStep cat p (.charge i) = p) ∨
      ∃ req o, p.made[i]? = some (req, o) ∧ checkoutStep cat p (.charge i) =
        { p with
          store := (chargeLoadedOrder cat req o p.store).1
          made := p.made.eraseIdx i
          sessions := p.sessions ++
            (startedSession (chargeLoadedOrder cat req o p.store).2).toList } := by
  cases hmade : p.made[i]? with
  | none =>
    refine Or.inl ⟨rfl, ?_⟩
    simp [checkoutStep, hmade]
  | some x =>
    refine Or.inr ⟨x.1, x.2, rfl, ?_⟩
    simp [checkoutStep, hmade]

theorem payment_cases (p : Checkouts) (i : ℕ) (notice : PaymentNotice) :
    (p.sessions[i]? = none ∧ checkoutStep cat p (.payment i notice) = p) ∨
      ∃ session, p.sessions[i]? = some session ∧ checkoutStep cat p (.payment i notice) =
        { p with store := attemptPayment cat session.reference p.store notice } := by
  cases hsession : p.sessions[i]? with
  | none =>
    refine Or.inl ⟨rfl, ?_⟩
    simp [checkoutStep, hsession]
  | some session =>
    refine Or.inr ⟨session, rfl, ?_⟩
    simp [checkoutStep, hsession]

/-! ## What every step keeps -/

theorem OnlyFulfils.consistent {p : Checkouts} {store : Store} (honly : OnlyFulfils o p.store store)
    (h : Consistent p) : Consistent { p with store } := by
  refine ⟨fun user => ?_, fun o' => ?_, fun x hx => ?_, fun session hsession => ?_⟩
  · show ((store.basketOf user).discounts.map (·.redeemedDiscount)).Nodup
    unfold Store.basketOf
    rcases honly.baskets user with hsame | hnone
    · rw [hsame]
      exact h.baskets user
    · rw [hnone]
      exact List.nodup_nil
  · by_cases ho : o' = o
    · rw [ho]
      exact honly.discounts ▸ h.orders o
    · exact honly.touches.others o' ho ▸ h.orders o'
  · exact honly.touches.keys ▸ h.made x hx
  · exact honly.touches.keys ▸ h.sessions session hsession

theorem CheckedOut.consistent {p : Checkouts} {store : Store} {gatewayType : GatewayType}
    (hout : CheckedOut cat p.store store (p.store.basketOf user).getProducts user
      (p.store.basketOf user).discountIds gatewayType o) (h : Consistent p) (req : CheckoutRequest)
    (validated : List (UserId × CheckoutRequest)) :
    Consistent { p with store, validated, made := p.made ++ [(req, o)] } := by
  have hrest := congrArg Store.baskets hout.rest
  have hbaskets : store.baskets = p.store.baskets := hrest
  refine ⟨fun user' => ?_, fun o' => ?_, fun x hx => ?_, fun session hsession => ?_⟩
  · show ((store.basketOf user').discounts.map (·.redeemedDiscount)).Nodup
    unfold Store.basketOf
    rw [hbaskets]
    exact h.baskets user'
  · show ((store.order o').discounts.map (·.redeemedDiscount)).Nodup
    by_cases ho : o' = o
    · rw [ho, hout.filled.discounts_ids]
      exact h.baskets user
    · rw [hout.frame o' ho]
      exact h.orders o'
  · show x.2 ∈ store.orders.keys
    rw [hout.keys]
    rcases List.mem_append.mp hx with hold | hnew
    · exact Or.inl (h.made x hold)
    · rw [List.mem_singleton.mp hnew]
      exact Or.inr rfl
  · show session.reference ∈ store.orders.keys
    rw [hout.keys]
    exact Or.inl (h.sessions session hsession)

theorem consistent_charge {p : Checkouts} (h : Consistent p) (hkey : o ∈ p.store.orders.keys)
    (req : CheckoutRequest) (i : ℕ) : Consistent
      { p with
        store := (chargeLoadedOrder cat req o p.store).1
        made := p.made.eraseIdx i
        sessions := p.sessions ++
          (startedSession (chargeLoadedOrder cat req o p.store).2).toList } := by
  have honly := (chargeLoadedOrder_spec cat req o p.store).1
  have hstore := honly.consistent h
  refine ⟨hstore.baskets, hstore.orders, fun x hx => ?_, fun session hsession => ?_⟩
  · exact hstore.made x (List.mem_of_mem_eraseIdx hx)
  · rcases List.mem_append.mp hsession with hold | hnew
    · exact hstore.sessions session hold
    · show session.reference ∈ (chargeLoadedOrder cat req o p.store).1.orders.keys
      rw [honly.touches.keys, chargeLoadedOrder_session (Option.mem_toList.mp hnew)]
      exact hkey

theorem consistent_step (p : Checkouts) (e : CheckoutStep) (h : Consistent p) :
    Consistent (checkoutStep cat p e) := by
  cases e with
  | changeBasket user basket unique =>
    refine ⟨fun user' => ?_, h.orders, h.made, h.sessions⟩
    show (((setBasket user basket p.store).basketOf user').discounts.map (·.redeemedDiscount)).Nodup
    rw [basketOf_setBasket]
    split
    · exact unique
    · exact h.baskets user'
  | validate user req =>
    obtain ⟨horders, hbaskets⟩ := validateBasket_spec cat user req p.store
    have hkeys : (validateBasket cat user req p.store).1.orders.keys = p.store.orders.keys :=
      congrArg Table.keys horders
    refine ⟨hbaskets h.baskets, fun o => ?_, fun x hx => ?_, fun session hsession => ?_⟩
    · exact (order_of_ordersKept horders o) ▸ h.orders o
    · exact hkeys ▸ h.made x hx
    · exact hkeys ▸ h.sessions session hsession
  | makeOrder i =>
    rcases makeOrder_cases p i with ⟨validated, hstep⟩ | ⟨user, req, o, store, hout, hstep⟩
    · rw [hstep]
      exact ⟨h.baskets, h.orders, h.made, h.sessions⟩
    · rw [hstep]
      exact hout.consistent h req (p.validated.eraseIdx i)
  | charge i =>
    rcases charge_cases p i with ⟨-, hstep⟩ | ⟨req, o, hmade, hstep⟩
    · rw [hstep]
      exact h
    · rw [hstep]
      exact consistent_charge h (h.made _ (List.mem_of_getElem? hmade)) req i
  | payment i notice =>
    rcases payment_cases p i notice with ⟨-, hstep⟩ | ⟨session, -, hstep⟩
    · rw [hstep]
      exact h
    · rw [hstep]
      exact (handle_onlyFulfils notice p.store).consistent h

/-! ## What a step that fulfils needs -/

theorem limitsKept_charge_iff {p : Checkouts} {i : ℕ} (hp : Consistent p)
    (hlimits : LimitsKept cat p.store) (hmade : p.made[i]? = some (req, o)) :
    LimitsKept cat (chargeLoadedOrder cat req o p.store).1 ↔ FulfilsWhatIsLeft cat p (.charge i) := by
  have hkey : o ∈ p.store.orders.keys := hp.made _ (List.mem_of_getElem? hmade)
  obtain ⟨honly, hfulfils⟩ := chargeLoadedOrder_spec cat req o p.store
  rw [honly.limitsKept_iff hkey (hp.orders o) hlimits]
  constructor
  · intro h req' o' hx hbefore hfree hreturns
    obtain ⟨rfl, rfl⟩ := Prod.mk.inj (Option.some.inj (hmade.symm.trans hx))
    exact h hbefore ((hfulfils hbefore).mpr ⟨hfree, hreturns⟩)
  · intro h hbefore hafter
    obtain ⟨hfree, hreturns⟩ := (hfulfils hbefore).mp hafter
    exact h req o hmade hbefore hfree hreturns

theorem limitsKept_payment_iff {p : Checkouts} {i : ℕ} {session : Session} (hp : Consistent p)
    (hlimits : LimitsKept cat p.store) (hsession : p.sessions[i]? = some session)
    (notice : PaymentNotice) :
    LimitsKept cat (attemptPayment cat session.reference p.store notice) ↔
      FulfilsWhatIsLeft cat p (.payment i notice) := by
  have hkey : session.reference ∈ p.store.orders.keys :=
    hp.sessions _ (List.mem_of_getElem? hsession)
  have honly : OnlyFulfils session.reference p.store
      (attemptPayment cat session.reference p.store notice) := handle_onlyFulfils notice p.store
  rw [honly.limitsKept_iff hkey (hp.orders _) hlimits]
  constructor
  · intro h session' hx hbefore hcompletes
    obtain rfl := Option.some.inj (hsession.symm.trans hx)
    exact h hbefore ((handle_fulfils_iff notice hkey hbefore).mpr hcompletes)
  · intro h hbefore hafter
    exact h session hsession hbefore ((handle_fulfils_iff notice hkey hbefore).mp hafter)

theorem limitsKept_step_iff (p : Checkouts) (e : CheckoutStep) (hp : Consistent p)
    (hlimits : LimitsKept cat p.store) :
    LimitsKept cat (checkoutStep cat p e).store ↔ FulfilsWhatIsLeft cat p e := by
  cases e with
  | changeBasket user basket unique => exact iff_of_true (hlimits.of_count fun _ => rfl) trivial
  | validate user req =>
    have horders := (validateBasket_spec cat user req p.store).1
    exact iff_of_true (hlimits.of_count (fulfilledCount_of_ordersKept horders)) trivial
  | makeOrder i =>
    refine iff_of_true ?_ trivial
    rcases makeOrder_cases p i with ⟨validated, hstep⟩ | ⟨user, req, o, store, hout, hstep⟩
    · rw [hstep]
      exact hlimits
    · rw [hstep]
      exact hlimits.of_count (fulfilledCount_of_checkedOut hout)
  | charge i =>
    rcases charge_cases p i with ⟨hmade, hstep⟩ | ⟨req, o, hmade, hstep⟩
    · rw [hstep]
      refine iff_of_true hlimits fun req o hx => ?_
      rw [hmade] at hx
      cases hx
    · rw [hstep]
      exact limitsKept_charge_iff hp hlimits hmade
  | payment i notice =>
    rcases payment_cases p i notice with ⟨hsession, hstep⟩ | ⟨session, hsession, hstep⟩
    · rw [hstep]
      refine iff_of_true hlimits fun session hx => ?_
      rw [hsession] at hx
      cases hx
    · rw [hstep]
      exact limitsKept_payment_iff hp hlimits hsession notice

/-! ## Every run -/

/-- Along every run of checkouts, in any order of their steps, the redemption limits hold after every
step exactly if every order that is fulfilled has what the redemption rules ask for just before. -/
theorem redemption_limits_iff {p : Checkouts} (hp : Consistent p) (hlimits : LimitsKept cat p.store)
    (steps : List CheckoutStep) :
    Trace.Along (checkoutStep cat) (fun p e => LimitsKept cat (checkoutStep cat p e).store) p steps ↔
      Trace.Along (checkoutStep cat) (FulfilsWhatIsLeft cat) p steps :=
  Trace.along_iff_of_invariant (fun p => Consistent p ∧ LimitsKept cat p.store)
    (fun p e hinv h => ⟨consistent_step p e hinv.1,
      (limitsKept_step_iff p e hinv.1 hinv.2).mpr h⟩)
    (fun p e hinv => limitsKept_step_iff p e hinv.1 hinv.2) ⟨hp, hlimits⟩

/-- A discount of fifty dollars that can be redeemed once. -/
def oneTimeDiscount : Discount :=
  ⟨⟨5000000⟩, .dollarsOff, .oneTime, none, none, none, none, [], []⟩

/-- The catalog of hundred dollar products, in which every discount can be redeemed once. -/
def oneTimeCatalog : Catalog := { openCatalog with discount := fun _ => oneTimeDiscount }

/-- Users 1 and 2 put product 1 and discount 7 into their baskets, and both check out. -/
def twoCheckouts : List CheckoutStep :=
  let req (id : String) : CheckoutRequest :=
    ⟨.stripe, false, false, none, .ok (stripeEvent id), 0, Faults.none⟩
  [.changeBasket 1 ⟨[⟨1, 1⟩], [⟨1, 7⟩]⟩ (List.nodup_singleton 7),
   .changeBasket 2 ⟨[⟨1, 1⟩], [⟨2, 7⟩]⟩ (List.nodup_singleton 7),
   .validate 1 (req "cs_1"), .validate 2 (req "cs_2"),
   .makeOrder 0, .makeOrder 0, .charge 0, .charge 0]

/-- No checkout is open. -/
def Checkouts.start (s : Store) : Checkouts := ⟨s, [], [], []⟩

theorem consistent_start : Consistent (Checkouts.start Store.empty) := by
  constructor
  · intro user
    exact List.nodup_nil
  · intro o
    exact List.nodup_nil
  · intro x hx
    exact absurd hx List.not_mem_nil
  · intro session hsession
    exact absurd hsession List.not_mem_nil

theorem limitsKept_empty (cat : Catalog) : LimitsKept cat Store.empty :=
  ⟨fun _ _ => Nat.zero_le 1, fun _ _ _ => Nat.zero_le 1, fun _ m _ _ => Nat.zero_le m⟩

/-- The report that the session at a place was paid. -/
def sessionPaid (i : ℕ) (id : String) : CheckoutStep :=
  .payment i ⟨.webhook, stripeEvent id, 1, Faults.none⟩

/-- Both users pay, and the discount is redeemed twice. -/
theorem one_time_discount_is_redeemed_twice :
    ¬∀ (cat : Catalog) (p : Checkouts) (steps : List CheckoutStep), Consistent p →
      LimitsKept cat p.store → Trace.Along (checkoutStep cat)
        (fun p e => LimitsKept cat (checkoutStep cat p e).store) p steps := by
  intro h
  have hrun := h oneTimeCatalog (Checkouts.start Store.empty)
    (twoCheckouts ++ [sessionPaid 0 "evt_1", sessionPaid 1 "evt_2"]) consistent_start
    (limitsKept_empty _)
  have hlimits := hrun.2.2.2.2.2.2.2.2.2.1
  exact absurd (hlimits.oneTime 7 rfl) (by decide +kernel)

/-- Only the first user pays. -/
theorem redemption_limits_iff_example :
    Trace.Along (checkoutStep oneTimeCatalog)
        (fun p e => LimitsKept oneTimeCatalog (checkoutStep oneTimeCatalog p e).store)
        (Checkouts.start Store.empty) (twoCheckouts ++ [sessionPaid 0 "evt_1"]) ↔
      Trace.Along (checkoutStep oneTimeCatalog) (FulfilsWhatIsLeft oneTimeCatalog)
        (Checkouts.start Store.empty) (twoCheckouts ++ [sessionPaid 0 "evt_1"]) :=
  redemption_limits_iff consistent_start (limitsKept_empty _) _

end MitxOnline

import MitxOnline.Ecommerce.Proofs.GrantsProofs
import MitxOnline.Ecommerce.Purchases

/-!
# What is paid for an order

A checkout prices the requested products anew and replaces the redemptions of the order it reuses,
while the sessions of earlier checkouts go on referring to that order. Nothing else changes the total
or the redemptions of an order, so a payment is for the right amount when its session charged what
the last checkout of the order made of it.
-/

namespace MitxOnline

open Autocommit

variable {cat : Catalog} {s s' : Store} {user : UserId} {o : OrderId} {f : Faults} {now : Instant}
  {data : PaymentData} {req : CheckoutRequest} {session : Session}

/-! ## Code that leaves prices alone -/

/-- Every order has the total and the redemptions it had. -/
structure PricesKept (s s' : Store) : Prop where
  totalPricePaid : ∀ o, (s'.order o).totalPricePaid = (s.order o).totalPricePaid
  discounts : ∀ o, (s'.order o).discounts = (s.order o).discounts

theorem pricesKept_frame : IsFrame PricesKept := by
  constructor
  · intro s
    exact ⟨fun _ => rfl, fun _ => rfl⟩
  · intro s t u h h'
    constructor
    · intro o
      rw [h'.totalPricePaid o, h.totalPricePaid o]
    · intro o
      rw [h'.discounts o, h.discounts o]

theorem pricesKept_of_ordersKept (h : OrdersKept s s') : PricesKept s s' := by
  have hrow := order_of_ordersKept h
  constructor
  · intro o
    rw [hrow o]
  · intro o
    rw [hrow o]

theorem pricesKept_setOrder {row : Order} (ht : row.totalPricePaid = (s.order o).totalPricePaid)
    (hd : row.discounts = (s.order o).discounts) : PricesKept s (s.setOrder o row) := by
  constructor <;> intro o' <;> by_cases ho : o' = o
  · rw [ho, Store.setOrder_order_self, ht]
  · rw [Store.setOrder_order_of_ne _ _ ho]
  · rw [ho, Store.setOrder_order_self, hd]
  · rw [Store.setOrder_order_of_ne _ _ ho]

theorem createTransaction_pricesKept (reason : String) :
    Keeps PricesKept (createTransaction f o data reason) := by
  apply keeps_createTransaction pricesKept_frame
  intro t s
  exact pricesKept_setOrder rfl rfl

theorem fulfill_pricesKept (opts : FulfillOptions) (inTransaction : Bool) :
    Keeps PricesKept (fulfill f cat now o data opts inTransaction) := by
  have hr := pricesKept_frame
  have henrollments : Keeps PricesKept (createEnrollments f cat now o) := by
    intro s
    exact pricesKept_of_ordersKept (createEnrollments_orders s)
  have hbody : Keeps PricesKept (fulfillBody f cat now o data opts inTransaction) :=
    keeps_fulfillBody hr (fun _ _ => pricesKept_setOrder rfl rfl) henrollments
  exact keeps_callTransition hr hbody fun _ => pricesKept_setOrder rfl rfl

theorem fulfillCompletedOrder_pricesKept (opts : FulfillOptions) (inTransaction : Bool) :
    Keeps PricesKept (fulfillCompletedOrder f cat now o data opts inTransaction) := by
  intro s
  have hfulfill : PricesKept s (fulfill f cat now o data opts inTransaction s).state :=
    fulfill_pricesKept opts inTransaction s
  have hafter : PricesKept (fulfill f cat now o data opts inTransaction s).state
      (fulfillCompletedOrder f cat now o data opts inTransaction s).state :=
    pricesKept_of_ordersKept (fulfillCompletedOrder_orders opts inTransaction s)
  exact pricesKept_frame.trans _ _ _ hfulfill hafter

theorem fulfillFreeOrder_pricesKept : Keeps PricesKept (fulfillFreeOrder cat req o) := by
  have hr := pricesKept_frame
  refine keeps_andThen hr (keeps_atomic hr (fulfillCompletedOrder_pricesKept _ true)) fun s => ?_
  split
  · exact keeps_mayFail hr s
  · exact hr.refl s

/-- The report of a payment keeps what fulfilling the order and deleting a basket keep. -/
theorem keeps_handle {r : Store → Store → Prop} (hr : IsFrame r) {n : PaymentNotice}
    (hfulfill : ∀ opts inTransaction,
      Keeps r (fulfill n.faults cat n.now o n.data opts inTransaction))
    (hbasket : ∀ user s, r s (s.withoutBasket user)) : Keeps r (n.handle cat o) := by
  have hcompleted : ∀ opts inTransaction,
      Keeps r (fulfillCompletedOrder n.faults cat n.now o n.data opts inTransaction) := by
    intro opts inTransaction t
    exact hr.trans _ _ _ (hfulfill opts inTransaction t)
      (fulfillCompletedOrder_after hr hbasket opts inTransaction t)
  intro s
  unfold PaymentNotice.handle
  cases n.channel with
  | webhook =>
    show r s (processStripeCheckoutCompleted n.faults cat n.now o .paid n.data s).state
    unfold processStripeCheckoutCompleted
    split
    · exact hcompleted _ false s
    · exact hr.refl s
  | callback =>
    refine keeps_atomic hr (fun s => ?_) s
    split
    · exact keeps_seq_cons hr (hcompleted _ true)
        (keeps_seq_cons hr (keeps_mayFail hr) (keeps_seq_nil hr)) s
    · exact hr.refl s
  | resolution skipFulfillment =>
    show r s (resolveSuccess n.faults cat n.now skipFulfillment o n.data s).state
    unfold resolveSuccess resolvePendingOrder
    rw [attempt_state]
    split
    · exact keeps_seq_cons hr (hfulfill _ false)
        (keeps_seq_cons hr (keeps_mayFail hr) (keeps_seq_nil hr)) s
    · exact hr.refl s

theorem attemptPayment_pricesKept (n : PaymentNotice) (s : Store) :
    PricesKept s (attemptPayment cat o s n) :=
  keeps_handle pricesKept_frame fulfill_pricesKept (fun _ _ => pricesKept_of_ordersKept rfl) s

theorem attemptPayment_movesPending (n : PaymentNotice) (s : Store) :
    MovesPending s (attemptPayment cat o s n) :=
  keeps_handle movesPending_frame fulfill_movesPending
    (fun _ _ => movesPending_of_ordersKept rfl) s

/-! ## Payments that are refused -/

theorem not_returns_of_refused {opts : FulfillOptions} {inTransaction : Bool}
    (h : Refused f s o data) : ¬Returns f ⟨some [.pending], .fulfilled⟩ o
      (fulfillBody f cat now o data opts inTransaction) s := by
  rintro ⟨-, hbody, hsave⟩
  obtain ⟨hpoint, s', hs'⟩ := (createTransaction_error "").mp (seq_cons_error hbody).1
  rcases h with h | ⟨e, he⟩ | h
  · exact h hpoint
  · rw [hs'] at he
    cases he
  · exact h hsave

theorem fulfill_state_of_refused {opts : FulfillOptions} {inTransaction : Bool}
    (h : Refused f s o data) :
    ((fulfill f cat now o data opts inTransaction s).state.order o).state = (s.order o).state :=
  (callTransition_order_state (fulfillBody_records opts inTransaction s).state).2
    (not_returns_of_refused h)

theorem fulfillCompletedOrder_state_of_refused {opts : FulfillOptions} {inTransaction : Bool}
    (h : Refused f s o data) :
    ((fulfillCompletedOrder f cat now o data opts inTransaction s).state.order o).state =
      (s.order o).state := by
  rw [order_of_ordersKept (fulfillCompletedOrder_orders opts inTransaction s)]
  exact fulfill_state_of_refused h

/-- A payment that is refused leaves the state of its order. -/
theorem handle_state_of_refused (cat : Catalog) (n : PaymentNotice) (h : Refused n.faults s o n.data) :
    ((n.handle cat o s).state.order o).state = (s.order o).state := by
  have hthen : ∀ a : Code, ((a s).state.order o).state = (s.order o).state →
      ((seq [a, mayFail n.faults .syncHubspotDeal] s).state.order o).state = (s.order o).state := by
    intro a ha
    rw [order_of_ordersKept (syncHubspotDeal_orders a s), ha]
  unfold PaymentNotice.handle
  cases n.channel with
  | webhook =>
    show ((processStripeCheckoutCompleted n.faults cat n.now o .paid n.data s).state.order o).state = _
    unfold processStripeCheckoutCompleted
    split
    · exact fulfillCompletedOrder_state_of_refused h
    · rfl
  | callback =>
    show ((cybersourceCallback n.faults cat n.now o .accepted true n.data s).state.order o).state = _
    unfold cybersourceCallback atomic
    dsimp only
    split
    · dsimp only
      split
      · exact hthen _ (fulfillCompletedOrder_state_of_refused h)
      · rfl
    · rfl
  | resolution skipFulfillment =>
    show ((resolveSuccess n.faults cat n.now skipFulfillment o n.data s).state.order o).state = _
    unfold resolveSuccess resolvePendingOrder
    rw [attempt_state]
    split
    · exact hthen _ (fulfill_state_of_refused h)
    · rfl

/-! ## Checkouts -/

/-- What a checkout makes of an order: the total it saves, the charge of the session it starts, and
the discounts it redeems. -/
structure Quote where
  total : ℚ
  charge : ℚ
  discounts : List DiscountId
  deriving DecidableEq

/-- The quote for a basket, from the order that is reused for it or a new one. -/
def Store.quote (cat : Catalog) (s : Store) (user : UserId) (basket : Basket)
    (gatewayType : GatewayType) : Quote :=
  let start := startingOrder cat s basket.getProducts user gatewayType
  let total := ((requested cat basket.getProducts).map fun r =>
    (start.lines.lineFor cat r.1 r.2).price cat basket.discountIds).sum
  { total
    charge := total + unrequestedCost cat basket.discountIds basket.getProducts start -
      repeatedCost cat basket.discountIds basket.getProducts start
    discounts := basket.discountIds }

/-- The order that a checkout prices, if it gets to one, and its quote. -/
def checkoutQuote (cat : Catalog) (user : UserId) (req : CheckoutRequest) (s : Store) :
    Option (OrderId × Quote) :=
  let basket := s.basketOf user
  match checkoutRefusal cat (setBasket user basket s) user basket req with
  | some _ => none
  | none =>
    match createFromBasket cat (setBasket user basket s) user basket req.gatewayType with
    | .error _ => none
    | .ok (o, _) => some (o, s.quote cat user basket req.gatewayType)

/-- The order has the total and the redemptions of the quote. -/
def Order.priced (row : Order) (q : Quote) : Prop :=
  row.totalPricePaid = q.total ∧ row.discountIds = q.discounts

theorem PricesKept.priced (h : PricesKept s s') {q : Quote} (hq : (s.order o).priced q) :
    (s'.order o).priced q := by
  refine ⟨(h.totalPricePaid o).trans hq.1, ?_⟩
  unfold Order.discountIds
  rw [h.discounts o]
  exact hq.2

theorem chargeOrder_pricesKept : PricesKept s (chargeOrder cat req o s).1 := by
  have hr := pricesKept_frame
  unfold chargeOrder
  split
  · exact hr.refl s
  · split
    · dsimp only
      split
      · exact fulfillFreeOrder_pricesKept s
      · exact fulfillFreeOrder_pricesKept s
    · split
      · exact hr.refl s
      · dsimp only
        split
        · split
          · exact createTransaction_pricesKept _ s
          · exact createTransaction_pricesKept _ s
        · exact hr.refl s

/-- A session is for the order that was priced, and charges the sum over its lines. -/
theorem chargeOrder_session (h : startedSession (chargeOrder cat req o s).2 = some session) :
    session.reference = o ∧ (s.order o).linesTotal cat = .ok session.amount ∧
      session.discounts = (s.order o).discountIds := by
  unfold chargeOrder at h
  split at h
  · simp [startedSession] at h
  · rename_i total htotal
    split at h
    · dsimp only at h
      split at h <;> simp [startedSession] at h
    · split at h
      · simp [startedSession] at h
      · dsimp only at h
        split at h
        · split at h
          · cases h
            exact ⟨rfl, htotal, rfl⟩
          · simp [startedSession] at h
        · cases h
          exact ⟨rfl, htotal, rfl⟩

theorem CheckedOut.priced {basket : Basket} {gatewayType : GatewayType}
    (h : CheckedOut cat s s' basket.getProducts user basket.discountIds gatewayType o) :
    (s'.order o).priced (s.quote cat user basket gatewayType) :=
  ⟨h.filled.total, h.filled.discounts_ids⟩

/-- A checkout that prices an order gives it the totals of its quote, and charges the quoted amount;
one that does not leaves all prices. -/
theorem checkout_spec (cat : Catalog) (user : UserId) (req : CheckoutRequest) (s : Store) :
    (checkoutQuote cat user req s = none ∧
      PricesKept s (generateCheckoutPayload cat user req s).1 ∧
      startedSession (generateCheckoutPayload cat user req s).2 = none) ∨
    ∃ o q, checkoutQuote cat user req s = some (o, q) ∧
      ((generateCheckoutPayload cat user req s).1.order o).priced q ∧
      (∀ o' ≠ o, ∀ q', (s.order o').priced q' →
        ((generateCheckoutPayload cat user req s).1.order o').priced q') ∧
      ∀ session, startedSession (generateCheckoutPayload cat user req s).2 = some session →
        session.reference = o ∧ session.amount = q.charge ∧ session.discounts = q.discounts := by
  have hkept : ∀ basket t, PricesKept t (setBasket user basket t) :=
    fun _ _ => pricesKept_of_ordersKept rfl
  unfold checkoutQuote generateCheckoutPayload
  dsimp only
  cases hrefusal : checkoutRefusal cat (setBasket user (s.basketOf user) s) user (s.basketOf user) req with
  | some refusal =>
    have htwice : ∀ basket', PricesKept s (setBasket user basket' (setBasket user (s.basketOf user) s)) :=
      fun basket' => pricesKept_frame.trans _ _ _ (hkept _ s) (hkept basket' _)
    refine Or.inl ⟨rfl, ?_, ?_⟩
    · cases refusal <;> first
        | exact hkept _ s
        | exact htwice _
    · cases refusal <;> rfl
  | none =>
    cases hbuilt : createFromBasket cat (setBasket user (s.basketOf user) s) user (s.basketOf user)
        req.gatewayType with
    | error e => exact Or.inl ⟨rfl, hkept _ s, rfl⟩
    | ok built =>
      obtain ⟨o, s1⟩ := built
      have hout := createFromBasket_spec hbuilt
      have hpriced := hout.priced
      have hcharge : PricesKept s1 (chargeOrder cat req o s1).1 := chargeOrder_pricesKept
      refine Or.inr ⟨o, _, rfl, hcharge.priced hpriced, ?_, ?_⟩
      · intro o' ho' q' hq'
        apply hcharge.priced
        rw [hout.frame o' ho']
        exact hq'
      · intro session hsession
        obtain ⟨href, htotal, hds⟩ := chargeOrder_session hsession
        refine ⟨href, ?_, hds.trans hpriced.2⟩
        have hids : (s1.order o).discounts.map (·.redeemedDiscount) = (s.basketOf user).discountIds :=
          hout.filled.discounts_ids
        -- The session charges all lines, the total is over the requested products.
        unfold Order.linesTotal at htotal
        rw [hids, linesTotal_iff, hout.sum_lines] at htotal
        rw [htotal.2, hpriced.1]
        rfl

/-! ## Runs -/

/-- The purchases of a user, with what was quoted: by the last checkout of each order, and by the
checkout of each session. -/
structure Quoted where
  purchases : Purchases
  last : OrderId → Option Quote
  issued : List (Session × Quote)

/-- The quotes after an event. -/
def quotedStep (cat : Catalog) (user : UserId) (p : Quoted) (e : PurchaseEvent) : Quoted :=
  let purchases := purchaseStep cat user p.purchases e
  match e with
  | .checkout req =>
    match checkoutQuote cat user req p.purchases.store with
    | none => { p with purchases }
    | some (o, q) =>
      { purchases
        last := fun o' => if o' = o then some q else p.last o'
        issued := p.issued ++ ((startedSession
          (generateCheckoutPayload cat user req p.purchases.store).2).map fun ses => (ses, q)).toList }
  | _ => { p with purchases }

/-- No session has been started yet. -/
def Quoted.start (s : Store) : Quoted := ⟨⟨s, []⟩, fun _ => none, []⟩

/-- If the event is a payment and its order is fulfilled by it, the order's total is what the session
charged, and its redemptions are those the session was priced with. -/
def PaidAsPriced (cat : Catalog) (user : UserId) (p : Purchases) : PurchaseEvent → Prop
  | .payment i notice => ∀ session, p.sessions[i]? = some session →
      (p.store.order session.reference).state ≠ .fulfilled →
      let after := (purchaseStep cat user p (.payment i notice)).store.order session.reference
      after.state = .fulfilled →
        session.amount = after.totalPricePaid ∧ session.discounts = after.discountIds
  | _ => True

/-- If the event is a payment for a pending order and it is not refused, the charge of its session is
the total of the last checkout of the order, for the same discounts. -/
def PaysLastQuote (p : Quoted) : PurchaseEvent → Prop
  | .payment i notice => ∀ session q last, p.issued[i]? = some (session, q) →
      p.last session.reference = some last →
      (p.purchases.store.order session.reference).state = .pending →
      ¬Refused notice.faults p.purchases.store session.reference notice.data →
      q.charge = last.total ∧ q.discounts = last.discounts
  | _ => True

/-- Orders are as their last checkouts priced them, and sessions charge what was quoted for them. -/
structure QuotesHold (p : Quoted) : Prop where
  sessions : p.purchases.sessions = p.issued.map Prod.fst
  last : ∀ o q, p.last o = some q → (p.purchases.store.order o).priced q
  issued : ∀ x ∈ p.issued, x.1.amount = x.2.charge ∧ x.1.discounts = x.2.discounts ∧
    ∃ q, p.last x.1.reference = some q

theorem quotesHold_start (s : Store) : QuotesHold (Quoted.start s) :=
  ⟨rfl, nofun, nofun⟩

theorem QuotesHold.prices {p : Quoted} (h : QuotesHold p) {store : Store}
    (hkept : PricesKept p.purchases.store store) :
    QuotesHold { p with purchases := ⟨store, p.purchases.sessions⟩ } :=
  ⟨h.sessions, fun o q hq => hkept.priced (h.last o q hq), h.issued⟩

theorem quotesHold_step (p : Quoted) (e : PurchaseEvent) (h : QuotesHold p) :
    QuotesHold (quotedStep cat user p e) := by
  cases e with
  | changeBasket basket => exact h.prices (pricesKept_of_ordersKept rfl)
  | payment i notice =>
    show QuotesHold { p with purchases := purchaseStep cat user p.purchases (.payment i notice) }
    cases hsession : p.purchases.sessions[i]? with
    | none =>
      have hstep : purchaseStep cat user p.purchases (.payment i notice) = p.purchases := by
        simp [purchaseStep, hsession]
      rw [hstep]
      exact h
    | some session =>
      have hstep : purchaseStep cat user p.purchases (.payment i notice) =
          ⟨attemptPayment cat session.reference p.purchases.store notice, p.purchases.sessions⟩ := by
        simp [purchaseStep, hsession]
      rw [hstep]
      exact h.prices (attemptPayment_pricesKept notice _)
  | checkout req =>
    unfold quotedStep
    rcases checkout_spec cat user req p.purchases.store with
      ⟨hnone, hkept, hstart⟩ | ⟨o, q, hquote, hpriced, hothers, hsession⟩
    · simp only [hnone, purchaseStep, hstart, Option.toList_none, List.append_nil]
      exact h.prices hkept
    · simp only [hquote]
      constructor
      · simp only [purchaseStep, List.map_append, h.sessions]
        cases startedSession (generateCheckoutPayload cat user req p.purchases.store).2 <;> rfl
      · intro o' q' hq'
        by_cases ho : o' = o
        · obtain rfl : q = q' := by simpa [ho] using hq'
          rw [ho]
          exact hpriced
        · have hlast : p.last o' = some q' := by simpa [ho] using hq'
          exact hothers o' ho q' (h.last o' q' hlast)
      · intro x hx
        rcases List.mem_append.mp hx with hold | hnew
        · obtain ⟨hamount, hdiscounts, last, hlast⟩ := h.issued x hold
          refine ⟨hamount, hdiscounts, ?_⟩
          by_cases ho : x.1.reference = o
          · exact ⟨q, by simp [ho]⟩
          · exact ⟨last, by simpa [ho] using hlast⟩
        · obtain ⟨session, hses, rfl⟩ := Option.map_eq_some_iff.mp (Option.mem_toList.mp hnew)
          obtain ⟨href, hamount, hdiscounts⟩ := hsession session hses
          exact ⟨hamount, hdiscounts, q, by simp [href]⟩

theorem paidAsPriced_of_lastQuote (p : Quoted) (e : PurchaseEvent) (h : QuotesHold p)
    (hpays : PaysLastQuote p e) : PaidAsPriced cat user p.purchases e := by
  cases e with
  | changeBasket basket => trivial
  | checkout req => trivial
  | payment i notice =>
    intro session hsession hbefore after hafter
    have hstep : purchaseStep cat user p.purchases (.payment i notice) =
        { p.purchases with
          store := attemptPayment cat session.reference p.purchases.store notice } := by
      simp [purchaseStep, hsession]
    have hkept : PricesKept p.purchases.store
        (attemptPayment cat session.reference p.purchases.store notice) :=
      attemptPayment_pricesKept notice _
    rw [h.sessions, List.getElem?_map] at hsession
    obtain ⟨⟨session', q⟩, hissued, rfl⟩ := Option.map_eq_some_iff.mp hsession
    obtain ⟨hamount, hdiscounts, last, hlast⟩ := h.issued _ (List.mem_of_getElem? hissued)
    simp only [after, hstep] at hafter
    have hpending : (p.purchases.store.order session'.reference).state = .pending := by
      have hmoves : MovesPending p.purchases.store
          (attemptPayment cat session'.reference p.purchases.store notice) :=
        attemptPayment_movesPending notice _
      rcases hmoves.2 session'.reference with hsame | hpending
      · exact absurd (hsame.symm.trans hafter) hbefore
      · exact hpending
    -- A payment that is refused does not fulfil the order.
    have hnot : ¬Refused notice.faults p.purchases.store session'.reference notice.data := by
      intro hrefused
      have hstate := handle_state_of_refused cat notice hrefused
      apply hbefore
      rw [← hstate]
      exact hafter
    obtain ⟨hcharge, hlastDiscounts⟩ := hpays _ _ _ hissued hlast hpending hnot
    have hsame : after.priced last := by
      simp only [after, hstep]
      exact hkept.priced (h.last _ _ hlast)
    constructor
    · rw [hsame.1, ← hcharge, hamount]
    · rw [hsame.2, ← hlastDiscounts, hdiscounts]

theorem quotedStep_purchases (p : Quoted) (e : PurchaseEvent) :
    (quotedStep cat user p e).purchases = purchaseStep cat user p.purchases e := by
  unfold quotedStep
  cases e with
  | changeBasket basket => rfl
  | payment i notice => rfl
  | checkout req =>
    dsimp only
    split <;> rfl

/-- Along every run of checkouts and payments in which each payment for a pending order is of a session
that charged what the last checkout of the order made of it, orders are fulfilled for what was paid. -/
theorem paid_as_priced {events : List PurchaseEvent}
    (h : Trace.Along (quotedStep cat user) PaysLastQuote (Quoted.start s) events) :
    Trace.Along (purchaseStep cat user) (PaidAsPriced cat user) ⟨s, []⟩ events :=
  (Trace.along_map quotedStep_purchases).mp
    (Trace.along_of_invariant QuotesHold (fun p e hp _ => quotesHold_step p e hp)
      (fun p e hp hpays => paidAsPriced_of_lastQuote p e hp hpays) (quotesHold_start s) h)

/-- The catalog of hundred dollar products, of which 1 and 2 are on sale. -/
def openCatalog : Catalog := { hundredDollarCatalog with productIds := [1, 2] }

/-- A checkout with Stripe in which nothing fails; the session gets the given id. -/
def stripeCheckout (id : String) : PurchaseEvent :=
  .checkout ⟨.stripe, false, false, none, .ok (stripeEvent id), 0, Faults.none⟩

/-- Product 1 is checked out, then products 1 and 2. -/
def growingPurchase : List PurchaseEvent :=
  [.changeBasket ⟨[⟨1, 1⟩], []⟩, stripeCheckout "cs_1",
   .changeBasket ⟨[⟨1, 1⟩, ⟨2, 1⟩], []⟩, stripeCheckout "cs_2"]

/-- The report that a session was paid. -/
def paidNotice : PaymentNotice := ⟨.webhook, stripeEvent "evt_1", 1, Faults.none⟩

/-- The first session charges a hundred dollars and fulfils the order for two hundred. -/
theorem earlier_session_pays_for_later_order :
    ¬∀ (cat : Catalog) (user : UserId) (s : Store) (events : List PurchaseEvent),
      Trace.Along (purchaseStep cat user) (PaidAsPriced cat user) ⟨s, []⟩ events := by
  intro h
  have hrun := h openCatalog 1 Store.empty (growingPurchase ++ [.payment 0 paidNotice])
  have hpaid := (hrun.2.2.2.2.1 ⟨1, 100, []⟩ (by decide +kernel) (by decide +kernel)
    (by decide +kernel)).1
  exact absurd hpaid (by decide +kernel)

/-- The second session pays for the order as it is. -/
theorem paid_as_priced_example :
    Trace.Along (purchaseStep openCatalog 1) (PaidAsPriced openCatalog 1) ⟨Store.empty, []⟩
      (growingPurchase ++ [.payment 1 paidNotice]) := by
  apply paid_as_priced
  refine ⟨trivial, trivial, trivial, trivial, ?_, trivial⟩
  intro session q last hissued hlast _ _
  have hsecond : (Trace.run (quotedStep openCatalog 1) (Quoted.start Store.empty)
      growingPurchase).issued[1]? = some (⟨1, 200, []⟩, ⟨200, 200, []⟩) := by decide +kernel
  have hquoted : (Trace.run (quotedStep openCatalog 1) (Quoted.start Store.empty)
      growingPurchase).last 1 = some ⟨200, 200, []⟩ := by decide +kernel
  obtain ⟨rfl, rfl⟩ := Prod.mk.inj (Option.some.inj (hissued.symm.trans hsecond))
  obtain rfl := Option.some.inj (hlast.symm.trans hquoted)
  exact ⟨rfl, rfl⟩

end MitxOnline

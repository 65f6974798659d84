import MitxOnline.Courses.Proofs.EnrollmentsProofs
import MitxOnline.Ecommerce.OrderFlow
import MitxOnline.Lib.StateFlow

/-!
# What the order flow changes

Every transition works on one order and leaves the rows of the others alone, and the state of its
order changes only by the save at the end.
-/

namespace MitxOnline

open Autocommit StateFlow

variable {f : Faults} {cat : Catalog} {now : Instant} {o : OrderId} {s : Store} {data : PaymentData}

/-! ## Frames -/

/-- The table of orders is as it was. -/
def OrdersKept (s s' : Store) : Prop := s'.orders = s.orders

theorem ordersKept_frame : IsFrame OrdersKept := isFrame_eq Store.orders

/-- The rows of orders other than `o` are as they were. -/
structure TouchesOnly (o : OrderId) (s s' : Store) : Prop where
  keys : s'.orders.keys = s.orders.keys
  others : ∀ o' ≠ o, s'.order o' = s.order o'

theorem touchesOnly_frame (o : OrderId) : IsFrame (TouchesOnly o) := by
  constructor
  · intro s
    exact ⟨rfl, fun _ _ => rfl⟩
  · intro s t u h h'
    refine ⟨h'.keys.trans h.keys, ?_⟩
    intro o' ho'
    rw [h'.others o' ho', h.others o' ho']

theorem order_of_ordersKept {s s' : Store} (h : OrdersKept s s') (o : OrderId) :
    s'.order o = s.order o := by
  unfold OrdersKept at h
  unfold Store.order
  rw [h]

theorem touchesOnly_of_ordersKept {s s' : Store} (h : OrdersKept s s') : TouchesOnly o s s' := by
  refine ⟨congrArg Table.keys h, ?_⟩
  intro o' _
  exact order_of_ordersKept h o'

theorem touchesOnly_setOrder (s : Store) (row : Order) : TouchesOnly o s (s.setOrder o row) := by
  refine ⟨rfl, ?_⟩
  intro o' ho'
  exact s.setOrder_order_of_ne row ho'

/-- The order has the state, the total, the lines and the discounts it had. -/
structure OnlyRecords (o : OrderId) (s s' : Store) : Prop where
  state : (s'.order o).state = (s.order o).state
  purchaser : (s'.order o).purchaser = (s.order o).purchaser
  totalPricePaid : (s'.order o).totalPricePaid = (s.order o).totalPricePaid
  gatewayType : (s'.order o).gatewayType = (s.order o).gatewayType
  lines : (s'.order o).lines = (s.order o).lines
  discounts : (s'.order o).discounts = (s.order o).discounts

theorem onlyRecords_frame (o : OrderId) : IsFrame (OnlyRecords o) := by
  constructor
  · intro s
    exact ⟨rfl, rfl, rfl, rfl, rfl, rfl⟩
  · intro s t u h h'
    exact ⟨h'.state.trans h.state, h'.purchaser.trans h.purchaser,
      h'.totalPricePaid.trans h.totalPricePaid, h'.gatewayType.trans h.gatewayType,
      h'.lines.trans h.lines, h'.discounts.trans h.discounts⟩

theorem onlyRecords_of_ordersKept {s s' : Store} (h : OrdersKept s s') : OnlyRecords o s s' := by
  have hrow := order_of_ordersKept h o
  constructor <;> rw [hrow]

theorem onlyRecords_addTransaction (s : Store) (t : Transaction) :
    OnlyRecords o s (addTransaction o t s) := by
  constructor <;> simp [addTransaction]

/-! ## Transactions -/

theorem getOrCreateTransaction_cases {t : Transaction} {s' : Store}
    (h : getOrCreateTransaction o t s = .ok s') :
    (s' = s ∧ t.transactionId ∈ (s.order o).transactions.map (·.transactionId)) ∨
      (s' = addTransaction o t s ∧ t.transactionId ∉ s.transactionIds ∧
        t.transactionId ∉ (s.order o).transactions.map (·.transactionId)) := by
  unfold getOrCreateTransaction at h
  split at h
  · rename_i hmem
    cases h
    exact Or.inl ⟨rfl, hmem⟩
  · rename_i hmem
    split at h
    · cases h
    · rename_i hids
      cases h
      exact Or.inr ⟨rfl, hids, hmem⟩

/-- Recording a payment finds its transaction or adds one. -/
theorem recordPayment_cases {reason : String} {s' : Store}
    (h : recordPayment o data reason s = .ok s') :
    ∃ transactionId amount,
      (s.order o).transactionPayload data s.uuid4 = .ok (transactionId, amount) ∧
      ((s' = s ∧ transactionId ∈ (s.order o).transactions.map (·.transactionId)) ∨
        (s' = addTransaction o ⟨transactionId, amount, data, .payment, reason⟩ s ∧
          transactionId ∉ s.transactionIds ∧
          transactionId ∉ (s.order o).transactions.map (·.transactionId))) := by
  unfold recordPayment at h
  split at h
  · rename_i transactionId amount hpayload
    exact ⟨transactionId, amount, hpayload, getOrCreateTransaction_cases h⟩
  · cases h

theorem recordRefund_cases {apiResponseData : Option PaymentData} {amount : ℚ} {reason : String}
    {s' : Store} (h : recordRefund o apiResponseData amount reason s = .ok s') :
    s' = s ∨ ∃ t, s' = addTransaction o t s := by
  unfold recordRefund at h
  split at h
  · cases h
  · split at h
    · cases h
      exact Or.inl rfl
    · dsimp only at h
      split at h
      · cases h
        exact Or.inl rfl
      · split at h
        · cases h
        · cases h
          exact Or.inr ⟨_, rfl⟩

theorem keeps_createTransaction {r : Store → Store → Prop} (hr : IsFrame r) {reason : String}
    (h : ∀ t s, r s (addTransaction o t s)) : Keeps r (createTransaction f o data reason) := by
  refine keeps_fallible hr (keeps_statement hr fun s s' hs => ?_)
  obtain ⟨_, _, _, ⟨rfl, _⟩ | ⟨rfl, _⟩⟩ := recordPayment_cases hs
  · exact hr.refl s'
  · exact h _ s

theorem keeps_refundBody {r : Store → Store → Prop} (hr : IsFrame r)
    {apiResponseData : Option PaymentData} {amount : ℚ} {reason : String}
    (h : ∀ t s, r s (addTransaction o t s)) :
    Keeps r (refundBody f o apiResponseData amount reason) := by
  refine keeps_seq_cons hr (keeps_fallible hr (keeps_statement hr fun s s' hs => ?_))
    (keeps_seq_cons hr (keeps_mayFail hr) (keeps_seq_nil hr))
  rcases recordRefund_cases hs with rfl | ⟨t, rfl⟩
  · exact hr.refl s'
  · exact h t s

/-! ## Enrollments -/

/-- The enrollments of a line keep what the orders and the baskets decide. -/
theorem keeps_line_of_kept {r : Store → Store → Prop} (hr : IsFrame r)
    (hkept : ∀ {s s' : Store}, OrdersKept s s' → s'.baskets = s.baskets → r s s') (user : UserId)
    (l : Line) : Keeps r (processTransactionLine f cat now user o l) := by
  have hrun : ∀ run, AllowsRun r f cat now user run := by
    intro run
    have hjoin : Keeps r (joinContract f cat now user run) :=
      keeps_joinContract hr (fun _ _ _ => hkept rfl rfl) fun _ _ => hkept rfl rfl
    exact ⟨fun _ _ => hkept rfl rfl, hjoin⟩
  have hline : AllowsLine r f cat now user o l :=
    ⟨fun run _ => hrun run, fun _ _ _ _ => hkept rfl rfl, fun _ _ _ _ => hkept rfl rfl,
      fun _ _ _ => hkept rfl rfl, fun _ _ run _ => hrun run⟩
  exact keeps_processTransactionLine hr hline

theorem keeps_lines_ordersKept (user : UserId) (l : Line) :
    Keeps OrdersKept (processTransactionLine f cat now user o l) :=
  keeps_line_of_kept ordersKept_frame (fun horders _ => horders) user l

theorem keeps_createEnrollments {r : Store → Store → Prop} (hr : IsFrame r)
    (h : ∀ s : Store, ∀ l ∈ (s.order o).lines.rows,
      Keeps r (processTransactionLine f cat now (s.order o).purchaser o l)) :
    Keeps r (createEnrollments f cat now o) := by
  intro s
  refine keeps_seq hr (fun a ha => ?_) s
  obtain ⟨l, hl, rfl⟩ := List.mem_map.mp ha
  exact h s l hl

theorem createEnrollments_orders (s : Store) :
    (createEnrollments f cat now o s).state.orders = s.orders :=
  keeps_createEnrollments ordersKept_frame (fun _ _ _ => keeps_lines_ordersKept _ _) s

/-! ## Transitions -/

theorem keeps_fulfillBody {r : Store → Store → Prop} (hr : IsFrame r) {opts : FulfillOptions}
    {inTransaction : Bool} (htransaction : ∀ t s, r s (addTransaction o t s))
    (henrollments : Keeps r (createEnrollments f cat now o)) :
    Keeps r (fulfillBody f cat now o data opts inTransaction) := by
  refine keeps_seq_cons hr (keeps_createTransaction hr htransaction)
    (keeps_seq_cons hr ?_ (keeps_seq_cons hr ?_ (keeps_seq_nil hr)))
  · split
    · exact keeps_skip hr
    · exact henrollments
  · intro s
    dsimp only
    split
    · exact keeps_mayFail hr s
    · exact hr.refl s

/-- A transition returns when it is allowed, its body returns and the order is saved. -/
def Returns (f : Faults) (t : StateFlow.Transition OrderStatus) (o : OrderId) (body : Code)
    (s : Store) : Prop :=
  t.allows (s.order o).state = true ∧ (body s).error = none ∧ f .orderSave = none

theorem andThen_mayFail_state (body : Code) (point : Point) (s : Store) :
    (andThen body (mayFail f point) s).state = (body s).state := by
  cases he : (body s).error with
  | none => rw [andThen_of_ok he, mayFail_state]
  | some e => rw [andThen_of_error he]

theorem andThen_mayFail_error (body : Code) (point : Point) (s : Store) :
    (andThen body (mayFail f point) s).error = none ↔ (body s).error = none ∧ f point = none := by
  cases he : (body s).error with
  | none =>
    rw [andThen_of_ok he]
    unfold mayFail fallible
    cases f point <;> simp
  | some e => simp [andThen_of_error he]

/-- What a transition leaves: nothing where it is not allowed, the body's writes where it raises, the
target state on top of them where it returns. -/
theorem callTransition_cases (f : Faults) (t : StateFlow.Transition OrderStatus) (o : OrderId)
    (body : Code) (s : Store) :
    (t.allows (s.order o).state = false ∧
      callTransition f t o body s = ⟨s, some .transitionNotAllowed⟩) ∨
    (t.allows (s.order o).state = true ∧ ¬Returns f t o body s ∧
      (callTransition f t o body s).state = (body s).state ∧
      (callTransition f t o body s).error ≠ none) ∨
    (Returns f t o body s ∧
      callTransition f t o body s = ⟨(body s).state.setState o t.target, none⟩) := by
  unfold callTransition Returns
  cases hallow : t.allows (s.order o).state with
  | false => exact Or.inl ⟨rfl, call_of_not_allowed (fun s : Store => (s.order o).state) hallow⟩
  | true =>
    cases he : (andThen body (mayFail f .orderSave) s).error with
    | none =>
      have hret := (andThen_mayFail_error body .orderSave s).mp he
      refine Or.inr (Or.inr ⟨⟨rfl, hret⟩, ?_⟩)
      rw [call_of_ok (fun s : Store => (s.order o).state) hallow he, andThen_mayFail_state]
    | some e =>
      have hret : ¬((body s).error = none ∧ f .orderSave = none) := by
        rw [← andThen_mayFail_error body .orderSave s, he]
        simp
      refine Or.inr (Or.inl ⟨rfl, fun h => hret h.2, ?_, ?_⟩)
      · rw [call_of_error (fun s : Store => (s.order o).state) hallow he, andThen_mayFail_state]
      · rw [call_of_error (fun s : Store => (s.order o).state) hallow he]
        simp

/-- A relation that the body and the save keep is kept by the transition. -/
theorem keeps_callTransition {r : Store → Store → Prop} (hr : IsFrame r)
    {t : StateFlow.Transition OrderStatus} {body : Code} (hbody : Keeps r body)
    (hsave : ∀ s : Store, r s (s.setState o t.target)) : Keeps r (callTransition f t o body) := by
  intro s
  rcases callTransition_cases f t o body s with ⟨-, h⟩ | ⟨-, -, h, -⟩ | ⟨-, h⟩
  · rw [h]
    exact hr.refl s
  · rw [h]
    exact hbody s
  · rw [h]
    exact hr.trans _ _ _ (hbody s) (hsave _)

theorem keeps_touchesOnly_callTransition {t : StateFlow.Transition OrderStatus} {body : Code}
    (hbody : Keeps (TouchesOnly o) body) : Keeps (TouchesOnly o) (callTransition f t o body) :=
  keeps_callTransition (touchesOnly_frame o) hbody fun s => touchesOnly_setOrder s _

/-- The state of the order after a transition. -/
theorem callTransition_order_state {t : StateFlow.Transition OrderStatus} {body : Code}
    (hbody : ((body s).state.order o).state = (s.order o).state) :
    (Returns f t o body s → ((callTransition f t o body s).state.order o).state = t.target) ∧
      (¬Returns f t o body s →
        ((callTransition f t o body s).state.order o).state = (s.order o).state) := by
  rcases callTransition_cases f t o body s with ⟨hallow, h⟩ | ⟨-, hret, h, -⟩ | ⟨hret, h⟩
  · refine ⟨fun hret => ?_, fun _ => by rw [h]⟩
    rw [hret.1] at hallow
    simp at hallow
  · exact ⟨fun hret' => absurd hret' hret, fun _ => by rw [h, hbody]⟩
  · exact ⟨fun _ => by rw [h]; simp, fun hret' => absurd hret hret'⟩

end MitxOnline

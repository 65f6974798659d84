import MitxOnline.B2b.B2bEnrollments
import MitxOnline.B2b.Proofs.MembershipsProofs
import MitxOnline.B2b.Proofs.ReconciliationProofs
import MitxOnline.Ecommerce.Proofs.RedemptionsProofs

/-!
# What a request to enroll in a run of a contract writes

Before its checkout the request writes the basket of the learner and may create a code. The checkout makes
or reuses one order, and an order for one run enrolls its purchaser in this run only.
-/

namespace MitxOnline

open Autocommit

variable {cat : ContractCatalog} {req : B2bRequest} {user : UserId} {p : ProductId} {r : RunId}
  {db db' : SeatStore} {s s' : Store} {o : OrderId} {d : DiscountId} {f : Faults} {now : Instant}

/-! ## Before the checkout -/

/-- Only the basket of the user is written, and discounts are only created. -/
structure Prepares (user : UserId) (db db' : SeatStore) : Prop where
  rest : { db'.store with baskets := db.store.baskets } = db.store
  baskets : ∀ user' ≠ user, db'.store.baskets user' = db.store.baskets user'
  keys : ∀ d ∈ db.discounts.keys, d ∈ db'.discounts.keys
  rows : ∀ d ∈ db.discounts.keys, db'.discounts.row d = db.discounts.row d

theorem prepares_frame (user : UserId) : IsFrame (Prepares user) := by
  constructor
  · intro db
    exact ⟨rfl, fun _ _ => rfl, fun _ h => h, fun _ _ => rfl⟩
  · intro db db1 db2 h h'
    refine ⟨?_, fun u hu => (h'.baskets u hu).trans (h.baskets u hu),
      fun d hd => h'.keys d (h.keys d hd), fun d hd => (h'.rows d (h.keys d hd)).trans (h.rows d hd)⟩
    rw [← h.rest, ← h'.rest]

namespace Prepares

variable (h : Prepares user db db')

include h

theorem orders : db'.store.orders = db.store.orders := by
  rw [← h.rest]

theorem enrollments : db'.store.enrollments = db.store.enrollments := by
  rw [← h.rest]

theorem orderRedemptions (d : DiscountId) :
    db'.store.orderRedemptions d = db.store.orderRedemptions d := by
  unfold Store.orderRedemptions Store.redemptionCount Store.order
  rw [h.orders]

end Prepares

theorem prepares_editBasket (edit : Basket → Basket) (db : SeatStore) :
    Prepares user db (editBasket user edit db) := by
  refine ⟨rfl, fun user' hne => ?_, fun _ h => h, fun _ _ => rfl⟩
  show (setBasket user _ db.store).baskets user' = _
  simp [setBasket, hne]

theorem keeps_b2bStatement {rel : SeatStore → SeatStore → Prop} (hr : IsFrame rel)
    {point : BasketPoint} {g : SeatStore → SeatStore} (h : ∀ db, rel db (g db)) :
    Keeps rel (req.statement point g) := by
  intro db
  unfold B2bRequest.statement
  split
  · exact hr.refl db
  · exact h db

theorem prepareBasket_prepares : Keeps (Prepares user) (prepareBasket req user p) := by
  have hr := prepares_frame user
  refine keeps_seq hr fun a ha => ?_
  simp only [List.mem_cons, List.not_mem_nil, or_false] at ha
  rcases ha with rfl | rfl | rfl | rfl | rfl
  · exact keeps_b2bStatement hr hr.refl
  all_goals exact keeps_b2bStatement hr fun db => prepares_editBasket _ db

theorem addBasketDiscount_prepares : Keeps (Prepares user) (addBasketDiscount req user d) :=
  keeps_b2bStatement (prepares_frame user) fun db => prepares_editBasket _ db

/-- The key of a new discount is not in use. -/
theorem ne_nextKey (hd : d ∈ db.discounts.keys) : d ≠ db.discounts.nextKey := by
  rintro rfl
  exact db.discounts.nextKey_not_mem hd

theorem prepares_saveDiscount (amount : FixedPoint.Decimal 5) (redemptionType : RedemptionType) :
    Prepares user db (db.saveDiscount amount redemptionType) := by
  refine ⟨rfl, fun _ _ => rfl, fun d hd => ?_, fun d hd => ?_⟩
  · exact (Table.mem_create_keys _ _ d).mpr (Or.inl hd)
  · exact Table.create_row_of_ne _ _ (ne_nextKey hd)

theorem createCodeFor_prepares (c : ContractPage) :
    Keeps (Prepares user) (createCodeFor req user p c) := by
  have hr := prepares_frame user
  intro db
  unfold createCodeFor
  dsimp only
  split
  · exact hr.refl db
  · split
    · exact prepares_saveDiscount ..
    · refine hr.trans _ _ _ ?_ (addBasketDiscount_prepares _)
      have hsaved : Prepares user db (db.saveDiscount c.codeAmount c.codeRedemptionType) :=
        prepares_saveDiscount ..
      refine ⟨rfl, fun _ _ => rfl, hsaved.keys, fun d hd => ?_⟩
      exact (Table.set_row_of_ne _ _ (ne_nextKey hd)).trans (hsaved.rows d hd)

theorem applyAvailableDiscount_prepares :
    Keeps (Prepares user) (applyAvailableDiscount cat req user p) := by
  intro db
  unfold applyAvailableDiscount
  split
  · exact addBasketDiscount_prepares db
  · split
    · exact (prepares_frame user).refl db
    · exact createCodeFor_prepares _ db

theorem fillBasket_prepares : Keeps (Prepares user) (fillBasket cat req user p) :=
  keeps_andThen (prepares_frame user) prepareBasket_prepares applyAvailableDiscount_prepares

/-- The code is one that no order has, or one without a limit, in a database from which only the basket
and new discounts differ. -/
structure GivenCode (db db' : SeatStore) (d : DiscountId) : Prop where
  key : d ∈ db'.discounts.keys
  free : d ∉ db.discounts.keys ∨ db.store.orderRedemptions d = 0 ∨
    (db'.discounts.row d).redemptionType = .unlimited

theorem b2bStatement_ok {point : BasketPoint} {g : SeatStore → SeatStore}
    (h : (req.statement point g db).error = none) : req.statement point g db = ⟨g db, none⟩ := by
  unfold B2bRequest.statement at h ⊢
  cases hpoint : req.basketFaults point with
  | none => rfl
  | some e =>
    rw [hpoint] at h
    cases h

theorem basketOf_editBasket (edit : Basket → Basket) (db : SeatStore) :
    (editBasket user edit db).store.basketOf user = edit (db.store.basketOf user) := by
  show (setBasket user _ db.store).basketOf user = _
  rw [basketOf_setBasket, if_pos rfl]

/-- Statements that all return are executed one after the other. -/
theorem statements_ok (steps : List (BasketPoint × (SeatStore → SeatStore)))
    (h : (seq (steps.map fun step => req.statement step.1 step.2) db).error = none) :
    (seq (steps.map fun step => req.statement step.1 step.2) db).state =
      steps.foldl (fun db step => step.2 db) db := by
  induction steps generalizing db with
  | nil => rfl
  | cons step rest ih =>
    rw [List.map_cons] at h ⊢
    obtain ⟨hfirst, hrest⟩ := seq_cons_error h
    rw [b2bStatement_ok hfirst] at hrest
    rw [seq_cons, andThen_of_ok hfirst, b2bStatement_ok hfirst]
    exact ih hrest

theorem prepareBasket_ok (h : (prepareBasket req user p db).error = none) :
    (prepareBasket req user p db).state.store.basketOf user = ⟨[⟨p, 1⟩], []⟩ := by
  have hstate := statements_ok [(.createUser, id), (.basket, editBasket user id),
    (.basketItems, editBasket user fun basket => { basket with basketItems := [] }),
    (.basketDiscounts, editBasket user fun basket => { basket with discounts := [] }),
    (.basketItem, editBasket user fun basket =>
      { basket with basketItems := basket.basketItems ++ [⟨p, 1⟩] })] h
  refine (congrArg (fun db : SeatStore => db.store.basketOf user) hstate).trans ?_
  simp [basketOf_editBasket]

/-- The basket has the product and one discount. -/
def HasCode (user : UserId) (p : ProductId) (d : DiscountId) (db : SeatStore) : Prop :=
  db.store.basketOf user = ⟨[⟨p, 1⟩], [⟨user, d⟩]⟩

theorem addBasketDiscount_ok (hbasket : db.store.basketOf user = ⟨[⟨p, 1⟩], []⟩)
    (h : (addBasketDiscount req user d db).error = none) :
    HasCode user p d (addBasketDiscount req user d db).state := by
  unfold addBasketDiscount at h ⊢
  rw [b2bStatement_ok h]
  unfold HasCode
  rw [basketOf_editBasket, hbasket]
  rfl

theorem createCodeFor_ok {c : ContractPage} (hbasket : db.store.basketOf user = ⟨[⟨p, 1⟩], []⟩)
    (h : (createCodeFor req user p c db).error = none) :
    HasCode user p db.discounts.nextKey (createCodeFor req user p c db).state ∧
      db.discounts.nextKey ∈ (createCodeFor req user p c db).state.discounts.keys := by
  unfold createCodeFor at h ⊢
  dsimp only at h ⊢
  cases hdiscount : req.basketFaults .discount with
  | some e =>
    rw [hdiscount] at h
    cases h
  | none =>
    rw [hdiscount] at h
    dsimp only at h ⊢
    cases hproduct : req.basketFaults .discountProduct with
    | some e =>
      rw [hproduct] at h
      cases h
    | none =>
      rw [hproduct] at h
      dsimp only at h ⊢
      have hmem := db.nextKey_mem_saveDiscount c.codeAmount c.codeRedemptionType
      let coded := (db.saveDiscount c.codeAmount c.codeRedemptionType).saveDiscountProduct
        db.discounts.nextKey p hmem
      have hadds : Prepares user coded (addBasketDiscount req user db.discounts.nextKey coded).state :=
        addBasketDiscount_prepares coded
      exact ⟨addBasketDiscount_ok hbasket h, hadds.keys _ hmem⟩

/-- A request that gets to its checkout has put the product and a code into the basket. -/
theorem fillBasket_ok (h : (fillBasket cat req user p db).error = none) :
    ∃ d, HasCode user p d (fillBasket cat req user p db).state ∧
      GivenCode db (fillBasket cat req user p db).state d := by
  have hprepared : (prepareBasket req user p db).error = none := by
    unfold fillBasket andThen at h
    cases herror : (prepareBasket req user p db).error with
    | none => rfl
    | some e =>
      rw [herror] at h
      cases h
  have hprepares : Prepares user db (prepareBasket req user p db).state := prepareBasket_prepares db
  have hbasket := prepareBasket_ok hprepared
  unfold fillBasket at h ⊢
  rw [andThen_of_ok hprepared] at h ⊢
  generalize (prepareBasket req user p db).state = db1 at h hprepares hbasket ⊢
  unfold applyAvailableDiscount at h ⊢
  cases hcode : availableCode db1 p with
  | some d =>
    rw [hcode] at h
    dsimp only at h ⊢
    have hadds : Prepares user db1 (addBasketDiscount req user d db1).state := addBasketDiscount_prepares db1
    have hkey : d ∈ db1.discounts.keys :=
      ((db1.productDiscounts_iff p d).mp (List.mem_of_find?_eq_some hcode)).1
    refine ⟨d, addBasketDiscount_ok hbasket h, hadds.keys d hkey, Or.inr ?_⟩
    have happlicable := List.find?_some hcode
    simp only [isApplicable, Bool.and_eq_true, Bool.or_eq_true, beq_iff_eq] at happlicable
    rw [hadds.rows d hkey, ← hprepares.orderRedemptions]
    exact happlicable.2
  | none =>
    rw [hcode] at h
    dsimp only at h ⊢
    cases hpage : productContractPage cat p with
    | none =>
      rw [hpage] at h
      cases h
    | some c =>
      rw [hpage] at h
      dsimp only at h ⊢
      obtain ⟨hhas, hkey⟩ := createCodeFor_ok hbasket h
      refine ⟨db1.discounts.nextKey, hhas, hkey, Or.inl fun hold => ?_⟩
      exact ne_nextKey (hprepares.keys _ hold) rfl

/-! ## The checkout -/

/-- All lines of the order purchase the run for the user. -/
structure OrderForRun (user : UserId) (r : RunId) (o : OrderId) (s : Store) : Prop where
  purchaser : (s.order o).purchaser = user
  lines : ∀ l ∈ (s.order o).lines.rows, l.purchases .courseRun r = true

/-- No enrollment is written but that of the user in the run. -/
def EnrollsOnly (user : UserId) (r : RunId) (s s' : Store) : Prop :=
  ∀ user' r', (user' ≠ user ∨ r' ≠ r) → s'.enrollments user' r' = s.enrollments user' r'

theorem enrollsOnly_frame (user : UserId) (r : RunId) : IsFrame (EnrollsOnly user r) := by
  constructor
  · intro s user' r' _
    rfl
  · intro s t u h h' user' r' hne
    exact (h' user' r' hne).trans (h user' r' hne)

theorem enrollsOnly_of_enrollments (h : s'.enrollments = s.enrollments) : EnrollsOnly user r s s' := by
  intro user' r' _
  rw [h]

theorem enrollsOnly_setEnrollment (row : CourseRunEnrollment) (s : Store) :
    EnrollsOnly user r s (setEnrollment user r row s) := by
  intro user' r' hne
  have hother : ¬(user' = user ∧ r' = r) := fun h => hne.elim (fun hu => hu h.1) fun hr => hr h.2
  simp [setEnrollment, hother]

theorem processTransactionLine_enrollsOnly {cat : Catalog} {l : Line}
    (hl : l.purchases .courseRun r = true) :
    Keeps (EnrollsOnly user r) (processTransactionLine f cat now user o l) := by
  have hr := enrollsOnly_frame user r
  have hrun : AllowsRun (EnrollsOnly user r) f cat now user r := by
    refine ⟨enrollsOnly_setEnrollment, ?_⟩
    exact keeps_joinContract hr (fun _ _ _ => enrollsOnly_of_enrollments rfl)
      fun _ _ => enrollsOnly_of_enrollments rfl
  refine keeps_processTransactionLine hr ⟨fun run hrun' => ?_, fun _ _ _ _ =>
    enrollsOnly_of_enrollments rfl, fun _ _ _ _ => enrollsOnly_of_enrollments rfl,
    fun _ _ _ => enrollsOnly_of_enrollments rfl, fun p' hp' => ?_⟩
  · rw [(purchases_inj hrun' hl).2]
    exact hrun
  · cases (purchases_inj hp' hl).1

/-- While an order is for one run, no enrollment in another is written, and it stays for this run. -/
def EnrollsFor (user : UserId) (r : RunId) (o : OrderId) (s s' : Store) : Prop :=
  OrderForRun user r o s → EnrollsOnly user r s s' ∧ OrderForRun user r o s'

theorem enrollsFor_frame (user : UserId) (r : RunId) (o : OrderId) : IsFrame (EnrollsFor user r o) :=
  isFrame_guarded (enrollsOnly_frame user r)

theorem enrollsFor_of_kept (henrollments : s'.enrollments = s.enrollments)
    (hlines : (s'.order o).lines = (s.order o).lines)
    (hpurchaser : (s'.order o).purchaser = (s.order o).purchaser) : EnrollsFor user r o s s' := by
  intro hfor
  refine ⟨enrollsOnly_of_enrollments henrollments, hpurchaser.trans hfor.purchaser, ?_⟩
  rw [hlines]
  exact hfor.lines

theorem enrollsFor_addTransaction (t : Transaction) (s : Store) :
    EnrollsFor user r o s (addTransaction o t s) :=
  enrollsFor_of_kept rfl (by simp [addTransaction]) (by simp [addTransaction])

theorem enrollsFor_createEnrollments {cat : Catalog} :
    Keeps (EnrollsFor user r o) (createEnrollments f cat now o) := by
  intro s hfor
  have honly : EnrollsOnly user r s (createEnrollments f cat now o s).state := by
    refine keeps_seq (enrollsOnly_frame user r) (fun a ha => ?_) s
    obtain ⟨l, hl, rfl⟩ := List.mem_map.mp ha
    rw [hfor.purchaser]
    exact processTransactionLine_enrollsOnly (hfor.lines l hl)
  have horder : (createEnrollments f cat now o s).state.order o = s.order o :=
    order_of_ordersKept (createEnrollments_orders s) o
  refine ⟨honly, ?_, ?_⟩
  · rw [horder]
    exact hfor.purchaser
  · rw [horder]
    exact hfor.lines

theorem fulfillFreeOrder_enrollsFor {cat : Catalog} {req : CheckoutRequest} :
    Keeps (EnrollsFor user r o) (fulfillFreeOrder cat req o) := by
  have hr := enrollsFor_frame user r o
  have hfulfill : Keeps (EnrollsFor user r o)
      (fulfill req.faults cat req.now o zeroPaymentData ⟨false, req.skipReceipt, false⟩ true) :=
    keeps_callTransition hr (keeps_fulfillBody hr enrollsFor_addTransaction enrollsFor_createEnrollments)
      fun s => enrollsFor_of_kept rfl (by simp) (by simp)
  have hcompleted : Keeps (EnrollsFor user r o)
      (fulfillCompletedOrder req.faults cat req.now o zeroPaymentData ⟨false, req.skipReceipt, false⟩ true) := by
    intro s
    refine hr.trans _ _ _ (hfulfill s) (fulfillCompletedOrder_after hr (fun _ _ => ?_) _ true s)
    exact enrollsFor_of_kept rfl rfl rfl
  refine keeps_andThen hr (keeps_atomic hr hcompleted) fun s => ?_
  split
  · exact keeps_mayFail hr s
  · exact hr.refl s

theorem chargeOrder_enrollsFor {cat : Catalog} {req : CheckoutRequest} (s : Store) :
    EnrollsFor user r o s (chargeOrder cat req o s).1 := by
  have hr := enrollsFor_frame user r o
  unfold chargeOrder
  split
  · exact hr.refl s
  · split
    · dsimp only
      split <;> exact fulfillFreeOrder_enrollsFor s
    · split
      · exact hr.refl s
      · rename_i session _
        have hcreate : EnrollsFor user r o s
            (createTransaction req.faults o session "Initial CheckoutSession" s).state :=
          keeps_createTransaction hr enrollsFor_addTransaction s
        dsimp only
        split
        · split <;> exact hcreate
        · exact hr.refl s

theorem chargeOrder_onlyFulfils {cat : Catalog} {req : CheckoutRequest}
    (h : (s.order o).state = .pending) : OnlyFulfils o s (chargeOrder cat req o s).1 := by
  rw [← chargeLoadedOrder_of_pending h]
  exact (chargeLoadedOrder_spec cat req o s).1

/-- The checkout of a basket makes or reuses an order of it, or writes no more than the basket. -/
theorem generateCheckoutPayload_orders (cat : Catalog) (user : UserId) (req : CheckoutRequest)
    (s : Store) :
    { (generateCheckoutPayload cat user req s).1 with baskets := s.baskets } = s ∨
    ∃ o s1, CheckedOut cat (setBasket user (s.basketOf user) s) s1 (s.basketOf user).getProducts user
        (s.basketOf user).discountIds req.gatewayType o ∧
      OnlyFulfils o s1 (generateCheckoutPayload cat user req s).1 ∧
      ∀ r, EnrollsFor user r o s1 (generateCheckoutPayload cat user req s).1 := by
  unfold generateCheckoutPayload
  dsimp only
  cases hrefusal : checkoutRefusal cat (setBasket user (s.basketOf user) s) user (s.basketOf user) req with
  | some refusal =>
    left
    cases refusal <;> rfl
  | none =>
    dsimp only
    cases hmade : createFromBasket cat (setBasket user (s.basketOf user) s) user (s.basketOf user)
        req.gatewayType with
    | error e => exact Or.inl rfl
    | ok made =>
      obtain ⟨o, s1⟩ := made
      have hout := createFromBasket_spec hmade
      exact Or.inr ⟨o, s1, hout, chargeOrder_onlyFulfils hout.pending.1,
        fun r => chargeOrder_enrollsFor s1⟩

/-! ## The whole request -/

/-- What `_validate_b2b_enrollment_prerequisites` has made sure of where it objects to nothing. -/
structure Validated (cat : ContractCatalog) (s : Store) (now : Instant) (user : UserId) (p : ProductId)
    (r : RunId) (c : ContractId) : Prop where
  contentType : (cat.product p).contentType = .courseRun
  objectId : (cat.product p).objectId = r
  contract : (cat.courseRun r).b2bContract = some c
  enrollable : isEnrollableForB2b cat s now r = true
  active : (cat.contract c).isActiveObject now = true
  member : user ∈ s.contractUsers c
  notVerified : s.enrolledAsVerified user r = false

theorem validated_of_ok {user : Option UserId}
    (h : validateB2bEnrollmentPrerequisites cat s now user p = .ok none) :
    ∃ u r c, user = some u ∧ Validated cat s now u p r c := by
  unfold validateB2bEnrollmentPrerequisites at h
  split at h
  · cases h
  · cases h
  · rename_i u htype
    dsimp only at h
    split at h
    · cases h
    · rename_i c hcontract
      by_cases henrollable : isEnrollableForB2b cat s now (cat.product p).objectId = false
      · rw [if_pos henrollable] at h
        cases h
      by_cases hactive : (cat.contract c).isActiveObject now = false
      · rw [if_neg henrollable, if_pos hactive] at h
        cases h
      by_cases hmember : inUserContracts cat.toCatalog s now u c = false
      · rw [if_neg henrollable, if_neg hactive, if_pos hmember] at h
        cases h
      by_cases hverified : s.enrolledAsVerified u (cat.product p).objectId = true
      · rw [if_neg henrollable, if_neg hactive, if_neg hmember, if_pos hverified] at h
        cases h
      have hin : inUserContracts cat.toCatalog s now u c = true := by simpa using hmember
      refine ⟨u, _, c, rfl, htype, rfl, hcontract, ?_, ?_, (inUserContracts_iff.mp hin).1, ?_⟩
      · simpa using henrollable
      · simpa using hactive
      · simpa using hverified

theorem programStep_writes : Keeps (fun s s' : Store => s'.orders = s.orders ∧
    s'.enrollments = s.enrollments ∧ s'.baskets = s.baskets ∧ s'.contractUsers = s.contractUsers)
    (programStep cat req user p) := by
  have hr : IsFrame fun s s' : Store => s'.orders = s.orders ∧ s'.enrollments = s.enrollments ∧
      s'.baskets = s.baskets ∧ s'.contractUsers = s.contractUsers := by
    constructor
    · intro s
      exact ⟨rfl, rfl, rfl, rfl⟩
    · rintro s t u ⟨ho, he, hb, hc⟩ ⟨ho', he', hb', hc'⟩
      exact ⟨ho'.trans ho, he'.trans he, hb'.trans hb, hc'.trans hc⟩
  unfold programStep enrollInProgramForB2b
  split
  · exact keeps_skip hr
  · split
    · exact keeps_skip hr
    · split
      · split
        · exact keeps_createProgramEnrollments hr fun _ _ _ _ => ⟨rfl, rfl, rfl, rfl⟩
        · exact keeps_skip hr
      · exact keeps_skip hr

theorem OnlyFulfils.kept {t : Store} (h : OnlyFulfils o s s') (horders : t.orders = s'.orders)
    (hbaskets : t.baskets = s'.baskets) : OnlyFulfils o s t := by
  have horder := order_of_ordersKept horders o
  refine ⟨(touchesOnly_frame o).trans _ _ _ h.touches (touchesOnly_of_ordersKept horders), ?_, ?_, ?_⟩
  · rw [horder]
    exact h.discounts
  · rw [horder]
    exact h.state
  · rw [hbaskets]
    exact h.baskets

/-- The order that a request makes or reuses, and what it does with it. -/
structure MakesOrder (cat : ContractCatalog) (req : B2bRequest) (user : UserId) (p : ProductId)
    (db db1 db' : SeatStore) (d : DiscountId) (o : OrderId) (s1 : Store) : Prop where
  code : GivenCode db db1 d
  made : CheckedOut (cat.withDiscounts db1) (setBasket user ⟨[⟨p, 1⟩], [⟨user, d⟩]⟩ db1.store) s1 [p] user
    [d] req.gatewayType o
  charged : OnlyFulfils o s1 db'.store
  enrolls : ∀ r, EnrollsFor user r o s1 db'.store

/-- What follows the checkout writes no order and no enrollment in a run, so the checkout says which order the
request makes. -/
theorem orders_after_checkout {db1 : SeatStore} {s2 s3 : Store} (hprepares : Prepares user db db1)
    (hhas : HasCode user p d db1) (hcode : GivenCode db db1 d)
    (hcheckout : { s2 with baskets := db1.store.baskets } = db1.store ∨
      ∃ o s1, CheckedOut (cat.withDiscounts db1) (setBasket user (db1.store.basketOf user) db1.store) s1
          (db1.store.basketOf user).getProducts user (db1.store.basketOf user).discountIds req.gatewayType o ∧
        OnlyFulfils o s1 s2 ∧ ∀ r, EnrollsFor user r o s1 s2)
    (horders : s3.orders = s2.orders) (henrollments : s3.enrollments = s2.enrollments)
    (hbaskets : s3.baskets = s2.baskets) :
    (s3.orders = db.store.orders ∧ s3.enrollments = db.store.enrollments) ∨
      ∃ d o s1, MakesOrder cat req user p db db1 (db1.write s3) d o s1 := by
  rcases hcheckout with hrest | ⟨o, s1, hmade, hcharged, henrolls⟩
  · left
    have ho : s2.orders = db1.store.orders := by rw [← hrest]
    have he : s2.enrollments = db1.store.enrollments := by rw [← hrest]
    exact ⟨(horders.trans ho).trans hprepares.orders, (henrollments.trans he).trans hprepares.enrollments⟩
  · right
    rw [hhas] at hmade
    refine ⟨d, o, s1, hcode, hmade, hcharged.kept horders hbaskets, fun r hfor => ?_⟩
    obtain ⟨honly, hfor2⟩ := henrolls r hfor
    refine ⟨(enrollsOnly_frame user r).trans _ _ _ honly (enrollsOnly_of_enrollments henrollments), ?_, ?_⟩
    · show (s3.order o).purchaser = user
      rw [order_of_ordersKept horders]
      exact hfor2.purchaser
    · show ∀ l ∈ (s3.order o).lines.rows, _
      rw [order_of_ordersKept horders]
      exact hfor2.lines

theorem checkoutB2bBasket_cases {db1 : SeatStore} (hprepares : Prepares user db db1)
    (hhas : HasCode user p d db1) (hcode : GivenCode db db1 d) :
    (checkoutB2bBasket cat req user p db1).1.discounts = db1.discounts ∧
      (((checkoutB2bBasket cat req user p db1).1.store.orders = db.store.orders ∧
          (checkoutB2bBasket cat req user p db1).1.store.enrollments = db.store.enrollments) ∨
        ∃ d o s1, MakesOrder cat req user p db db1 (checkoutB2bBasket cat req user p db1).1 d o s1) := by
  have hcheckout := generateCheckoutPayload_orders (cat.withDiscounts db1) user req.checkout db1.store
  unfold checkoutB2bBasket
  dsimp only
  split
  · generalize generateCheckoutPayload (cat.withDiscounts db1) user req.checkout db1.store = out
      at hcheckout ⊢
    obtain ⟨s2, result⟩ := out
    have hsame : (s2.orders = db.store.orders ∧ s2.enrollments = db.store.enrollments) ∨
        ∃ d o s1, MakesOrder cat req user p db db1 (db1.write s2) d o s1 :=
      orders_after_checkout hprepares hhas hcode hcheckout rfl rfl rfl
    cases result with
    | error e => exact ⟨rfl, hsame⟩
    | ok payload =>
      cases payload with
      | refused e => exact ⟨rfl, hsame⟩
      | payment session => exact ⟨rfl, hsame⟩
      | noCheckout o =>
        obtain ⟨ho, he, hb, -⟩ : (programStep cat req user p s2).state.orders = s2.orders ∧
            (programStep cat req user p s2).state.enrollments = s2.enrollments ∧
            (programStep cat req user p s2).state.baskets = s2.baskets ∧
            (programStep cat req user p s2).state.contractUsers = s2.contractUsers :=
          programStep_writes s2
        dsimp only
        split
        · exact ⟨rfl, orders_after_checkout hprepares hhas hcode hcheckout ho he hb⟩
        · exact ⟨rfl, orders_after_checkout hprepares hhas hcode hcheckout ho he hb⟩
  · exact ⟨rfl, Or.inl ⟨hprepares.orders, hprepares.enrollments⟩⟩

/-- The request writes nothing, or it is validated. Then it writes the basket and may create a code, and
where its checkout makes an order, it writes this order and what it grants. -/
theorem createB2bEnrollment_cases (cat : ContractCatalog) (req : B2bRequest) (user : Option UserId)
    (p : ProductId) (db : SeatStore) :
    (createB2bEnrollment cat req user p db).1 = db ∨
    ∃ u r c db1, user = some u ∧ Validated cat db.store req.now u p r c ∧ Prepares u db db1 ∧
      (createB2bEnrollment cat req user p db).1.discounts = db1.discounts ∧
      (((createB2bEnrollment cat req user p db).1.store.orders = db.store.orders ∧
          (createB2bEnrollment cat req user p db).1.store.enrollments = db.store.enrollments) ∨
        ∃ d o s1, MakesOrder cat req u p db db1 (createB2bEnrollment cat req user p db).1 d o s1) := by
  unfold createB2bEnrollment
  split
  · exact Or.inl rfl
  · exact Or.inl rfl
  · exact Or.inl rfl
  · exact Or.inl rfl
  · rename_i _ u hvalid
    obtain ⟨u', r, c, hu, hvalidated⟩ := validated_of_ok hvalid
    obtain rfl := Option.some.inj hu
    have hprepares : Prepares u db (fillBasket cat req u p db).state := fillBasket_prepares db
    right
    refine ⟨u, r, c, (fillBasket cat req u p db).state, rfl, hvalidated, hprepares, ?_⟩
    dsimp only
    cases herror : (fillBasket cat req u p db).error with
    | some e => exact ⟨rfl, Or.inl ⟨hprepares.orders, hprepares.enrollments⟩⟩
    | none =>
      obtain ⟨d, hhas, hcode⟩ := fillBasket_ok herror
      dsimp only
      generalize (fillBasket cat req u p db).state = db1 at hprepares hhas hcode ⊢
      exact checkoutB2bBasket_cases hprepares hhas hcode

end MitxOnline

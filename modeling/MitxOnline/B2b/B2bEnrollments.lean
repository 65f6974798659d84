import MitxOnline.B2b.CodeValidation
import MitxOnline.B2b.EnrollmentCodes
import MitxOnline.Courses.Deferrals
import MitxOnline.Courses.ProgramCourseEnrollments

/-!
# Enrollments of the members of a contract (`b2b/api.py`, `create_b2b_enrollment`)

A learner who belongs to a contract enrolls in its runs without going through the cart: the basket is
emptied and filled with the run and one of its enrollment codes, and where it is free it is checked out.
A run of a contract with a learner cap has as many seats. The statements of the request are not in a
transaction.
-/

namespace MitxOnline

open Autocommit FixedPoint

/-! ## The database -/

/-- A catalog with the programs of contracts. The accounts are the users there are. -/
structure ContractCatalog extends RunCatalog where
  accounts : Finset UserId
  /-- `Program.objects.get(readable_id=…)` -/
  programNamed : String → Option ProgramId
  /-- The programs of the `ContractProgramItem` rows of a contract. -/
  contractPrograms : ContractId → List ProgramId

/-- The database with its discounts and with the order of the rows that tie them to products. -/
structure SeatStore extends CodeStore where
  isBulk : DiscountId → Bool
  /-- The discounts of the `DiscountProduct` rows of a product, in the order of the keys of these rows. -/
  productDiscounts : ProductId → List DiscountId
  productDiscounts_iff : ∀ p d,
    d ∈ productDiscounts p ↔ d ∈ discounts.keys ∧ some p ∈ (discounts.row d).products

/-- The catalog with the discounts as they are in the database. -/
def ContractCatalog.withDiscounts (cat : ContractCatalog) (db : SeatStore) : Catalog :=
  { cat.toCatalog with discount := db.discounts.row }

namespace SeatStore

/-- Write to the tables other than those of the discounts. -/
def write (db : SeatStore) (s : Store) : SeatStore := { db with store := s }

/-- `Discount.save` of a new enrollment code, which has no products yet. -/
def saveDiscount (db : SeatStore) (amount : Decimal 5) (redemptionType : RedemptionType) : SeatStore where
  store := db.store
  discounts := db.discounts.create { CodeStore.newCode 0 amount redemptionType with products := [] }
  isBulk d := if d = db.discounts.nextKey then true else db.isBulk d
  productDiscounts := db.productDiscounts
  productDiscounts_iff p d := by
    rw [db.productDiscounts_iff]
    by_cases h : d = db.discounts.nextKey
    · subst h
      simp [Table.nextKey_not_mem]
    · simp [Table.create_row_of_ne, h]

theorem nextKey_mem_saveDiscount (db : SeatStore) (amount : Decimal 5) (redemptionType : RedemptionType) :
    db.discounts.nextKey ∈ (db.saveDiscount amount redemptionType).discounts.keys :=
  (Table.mem_create_keys _ _ _).mpr (Or.inr rfl)

/-- `DiscountProduct.save` of a new row. -/
def saveDiscountProduct (db : SeatStore) (d : DiscountId) (p : ProductId) (h : d ∈ db.discounts.keys) :
    SeatStore where
  store := db.store
  discounts := db.discounts.set d
    { db.discounts.row d with products := (db.discounts.row d).products ++ [some p] }
  isBulk := db.isBulk
  productDiscounts q := if q = p then db.productDiscounts q ++ [d] else db.productDiscounts q
  productDiscounts_iff q d' := by
    have hold := db.productDiscounts_iff q d'
    by_cases hd : d' = d
    · subst hd
      by_cases hq : q = p <;> simp [hq, h, hold]
    · by_cases hq : q = p
      · subst hq
        simp [hd, hold, Table.set_row_of_ne]
      · simp [hq, hd, hold, Table.set_row_of_ne]

end SeatStore

/-! ## Requests -/

/-- The statements before the checkout that can fail. -/
inductive BasketPoint where
  /-- `create_user`, for a learner without an edX username. -/
  | createUser
  | basket
  | basketItems
  | basketDiscounts
  | basketItem
  | discount
  | discountProduct
  | basketDiscount
  deriving DecidableEq, Repr

/-- A request to enroll: what it says, when it comes, what the gateway and the flexible prices answer, and
which of its statements fail. -/
structure B2bRequest where
  programId : Option String
  now : Instant
  gatewayType : GatewayType
  userDiscount : Option DiscountId
  startPayment : Except Error PaymentData
  basketFaults : BasketPoint → Option Error
  faults : Faults

/-- The checkout that `create_b2b_enrollment` asks for. -/
def B2bRequest.checkout (req : B2bRequest) : CheckoutRequest where
  gatewayType := req.gatewayType
  skipDiscountCheck := false
  skipReceipt := false
  userDiscount := req.userDiscount
  startPayment := req.startPayment
  now := req.now
  faults := req.faults

/-- What `_validate_b2b_enrollment_prerequisites` objects to. -/
inductive B2bObjection where
  | disallowed
  | noProduct
  | notEnrollable
  | noContract
  | alreadyEnrolled
  deriving DecidableEq, Repr

/-- The result of a request. -/
inductive B2bResult where
  | refused (objection : B2bObjection)
  | enrolled (order : Option OrderId)
  /-- The price of the basket and, where a checkout was tried, what it returned. -/
  | requiresCheckout (price : ℚ) (checkoutResult : Option CheckoutPayload)

/-! ## Prerequisites -/

/-- The enrollment is counted by `is_enrollable_for_b2b`. -/
def Store.takesContractSeat (s : Store) (user : UserId) (r : RunId) : Bool :=
  (s.enrollments user r).any fun e => e.active && e.changeStatus.isNone

/-- The enrollments of a run that take a seat. -/
def contractEnrollments (cat : ContractCatalog) (s : Store) (r : RunId) : ℕ :=
  (cat.accounts.filter fun user => s.takesContractSeat user r = true).card

/-- `CourseRun.is_enrollable_for_b2b` -/
def isEnrollableForB2b (cat : ContractCatalog) (s : Store) (now : Instant) (r : RunId) : Bool :=
  match (cat.courseRun r).b2bContract with
  | none => false
  | some c =>
    if (cat.contract c).learnerCap = 0 then (cat.schedule r).isEnrollable now
    else decide (contractEnrollments cat s r < (cat.contract c).learnerCap) &&
      (cat.schedule r).isEnrollable now

/-- `ALL_ENROLL_CHANGE_STATUSES` -/
def allEnrollChangeStatuses : List String := ["deferred", "transferred", "refunded", "unenrolled"]

/-- The learner has a verified enrollment in the run that is not marked as changed. -/
def Store.enrolledAsVerified (s : Store) (user : UserId) (r : RunId) : Bool :=
  (s.enrollments user r).any fun e => e.active && e.enrollmentMode == .verified &&
    !(e.changeStatus.any fun changeStatus => allEnrollChangeStatuses.contains changeStatus)

/-- `_validate_b2b_enrollment_prerequisites`. A program does not have the attribute `b2b_contract`. -/
def validateB2bEnrollmentPrerequisites (cat : ContractCatalog) (s : Store) (now : Instant)
    (user : Option UserId) (p : ProductId) : Except Error (Option B2bObjection) :=
  match user, (cat.product p).contentType with
  | none, _ => .ok (some .disallowed)
  | some _, .program => .error .failure
  | some user, .courseRun =>
    let r := (cat.product p).objectId
    match (cat.courseRun r).b2bContract with
    | none => .ok (some .noProduct)
    | some c =>
      if isEnrollableForB2b cat s now r = false then .ok (some .notEnrollable)
      else if (cat.contract c).isActiveObject now = false then .ok (some .noContract)
      else if inUserContracts cat.toCatalog s now user c = false then .ok (some .noContract)
      else if s.enrolledAsVerified user r = true then .ok (some .alreadyEnrolled)
      else .ok none

/-! ## The basket -/

/-- Code of the request before its checkout. -/
abbrev SeatAction := Action SeatStore Error

/-- A statement on the basket of a user, which exists. -/
def editBasket (user : UserId) (edit : Basket → Basket) (db : SeatStore) : SeatStore :=
  db.write (setBasket user (edit (db.store.basketOf user)) db.store)

/-- A statement before the checkout. -/
def B2bRequest.statement (req : B2bRequest) (point : BasketPoint) (g : SeatStore → SeatStore) :
    SeatAction := fun db =>
  match req.basketFaults point with
  | some e => ⟨db, some e⟩
  | none => ⟨g db, none⟩

/-- `_prepare_basket_for_b2b_enrollment` -/
def prepareBasket (req : B2bRequest) (user : UserId) (p : ProductId) : SeatAction :=
  seq
    [ req.statement .createUser id,
      req.statement .basket (editBasket user id),
      req.statement .basketItems (editBasket user fun basket => { basket with basketItems := [] }),
      req.statement .basketDiscounts (editBasket user fun basket => { basket with discounts := [] }),
      req.statement .basketItem (editBasket user fun basket =>
        { basket with basketItems := basket.basketItems ++ [⟨p, 1⟩] }) ]

/-- A code of a product can be given to a learner: no order has it, or it has no limit. -/
def isApplicable (db : SeatStore) (d : DiscountId) : Bool :=
  db.isBulk d &&
    (db.store.orderRedemptions d == 0 || (db.discounts.row d).redemptionType == .unlimited)

/-- The first code of a product that can be given to a learner. -/
def availableCode (db : SeatStore) (p : ProductId) : Option DiscountId :=
  (db.productDiscounts p).find? (isApplicable db)

/-- The discount of the basket. -/
def addBasketDiscount (req : B2bRequest) (user : UserId) (d : DiscountId) : SeatAction :=
  req.statement .basketDiscount (editBasket user fun basket =>
    { basket with discounts := basket.discounts ++ [⟨user, d⟩] })

/-- The row of the contract that the product of a run belongs to. -/
def productContractPage (cat : ContractCatalog) (p : ProductId) : Option ContractPage :=
  (productContract cat.toCatalog p).map cat.contract

/-- A code is made for a learner for whom there is none. -/
def createCodeFor (req : B2bRequest) (user : UserId) (p : ProductId) (c : ContractPage) : SeatAction :=
  fun db =>
    match req.basketFaults .discount with
    | some e => ⟨db, some e⟩
    | none =>
      let saved := db.saveDiscount c.codeAmount c.codeRedemptionType
      match req.basketFaults .discountProduct with
      | some e => ⟨saved, some e⟩
      | none => addBasketDiscount req user db.discounts.nextKey
          (saved.saveDiscountProduct db.discounts.nextKey p (db.nextKey_mem_saveDiscount ..))

/-- `_apply_available_discount` -/
def applyAvailableDiscount (cat : ContractCatalog) (req : B2bRequest) (user : UserId) (p : ProductId) :
    SeatAction := fun db =>
  match availableCode db p with
  | some d => addBasketDiscount req user d db
  | none =>
    match productContractPage cat p with
    | none => ⟨db, some (.valueError "has no purchasable object or the purchasable object has no B2B contract")⟩
    | some c => createCodeFor req user p c db

/-! ## The enrollment -/

/-- `_enroll_in_program_for_b2b` -/
def enrollInProgramForB2b (cat : ContractCatalog) (f : Faults) (user : UserId) (p : ProductId)
    (programId : String) : Code :=
  match cat.programNamed programId, productContract cat.toCatalog p with
  | some program, some c =>
    if program ∈ cat.contractPrograms c then createProgramEnrollments f user [program] .verified else skip
  | _, _ => skip

/-- The first order of a learner with a line for the product (`lines__product_version__object_id`). -/
def Store.orderFor (s : Store) (user : UserId) (p : ProductId) : Option OrderId :=
  s.orders.first fun _ o => o.purchaser == user &&
    o.lines.rows.any fun l => l.productVersion.objectId == p

/-- The enrollment in a program that comes with a request that succeeded. -/
def programStep (cat : ContractCatalog) (req : B2bRequest) (user : UserId) (p : ProductId) : Code :=
  match req.programId with
  | none => skip
  | some programId =>
    if programId = "" then skip else enrollInProgramForB2b cat req.faults user p programId

/-- The request from its basket on. -/
def checkoutB2bBasket (cat : ContractCatalog) (req : B2bRequest) (user : UserId) (p : ProductId)
    (db : SeatStore) : SeatStore × Except Error B2bResult :=
  let catalog := cat.withDiscounts db
  let price := (db.store.basketOf user).itemsTotal catalog
  if price = 0 then
    match generateCheckoutPayload catalog user req.checkout db.store with
    | (s, .error e) => (db.write s, .error e)
    | (s, .ok (.noCheckout o)) =>
      let out := programStep cat req user p s
      match out.error with
      | some e => (db.write out.state, .error e)
      | none => (db.write out.state, .ok (.enrolled (some o)))
    | (s, .ok payload) => (db.write s, .ok (.requiresCheckout price (some payload)))
  else (db, .ok (.requiresCheckout price none))

/-- `create_b2b_enrollment` up to the price of the basket. -/
def fillBasket (cat : ContractCatalog) (req : B2bRequest) (user : UserId) (p : ProductId) : SeatAction :=
  andThen (prepareBasket req user p) (applyAvailableDiscount cat req user p)

/-- `create_b2b_enrollment` -/
def createB2bEnrollment (cat : ContractCatalog) (req : B2bRequest) (user : Option UserId) (p : ProductId)
    (db : SeatStore) : SeatStore × Except Error B2bResult :=
  match validateB2bEnrollmentPrerequisites cat db.store req.now user p, user with
  | .error e, _ => (db, .error e)
  | .ok (some .alreadyEnrolled), some user => (db, .ok (.enrolled (db.store.orderFor user p)))
  | .ok (some objection), _ => (db, .ok (.refused objection))
  | .ok none, none => (db, .ok (.refused .disallowed))
  | .ok none, some user =>
    let out := fillBasket cat req user p db
    match out.error with
    | some e => (out.state, .error e)
    | none => checkoutB2bBasket cat req user p out.state

/-! ## Runs -/

/-- What happens to the enrollments and the memberships of a contract: a learner asks to be enrolled,
redeems a code, logs in or leaves a run. -/
inductive SeatEvent where
  | enroll (req : B2bRequest) (user : Option UserId) (p : ProductId)
  | redeemCode (f : Faults) (now : Instant) (user : UserId) (code : DiscountId)
  | login (f : Faults) (now : Instant) (user : UserId) (organizations : List ℕ)
  | unenroll (unenroll : Unenrollments) (user : UserId) (r : RunId) (keepFailedEnrollments : Bool)

/-- What an event leaves. -/
def seatStep (cat : ContractCatalog) (db : SeatStore) : SeatEvent → SeatStore
  | .enroll req user p => (createB2bEnrollment cat req user p db).1
  | .redeemCode f now user code =>
    db.write (attachContract f (cat.withDiscounts db) now user code db.store).state
  | .login f now user organizations =>
    db.write (reconcileUserOrgs f (cat.withDiscounts db) now user organizations db.store).state
  | .unenroll unenroll user r keepFailedEnrollments =>
    match db.store.enrollments user r with
    | none => db
    | some e => db.write (deactivateRunEnrollment unenroll user r e enrollChangeStatusUnenrolled
        keepFailedEnrollments db.store).1

end MitxOnline

import MitxOnline.Courses.Enrollments
import MitxOnline.Ecommerce.PendingOrder
import MitxOnline.Lib.StateFlow

/-!
# The order flow (`ecommerce/models.py`, `OrderFlow`)

The transitions of an order and the code they run. A transition sets the state of the order in memory
and saves the order when its body returns; the body itself writes transactions, enrollments and
records of what was paid for, one statement after the other.
-/

namespace MitxOnline

open Autocommit StateFlow

/-- Append a transaction to an order. -/
def addTransaction (o : OrderId) (t : Transaction) (s : Store) : Store :=
  s.setOrder o { s.order o with transactions := (s.order o).transactions ++ [t] }

/-- The ids of all transactions, which are unique over all orders. -/
def Store.transactionIds (s : Store) : List TransactionId :=
  s.orders.keys.flatMap fun o => (s.order o).transactions.map (·.transactionId)

/-- The number of a `uuid4`, zero for other ids. -/
def TransactionId.number : TransactionId → ℕ
  | .uuid n => n
  | .processor _ => 0

/-- `uuid.uuid4()`: an id that no transaction has. -/
def Store.uuid4 (s : Store) : TransactionId :=
  .uuid ((s.transactionIds.map TransactionId.number).foldr max 0 + 1)

/-- The id and the amount that a payload of the payment processor is recorded under; `uuid` is a
fresh id. -/
def Order.transactionPayload (o : Order) (paymentData : PaymentData) (uuid : TransactionId) :
    Except Error (TransactionId × ℚ) :=
  let checked (id : Option String) (amount : ℚ) : Except Error (TransactionId × ℚ) :=
    match id with
    | none => .error (.validationError
        "Failed to record transaction: Missing transaction id from payment API response")
    | some id =>
      if id = "" then .error (.validationError
        "Failed to record transaction: Missing transaction id from payment API response")
      else .ok (.processor id, amount)
  if o.totalPricePaid = 0 ∨ paymentData.isAdministrative = true then .ok (uuid, 0)
  else
    match o.gatewayType with
    | .cybersource => checked paymentData.transactionId (paymentData.amount.getD 0)
    | .stripe => checked paymentData.id ((paymentData.amountTotal.map (· / 100)).getD 0)
    | .other => .error (.validationError
        "Failed to record transaction: unable to determine the origin of the passed data")

/-- `order.transactions.get_or_create(transaction_id=…)`. The id of a transaction of another order
cannot be used again. -/
def getOrCreateTransaction (o : OrderId) (t : Transaction) (s : Store) : Except Error Store :=
  if t.transactionId ∈ (s.order o).transactions.map (·.transactionId) then .ok s
  else if t.transactionId ∈ s.transactionIds then .error .integrityError
  else .ok (addTransaction o t s)

/-- What `create_transaction` does to the database. -/
def recordPayment (o : OrderId) (paymentData : PaymentData) (reason : String) (s : Store) :
    Except Error Store :=
  match (s.order o).transactionPayload paymentData s.uuid4 with
  | .ok (transactionId, amount) => getOrCreateTransaction o
      { transactionId, amount, data := paymentData, transactionType := .payment, reason } s
  | .error e => .error e

/-- `OrderFlow.create_transaction` -/
def createTransaction (f : Faults) (o : OrderId) (paymentData : PaymentData) (reason : String) : Code :=
  fallible f .transaction (statement (recordPayment o paymentData reason))

/-- `OrderFlow.create_enrollments`, inside `fulfill`, where the order is fulfilled in memory. -/
def createEnrollments (f : Faults) (cat : Catalog) (now : Instant) (o : OrderId) : Code := fun s =>
  seq ((s.order o).lines.rows.map
    (processTransactionLine f cat now (s.order o).purchaser o)) s

/-- Call a transition on the stored order. The last statement is the save. -/
def callTransition (f : Faults) (t : Transition OrderStatus) (o : OrderId) (body : Code) : Code :=
  t.call (fun s => (s.order o).state) (fun state s => s.setState o state) .transitionNotAllowed
    (andThen body (mayFail f .orderSave))

/-- `OrderFlow.cancel` -/
def cancel (f : Faults) (o : OrderId) (apiResponseData : Option PaymentData) : Code :=
  callTransition f ⟨none, .canceled⟩ o <|
    match apiResponseData with
    | some data => createTransaction f o data ""
    | none => skip

/-- `OrderFlow.decline` -/
def decline (f : Faults) (o : OrderId) : Code :=
  callTransition f ⟨some [.pending], .declined⟩ o <|
    update fun s => s.setOrder o { s.order o with discounts := [] }

/-- `OrderFlow.errored` -/
def errored (f : Faults) (o : OrderId) (apiResponseData : Option PaymentData) : Code :=
  callTransition f ⟨none, .errored⟩ o <|
    match apiResponseData with
    | some data => createTransaction f o data ""
    | none => skip

/-- The keyword arguments of `fulfill`. -/
structure FulfillOptions where
  alreadyEnrolled : Bool
  skipReceipt : Bool
  skipFulfillment : Bool
  deriving DecidableEq, Repr

def FulfillOptions.default : FulfillOptions := ⟨false, false, false⟩

/-- `is_uai_order` -/
def isUaiOrder (cat : Catalog) (o : Order) : Bool :=
  o.lines.rows.any fun l =>
    match l.purchasedContentType, l.purchasedObjectId with
    | some .courseRun, some r => (cat.courseRun r).isUai
    | some .program, some p => cat.isUaiProgram p
    | _, _ =>
      match (cat.product l.productVersion.objectId).contentType with
      | .courseRun => (cat.courseRun (cat.product l.productVersion.objectId).objectId).isUai
      | .program => cat.isUaiProgram (cat.product l.productVersion.objectId).objectId

/-- `is_contract_order` -/
def isContractOrder (cat : Catalog) (o : Order) : Bool :=
  o.lines.rows.any fun l => (cat.product l.productVersion.objectId).contentType == .courseRun &&
    (cat.courseRun (cat.product l.productVersion.objectId).objectId).b2bContract.isSome

/-- A receipt is sent for the order. -/
def sendsReceipt (cat : Catalog) (o : Order) (opts : FulfillOptions) : Bool :=
  !opts.alreadyEnrolled && !opts.skipReceipt && !opts.skipFulfillment && !isUaiOrder cat o &&
    !isContractOrder cat o

/-- The body of `fulfill`. The receipt is queued by `transaction.on_commit`: at once outside a
transaction, after the commit, and so not here, inside one. -/
def fulfillBody (f : Faults) (cat : Catalog) (now : Instant) (o : OrderId) (paymentData : PaymentData)
    (opts : FulfillOptions) (inTransaction : Bool) : Code :=
  seq
    [ createTransaction f o paymentData "",
      if opts.skipFulfillment = true then skip else createEnrollments f cat now o,
      fun s =>
        if sendsReceipt cat (s.order o) opts = true ∧ inTransaction = false
        then mayFail f .email s else ⟨s, none⟩ ]

/-- `OrderFlow.fulfill` -/
def fulfill (f : Faults) (cat : Catalog) (now : Instant) (o : OrderId) (paymentData : PaymentData)
    (opts : FulfillOptions) (inTransaction : Bool) : Code :=
  callTransition f ⟨some [.pending], .fulfilled⟩ o
    (fulfillBody f cat now o paymentData opts inTransaction)

/-- What `refund` records; the response of the gateway is in `apiResponseData`. -/
def recordRefund (o : OrderId) (apiResponseData : Option PaymentData) (amount : ℚ) (reason : String)
    (s : Store) : Except Error Store :=
  match apiResponseData.bind (·.id) with
  | none => .error (.validationError
      "Failed to record transaction: Missing transaction id from refund API response")
  | some id =>
    match apiResponseData with
    | none => .ok s
    | some data =>
      let t : Transaction := ⟨.processor id, amount, data, .refund, reason⟩
      if t ∈ (s.order o).transactions then .ok s
      else if t.transactionId ∈ s.transactionIds then .error .integrityError
      else .ok (addTransaction o t s)

/-- The body of `refund`. -/
def refundBody (f : Faults) (o : OrderId) (apiResponseData : Option PaymentData) (amount : ℚ)
    (reason : String) : Code :=
  seq
    [ fallible f .transaction (statement (recordRefund o apiResponseData amount reason)),
      mayFail f .email ]

/-- `OrderFlow.refund` -/
def refund (f : Faults) (o : OrderId) (apiResponseData : Option PaymentData) (amount : ℚ)
    (reason : String) : Code :=
  callTransition f ⟨some [.fulfilled], .refunded⟩ o (refundBody f o apiResponseData amount reason)

end MitxOnline

import Mathlib.Data.Finset.Card
import MitxOnline.Catalog
import MitxOnline.Lib.Table

/-!
# The tables of the purchase paths

Orders with their lines, discount redemptions and transactions; baskets; what a fulfilled order
grants (enrollments and the records of paid runs and programs); and memberships in contracts and
organizations. Rows that belong to one order are kept in its row. An order's reference number is made
from its key (`Order._generate_reference_number`), so orders are looked up by key.
-/

namespace MitxOnline

open FixedPoint

inductive OrderStatus where
  | pending
  | fulfilled
  | canceled
  | declined
  | errored
  | refunded
  | review
  | partiallyRefunded
  deriving DecidableEq, Repr

/-- The payment gateways; `other` is any further value of the column. -/
inductive GatewayType where
  | cybersource
  | stripe
  | other
  deriving DecidableEq, Repr

/-- The exceptions the modelled code raises. -/
inductive Error where
  | validationError (msg : String)
  | valueError (msg : String)
  | typeError (msg : String)
  | keyError (key : String)
  | integrityError
  | doesNotExist
  | multipleObjectsReturned
  | transitionNotAllowed
  | gatewayError
  /-- An edX failure that `create_run_enrollments` handles. -/
  | edxError
  /-- An HTTP or connection error. -/
  | connectionError
  /-- Any other failure of the code, the database or a service. -/
  | failure
  deriving DecidableEq, Repr

structure Line where
  productVersion : Version
  quantity : ℕ
  purchasedContentType : Option ContentType
  purchasedObjectId : Option ℕ
  deriving DecidableEq, Repr

/-- Two lines purchase the same object. A null column makes them different. -/
def Line.samePurchase (a b : Line) : Bool :=
  a.purchasedContentType.isSome && a.purchasedContentType == b.purchasedContentType &&
    a.purchasedObjectId.isSome && a.purchasedObjectId == b.purchasedObjectId

/-- The lines of an order, with the constraint `unique_order_purchased_object`. -/
structure Lines where
  rows : List Line
  unique_order_purchased_object : rows.Pairwise fun a b => a.samePurchase b = false

/-- No lines. -/
def Lines.empty : Lines := ⟨[], List.Pairwise.nil⟩

@[simp] theorem Lines.empty_rows : Lines.empty.rows = [] := rfl

structure DiscountRedemption where
  redeemedBy : UserId
  redeemedDiscount : DiscountId
  deriving DecidableEq, Repr

/-- A transaction id: one that the payment processor gave, or a `uuid4`. -/
inductive TransactionId where
  | processor (id : String)
  | uuid (n : ℕ)
  deriving DecidableEq, Repr

inductive TransactionType where
  | payment
  | refund
  deriving DecidableEq, Repr

/-- The entries of payment and refund payloads that the code reads; `none` is an absent key.
`amountTotal` is `data.object.amount_total`, in cents. -/
structure PaymentData where
  transactionId : Option String
  amount : Option ℚ
  id : Option String
  amountTotal : Option ℚ
  isAdministrative : Bool
  object : Option String
  paypalToken : Option String
  reqAmount : Option ℚ
  deriving DecidableEq

structure Transaction where
  transactionId : TransactionId
  amount : ℚ
  data : PaymentData
  transactionType : TransactionType
  reason : String
  deriving DecidableEq

structure Order where
  state : OrderStatus
  purchaser : UserId
  totalPricePaid : ℚ
  gatewayType : GatewayType
  lines : Lines
  discounts : List DiscountRedemption
  transactions : List Transaction

structure BasketItem where
  product : ProductId
  quantity : ℕ
  deriving DecidableEq, Repr

structure BasketDiscount where
  redeemedBy : UserId
  redeemedDiscount : DiscountId
  deriving DecidableEq, Repr

structure Basket where
  basketItems : List BasketItem
  discounts : List BasketDiscount
  deriving DecidableEq, Repr

/-- `Basket.get_products` -/
def Basket.getProducts (b : Basket) : List ProductId := b.basketItems.map (·.product)

inductive EnrollmentMode where
  | audit
  | verified
  /-- Any other mode of edX, such as `honor`. -/
  | other (slug : String)
  deriving DecidableEq, Repr

/-- An enrollment in a course run. -/
structure CourseRunEnrollment where
  active : Bool
  changeStatus : Option String
  edxEnrolled : Bool
  enrollmentMode : EnrollmentMode
  deriving DecidableEq, Repr

/-- An enrollment in a program. -/
structure ProgramEnrollment where
  active : Bool
  changeStatus : Option String
  enrollmentMode : EnrollmentMode
  deriving DecidableEq, Repr

structure PaidCourseRun where
  user : UserId
  courseRun : RunId
  order : OrderId
  deriving DecidableEq, Repr

structure PaidProgram where
  user : UserId
  program : ProgramId
  order : OrderId
  deriving DecidableEq, Repr

/-- A code that was handed out for a contract; `user` is who redeemed it. -/
structure DiscountContractAttachmentRedemption where
  discount : DiscountId
  contract : ContractId
  user : Option UserId
  deriving DecidableEq, Repr

/-- The ids of the discounts of a basket. -/
def Basket.discountIds (b : Basket) : List DiscountId := b.discounts.map (·.redeemedDiscount)

/-- The ids of the discounts of an order. -/
def Order.discountIds (o : Order) : List DiscountId := o.discounts.map (·.redeemedDiscount)

/-- The database. Tables with a unique pair of columns are functions of that pair. -/
structure Store where
  orders : Table Order
  /-- A user has at most one basket. -/
  baskets : UserId → Option Basket
  enrollments : UserId → RunId → Option CourseRunEnrollment
  programEnrollments : UserId → ProgramId → Option ProgramEnrollment
  paidCourseRuns : List PaidCourseRun
  paidPrograms : List PaidProgram
  /-- The users of each contract (`user.b2b_contracts`). -/
  contractUsers : ContractId → Finset UserId
  /-- `UserOrganization` rows, with their `keep_until_seen` flag. -/
  userOrganizations : UserId → OrgId → Option Bool
  contractRedemptions : List DiscountContractAttachmentRedemption
  /-- The organizations of a user as cached in redis, by their SSO ids (`none` where an organization
  has none), with the flag that they are not kept until seen. -/
  orgMembershipCache : UserId → Option (List (Option ℕ × Bool))

namespace Store

/-- The database without rows. -/
def empty : Store where
  orders := ⟨[], fun _ => ⟨.pending, 0, 0, .stripe, Lines.empty, [], []⟩, .nil⟩
  baskets _ := none
  enrollments _ _ := none
  programEnrollments _ _ := none
  paidCourseRuns := []
  paidPrograms := []
  contractUsers _ := ∅
  userOrganizations _ _ := none
  contractRedemptions := []
  orgMembershipCache _ := none

/-- The row of an order. -/
def order (s : Store) (o : OrderId) : Order := s.orders.row o

/-- Save an order. -/
def setOrder (s : Store) (o : OrderId) (row : Order) : Store :=
  { s with orders := s.orders.set o row }

/-- `Order.save` of a new state. -/
def setState (s : Store) (o : OrderId) (state : OrderStatus) : Store :=
  s.setOrder o { s.order o with state }

@[simp] theorem setOrder_order_self (s : Store) (o : OrderId) (row : Order) :
    (s.setOrder o row).order o = row := by
  simp [order, setOrder]

theorem setOrder_order_of_ne (s : Store) {o o' : OrderId} (row : Order) (h : o' ≠ o) :
    (s.setOrder o row).order o' = s.order o' := by
  simp [order, setOrder, Table.set_row_of_ne _ _ h]

@[simp] theorem setOrder_keys (s : Store) (o : OrderId) (row : Order) :
    (s.setOrder o row).orders.keys = s.orders.keys := rfl

@[simp] theorem setState_order_self (s : Store) (o : OrderId) (state : OrderStatus) :
    (s.setState o state).order o = { s.order o with state } := by
  simp [setState]

end Store

end MitxOnline

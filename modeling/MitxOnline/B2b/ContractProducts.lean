import MitxOnline.B2b.CourseRunGroups
import MitxOnline.Lib.Autocommit

/-!
# Products of contract runs (`b2b/api.py`)

Every run of a contract needs an active product at the contract's price. A command makes products for the
runs that have none, one after the other and outside a transaction.
-/

namespace MitxOnline

open Autocommit FixedPoint

/-- `unique_purchasable_object`: whether a product is active does not matter. -/
def uniquePurchasableObject : UniqueConstraint Product (ContentType × ℕ) where
  condition _ := true
  fields product := (product.contentType, product.objectId)

/-- `Product.all_objects` -/
structure Products where
  table : Table Product
  unique_purchasable_object : uniquePurchasableObject.HoldsIn table

/-- The product sells a course run. -/
def Product.sellsRun (product : Product) (r : RunId) : Bool :=
  product.contentType == .courseRun && product.objectId == r

/-- `enrollment_fixed_price`, or zero where it is not set. -/
def ContractPage.runPrice (contract : ContractPage) : Decimal 2 :=
  contract.enrollmentFixedPrice.getD ⟨0⟩

/-- The price fits into a column with `max_digits=7`, two of them decimal places. That of the contract has
three digits more. -/
def fitsPriceColumn (price : Decimal 2) : Prop := price.units.natAbs < 10 ^ 7

instance (price : Decimal 2) : Decidable (fitsPriceColumn price) := Nat.decLt _ _

/-- `ContractPage.get_course_runs` -/
def CourseRuns.contractRuns (runs : CourseRuns) (c : ContractId) : List RunId :=
  runs.table.keys.filter fun r => (runs.row r).usable && (runs.row r).b2bContract == some c

namespace Products

/-- `ContractPage.get_products` -/
def ofContract (products : Products) (runs : CourseRuns) (c : ContractId) : List ProductId :=
  products.table.keys.filter fun p =>
    (products.table.row p).isActive && (products.table.row p).contentType == .courseRun &&
      (runs.contractRuns c).contains (products.table.row p).objectId

/-- `get_contract_runs_without_products` -/
def runsWithout (products : Products) (runs : CourseRuns) (c : ContractId) : List RunId :=
  (runs.contractRuns c).filter fun r =>
    !((products.ofContract runs c).map fun p => (products.table.row p).objectId).contains r

/-- `Product.objects.create` -/
def create (products : Products) (product : Product) : Except Error Products :=
  -- The database raises `DataError` before it looks at the constraint.
  if ¬fitsPriceColumn product.price then .error .failure
  else if h : uniquePurchasableObject.HoldsIn (products.table.create product) then
    .ok ⟨products.table.create product, h⟩
  else .error .integrityError

end Products

/-- The products, and the list that is returned so far. -/
structure ProductCreation where
  products : Products
  created : List ProductId

/-- An active product for a course run. -/
def runProduct (price : Decimal 2) (r : RunId) : Product := ⟨.courseRun, r, price, true⟩

/-- One round of the loop: a product for a run. -/
def createRunProduct (price : Decimal 2) (r : RunId) : Action ProductCreation Error :=
  statement fun s =>
    (s.products.create (runProduct price r)).map fun products =>
      ⟨products, s.created ++ [s.products.table.nextKey]⟩

/-- `ensure_contract_run_products` -/
def ensureContractRunProducts (contract : ContractPage) (runs : CourseRuns) (c : ContractId)
    (products : Products) : Outcome ProductCreation Error :=
  let fixableCrs := products.runsWithout runs c
  if fixableCrs.length = 0 then ⟨⟨products, []⟩, none⟩
  else seq (fixableCrs.map (createRunProduct contract.runPrice)) ⟨products, []⟩

end MitxOnline

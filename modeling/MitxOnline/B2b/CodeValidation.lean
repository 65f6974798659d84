import MitxOnline.B2b.ContractProducts
import MitxOnline.B2b.EnrollmentCodes
import MitxOnline.Lib.UniqueConstraint

/-!
# Repairing the codes of a contract (`b2b/management/commands/b2b_codes.py`)

`b2b_codes validate` repairs contracts one after the other and outside a transaction: missing products,
wrong prices, and then the codes. A managed contract without a price should have no unused codes; any
other should have the codes that it needs, of its type and at its price.
-/

namespace MitxOnline

open Autocommit FixedPoint

/-! ## Products -/

namespace Products

/-- More than the key of any object that a product sells. -/
def freeObject (products : Products) : ℕ :=
  Table.maxKey (products.table.keys.map fun p => (products.table.row p).objectId) + 1

/-- The row of a product. A key that is not in use is taken to sell an object of its own. -/
def product (products : Products) (p : ProductId) : Product :=
  if p ∈ products.table.keys then products.table.row p
  else ⟨.courseRun, products.freeObject + p, ⟨0⟩, false⟩

variable {products : Products} {p q : ProductId}

theorem product_of_mem (hp : p ∈ products.table.keys) : products.product p = products.table.row p :=
  if_pos hp

theorem product_of_notMem (hp : p ∉ products.table.keys) :
    products.product p = ⟨.courseRun, products.freeObject + p, ⟨0⟩, false⟩ := if_neg hp

theorem objectId_lt (hp : p ∈ products.table.keys) :
    (products.product p).objectId < products.freeObject := by
  rw [product_of_mem hp]
  exact Nat.lt_succ_of_le (Table.le_maxKey (List.mem_map_of_mem hp))

theorem objectId_of_notMem (hp : p ∉ products.table.keys) :
    (products.product p).objectId = products.freeObject + p := by
  rw [product_of_notMem hp]

theorem product_inj (htype : (products.product p).contentType = (products.product q).contentType)
    (hobject : (products.product p).objectId = (products.product q).objectId) : p = q := by
  by_cases hp : p ∈ products.table.keys
  · by_cases hq : q ∈ products.table.keys
    · rw [product_of_mem hp, product_of_mem hq] at htype hobject
      exact products.unique_purchasable_object.eq_of_clash hp hq
        (UniqueConstraint.clash_iff.mpr ⟨rfl, rfl, Prod.ext htype hobject⟩)
    · have hlt := objectId_lt hp
      rw [hobject, objectId_of_notMem hq] at hlt
      omega
  · by_cases hq : q ∈ products.table.keys
    · have hlt := objectId_lt hq
      rw [← hobject, objectId_of_notMem hp] at hlt
      omega
    · rw [objectId_of_notMem hp, objectId_of_notMem hq] at hobject
      exact Nat.add_left_cancel hobject

/-- `get_contract_products_with_bad_pricing` -/
def withBadPricing (products : Products) (contract : ContractPage) (runs : CourseRuns)
    (c : ContractId) : List ProductId :=
  (products.ofContract runs c).filter fun p => (products.table.row p).price != contract.runPrice

/-- The products with another price for some of them. -/
def priced (products : Products) (ps : List ProductId) (price : Decimal 2) : Products where
  table := { products.table with
    row := fun p =>
      if p ∈ ps then { products.table.row p with price } else products.table.row p }
  unique_purchasable_object := by
    refine products.unique_purchasable_object.imp fun {p q} hpq => ?_
    have hfields : ∀ p, uniquePurchasableObject.fields
        (if p ∈ ps then { products.table.row p with price } else products.table.row p) =
        uniquePurchasableObject.fields (products.table.row p) := by
      intro p
      split <;> rfl
    unfold UniqueConstraint.clash at hpq ⊢
    rw [hfields, hfields]
    exact hpq

/-- `ensure_contract_run_pricing` -/
def ensureContractRunPricing (contract : ContractPage) (runs : CourseRuns) (c : ContractId)
    (products : Products) : Except Error Products :=
  let ps := products.ofContract runs c
  -- `bulk_update` of no products does not ask the database anything.
  if ps = [] ∨ fitsPriceColumn contract.runPrice then .ok (products.priced ps contract.runPrice)
  else .error .failure

end Products

/-- The catalog with the products and runs that the tables hold. -/
def Catalog.withProducts (cat : Catalog) (runs : CourseRuns) (products : Products) : Catalog :=
  { cat with
    product := products.product
    productIds := products.table.keys
    courseRun := fun r => { cat.courseRun r with
      b2bContract := if r ∈ runs.table.keys ∧ (runs.row r).usable = true then (runs.row r).b2bContract
        else none }
    unique_purchasable_object := fun _ _ => Products.product_inj }

/-! ## Codes -/

/-- The redemption type that the codes of a contract should have. -/
def ContractPage.codeRedemptionType (contract : ContractPage) : RedemptionType :=
  if contract.learnerCap = 0 then .unlimited else .oneTime

/-- The number of codes that a contract should have. -/
def ContractPage.expectedCodesCount (contract : ContractPage) (runs : ℕ) : ℕ :=
  if contract.learnerCap = 0 then runs else contract.learnerCap * runs

namespace CodeStore

/-- Step 4 for a managed contract without a price. -/
def removeUnusedCodes (cat : Catalog) (c : ContractId) (db : CodeStore) : CodeStore :=
  let totalCodes := db.getDiscounts cat c
  let unredeemedCodes := db.getUnusedDiscounts cat c
  if totalCodes.length > unredeemedCodes.length then unredeemedCodes.foldl withoutDiscount db else db

/-- `bad_settings_codes_qs` -/
def badSettingsCodes (cat : Catalog) (c : ContractId) (db : CodeStore) : List DiscountId :=
  (db.getDiscounts cat c).filter fun d =>
    !((db.discounts.row d).redemptionType == (cat.contract c).codeRedemptionType &&
      (db.discounts.row d).amount == (cat.contract c).codeAmount)

/-- Set the type and the amount of a code. -/
def setCode (contract : ContractPage) (db : CodeStore) (d : DiscountId) : CodeStore :=
  db.setDiscount d { db.discounts.row d with
    redemptionType := contract.codeRedemptionType
    amount := contract.codeAmount }

/-- Step 5 -/
def fixSettings (cat : Catalog) (c : ContractId) (db : CodeStore) : CodeStore :=
  (db.badSettingsCodes cat c).foldl (setCode (cat.contract c)) db

end CodeStore

open CodeStore

/-- Step 4 for a contract that requires codes. -/
def createExpectedCodes (cat : Catalog) (rows : RowOrder) (runs : ℕ) (c : ContractId) :
    Action CodeStore Error := fun db =>
  if (cat.contract c).expectedCodesCount runs ≠ (db.getDiscounts cat c).length then
    let outcome := ensureEnrollmentCodesExist cat rows c (CodeTally.start db)
    ⟨outcome.state.db, outcome.error⟩
  else ⟨db, none⟩

/-- Steps 3 to 5 of `handle_validate`, for a contract with so many course runs. -/
def validateCodes (cat : Catalog) (rows : RowOrder) (runs : ℕ) (c : ContractId) :
    Action CodeStore Error := fun db =>
  if (cat.contract c).isSsoFree = true then ⟨db.removeUnusedCodes cat c, none⟩
  else andThen (createExpectedCodes cat rows runs c) (fun db => ⟨db.fixSettings cat c, none⟩) db

/-! ## Contracts -/

/-- The products and the codes. -/
structure ContractDb where
  products : Products
  codes : CodeStore

/-- The catalog that a query sees. -/
def ContractDb.catalog (cat : Catalog) (runs : CourseRuns) (db : ContractDb) : Catalog :=
  cat.withProducts runs db.products

/-- Step 1: products for the runs that have none. -/
def validateProducts (cat : Catalog) (runs : CourseRuns) (c : ContractId) : Action ContractDb Error :=
  fun db =>
    if (db.products.runsWithout runs c).length > 0 then
      let outcome := ensureContractRunProducts (cat.contract c) runs c db.products
      ⟨{ db with products := outcome.state.products }, outcome.error⟩
    else ⟨db, none⟩

/-- Step 2: the price of the contract for its products. -/
def validatePricing (cat : Catalog) (runs : CourseRuns) (c : ContractId) : Action ContractDb Error :=
  fun db =>
    if (db.products.withBadPricing (cat.contract c) runs c).length > 0 then
      statement (fun db => (db.products.ensureContractRunPricing (cat.contract c) runs c).map
        fun products => { db with products }) db
    else ⟨db, none⟩

/-- Steps 3 to 5. -/
def validateContractCodes (cat : Catalog) (runs : CourseRuns) (rows : RowOrder) (c : ContractId) :
    Action ContractDb Error := fun db =>
  let outcome := validateCodes (db.catalog cat runs) rows (runs.contractRuns c).length c db.codes
  ⟨{ db with codes := outcome.state }, outcome.error⟩

/-- What `handle_validate` does for one contract. -/
def validateContract (cat : Catalog) (runs : CourseRuns) (rows : RowOrder) (c : ContractId) :
    Action ContractDb Error :=
  seq [validateProducts cat runs c, validatePricing cat runs c, validateContractCodes cat runs rows c]

/-- `handle_validate` -/
def handleValidate (cat : Catalog) (runs : CourseRuns) (rows : RowOrder) (contracts : List ContractId) :
    Action ContractDb Error :=
  seq (contracts.map (validateContract cat runs rows))

end MitxOnline

import MitxOnline.B2b.Validation

/-!
# Enrollment codes (`b2b/api.py`)

Enrollment codes are discounts for the products of a contract. `ensure_enrollment_codes_exist` creates
codes where there are too few, writes their amount and type, and removes codes where there are too
many; the codes of a contract that needs none are removed. It runs outside a transaction, and its
queries do not say in which order their rows come.
-/

namespace MitxOnline

open Autocommit FixedPoint

/-- The database with its discounts. `DiscountProduct` and `UserDiscount` rows are in the row of their
discount; its redemptions are in the orders, in baskets and in `contractRedemptions`. -/
structure CodeStore where
  store : Store
  discounts : Table Discount

/-- The database, and how many codes are created, updated and counted as errors so far. -/
structure CodeTally where
  db : CodeStore
  created : ℕ
  updated : ℕ
  errors : ℕ

/-- Code that works on enrollment codes. -/
abbrev CodeAction := Action CodeTally Error

/-- The order in which the rows of a query come that does not ask for one. -/
structure RowOrder where
  products : List ProductId → List ProductId
  discounts : List DiscountId → List DiscountId
  products_perm : ∀ rows, (products rows).Perm rows
  discounts_perm : ∀ rows, (discounts rows).Perm rows

/-- `max_learners`, zero where it is not set. -/
def ContractPage.learnerCap (c : ContractPage) : ℕ := c.maxLearners.getD 0

/-- `enrollment_fixed_price or Decimal(0)`, as the amount of a discount. -/
def ContractPage.codeAmount (c : ContractPage) : Decimal 5 :=
  match c.enrollmentFixedPrice with
  | none => ⟨0⟩
  | some price => ⟨price.units * 1000⟩

/-- The contract manages its members over SSO and has no price. -/
def ContractPage.isSsoFree (c : ContractPage) : Bool :=
  contractMembershipAutos.contains c.membershipType && c.isFree

/-- A `DiscountProduct` row for a product of the contract. -/
def ofContract (cat : Catalog) (c : ContractId) (product : Option ProductId) : Bool :=
  product.any fun p => decide (p ∈ contractProducts cat c)

namespace CodeStore

/-! ## Queries -/

/-- The number of `DiscountProduct` rows of a discount that pass a test. -/
def productRows (db : CodeStore) (d : DiscountId) (test : Option ProductId → Bool) : ℕ :=
  (db.discounts.row d).products.countP test

/-- `Discount.objects.filter(products__product=product).distinct()` -/
def codesFor (db : CodeStore) (p : ProductId) : List DiscountId :=
  db.discounts.keys.filter fun d => decide (0 < db.productRows d (· == some p))

/-- `ContractPage.get_discounts`: a discount comes once for each of its rows that the query joins. -/
def getDiscounts (cat : Catalog) (c : ContractId) (db : CodeStore) : List DiscountId :=
  db.discounts.keys.flatMap fun d => List.replicate (db.productRows d (ofContract cat c)) d

/-- `.filter(products__product=product)` on a query of discounts joins their rows once more. -/
def filterProduct (p : ProductId) (db : CodeStore) (discounts : List DiscountId) : List DiscountId :=
  discounts.flatMap fun d => List.replicate (db.productRows d (· == some p)) d

/-- A redemption refers to the discount, in an order of any state or for a contract. -/
def isUsed (db : CodeStore) (d : DiscountId) : Bool :=
  decide (0 < db.store.orderRedemptions d) || db.store.contractRedemptions.any (·.discount == d)

/-- `ContractPage.get_unused_discounts`: its rows are grouped by discount. -/
def getUnusedDiscounts (cat : Catalog) (c : ContractId) (db : CodeStore) : List DiscountId :=
  db.discounts.keys.filter fun d =>
    decide (0 < db.productRows d (ofContract cat c)) && !db.isUsed d

/-! ## Writes -/

/-- Save the row of a discount. -/
def setDiscount (db : CodeStore) (d : DiscountId) (row : Discount) : CodeStore :=
  { db with discounts := db.discounts.set d row }

/-- Delete the `DiscountProduct` rows of a discount that pass a test. -/
def deleteProducts (db : CodeStore) (d : DiscountId) (test : Option ProductId → Bool) : CodeStore :=
  db.setDiscount d { db.discounts.row d with
    products := (db.discounts.row d).products.filter fun product => !test product }

/-- A discount is gone, with what refers to it in orders and baskets. -/
def withoutDiscount (db : CodeStore) (d : DiscountId) : CodeStore where
  store := { db.store with
    orders := { db.store.orders with
      row := fun o => { db.store.order o with
        discounts := (db.store.order o).discounts.filter (·.redeemedDiscount != d) } }
    baskets := fun user => (db.store.baskets user).map fun basket =>
      { basket with discounts := basket.discounts.filter (·.redeemedDiscount != d) } }
  discounts := db.discounts.erase d

/-- The row of `_create_discount_with_product`. -/
def newCode (p : ProductId) (amount : Decimal 5) (redemptionType : RedemptionType) : Discount where
  amount := amount
  discountType := .fixedPrice
  redemptionType := redemptionType
  paymentType := some .sales
  maxRedemptions := some 0
  activationDate := none
  expirationDate := none
  products := [some p]
  users := []

/-- `_create_discount_with_product` -/
def createDiscountWithProduct (p : ProductId) (amount : Decimal 5) (redemptionType : RedemptionType)
    (db : CodeStore) : CodeStore :=
  { db with discounts := db.discounts.create (newCode p amount redemptionType) }

/-- `_update_discount` -/
def updateDiscount (d : DiscountId) (amount : Decimal 5) (redemptionType : RedemptionType)
    (db : CodeStore) : CodeStore :=
  db.setDiscount d { db.discounts.row d with
    amount, redemptionType, discountType := .fixedPrice, paymentType := some .sales }

/-- `_ensure_discount_product_association` -/
def ensureDiscountProductAssociation (d : DiscountId) (p : ProductId) (db : CodeStore) : CodeStore :=
  if 0 < db.productRows d (· == some p) then db
  else db.setDiscount d { db.discounts.row d with
    products := (db.discounts.row d).products ++ [some p] }

end CodeStore

open CodeStore

/-- `discount.delete()`. What refers to the discount goes with it, but the key of a contract redemption
does not let it go. -/
def deleteDiscount (d : DiscountId) : CodeAction := fun t =>
  if t.db.store.contractRedemptions.any (·.discount == d) = true then ⟨t, some .integrityError⟩
  else ⟨{ t with db := t.db.withoutDiscount d }, none⟩

/-- One round of the loop of `_handle_extra_enrollment_codes`. -/
def removeExtraCode (p : ProductId) (d : DiscountId) : CodeAction := fun t =>
  let db := t.db.deleteProducts d (· == some p)
  if (db.discounts.row d).products = [] then deleteDiscount d { t with db } else ⟨{ t with db }, none⟩

/-- `_handle_extra_enrollment_codes`. The number that it returns is counted as errors. -/
def handleExtraEnrollmentCodes (cat : Catalog) (c : ContractId) (p : ProductId) : CodeAction := fun t =>
  let maxLearners := if (cat.contract c).learnerCap = 0 then 1 else (cat.contract c).learnerCap
  let removeCount := (filterProduct p t.db (getDiscounts cat c t.db)).length - maxLearners
  let unused := (getUnusedDiscounts cat c t.db).filter fun d =>
    decide (0 < t.db.productRows d (· == some p))
  andThen (seq ((unused.reverse.take removeCount).map (removeExtraCode p)))
    (fun t => ⟨{ t with errors := t.errors + removeCount }, none⟩) t

/-- One round of the loop of `_handle_sso_free_contract`. -/
def clearCode (cat : Catalog) (c : ContractId) (d : DiscountId) : CodeAction := fun t =>
  let db := t.db.deleteProducts d (ofContract cat c)
  -- `refresh_from_db` does not find a discount that an earlier round has deleted.
  if d ∈ db.discounts.keys then
    let t := { t with db, created := t.created + 1 }
    if (db.discounts.row d).products = [] then
      andThen (deleteDiscount d) (fun t => ⟨{ t with updated := t.updated + 1 }, none⟩) t
    else ⟨t, none⟩
  else ⟨{ t with db }, some .doesNotExist⟩

/-- `_handle_sso_free_contract` -/
def handleSsoFreeContract (cat : Catalog) (rows : RowOrder) (c : ContractId) : CodeAction := fun t =>
  seq ((rows.discounts (getDiscounts cat c t.db)).map (clearCode cat c)) t

/-- Update a code and make sure that it is for the product. -/
def updateCode (p : ProductId) (amount : Decimal 5) (redemptionType : RedemptionType) (t : CodeTally)
    (d : DiscountId) : CodeTally :=
  { t with
    db := ensureDiscountProductAssociation d p (updateDiscount d amount redemptionType t.db)
    updated := t.updated + 1 }

/-- Create a code for the product. -/
def createCode (p : ProductId) (amount : Decimal 5) (redemptionType : RedemptionType) (t : CodeTally) :
    CodeTally :=
  { t with
    db := createDiscountWithProduct p amount redemptionType t.db
    created := t.created + 1 }

/-- `_handle_unlimited_seats` -/
def handleUnlimitedSeats (cat : Catalog) (c : ContractId) (p : ProductId)
    (productDiscounts : List DiscountId) : CodeAction := fun t =>
  let amount := (cat.contract c).codeAmount
  match productDiscounts with
  | [] => ⟨createCode p amount .unlimited t, none⟩
  | [d] => ⟨updateCode p amount .unlimited t d, none⟩
  | _ => ⟨{ t with errors := t.errors + 1 }, none⟩

/-- The loop of `_handle_limited_seats` over the codes that a product has. -/
def updateCodes (cat : Catalog) (rows : RowOrder) (c : ContractId) (p : ProductId) (t : CodeTally) :
    CodeTally :=
  (rows.discounts (filterProduct p t.db (getDiscounts cat c t.db))).foldl
    (updateCode p (cat.contract c).codeAmount .oneTime) t

/-- `_handle_limited_seats` -/
def handleLimitedSeats (cat : Catalog) (rows : RowOrder) (c : ContractId) (p : ProductId) : CodeAction :=
  fun t =>
    let maxLearners := (cat.contract c).learnerCap
    if maxLearners = 0 then ⟨t, none⟩
    else
      let t := updateCodes cat rows c p t
      let currentDiscountCount := (filterProduct p t.db (getDiscounts cat c t.db)).length
      if maxLearners < currentDiscountCount then handleExtraEnrollmentCodes cat c p t
      else ⟨(createCode p (cat.contract c).codeAmount .oneTime)^[
        maxLearners - currentDiscountCount] t, none⟩

/-- What `ensure_enrollment_codes_exist` does for one product. -/
def ensureProductCodes (cat : Catalog) (rows : RowOrder) (c : ContractId) (p : ProductId) : CodeAction :=
  fun t =>
    if (cat.contract c).learnerCap = 0 then handleUnlimitedSeats cat c p (t.db.codesFor p) t
    else handleLimitedSeats cat rows c p t

/-- `ensure_enrollment_codes_exist` -/
def ensureEnrollmentCodesExist (cat : Catalog) (rows : RowOrder) (c : ContractId) : CodeAction :=
  if (cat.contract c).isSsoFree = true then handleSsoFreeContract cat rows c
  else seq ((rows.products (contractProducts cat c)).map (ensureProductCodes cat rows c))

/-- The database before a run, with nothing counted. -/
def CodeTally.start (db : CodeStore) : CodeTally := ⟨db, 0, 0, 0⟩

end MitxOnline

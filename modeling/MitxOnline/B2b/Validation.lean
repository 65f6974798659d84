import MitxOnline.B2b.Contracts
import MitxOnline.Ecommerce.DiscountValidity

/-!
# Baskets with products of contracts (`b2b/api.py`)

Two checks of the checkout look at the contracts whose products are in the basket. Both work on sets:
the active contracts that must be validated, the products of all of them, and the discounts of the
basket as a whole.
-/

namespace MitxOnline

/-- The contract of a product's course run. -/
def productContract (cat : Catalog) (p : ProductId) : Option ContractId :=
  match (cat.product p).contentType with
  | .courseRun => (cat.courseRun (cat.product p).objectId).b2bContract
  | .program => none

/-- The products of the basket are for a run of the contract. -/
def Basket.hasContract (cat : Catalog) (basket : Basket) (c : ContractId) : Bool :=
  basket.getProducts.any fun p => productContract cat p == some c

/-- `get_active_contracts_from_basket_items` -/
def getActiveContractsFromBasketItems (cat : Catalog) (basket : Basket) : List ContractId :=
  cat.contractIds.filter fun c => basket.hasContract cat c && (cat.contract c).active

/-- A contract without a price, or with a price of zero (`get_free_and_nonfree_contracts`). -/
def ContractPage.isFree (c : ContractPage) : Bool :=
  match c.enrollmentFixedPrice with
  | none => true
  | some price => price.units == 0

/-- The free contracts that the user is not associated with. -/
def remainingFreeContracts (cat : Catalog) (s : Store) (now : Instant) (user : UserId)
    (contracts : List ContractId) : List ContractId :=
  contracts.filter fun c => (cat.contract c).isFree && !inUserContracts cat s now user c

/-- The contracts that have a price. -/
def nonfreeContracts (cat : Catalog) (contracts : List ContractId) : List ContractId :=
  contracts.filter fun c => !(cat.contract c).isFree

/-- `is_discount_supplied_for_b2b_purchase` -/
def isDiscountSuppliedForB2bPurchase (cat : Catalog) (s : Store) (now : Instant) (user : UserId)
    (basket : Basket) (activeContracts : List ContractId) : Bool :=
  if activeContracts = [] then true
  else if remainingFreeContracts cat s now user activeContracts = [] ∧
      nonfreeContracts cat activeContracts = [] then true
  else !basket.discounts.isEmpty

/-- `ContractPage.get_products`: the active products for runs of the contract. -/
def contractProducts (cat : Catalog) (c : ContractId) : List ProductId :=
  cat.productIds.filter fun p => (cat.product p).isActive && productContract cat p == some c

/-- The contracts that have to be validated by a discount. -/
def checkContracts (cat : Catalog) (s : Store) (now : Instant) (user : UserId)
    (activeContracts : List ContractId) : List ContractId :=
  remainingFreeContracts cat s now user activeContracts ++ nonfreeContracts cat activeContracts

/-- `validate_basket_for_b2b_purchase` -/
def validateBasketForB2bPurchase (cat : Catalog) (s : Store) (now : Instant) (user : UserId)
    (basket : Basket) (activeContracts : List ContractId) : Bool :=
  if remainingFreeContracts cat s now user activeContracts = [] ∧
      nonfreeContracts cat activeContracts = [] then true
  else
    let productIds := (checkContracts cat s now user activeContracts).flatMap (contractProducts cat)
    if productIds = [] then true
    else basket.discounts.any fun basketDiscount =>
      (cat.discount basketDiscount.redeemedDiscount).hasProductIn productIds

end MitxOnline

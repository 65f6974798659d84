import MitxOnline.B2b.ContractRunKeys
import MitxOnline.Lib.Autocommit
import MitxOnline.Lib.Table

/-!
# Deals in a target account (`hubspot_sync/api.py`)

An order goes to one of several HubSpot accounts: its products, a deal, and a line item for each line. Each
of them is looked up before it is created, by a request of its own that can fail. How the ids of the
application are formatted is left open.
-/

namespace MitxOnline

open Autocommit

/-! ## The account and its requests -/

/-- What a request raises. -/
inductive HubspotError where
  /-- `TooManyRequestsException` -/
  | tooManyRequests
  /-- Any other exception, such as an `ApiException`. -/
  | other
  deriving DecidableEq

/-- The properties of a deal that are searched for; an object may lack a property. -/
structure TargetDeal where
  dealname : Option Text
  uniqueAppId : Option Text
  deriving DecidableEq

/-- A line item or a product. -/
structure TargetObject where
  uniqueAppId : Option Text
  deriving DecidableEq

/-- The objects of a HubSpot account. -/
structure TargetAccount where
  deals : Table TargetDeal
  lineItems : Table TargetObject
  products : Table TargetObject

/-- The order of the results of a search. -/
structure ResultOrder where
  results : List ℕ → List ℕ
  results_perm : ∀ ids, (results ids).Perm ids

/-- The deal has the name. -/
def TargetDeal.isNamed (dealname : Text) (deal : TargetDeal) : Bool := deal.dealname == some dealname

/-- The deal has the id. -/
def TargetDeal.hasAppId (appId : Text) (deal : TargetDeal) : Bool := deal.uniqueAppId == some appId

/-- The line item or the product has the id. -/
def TargetObject.hasAppId (appId : Text) (object : TargetObject) : Bool :=
  object.uniqueAppId == some appId

/-- `do_search` with `limit=1`, and `results[0].id`. -/
def doSearch {α : Type} (order : ResultOrder) (t : Table α) (test : α → Bool) : Option ℕ :=
  (order.results (t.keys.filter fun k => test (t.row k))).head?

/-- A search that lets its exception pass. -/
def search (fault : Option HubspotError) (found : Option ℕ) : Except HubspotError (Option ℕ) :=
  match fault with
  | none => .ok found
  | some e => .error e

/-- A search that lets only `TooManyRequestsException` pass, and returns `None` for any other. -/
def searchOrNone (fault : Option HubspotError) (found : Option ℕ) :
    Except HubspotError (Option ℕ) :=
  match fault with
  | none => .ok found
  | some .tooManyRequests => .error .tooManyRequests
  | some .other => .ok none

/-- Another request: it has its effect or raises. -/
def request (fault : Option HubspotError) (write : TargetAccount → TargetAccount) :
    Action TargetAccount HubspotError := fun account =>
  match fault with
  | none => ⟨write account, none⟩
  | some e => ⟨account, some e⟩

/-! ## The order -/

/-- What `format_app_id` gets: the id of an object, or the text for a user and what they purchased. -/
inductive AppKey where
  | object (id : ℕ)
  | purchase (globalId model : Text) (objectId : ℕ)
  deriving DecidableEq

/-- A line, with the product that `_get_product_from_line` finds. -/
structure TargetLine where
  id : ℕ
  product : Option ℕ
  deriving DecidableEq

/-- An order of a user; `purchase` is what the first line purchased, if it is there. Lines are told apart
by their keys. -/
structure TargetOrder where
  id : ℕ
  isB2bUser : Bool
  globalId : Text
  purchase : Option (Text × ℕ)
  lines : List TargetLine
  lines_nodup : (lines.map (·.id)).Nodup

/-- `OrderToDealSerializer.get_dealname` -/
def TargetOrder.dealname (o : TargetOrder) : Text := "MITXONLINE-ORDER-".toList ++ intText o.id

/-- `OrderToDealSerializer.get_unique_app_id` -/
def TargetOrder.uniqueAppId (formatAppId : AppKey → Text) (o : TargetOrder) : Text :=
  match o.purchase with
  | some (model, objectId) => formatAppId (.purchase o.globalId model objectId)
  | none => formatAppId (.object o.id)

/-- `LineSerializer.get_unique_app_id` -/
def TargetLine.uniqueAppId (formatAppId : AppKey → Text) (l : TargetLine) : Text :=
  formatAppId (.object l.id)

/-! ## Which requests of a call fail -/

/-- The requests of `_ensure_target_hubspot_product_for_line`. -/
structure ProductFaults where
  search : Option HubspotError
  create : Option HubspotError
  deriving DecidableEq

/-- The requests of `_ensure_target_line_item_for_line`; `message` and `normalize` are failures of its
message that are not caught. -/
structure LineFaults where
  message : Option HubspotError
  product : ProductFaults
  normalize : Option HubspotError
  search : Option HubspotError
  create : Option HubspotError
  deriving DecidableEq

/-- What `_ensure_hubspot_contact_for_user` comes to. -/
inductive ContactOutcome where
  | found
  | missing
  | rateLimited
  deriving DecidableEq

/-- The outcomes of the requests of a call, and the order of the results of its searches. What fails in
associations is caught and has no effect. -/
structure CallFaults where
  order : ResultOrder
  message : Option HubspotError
  product : ℕ → ProductFaults
  searchByDealname : Option HubspotError
  searchByAppId : Option HubspotError
  write : Option HubspotError
  contact : ContactOutcome
  line : ℕ → LineFaults

/-! ## The call -/

/-- Create the object if the search has found none. -/
def createUnlessFound (found : Except HubspotError (Option ℕ))
    (create : Action TargetAccount HubspotError) : Action TargetAccount HubspotError :=
  match found with
  | .error e => raise e
  | .ok (some _) => skip
  | .ok none => create

/-- `_ensure_target_hubspot_product_for_line` -/
def ensureTargetHubspotProductForLine (formatAppId : AppKey → Text) (order : ResultOrder)
    (f : ProductFaults) (l : TargetLine) : Action TargetAccount HubspotError := fun account =>
  match l.product with
  | none => ⟨account, none⟩
  | some product =>
    let uniqueAppId := formatAppId (.object product)
    let create := request f.create fun account =>
      { account with products := account.products.create ⟨some uniqueAppId⟩ }
    if uniqueAppId ≠ [] then
      createUnlessFound (search f.search (doSearch order account.products (·.hasAppId uniqueAppId)))
        create account
    else create account

/-- The search and the creation of `_ensure_target_line_item_for_line`. -/
def findOrCreateLineItem (formatAppId : AppKey → Text) (order : ResultOrder) (f : LineFaults)
    (l : TargetLine) : Action TargetAccount HubspotError := fun account =>
  let uniqueAppId := l.uniqueAppId formatAppId
  let create := request f.create fun account =>
    { account with lineItems := account.lineItems.create ⟨some uniqueAppId⟩ }
  if uniqueAppId ≠ [] then
    createUnlessFound
      (searchOrNone f.search (doSearch order account.lineItems (·.hasAppId uniqueAppId)))
      create account
  else create account

/-- `_ensure_target_line_item_for_line` -/
def ensureTargetLineItemForLine (formatAppId : AppKey → Text) (order : ResultOrder) (f : LineFaults)
    (l : TargetLine) : Action TargetAccount HubspotError :=
  seq [request f.message id, ensureTargetHubspotProductForLine formatAppId order f.product l,
    request f.normalize id, findOrCreateLineItem formatAppId order f l]

/-- The deal that the searches find: by its name, or else by its id. -/
def findTargetDeal (formatAppId : AppKey → Text) (f : CallFaults) (o : TargetOrder)
    (account : TargetAccount) : Except HubspotError (Option ℕ) :=
  match searchOrNone f.searchByDealname (doSearch f.order account.deals (·.isNamed o.dealname)) with
  | .error e => .error e
  | .ok (some id) => .ok (some id)
  | .ok none =>
    if o.uniqueAppId formatAppId ≠ [] then
      searchOrNone f.searchByAppId
        (doSearch f.order account.deals (·.hasAppId (o.uniqueAppId formatAppId)))
    else .ok none

/-- Update the deal, or create it. -/
def writeTargetDeal (formatAppId : AppKey → Text) (f : CallFaults) (o : TargetOrder) :
    Action TargetAccount HubspotError := fun account =>
  let dealInput : TargetDeal := ⟨some o.dealname, some (o.uniqueAppId formatAppId)⟩
  match findTargetDeal formatAppId f o account with
  | .error e => ⟨account, some e⟩
  | .ok (some existingDealId) =>
    request f.write (fun account =>
      { account with deals := account.deals.set existingDealId dealInput }) account
  | .ok none =>
    request f.write (fun account =>
      { account with deals := account.deals.create dealInput }) account

/-- The line items, if there is a contact for the deal. -/
def ensureTargetLineItems (formatAppId : AppKey → Text) (f : CallFaults) (o : TargetOrder) :
    Action TargetAccount HubspotError :=
  match f.contact with
  | .missing => skip
  | .rateLimited => raise .tooManyRequests
  | .found => seq (o.lines.map fun l => ensureTargetLineItemForLine formatAppId f.order (f.line l.id) l)

/-- `sync_deal_with_hubspot_targeted` -/
def syncDealWithHubspotTargeted (formatAppId : AppKey → Text) (f : CallFaults) (o : TargetOrder) :
    Action TargetAccount HubspotError :=
  if o.isB2bUser = true then skip
  else
    seq [request f.message id,
      seq (o.lines.map fun l =>
        ensureTargetHubspotProductForLine formatAppId f.order (f.product l.id) l),
      writeTargetDeal formatAppId f o, ensureTargetLineItems formatAppId f o]

/-- Calls for the order, one after the other, whether the one before has failed or not. -/
def syncDeals (formatAppId : AppKey → Text) (o : TargetOrder) (calls : List CallFaults)
    (account : TargetAccount) : TargetAccount :=
  calls.foldl (fun account f => (syncDealWithHubspotTargeted formatAppId f o account).state) account

end MitxOnline

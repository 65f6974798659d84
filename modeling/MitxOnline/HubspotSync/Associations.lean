import MitxOnline.Ecommerce.Models
import MitxOnline.Lib.Batches

/-!
# Associations of deals (`hubspot_sync/tasks.py`)

A deal is associated with the contact of its purchaser, and its line items with the deal. The associations of
many orders are sent to HubSpot in batches.
-/

namespace MitxOnline

open Batches

abbrev HubspotId := ℕ

/-- What `get_hubspot_id_for_object` answers when no request fails: the id of an object that HubSpot has. -/
structure HubspotIds where
  contact : UserId → Option HubspotId
  deal : OrderId → Option HubspotId
  line : OrderId → Line → Option HubspotId

/-- `HubspotObjectType` -/
inductive HubspotObjectType where
  | contacts
  | deals
  | lines
  deriving DecidableEq, Repr

/-- `HubspotAssociationType` -/
inductive HubspotAssociationType where
  | lineDeal
  | dealContact
  deriving DecidableEq, Repr

structure PublicAssociation where
  source : HubspotId
  target : HubspotId
  type : HubspotAssociationType
  deriving DecidableEq, Repr

/-- A call of `associations.batch_api.create`. -/
structure AssociationRequest where
  fromObjectType : HubspotObjectType
  toObjectType : HubspotObjectType
  inputs : List PublicAssociation
  deriving DecidableEq, Repr

section Batches

variable (ids : HubspotIds) (s : Store)

/-- The association that a line of an order adds to `contact_associations_batch`. -/
def contactAssociation (l : OrderId × Line) : Option PublicAssociation :=
  match ids.contact (s.order l.1).purchaser, ids.deal l.1 with
  | some contactId, some dealId => some ⟨dealId, contactId, .dealContact⟩
  | _, _ => none

/-- The association that it adds to `line_associations_batch`. -/
def lineAssociation (l : OrderId × Line) : Option PublicAssociation :=
  match ids.line l.1 l.2, ids.deal l.1 with
  | some lineId, some dealId => some ⟨lineId, dealId, .lineDeal⟩
  | _, _ => none

/-- The lines of an order, with the order. -/
def dealLines (o : OrderId) : List (OrderId × Line) := (s.order o).lines.rows.map fun l => (o, l)

/-- The body of the loop over the orders; after each line of the last order the batches are sent. -/
def addDeal (isLast : Bool) (b : Lanes PublicAssociation PublicAssociation) (o : OrderId) :
    Lanes PublicAssociation PublicAssociation :=
  (dealLines s o).foldl (take 100 (contactAssociation ids s) (lineAssociation ids) isLast) b

/-- The loop over the orders. -/
def addDeals (b : Lanes PublicAssociation PublicAssociation) :
    List OrderId → Lanes PublicAssociation PublicAssociation
  | [] => b
  | o :: rest => addDeals (addDeal ids s rest.isEmpty b o) rest

/-- The two requests that send the batches. -/
def sendBatches (batches : List PublicAssociation × List PublicAssociation) : List AssociationRequest :=
  [⟨.lines, .deals, batches.2⟩, ⟨.deals, .contacts, batches.1⟩]

/-- `batch_upsert_associations_chunked`: the requests that are made. -/
def batchUpsertAssociationsChunked (orderIds : List OrderId) : List AssociationRequest :=
  (addDeals ids s Lanes.empty orderIds).flushed.flatMap sendBatches

end Batches

end MitxOnline

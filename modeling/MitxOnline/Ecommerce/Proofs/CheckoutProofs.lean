import MitxOnline.Ecommerce.Proofs.RetriesProofs

/-!
# Who gets through a checkout

A checkout serves a basket when it returns a session or fulfils the order. Before that, products of
contracts are checked in two set-level tests: that the basket has a discount, and that some discount
lists some product of the contracts that need one. The tests ask nothing of each contract by itself.
-/

namespace MitxOnline

open Autocommit

variable {cat : Catalog} {s s' : Store} {user : UserId} {o : OrderId} {req : CheckoutRequest}
  {basket : Basket}

/-! ## Orders that become fulfilled -/

/-- An order is fulfilled that was not, or was not there. -/
def FulfilsOrder (s s' : Store) : Prop :=
  ∃ o ∈ s'.orders.keys, (s'.order o).state = .fulfilled ∧
    (o ∈ s.orders.keys → (s.order o).state ≠ .fulfilled)

/-- What a checkout returns lets the user have what is in the basket. -/
def CheckoutPayload.serves : Except Error CheckoutPayload → Bool
  | .ok (.noCheckout _) => true
  | .ok (.payment _) => true
  | _ => false

/-- The checkout fulfils an order or returns a payload. -/
def Serves (cat : Catalog) (user : UserId) (req : CheckoutRequest) (s : Store) : Prop :=
  CheckoutPayload.serves (generateCheckoutPayload cat user req s).2 = true ∨
    FulfilsOrder s (generateCheckoutPayload cat user req s).1

theorem fulfillFreeOrder_of_error {e : Error}
    (h : (fulfillCompletedOrder req.faults cat req.now o zeroPaymentData
      ⟨false, req.skipReceipt, false⟩ true s).error = some e) :
    fulfillFreeOrder cat req o s = ⟨s, some e⟩ := by
  unfold fulfillFreeOrder
  rw [andThen_of_error (by rw [atomic_of_error h]), atomic_of_error h]

end MitxOnline

import Mathlib.Data.Multiset.Defs
import MitxOnline.Ecommerce.Payments
import MitxOnline.Ecommerce.Proofs.PaymentsProofs

/-!
# Comparing a basket with an order (`ecommerce/models.py`, `ecommerce/api.py`)

`fulfill_completed_order` deletes the basket it is given if that is the basket that was bought. The
basket may be that of any user.
-/

namespace MitxOnline

open Autocommit

/-- `Basket.compare_to_order`, for the basket of a user or an anonymous one. -/
def Basket.compareUserToOrder (b : Basket) (owner : Option UserId) (row : Order) : Bool :=
  if owner ≠ some row.purchaser then false else b.compareToOrder row

/-- `basket.delete()` -/
def deleteBasket (f : Faults) (user : UserId) : Code :=
  fallible f .basketDelete <| update fun s =>
    { s with baskets := fun user' => if user' = user then none else s.baskets user' }

/-- The end of `fulfill_completed_order`, for the basket of a user. -/
def deleteComparedBasket (f : Faults) (user : UserId) (o : OrderId) : Code := fun s =>
  match s.baskets user with
  | none => ⟨s, none⟩
  | some basket =>
    if basket.compareUserToOrder (some user) (s.order o) = true then deleteBasket f user s
    else ⟨s, none⟩

/-- `fulfill_completed_order` with the basket of a user. -/
def fulfillOrderWithBasket (f : Faults) (cat : Catalog) (now : Instant) (o : OrderId)
    (paymentData : PaymentData) (user : UserId) (opts : FulfillOptions) (inTransaction : Bool) : Code :=
  seq
    [ fulfill f cat now o paymentData opts inTransaction,
      mayFail f .syncHubspotDeal,
      deleteComparedBasket f user o ]

/-! ## What the comparison is for -/

/-- The products of the lines of an order. -/
def Order.getProducts (row : Order) : List ProductId :=
  row.lines.rows.map (·.productVersion.objectId)

/-- The basket is what was ordered: the purchaser's, with the same products and the same discounts,
each as often. -/
structure Basket.IsOrder (b : Basket) (owner : Option UserId) (row : Order) : Prop where
  purchaser : owner = some row.purchaser
  products : (b.getProducts : Multiset ProductId) = row.getProducts
  discounts : (b.discountIds : Multiset DiscountId) = row.discountIds

/-- The basket has no two different products and no two different discounts. -/
structure Basket.Uniform (b : Basket) : Prop where
  products : ∀ p ∈ b.getProducts, ∀ p' ∈ b.getProducts, p = p'
  discounts : ∀ d ∈ b.discountIds, ∀ d' ∈ b.discountIds, d = d'

/-- The comparison finds out whether the basket is what was ordered, and a fulfillment of the order
that returns has deleted the basket in that case and no basket otherwise. -/
structure Basket.ComparesRightly (b : Basket) (owner : Option UserId) (row : Order) : Prop where
  compares : b.compareUserToOrder owner row = true ↔ b.IsOrder owner row
  fulfills : ∀ f cat now o paymentData user opts inTransaction s,
    owner = some user → s.baskets user = some b → s.order o = row →
    (fulfillOrderWithBasket f cat now o paymentData user opts inTransaction s).error = none →
      ((fulfillOrderWithBasket f cat now o paymentData user opts inTransaction s).state.baskets user =
        none ↔ b.IsOrder owner row) ∧
      ∀ user', (user' ≠ user ∨ ¬b.IsOrder owner row) →
        (fulfillOrderWithBasket f cat now o paymentData user opts inTransaction s).state.baskets user' =
          s.baskets user'

/-!
## What the comparison of a basket finds out

The comparison asks for as many items as lines, and for every item to be every line. That says more
than that both have the same products: it says that there is only one product.
-/

variable {b : Basket} {owner : Option UserId} {row : Order} {f : Faults} {cat : Catalog} {now : Instant}
  {o : OrderId} {data : PaymentData} {user : UserId} {opts : FulfillOptions} {inTransaction : Bool}
  {s : Store}

/-! ## Comparing lists -/

/-- Two lists are as long and every entry of one is every entry of the other exactly if they have the
same entries and all of these are the same. -/
theorem allPairsEqual_iff {α : Type} (xs ys : List α) :
    (xs.length = ys.length ∧ ∀ x ∈ xs, ∀ y ∈ ys, y = x) ↔
      (xs : Multiset α) = ys ∧ ∀ x ∈ xs, ∀ x' ∈ xs, x = x' := by
  constructor
  · rintro ⟨hlen, hpairs⟩
    cases xs with
    | nil =>
      have hys : ys = [] := List.length_eq_zero_iff.mp hlen.symm
      subst hys
      simp
    | cons x xs =>
      have hys : ys = List.replicate (xs.length + 1) x :=
        List.eq_replicate_iff.mpr ⟨hlen.symm, hpairs x List.mem_cons_self⟩
      have hmem : x ∈ ys := by
        rw [hys]
        exact List.mem_replicate.mpr ⟨Nat.succ_ne_zero _, rfl⟩
      have hall : ∀ x' ∈ x :: xs, x' = x := fun x' hx' => (hpairs x' hx' x hmem).symm
      have hxs : x :: xs = List.replicate (xs.length + 1) x := List.eq_replicate_iff.mpr ⟨rfl, hall⟩
      refine ⟨by rw [hys, ← hxs], fun x₁ h₁ x₂ h₂ => ?_⟩
      rw [hall x₁ h₁, hall x₂ h₂]
  · rintro ⟨heq, hsame⟩
    have hperm : xs.Perm ys := Multiset.coe_eq_coe.mp heq
    refine ⟨hperm.length_eq, fun x hx y hy => ?_⟩
    exact hsame y (hperm.mem_iff.mpr hy) x hx

theorem compareToOrder_iff (b : Basket) (row : Order) :
    b.compareToOrder row = true ↔
      (b.getProducts.length = row.getProducts.length ∧
        ∀ p ∈ b.getProducts, ∀ p' ∈ row.getProducts, p' = p) ∧
      (b.discountIds.length = row.discountIds.length ∧
        ∀ d ∈ b.discountIds, ∀ d' ∈ row.discountIds, d' = d) := by
  unfold Basket.compareToOrder Basket.getProducts Basket.discountIds Order.getProducts
    Order.discountIds
  simp only [Bool.and_eq_true, beq_iff_eq, List.all_eq_true, List.length_map, List.forall_mem_map]
  tauto

/-- The comparison succeeds for the baskets that are the order and have one product and one discount
at most. -/
theorem compareUserToOrder_iff (b : Basket) (owner : Option UserId) (row : Order) :
    b.compareUserToOrder owner row = true ↔ b.IsOrder owner row ∧ b.Uniform := by
  unfold Basket.compareUserToOrder
  split
  · rename_i howner
    refine iff_of_false (by simp) fun h => howner h.1.purchaser
  · rename_i howner
    rw [compareToOrder_iff, allPairsEqual_iff, allPairsEqual_iff]
    constructor
    · rintro ⟨⟨hproducts, hsame⟩, hdiscounts, hsame'⟩
      exact ⟨⟨not_not.mp howner, hproducts, hdiscounts⟩, hsame, hsame'⟩
    · rintro ⟨horder, huniform⟩
      exact ⟨⟨horder.products, huniform.products⟩, horder.discounts, huniform.discounts⟩

/-! ## Baskets during a fulfillment -/

/-- The baskets, and what the order is compared by, are as they were. -/
structure ComparedKept (o : OrderId) (s s' : Store) : Prop where
  baskets : s'.baskets = s.baskets
  purchaser : (s'.order o).purchaser = (s.order o).purchaser
  lines : (s'.order o).lines = (s.order o).lines
  discounts : (s'.order o).discounts = (s.order o).discounts

theorem comparedKept_frame (o : OrderId) : IsFrame (ComparedKept o) := by
  constructor
  · intro s
    exact ⟨rfl, rfl, rfl, rfl⟩
  · intro s t u h h'
    exact ⟨h'.baskets.trans h.baskets, h'.purchaser.trans h.purchaser, h'.lines.trans h.lines,
      h'.discounts.trans h.discounts⟩

theorem comparedKept_of_ordersKept {s s' : Store} (h : OrdersKept s s')
    (hbaskets : s'.baskets = s.baskets) : ComparedKept o s s' := by
  have hrow := order_of_ordersKept h o
  constructor
  · exact hbaskets
  all_goals rw [hrow]

theorem fulfill_comparedKept (opts : FulfillOptions) (inTransaction : Bool) :
    Keeps (ComparedKept o) (fulfill f cat now o data opts inTransaction) := by
  have hr := comparedKept_frame o
  have htransaction : ∀ t s, ComparedKept o s (addTransaction o t s) := by
    intro t s
    have hrecords : OnlyRecords o s (addTransaction o t s) := onlyRecords_addTransaction s t
    exact ⟨rfl, hrecords.purchaser, hrecords.lines, hrecords.discounts⟩
  have hbody : Keeps (ComparedKept o) (fulfillBody f cat now o data opts inTransaction) :=
    keeps_fulfillBody hr htransaction
      (keeps_createEnrollments hr fun _ l _ => keeps_line_of_kept hr comparedKept_of_ordersKept _ l)
  refine keeps_callTransition hr hbody fun s => ?_
  exact ⟨rfl, by simp, by simp, by simp⟩

/-- The comparison is about the order as it was before it was fulfilled. -/
theorem compareUserToOrder_of_kept {s s' : Store} (h : ComparedKept o s s') :
    b.compareUserToOrder owner (s'.order o) = b.compareUserToOrder owner (s.order o) := by
  unfold Basket.compareUserToOrder Basket.compareToOrder
  rw [h.purchaser, h.lines, h.discounts]

theorem deleteComparedBasket_baskets (hb : s.baskets user = some b)
    (hreturns : (deleteComparedBasket f user o s).error = none) :
    (deleteComparedBasket f user o s).state.baskets =
      if b.compareUserToOrder (some user) (s.order o) = true then (s.withoutBasket user).baskets
      else s.baskets := by
  unfold deleteComparedBasket at hreturns ⊢
  rw [hb] at hreturns ⊢
  dsimp only at hreturns ⊢
  split
  · rename_i hequal
    rw [if_pos hequal] at hreturns
    have hpoint : f .basketDelete = none := fault_of_returns hreturns
    simp only [deleteBasket, fallible, hpoint]
    rfl
  · rfl

/-- A fulfillment that returns has deleted the basket if it compared equal, and no other. -/
theorem fulfillOrderWithBasket_baskets (hb : s.baskets user = some b)
    (hreturns : (fulfillOrderWithBasket f cat now o data user opts inTransaction s).error = none) :
    (fulfillOrderWithBasket f cat now o data user opts inTransaction s).state.baskets =
      if b.compareUserToOrder (some user) (s.order o) = true then (s.withoutBasket user).baskets
      else s.baskets := by
  obtain ⟨hfulfill, hrest⟩ := seq_cons_error hreturns
  obtain ⟨hsync, hrest'⟩ := seq_cons_error hrest
  rw [mayFail_state] at hrest'
  have hdelete := (seq_cons_error hrest').1
  have hkept : ComparedKept o s (fulfill f cat now o data opts inTransaction s).state :=
    fulfill_comparedKept opts inTransaction s
  unfold fulfillOrderWithBasket
  rw [seq_cons, andThen_of_ok hfulfill, seq_cons, andThen_of_ok hsync, mayFail_state, seq_cons,
    andThen_of_ok hdelete]
  show (deleteComparedBasket f user o _).state.baskets = _
  rw [deleteComparedBasket_baskets (by rw [hkept.baskets, hb]) hdelete,
    compareUserToOrder_of_kept hkept]
  unfold Store.withoutBasket
  rw [hkept.baskets]

/-! ## When the comparison is right -/

/-- The comparison is right about a basket exactly if, where the basket is the order, it has one
product and one discount at most. -/
theorem compareToOrder_isRight_iff (b : Basket) (owner : Option UserId) (row : Order) :
    b.ComparesRightly owner row ↔ (b.IsOrder owner row → b.Uniform) := by
  constructor
  · intro h horder
    exact ((compareUserToOrder_iff b owner row).mp (h.compares.mpr horder)).2
  · intro h
    have hcompares : b.compareUserToOrder owner row = true ↔ b.IsOrder owner row := by
      rw [compareUserToOrder_iff]
      exact ⟨And.left, fun horder => ⟨horder, h horder⟩⟩
    refine ⟨hcompares, fun f cat now o data user opts inTransaction s howner hb hrow hreturns => ?_⟩
    rw [fulfillOrderWithBasket_baskets hb hreturns, hrow, ← howner]
    by_cases horder : b.IsOrder owner row
    · rw [if_pos (hcompares.mpr horder)]
      refine ⟨iff_of_true (if_pos rfl) horder, fun user' huser' => ?_⟩
      exact if_neg (huser'.resolve_right fun hnot => hnot horder)
    · rw [if_neg fun hequal => horder (hcompares.mp hequal)]
      exact ⟨iff_of_false (by simp [hb]) horder, fun _ _ => rfl⟩

/-- A line for the product, which is that of the run with its number. -/
def lineOf (p : ProductId) : Line :=
  ⟨⟨1, p, ⟨.courseRun, p, ⟨100⟩, true⟩⟩, 1, some .courseRun, some p⟩

/-- The order of user 1 for the products 1 and 2. -/
def orderOfTwo : Order :=
  ⟨.pending, 1, 2, .stripe, ⟨[lineOf 1, lineOf 2], by decide⟩, [], []⟩

/-- The basket of the products 1 and 2 is not found to be the order for them. -/
theorem not_compareToOrder_isRight :
    ¬∀ (b : Basket) (owner : Option UserId) (row : Order), b.ComparesRightly owner row := by
  intro h
  have horder : Basket.IsOrder ⟨[⟨1, 1⟩, ⟨2, 1⟩], []⟩ (some 1) orderOfTwo := ⟨rfl, rfl, rfl⟩
  have hequal := (h _ _ _).compares.mpr horder
  exact absurd hequal (by decide)

end MitxOnline

import Mathlib.Algebra.BigOperators.Group.List.Lemmas
import MitxOnline.Ecommerce.Checkout
import MitxOnline.Ecommerce.Proofs.DiscountsProofs
import MitxOnline.Ecommerce.Proofs.PaymentsProofs

/-!
# What is charged and what is granted

A checkout sums the total of an order over the requested products, the gateway is asked for the sum
over all lines, and a payment grants all lines. The three agree when the order that is reused has
nothing but lines for requested products at their latest versions.
-/

namespace MitxOnline

open Autocommit

variable {cat : Catalog} {s s' : Store} {products : List ProductId} {user : UserId}
  {gatewayType : GatewayType} {o : OrderId} {ds : List DiscountId}

/-! ## Totals -/

theorem linesTotal_iff {lines : List Line} {total : ℚ} :
    linesTotal cat ds lines = .ok total ↔
      (∀ l ∈ lines, ∃ price, l.discountedPrice cat ds = .ok price) ∧
        total = (lines.map (Line.price cat ds)).sum := by
  induction lines generalizing total with
  | nil =>
    unfold linesTotal
    simp [eq_comm]
  | cons l rest ih =>
    unfold linesTotal
    cases hl : l.discountedPrice cat ds with
    | error e => simp [hl]
    | ok price =>
      have hprice := price_of_ok hl
      cases hrest : linesTotal cat ds rest with
      | error e =>
        have hnot : ¬∀ l ∈ rest, ∃ price, l.discountedPrice cat ds = .ok price := by
          intro hall
          have hok := ih.mpr ⟨hall, rfl⟩
          rw [hrest] at hok
          cases hok
        simp only [reduceCtorEq, List.forall_mem_cons, false_iff]
        exact fun h => hnot h.1.2
      | ok rest' =>
        obtain ⟨hall, hsum⟩ := ih.mp hrest
        simp only [Except.ok.injEq, List.forall_mem_cons, List.map_cons, List.sum_cons, hl, hprice,
          exists_eq', true_and]
        rw [← hsum]
        exact ⟨fun h => ⟨hall, h.symm⟩, fun h => h.2.symm⟩

/-- The cost of the lines of the starting order for products that are not requested. -/
def unrequestedCost (cat : Catalog) (ds : List DiscountId) (products : List ProductId)
    (start : Order) : ℚ :=
  ((start.lines.rows.filter fun l => !l.isRequested cat products).map (Line.price cat ds)).sum

/-- The cost of requesting a product more than once: its line is priced every time. -/
def repeatedCost (cat : Catalog) (ds : List DiscountId) (products : List ProductId) (start : Order) :
    ℚ :=
  ((requested cat products).map fun r => (start.lines.lineFor cat r.1 r.2).price cat ds).sum -
    ((requested cat products).dedup.map fun r => (start.lines.lineFor cat r.1 r.2).price cat ds).sum

/-- The sum over the lines of the order differs from its total by what is not requested and what is
requested again. -/
theorem CheckedOut.sum_lines (h : CheckedOut cat s s' products user ds gatewayType o) :
    ((s'.order o).lines.rows.map (Line.price cat ds)).sum = (s'.order o).totalPricePaid +
      unrequestedCost cat ds products (startingOrder cat s products user gatewayType) -
      repeatedCost cat ds products (startingOrder cat s products user gatewayType) := by
  rw [(h.rows_perm.map _).sum_eq, h.filled.total, List.map_append, List.sum_append, List.map_map]
  unfold unrequestedCost repeatedCost
  have hcomp : (requested cat products).dedup.map (Line.price cat ds ∘ fun r =>
      (startingOrder cat s products user gatewayType).lines.lineFor cat r.1 r.2) =
      (requested cat products).dedup.map fun r =>
        ((startingOrder cat s products user gatewayType).lines.lineFor cat r.1 r.2).price cat ds := rfl
  rw [hcomp]
  ring

/-! ## Grants -/

/-- One of the products is for the course run. -/
def SellsRun (cat : Catalog) (products : List ProductId) (r : RunId) : Prop :=
  ∃ q ∈ products, (cat.product q).contentType = .courseRun ∧ (cat.product q).objectId = r

/-- One of the products is for the program. -/
def SellsProgram (cat : Catalog) (products : List ProductId) (p : ProgramId) : Prop :=
  ∃ q ∈ products, (cat.product q).contentType = .program ∧ (cat.product q).objectId = p

/-- Only `purchaser` is enrolled, in runs and programs of the products and in runs of those programs,
and only such runs and programs are recorded as paid for. -/
structure GrantsOnly (cat : Catalog) (purchaser : UserId) (products : List ProductId) (o : OrderId)
    (s s' : Store) : Prop where
  enrollments : ∀ u r, s'.enrollments u r = s.enrollments u r ∨ u = purchaser ∧
    (SellsRun cat products r ∨ ∃ p, SellsProgram cat products p ∧ inProgram cat p r)
  programEnrollments : ∀ u p, s'.programEnrollments u p = s.programEnrollments u p ∨
    u = purchaser ∧ SellsProgram cat products p
  paidCourseRuns : ∀ row ∈ s'.paidCourseRuns, row ∈ s.paidCourseRuns ∨
    row.user = purchaser ∧ row.order = o ∧ SellsRun cat products row.courseRun
  paidPrograms : ∀ row ∈ s'.paidPrograms, row ∈ s.paidPrograms ∨
    row.user = purchaser ∧ row.order = o ∧ SellsProgram cat products row.program

variable {purchaser : UserId} {f : Faults} {now : Instant} {data : PaymentData}

theorem grantsOnly_frame : IsFrame (GrantsOnly cat purchaser products o) := by
  constructor
  · intro s
    exact ⟨fun _ _ => Or.inl rfl, fun _ _ => Or.inl rfl, fun _ h => Or.inl h, fun _ h => Or.inl h⟩
  · intro s t u h h'
    constructor
    · intro a r
      rcases h'.enrollments a r with heq | hgrant
      · rw [heq]
        exact h.enrollments a r
      · exact Or.inr hgrant
    · intro a p
      rcases h'.programEnrollments a p with heq | hgrant
      · rw [heq]
        exact h.programEnrollments a p
      · exact Or.inr hgrant
    · intro row hrow
      rcases h'.paidCourseRuns row hrow with hold | hgrant
      · exact h.paidCourseRuns row hold
      · exact Or.inr hgrant
    · intro row hrow
      rcases h'.paidPrograms row hrow with hold | hgrant
      · exact h.paidPrograms row hold
      · exact Or.inr hgrant

/-- Code that writes neither enrollments nor records of payments grants nothing. -/
theorem grantsOnly_of_eq {s s' : Store} (he : s'.enrollments = s.enrollments)
    (hp : s'.programEnrollments = s.programEnrollments) (hr : s'.paidCourseRuns = s.paidCourseRuns)
    (hq : s'.paidPrograms = s.paidPrograms) : GrantsOnly cat purchaser products o s s' := by
  refine ⟨fun u r => Or.inl ?_, fun u p => Or.inl ?_, fun row hrow => Or.inl ?_,
    fun row hrow => Or.inl ?_⟩
  · rw [he]
  · rw [hp]
  · rwa [hr] at hrow
  · rwa [hq] at hrow

theorem grantsOnly_setEnrollment {r : RunId}
    (h : SellsRun cat products r ∨ ∃ p, SellsProgram cat products p ∧ inProgram cat p r)
    (row : CourseRunEnrollment) (s : Store) :
    GrantsOnly cat purchaser products o s (setEnrollment purchaser r row s) := by
  refine ⟨fun u r' => ?_, fun _ _ => Or.inl rfl, fun _ h => Or.inl h, fun _ h => Or.inl h⟩
  by_cases hur : u = purchaser ∧ r' = r
  · obtain ⟨rfl, rfl⟩ := hur
    exact Or.inr ⟨rfl, h⟩
  · exact Or.inl (by simp [setEnrollment, hur])

theorem allowsRun_grantsOnly {r : RunId}
    (h : SellsRun cat products r ∨ ∃ p, SellsProgram cat products p ∧ inProgram cat p r) :
    AllowsRun (GrantsOnly cat purchaser products o) f cat now purchaser r := by
  refine ⟨grantsOnly_setEnrollment h, ?_⟩
  -- memberships are no grants
  refine keeps_joinContract grantsOnly_frame (fun org keep s => ?_) fun c s => ?_
  · exact grantsOnly_of_eq rfl rfl rfl rfl
  · exact grantsOnly_of_eq rfl rfl rfl rfl

theorem purchases_of_isFor {l : Line} {q : ProductId} {ct : ContentType} {id : ℕ}
    (hq : l.isFor cat q = true) (h : l.purchases ct id = true) :
    (cat.product q).contentType = ct ∧ (cat.product q).objectId = id := by
  simp only [Line.isFor, Line.purchases, Bool.and_eq_true, beq_iff_eq] at hq h
  obtain ⟨hqType, hqId⟩ := hq
  obtain ⟨htype, hid⟩ := h
  rw [hqType, Option.some.injEq] at htype
  rw [hqId, Option.some.injEq] at hid
  exact ⟨htype, hid⟩

/-- A line for one of the products grants what that product is for. -/
theorem allowsLine_grantsOnly {l : Line} (hl : l.isRequested cat products = true) :
    AllowsLine (GrantsOnly cat purchaser products o) f cat now purchaser o l := by
  obtain ⟨q, hq, hlq⟩ := isRequested_iff.mp hl
  have hrun : ∀ run, l.purchases .courseRun run = true → SellsRun cat products run := by
    intro run h
    exact ⟨q, hq, purchases_of_isFor hlq h⟩
  have hprogram : ∀ p, l.purchases .program p = true → SellsProgram cat products p := by
    intro p h
    exact ⟨q, hq, purchases_of_isFor hlq h⟩
  constructor
  · intro run h
    exact allowsRun_grantsOnly (Or.inl (hrun run h))
  · intro run h s _
    refine ⟨fun _ _ => Or.inl rfl, fun _ _ => Or.inl rfl, fun row hrow => ?_, fun _ h => Or.inl h⟩
    rcases List.mem_append.mp hrow with hold | hnew
    · exact Or.inl hold
    · obtain rfl := List.mem_singleton.mp hnew
      exact Or.inr ⟨rfl, rfl, hrun run h⟩
  · intro p h row s
    refine ⟨fun _ _ => Or.inl rfl, fun u p' => ?_, fun _ h => Or.inl h, fun _ h => Or.inl h⟩
    by_cases hup : u = purchaser ∧ p' = p
    · obtain ⟨rfl, rfl⟩ := hup
      exact Or.inr ⟨rfl, hprogram p' h⟩
    · exact Or.inl (by simp [setProgramEnrollment, hup])
  · intro p h s
    refine ⟨fun _ _ => Or.inl rfl, fun _ _ => Or.inl rfl, fun _ h => Or.inl h, fun row hrow => ?_⟩
    rcases List.mem_append.mp hrow with hold | hnew
    · exact Or.inl hold
    · obtain rfl := List.mem_singleton.mp hnew
      exact Or.inr ⟨rfl, rfl, hprogram p h⟩
  · intro p h run hin
    exact allowsRun_grantsOnly (Or.inr ⟨p, hprogram p h, hin⟩)

/-- If the lines of the order are all for the products, the code grants nothing else, and it leaves
the lines alone. -/
structure GrantsLines (cat : Catalog) (products : List ProductId) (o : OrderId) (s s' : Store) :
    Prop where
  lines : (s'.order o).lines = (s.order o).lines
  purchaser : (s'.order o).purchaser = (s.order o).purchaser
  grants : (∀ l ∈ (s.order o).lines.rows, l.isRequested cat products = true) →
    GrantsOnly cat (s.order o).purchaser products o s s'

theorem grantsLines_frame : IsFrame (GrantsLines cat products o) := by
  constructor
  · intro s
    exact ⟨rfl, rfl, fun _ => grantsOnly_frame.refl s⟩
  · intro s t u h h'
    refine ⟨h'.lines.trans h.lines, h'.purchaser.trans h.purchaser, fun hall => ?_⟩
    have hfirst : GrantsOnly cat (s.order o).purchaser products o s t := h.grants hall
    have hsecond : GrantsOnly cat (s.order o).purchaser products o t u := by
      rw [← h.purchaser]
      exact h'.grants (by rw [h.lines]; exact hall)
    exact grantsOnly_frame.trans _ _ _ hfirst hsecond

theorem grantsLines_setOrder {s : Store} {row : Order} (hl : row.lines = (s.order o).lines)
    (hp : row.purchaser = (s.order o).purchaser) :
    GrantsLines cat products o s (s.setOrder o row) := by
  have hrow : (s.setOrder o row).order o = row := Store.setOrder_order_self s o row
  refine ⟨?_, ?_, fun _ => grantsOnly_of_eq rfl rfl rfl rfl⟩
  · rw [hrow, hl]
  · rw [hrow, hp]

theorem createEnrollments_grantsLines :
    Keeps (GrantsLines cat products o) (createEnrollments f cat now o) := by
  intro s
  have hkept := onlyRecords_of_ordersKept (o := o)
    (createEnrollments_orders s : OrdersKept s (createEnrollments f cat now o s).state)
  refine ⟨hkept.lines, hkept.purchaser, fun hall => ?_⟩
  refine keeps_seq grantsOnly_frame (fun a ha => ?_) s
  obtain ⟨l, hl, rfl⟩ := List.mem_map.mp ha
  exact keeps_processTransactionLine grantsOnly_frame (allowsLine_grantsOnly (hall l hl))

theorem fulfill_grantsLines (opts : FulfillOptions) (inTransaction : Bool) :
    Keeps (GrantsLines cat products o) (fulfill f cat now o data opts inTransaction) := by
  have hr : IsFrame (GrantsLines cat products o) := grantsLines_frame
  have hbody : Keeps (GrantsLines cat products o) (fulfillBody f cat now o data opts inTransaction) :=
    keeps_fulfillBody hr (fun _ _ => grantsLines_setOrder rfl rfl) createEnrollments_grantsLines
  exact keeps_callTransition hr hbody fun _ => grantsLines_setOrder rfl rfl

/-! ## The order that a checkout returns -/

/-- The order has one line for each requested product, at its latest version, and no other; its total
is the sum over its lines; and fulfilling it, in any circumstances, grants requested products only. -/
structure ChargedIsGranted (cat : Catalog) (s : Store) (products : List ProductId) (o : OrderId) :
    Prop where
  one_line : ∀ p ∈ products, ∃ l, (s.order o).lines.rows.filter (Line.isFor cat p) = [l] ∧
    (cat.versions p).head? = some l.productVersion
  no_other : ∀ l ∈ (s.order o).lines.rows, l.isRequested cat products = true
  total : (s.order o).linesTotal cat = .ok (s.order o).totalPricePaid
  granted : ∀ f now data opts inTransaction, GrantsOnly cat (s.order o).purchaser products o s
    (fulfill f cat now o data opts inTransaction s).state

/-- The order that the checkout starts from has lines for requested products at their latest versions
only, and no product that costs something is requested twice. -/
structure ReusesOnlyRequested (cat : Catalog) (ds : List DiscountId) (products : List ProductId)
    (start : Order) : Prop where
  lines : ∀ l ∈ start.lines.rows, ∃ p ∈ products, l.isFor cat p = true ∧
    (cat.versions p).head? = some l.productVersion
  repeats : repeatedCost cat ds products start = 0

theorem unrequestedCost_eq_zero {start : Order}
    (h : ∀ l ∈ start.lines.rows, l.isRequested cat products = true) :
    unrequestedCost cat ds products start = 0 := by
  have hnil : start.lines.rows.filter (fun l => !l.isRequested cat products) = [] := by
    rw [List.filter_eq_nil_iff]
    intro l hl
    simp [h l hl]
  unfold unrequestedCost
  rw [hnil]
  rfl

theorem CheckedOut.linesTotal_iff (h : CheckedOut cat s s' products user ds gatewayType o)
    (hreq : ∀ l ∈ (s'.order o).lines.rows, l.isRequested cat products = true) :
    (s'.order o).linesTotal cat = .ok (s'.order o).totalPricePaid ↔
      repeatedCost cat ds products (startingOrder cat s products user gatewayType) = 0 := by
  have hstart : ∀ l ∈ (startingOrder cat s products user gatewayType).lines.rows,
      l.isRequested cat products = true := by
    intro l hl
    exact hreq l ((h.filled.rows l).mpr (Or.inl hl))
  have hsum := h.sum_lines
  rw [unrequestedCost_eq_zero hstart] at hsum
  have hids : (s'.order o).discounts.map (·.redeemedDiscount) = ds := h.filled.discounts_ids
  unfold Order.linesTotal
  rw [hids, MitxOnline.linesTotal_iff, hsum]
  constructor
  · rintro ⟨-, htotal⟩
    linarith
  · intro hzero
    refine ⟨fun l hl => ?_, by rw [hzero]; ring⟩
    obtain ⟨p, hp, hlp⟩ := isRequested_iff.mp (hreq l hl)
    rw [← h.requests] at hp
    obtain ⟨r, hr, rfl⟩ := List.mem_map.mp hp
    have hmem : (startingOrder cat s products user gatewayType).lines.lineFor cat r.1 r.2 ∈
        (s'.order o).lines.rows := (h.filled.rows _).mpr (Or.inr ⟨r, hr, rfl⟩)
    rw [Lines.unique_line _ hl hmem hlp (Lines.lineFor_isFor _ _ _ _)]
    exact h.filled.priced r hr

theorem filter_isFor_eq (lines : Lines) {l : Line} {p : ProductId} (hl : l ∈ lines.rows)
    (hp : l.isFor cat p = true) : lines.rows.filter (Line.isFor cat p) = [l] := by
  have hfilter : lines.rows.filter (Line.isRequested cat [p]) =
      lines.rows.filter (Line.isFor cat p) := by
    apply List.filter_congr
    intro l _
    simp [Line.isRequested]
  have hnodup := lines.nodup_requested cat [p]
  rw [hfilter] at hnodup
  have hsingle : (lines.rows.filter (Line.isFor cat p)).Perm [l] := by
    rw [List.perm_ext_iff_of_nodup hnodup (List.nodup_singleton l)]
    intro l'
    rw [List.mem_filter, List.mem_singleton]
    constructor
    · rintro ⟨hl', hp'⟩
      exact lines.unique_line hl' hl hp' hp
    · rintro rfl
      exact ⟨hl, hp⟩
  exact List.perm_singleton.mp hsingle

/-- For every database, every list of products and discounts: where the checkout returns an order,
what is charged for it is what it grants exactly when the order it starts from has lines for
requested products at their latest versions only and repeated requests cost nothing. -/
theorem charged_is_granted_iff {discounts : List (Option DiscountId)}
    (h : getOrCreate cat s products user discounts gatewayType = .ok (o, s')) :
    ChargedIsGranted cat s' products o ↔ ReusesOnlyRequested cat discounts.reduceOption products
      (startingOrder cat s products user gatewayType) := by
  have hout := getOrCreate_spec h
  constructor
  · intro hcharged
    refine ⟨fun l hl => ?_, (hout.linesTotal_iff hcharged.no_other).mp hcharged.total⟩
    have hl' := (hout.filled.rows l).mpr (Or.inl hl)
    obtain ⟨p, hp, hlp⟩ := isRequested_iff.mp (hcharged.no_other l hl')
    obtain ⟨l', hfilter, hversion⟩ := hcharged.one_line p hp
    have hmem : l ∈ (s'.order o).lines.rows.filter (Line.isFor cat p) :=
      List.mem_filter.mpr ⟨hl', hlp⟩
    rw [hfilter, List.mem_singleton] at hmem
    exact ⟨p, hp, hlp, hmem ▸ hversion⟩
  · rintro ⟨hlines, hrepeats⟩
    have hrequested : ∀ l ∈ (s'.order o).lines.rows, l.isRequested cat products = true := by
      intro l hl
      rcases (hout.filled.rows l).mp hl with hl | ⟨r, hr, rfl⟩
      · obtain ⟨p, hp, hlp, -⟩ := hlines l hl
        exact isRequested_iff.mpr ⟨p, hp, hlp⟩
      · exact isRequested_iff.mpr ⟨r.1, mem_of_requested hr, Lines.lineFor_isFor _ _ _ _⟩
    have htotal := (hout.linesTotal_iff hrequested).mpr hrepeats
    refine ⟨fun p hp => ?_, hrequested, htotal, fun f now data opts inTransaction => ?_⟩
    · rw [← hout.requests] at hp
      obtain ⟨r, hr, rfl⟩ := List.mem_map.mp hp
      have hmem : (startingOrder cat s products user gatewayType).lines.lineFor cat r.1 r.2 ∈
          (s'.order o).lines.rows := (hout.filled.rows _).mpr (Or.inr ⟨r, hr, rfl⟩)
      have hfor := Lines.lineFor_isFor cat
        (startingOrder cat s products user gatewayType).lines r.1 r.2
      refine ⟨_, filter_isFor_eq _ hmem hfor, ?_⟩
      rcases (hout.mem_rows _).mp hmem with hold | ⟨q, -, -, v, hv, hnew⟩
      · obtain ⟨q, -, hlq, hversion⟩ := hlines _ hold
        rwa [isFor_unique hlq hfor] at hversion
      · rw [hnew] at hfor ⊢
        rwa [isFor_unique hfor (isFor_new q v)]
    · exact (fulfill_grantsLines opts inTransaction s').grants hrequested

/-- A pending Stripe order of user 1 for products 1 and 2. -/
def twoLineOrder : Order :=
  { Order.new 1 .stripe with
    totalPricePaid := 200
    lines := ⟨[hundredDollarLine,
      Line.new hundredDollarCatalog 2 ⟨2, 2, hundredDollarCatalog.product 2⟩],
      List.pairwise_pair.mpr (by decide)⟩ }

/-- A checkout of product 1 alone reuses the order, charges for one line and grants both. -/
theorem reused_order_keeps_unrequested_line :
    ¬∀ (cat : Catalog) (s s' : Store) (products : List ProductId) (user : UserId)
      (discounts : List (Option DiscountId)) (gatewayType : GatewayType) (o : OrderId),
      products ≠ [] → getOrCreate cat s products user discounts gatewayType = .ok (o, s') →
      ChargedIsGranted cat s' products o := by
  intro h
  have hcharged := h hundredDollarCatalog (storeWith twoLineOrder) _ [1] 1 [] .stripe 1 (by decide) rfl
  exact absurd hcharged.no_other (by decide)

theorem charged_is_granted_iff_example : ∃ s',
    getOrCreate hundredDollarCatalog (storeWith pendingStripeOrder) [1] 1 [] .stripe = .ok (1, s') ∧
      (ChargedIsGranted hundredDollarCatalog s' [1] 1 ↔
        ReusesOnlyRequested hundredDollarCatalog [] [1]
          (startingOrder hundredDollarCatalog (storeWith pendingStripeOrder) [1] 1 .stripe)) := by
  obtain ⟨s', hbuilt⟩ : ∃ s', getOrCreate hundredDollarCatalog (storeWith pendingStripeOrder) [1] 1
      [] .stripe = .ok (1, s') := ⟨_, rfl⟩
  exact ⟨s', hbuilt, charged_is_granted_iff hbuilt⟩

end MitxOnline

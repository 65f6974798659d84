import MitxOnline.Courses.EnrollmentMigration
import MitxOnline.Courses.Proofs.UserMigrationProofs
import MitxOnline.Courses.Proofs.VerifiedModesProofs
import MitxOnline.Ecommerce.Downgrades
import MitxOnline.Ecommerce.Proofs.FreeCheckoutsProofs

/-!
# What a row of the migration writes

The transaction of a row fulfills one order, or leaves the database as it was. Fulfilled orders stay, so a pair
of a user and a run that has one keeps it.
-/

namespace MitxOnline

open Autocommit

variable {cat : MigrationCatalog} {user : UserId} {r : RunId} {o : OrderId} {s s' : Store}
  {row : MigratedRow} {p : ProductId} {discount : Option DiscountId}

/-! ## Fulfilled orders -/

/-- A fulfilled order of the user with a line for the run. -/
def Order.isFulfilledFor (user : UserId) (r : RunId) (o : Order) : Bool :=
  o.state == .fulfilled && o.purchaser == user && o.lines.rows.any (Line.purchases .courseRun r)

/-- The number of fulfilled orders of the user for the run. -/
def Store.ordersFor (s : Store) (user : UserId) (r : RunId) : ℕ :=
  s.orders.count (Order.isFulfilledFor user r)

/-- The fulfilled orders are still there. -/
def FulfilledKept (s s' : Store) : Prop :=
  ∀ o ∈ s.orders.keys, (s.order o).state = .fulfilled → o ∈ s'.orders.keys ∧ s'.order o = s.order o

theorem isFrame_fulfilledKept : IsFrame FulfilledKept := by
  constructor
  · intro s o ho _
    exact ⟨ho, rfl⟩
  · intro s t u hst htu o ho hful
    obtain ⟨hkey, hrow⟩ := hst o ho hful
    have hful' : (t.order o).state = .fulfilled := by rw [hrow]; exact hful
    obtain ⟨hkey', hrow'⟩ := htu o hkey hful'
    exact ⟨hkey', hrow'.trans hrow⟩

theorem FulfilledKept.count_le (h : FulfilledKept s s') (user : UserId) (r : RunId) :
    s.ordersFor user r ≤ s'.ordersFor user r := by
  refine Table.count_le_count fun o ho htest => ?_
  have hstate : (s.order o).state = .fulfilled := by
    simp only [Order.isFulfilledFor, Bool.and_eq_true, beq_iff_eq] at htest
    exact htest.1.1
  obtain ⟨hkey, hrow⟩ := h o ho hstate
  refine ⟨hkey, ?_⟩
  have hsame : s'.orders.row o = s.orders.row o := hrow
  rw [hsame]
  exact htest

theorem ordersFor_of_ordersKept (h : OrdersKept s s') (user : UserId) (r : RunId) :
    s'.ordersFor user r = s.ordersFor user r := by
  unfold OrdersKept at h
  rw [Store.ordersFor, Store.ordersFor, h]

/-! ## The transaction of a row -/

/-- A pending order, or a new one, of the user was fulfilled: it has a line for the product, and any other line
of it was there before. The other orders are as they were, and so are the modes of the enrollments outside the
runs of the order. -/
structure OrderMade (cat : MigrationCatalog) (user : UserId) (p : ProductId) (o : OrderId)
    (s s' : Store) : Prop where
  key : o ∈ s'.orders.keys
  before : o ∈ s.orders.keys → (s.order o).state = .pending
  state : (s'.order o).state = .fulfilled
  purchaser : (s'.order o).purchaser = user
  line : ∃ l ∈ (s'.order o).lines.rows, l.isFor cat.toCatalog p = true
  lines : ∀ l ∈ (s'.order o).lines.rows,
    l ∈ (startingOrder cat.toCatalog s [p] user cat.defaultGateway).lines.rows ∨
      l.isFor cat.toCatalog p = true
  others : ∀ o' ≠ o, (o' ∈ s'.orders.keys ↔ o' ∈ s.orders.keys) ∧ s'.order o' = s.order o'
  modes : ∀ runs, OnlyRuns runs (s'.order o).lines.rows → MayVerify user runs s s'

theorem fulfill_lines {f : Faults} {now : Instant} {data : PaymentData} {opts : FulfillOptions}
    {inTransaction : Bool} (c : Catalog)
    (h : (fulfill f c now o data opts inTransaction s).error = none) :
    ((fulfill f c now o data opts inTransaction s).state.order o).lines = (s.order o).lines ∧
      ((fulfill f c now o data opts inTransaction s).state.order o).purchaser =
        (s.order o).purchaser := by
  have hbody : OnlyRecords o s (fulfillBody f c now o data opts inTransaction s).state :=
    fulfillBody_records opts inTransaction s
  unfold fulfill at h ⊢
  rcases callTransition_cases f ⟨some [.pending], .fulfilled⟩ o
    (fulfillBody f c now o data opts inTransaction) s with ⟨-, heq⟩ | ⟨-, -, -, herror⟩ | ⟨-, heq⟩
  · rw [heq] at h
    cases h
  · exact absurd h herror
  · rw [heq]
    simp [hbody.lines, hbody.purchaser]

/-- What the checkout and the fulfillment of an order come to. -/
theorem orderMade_of_fulfilled {t : Store} {f : Faults} {now : Instant} {data : PaymentData}
    {opts : FulfillOptions} {inTransaction : Bool}
    (hmade : createFromProduct cat.toCatalog s p user discount cat.defaultGateway = .ok (o, t))
    (h : (fulfill f cat.toCatalog now o data opts inTransaction t).error = none) :
    OrderMade cat user p o s (fulfill f cat.toCatalog now o data opts inTransaction t).state := by
  have hout := createFromProduct_spec hmade
  have htouches : TouchesOnly o t (fulfill f cat.toCatalog now o data opts inTransaction t).state :=
    fulfill_touchesOnly opts inTransaction t
  obtain ⟨hlines, hpurchaser⟩ := fulfill_lines cat.toCatalog h
  have hlineFor : ∀ q ∈ requested cat.toCatalog [p],
      ((startingOrder cat.toCatalog s [p] user cat.defaultGateway).lines.lineFor cat.toCatalog q.1
        q.2).isFor cat.toCatalog p = true := by
    intro q hq
    have hp : q.1 = p := List.mem_singleton.mp (mem_of_requested hq)
    rw [hp]
    exact Lines.lineFor_isFor _ _ _ _
  constructor
  · rw [htouches.keys]
    exact hout.pending.2.1
  · exact hout.pending.2.2
  · exact (fulfilled_of_error_none h).fulfilled
  · rw [hpurchaser]
    exact hout.purchaser
  · have hp : p ∈ (requested cat.toCatalog [p]).map Prod.fst := by
      rw [hout.requests]
      exact List.mem_singleton_self p
    obtain ⟨q, hq, -⟩ := List.mem_map.mp hp
    rw [hlines]
    exact ⟨_, (hout.filled.rows _).mpr (Or.inr ⟨q, hq, rfl⟩), hlineFor q hq⟩
  · intro l hl
    rw [hlines] at hl
    rcases (hout.filled.rows l).mp hl with hold | ⟨q, hq, rfl⟩
    · exact Or.inl hold
    · exact Or.inr (hlineFor q hq)
  · intro o' ho'
    rw [htouches.keys, htouches.others o' ho', hout.keys]
    exact ⟨⟨fun hkey => hkey.resolve_right ho', Or.inl⟩, hout.frame o' ho'⟩
  · intro runs honly
    rw [hlines] at honly
    have hstart : MayVerify user runs s t := mayVerify_of_enrollments hout.enrollments
    exact (isFrame_mayVerify user runs).trans _ _ _ hstart (fulfill_mayVerify honly hout.purchaser)

/-- The transaction of a row that returns has fulfilled an order. -/
theorem createOrder_made (h : (row.createOrder cat p discount s).error = none) :
    ∃ o, OrderMade cat row.source.user p o s (row.createOrder cat p discount s).state := by
  unfold MigratedRow.createOrder at h ⊢
  split at h
  · cases h
  · cases h
  · rename_i o t hnone hmade
    have hfulfill := (seq_cons_error h).1
    have hstate : (seq [fulfill row.faults cat.toCatalog row.now o zeroPaymentData ⟨true, false, false⟩ true,
        mayFail row.faults .syncHubspotDeal] t).state =
        (fulfill row.faults cat.toCatalog row.now o zeroPaymentData ⟨true, false, false⟩ true t).state := by
      rw [seq_cons, andThen_of_ok hfulfill, seq_singleton, mayFail_state]
    rw [hstate]
    exact ⟨o, orderMade_of_fulfilled hmade hfulfill⟩

/-! ## What a step of the migration may do -/

/-- Every pair of a user and a run gets at most one fulfilled order, and none if it has one; an enrollment that
is there keeps its mode or becomes verified; and one that becomes verified has a fulfilled order. -/
structure MigratesExactly (s s' : Store) : Prop where
  orders : ∀ user r, s'.ordersFor user r ≤ max (s.ordersFor user r) 1
  kept : ∀ user r, s.ordersFor user r ≤ s'.ordersFor user r
  modes : ∀ user r mode, s.storedMode user r = some mode →
    s'.storedMode user r = some mode ∨ s'.storedMode user r = some .verified
  verified : ∀ user r, s'.storedMode user r = some .verified →
    s.storedMode user r = some .verified ∨ 0 < s'.ordersFor user r

theorem isFrame_migratesExactly : IsFrame MigratesExactly := by
  constructor
  · intro s
    exact ⟨fun _ _ => Nat.le_max_left _ _, fun _ _ => le_rfl, fun _ _ _ => Or.inl, fun _ _ => Or.inl⟩
  · intro s t u hst htu
    constructor
    · intro user r
      have hfirst := hst.orders user r
      have hsecond := htu.orders user r
      omega
    · intro user r
      exact (hst.kept user r).trans (htu.kept user r)
    · intro user r mode hmode
      rcases hst.modes user r mode hmode with hsame | hverified
      · exact htu.modes user r mode hsame
      · exact Or.inr ((htu.modes user r _ hverified).elim id id)
    · intro user r hmode
      rcases htu.verified user r hmode with hverified | hcount
      · refine (hst.verified user r hverified).imp_right fun hcount => ?_
        exact hcount.trans_le (htu.kept user r)
      · exact Or.inr hcount

/-- Frames of the database are frames of the migration. -/
theorem isFrame_migration : IsFrame fun m m' : Migration => MigratesExactly m.store m'.store :=
  ⟨fun m => isFrame_migratesExactly.refl m.store, fun _ _ _ => isFrame_migratesExactly.trans _ _ _⟩

theorem mem_purchasedRuns {row : Order} :
    r ∈ row.purchasedRuns ↔ ∃ l ∈ row.lines.rows, l.purchases .courseRun r = true := by
  unfold Order.purchasedRuns
  rw [List.mem_filterMap]
  refine exists_congr fun l => and_congr_right fun _ => ?_
  unfold Line.purchases
  rcases l.purchasedContentType with _ | _ | _ <;> rcases l.purchasedObjectId with _ | id <;> simp

theorem isFulfilledFor_iff {row : Order} : row.isFulfilledFor user r = true ↔
    row.state = .fulfilled ∧ row.purchaser = user ∧ r ∈ row.purchasedRuns := by
  rw [mem_purchasedRuns]
  simp [Order.isFulfilledFor, and_assoc]

/-- The product sells the run of the row, the user has no fulfilled order for the run, and a pending order that
would be used has lines only for runs that the user has none for. -/
structure SafeOrder (cat : MigrationCatalog) (row : SourceEnrollment) (p : ProductId) (s : Store) :
    Prop where
  contentType : (cat.product p).contentType = .courseRun
  objectId : (cat.product p).objectId = row.courserun
  fresh : s.ordersFor row.user row.courserun = 0
  lines : ∀ l ∈ (startingOrder cat.toCatalog s [p] row.user cat.defaultGateway).lines.rows,
    l.purchasesNothing ∨ ∃ r, l.purchases .courseRun r = true ∧ s.ordersFor row.user r = 0

section OrderMade

variable {source : SourceEnrollment} (h : OrderMade cat source.user p o s s')

include h

theorem OrderMade.fulfilledKept : FulfilledKept s s' := by
  intro o' ho' hful
  have hne : o' ≠ o := by
    rintro rfl
    rw [h.before ho'] at hful
    cases hful
  exact ⟨(h.others o' hne).1.mpr ho', (h.others o' hne).2⟩

/-- Only the counts of the runs of the order grow. -/
theorem OrderMade.count_cases (user : UserId) (r : RunId) :
    s'.ordersFor user r ≤ s.ordersFor user r ∨
      (user = source.user ∧ r ∈ (s'.order o).purchasedRuns ∧
        s'.ordersFor user r ≤ s.ordersFor user r + 1) := by
  have hothers : ∀ i ∈ s'.orders.keys, i ≠ o → Order.isFulfilledFor user r (s'.orders.row i) = true →
      i ∈ s.orders.keys ∧ Order.isFulfilledFor user r (s.orders.row i) = true := by
    intro i hi hne htest
    obtain ⟨hkey, hrow⟩ := h.others i hne
    have hsame : s'.orders.row i = s.orders.row i := hrow
    rw [hsame] at htest
    exact ⟨hkey.mp hi, htest⟩
  by_cases htest : (s'.order o).isFulfilledFor user r = true
  · obtain ⟨-, huser, hr⟩ := isFulfilledFor_iff.mp htest
    exact Or.inr ⟨huser.symm.trans h.purchaser, hr, Table.count_le_succ o hothers⟩
  · refine Or.inl (Table.count_le_count fun i hi hful => hothers i hi ?_ hful)
    rintro rfl
    exact htest hful

/-- The runs of the order have a fulfilled order. -/
theorem OrderMade.count_pos (hr : r ∈ (s'.order o).purchasedRuns) :
    0 < s'.ordersFor source.user r := by
  rw [Nat.pos_iff_ne_zero]
  intro hzero
  have hnone := Table.count_eq_zero.mp hzero o h.key
  have htest : (s'.orders.row o).isFulfilledFor source.user r = true :=
    isFulfilledFor_iff.mpr ⟨h.state, h.purchaser, hr⟩
  rw [htest] at hnone
  cases hnone

theorem OrderMade.courserun_mem (hsafe : SafeOrder cat source p s) :
    source.courserun ∈ (s'.order o).purchasedRuns := by
  obtain ⟨l, hl, hfor⟩ := h.line
  refine mem_purchasedRuns.mpr ⟨l, hl, ?_⟩
  unfold Line.isFor at hfor
  rw [hsafe.contentType, hsafe.objectId] at hfor
  exact hfor

/-- A line of the order is for nothing, or for a run that the user has no fulfilled order for. -/
theorem OrderMade.line_cases (hsafe : SafeOrder cat source p s) {l : Line}
    (hl : l ∈ (s'.order o).lines.rows) :
    l.purchasesNothing ∨ ∃ r, l.purchases .courseRun r = true ∧ s.ordersFor source.user r = 0 := by
  rcases h.lines l hl with hold | hfor
  · exact hsafe.lines l hold
  · refine Or.inr ⟨source.courserun, ?_, hsafe.fresh⟩
    unfold Line.isFor at hfor
    rw [hsafe.contentType, hsafe.objectId] at hfor
    exact hfor

/-- A safe order is all that its transaction adds. -/
theorem OrderMade.migratesExactly (hsafe : SafeOrder cat source p s) : MigratesExactly s s' := by
  have hfresh : ∀ r ∈ (s'.order o).purchasedRuns, s.ordersFor source.user r = 0 := by
    intro r hr
    obtain ⟨l, hl, hline⟩ := mem_purchasedRuns.mp hr
    rcases h.line_cases hsafe hl with hnothing | ⟨r', hr', hzero⟩
    · rw [not_purchases_of_nothing hnothing] at hline
      cases hline
    · rw [(purchases_inj hline hr').2]
      exact hzero
  have honly : OnlyRuns (s'.order o).purchasedRuns (s'.order o).lines.rows := by
    intro l hl
    refine (h.line_cases hsafe hl).imp_right ?_
    rintro ⟨r, hr, -⟩
    exact ⟨r, mem_purchasedRuns.mpr ⟨l, hl, hr⟩, hr⟩
  have hmodes := h.modes _ honly
  constructor
  · intro user r
    rcases h.count_cases user r with hle | ⟨rfl, hr, hle⟩
    · exact hle.trans (Nat.le_max_left _ _)
    · have hzero := hfresh r hr
      omega
  · exact h.fulfilledKept.count_le
  · intro user r mode hmode
    rcases hmodes user r with hsame | ⟨-, -, hverified⟩
    · rw [hsame]
      exact Or.inl hmode
    · exact Or.inr hverified
  · intro user r hmode
    rcases hmodes user r with hsame | ⟨rfl, hr, -⟩
    · rw [← hsame]
      exact Or.inl hmode
    · exact Or.inr (h.count_pos hr)

end OrderMade

end MitxOnline

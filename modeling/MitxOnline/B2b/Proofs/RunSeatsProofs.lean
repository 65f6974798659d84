import Mathlib.Data.Finset.Card
import MitxOnline.B2b.Proofs.B2bEnrollmentsProofs
import MitxOnline.Ecommerce.Proofs.FreeCheckoutsProofs

/-!
# Seats and codes over runs of requests

A request counts the enrollments of its run before it makes one, and it makes no other: so no run of a
contract gets more enrollments than the contract has learners. It takes a code that no order has: so no
limited code comes to be in two orders.
-/

namespace MitxOnline

open Autocommit

variable {cat : ContractCatalog} {req : B2bRequest} {user : UserId} {p : ProductId} {r : RunId}
  {db db' : SeatStore} {s s' : Store} {o : OrderId} {d : DiscountId} {f : Faults} {now : Instant}

/-! ## Counting enrollments -/

theorem takesContractSeat_of_enrollments {user' : UserId} {r' : RunId}
    (h : s'.enrollments user' r' = s.enrollments user' r') :
    s'.takesContractSeat user' r' = s.takesContractSeat user' r' := by
  unfold Store.takesContractSeat
  rw [h]

theorem contractEnrollments_of_enrollments (h : ∀ user, s'.enrollments user r = s.enrollments user r) :
    contractEnrollments cat s' r = contractEnrollments cat s r := by
  unfold contractEnrollments
  simp only [fun user => takesContractSeat_of_enrollments (h user)]

/-- One user takes at most one seat of a run. -/
theorem contractEnrollments_le_succ (h : EnrollsOnly user r s s') :
    contractEnrollments cat s' r ≤ contractEnrollments cat s r + 1 := by
  unfold contractEnrollments
  have hsubset : (cat.accounts.filter fun u => s'.takesContractSeat u r = true) ⊆
      insert user (cat.accounts.filter fun u => s.takesContractSeat u r = true) := by
    intro u hu
    obtain ⟨haccount, hseat⟩ := Finset.mem_filter.mp hu
    by_cases heq : u = user
    · exact Finset.mem_insert.mpr (Or.inl heq)
    · rw [takesContractSeat_of_enrollments (h u r (Or.inl heq))] at hseat
      exact Finset.mem_insert.mpr (Or.inr (Finset.mem_filter.mpr ⟨haccount, hseat⟩))
  exact (Finset.card_le_card hsubset).trans (Finset.card_insert_le _ _)

theorem contractEnrollments_le_of_unenrolled
    (h : ∀ u r, s'.takesContractSeat u r = true → s.takesContractSeat u r = true) :
    contractEnrollments cat s' r ≤ contractEnrollments cat s r := by
  unfold contractEnrollments
  refine Finset.card_le_card fun u hu => ?_
  obtain ⟨haccount, hseat⟩ := Finset.mem_filter.mp hu
  exact Finset.mem_filter.mpr ⟨haccount, h u r hseat⟩

/-! ## The invariant -/

/-- The lines of every pending order purchase one object. -/
def PendingOnePurchase (s : Store) : Prop :=
  ∀ o ∈ s.orders.keys, (s.order o).state = .pending →
    ∃ contentType objectId, ∀ l ∈ (s.order o).lines.rows, l.purchases contentType objectId = true

/-- No run of a contract with a learner cap has more enrollments than the contract has learners. -/
def WithinCaps (cat : ContractCatalog) (s : Store) : Prop :=
  ∀ r c, (cat.courseRun r).b2bContract = some c → 0 < (cat.contract c).learnerCap →
    contractEnrollments cat s r ≤ (cat.contract c).learnerCap

theorem WithinCaps.of_unenrolled (h : WithinCaps cat s)
    (hseats : ∀ u r, s'.takesContractSeat u r = true → s.takesContractSeat u r = true) :
    WithinCaps cat s' := by
  intro r c hc hcap
  exact (contractEnrollments_le_of_unenrolled hseats).trans (h r c hc hcap)

theorem PendingOnePurchase.of_orders (h : PendingOnePurchase s) (horders : s'.orders = s.orders) :
    PendingOnePurchase s' := by
  intro o hkey hpending
  rw [horders] at hkey
  rw [order_of_ordersKept horders] at hpending ⊢
  exact h o hkey hpending

/-- A line of a reused order is for the product that is requested. -/
theorem exists_isFor_of_reused {cat : Catalog} {gatewayType : GatewayType}
    (h : reusedOrder cat s [p] user gatewayType = some o) :
    ∃ l ∈ (s.order o).lines.rows, l.isFor cat p = true := by
  unfold reusedOrder at h
  split at h
  · rename_i versions _
    have hrow : (s.order o).isReusable cat [p] versions user gatewayType = true := (Table.first_eq_some h).2
    simp only [Order.isReusable, Bool.and_eq_true, List.any_eq_true, Line.matchesRequest, List.any_cons,
      List.any_nil, Bool.or_false, beq_iff_eq] at hrow
    obtain ⟨⟨⟨⟨l, hl, ⟨hid, htype⟩, -⟩, -⟩, -⟩, -⟩ := hrow
    refine ⟨l, hl, ?_⟩
    simp [Line.isFor, Line.purchases, hid, htype]
  · cases h

/-- The order that is made for a run is for this run only, where pending orders are for one object. -/
theorem orderForRun_of_checkedOut (cat : Catalog) {ds : List DiscountId} {gatewayType : GatewayType}
    (hone : PendingOnePurchase s) (htype : (cat.product p).contentType = .courseRun)
    (hid : (cat.product p).objectId = r) (h : CheckedOut cat s s' [p] user ds gatewayType o) :
    OrderForRun user r o s' := by
  have hfor : ∀ l : Line, l.isFor cat p = true → l.purchases .courseRun r = true := by
    intro l hl
    rwa [Line.isFor, htype, hid] at hl
  refine ⟨h.purchaser, fun l hl => ?_⟩
  rcases (h.mem_rows l).mp hl with hstart | ⟨q, hq, -, v, -, rfl⟩
  · rcases h.reused with hreused | ⟨hnone, -⟩
    · obtain ⟨hkey, hpending, -, -⟩ := reusedOrder_spec hreused
      obtain ⟨l0, hl0, hfor0⟩ := exists_isFor_of_reused hreused
      obtain ⟨contentType, objectId, hall⟩ := hone o hkey hpending
      rw [startingOrder, hreused] at hstart
      obtain ⟨rfl, rfl⟩ := purchases_inj (hall l0 hl0) (hfor l0 hfor0)
      exact hall l hstart
    · rw [startingOrder, hnone] at hstart
      exact absurd hstart List.not_mem_nil
  · obtain rfl := List.mem_singleton.mp hq
    exact hfor _ (isFor_new q v)

/-- A validated request for a run of a contract with a learner cap found a free seat. -/
theorem Validated.seat_free {c : ContractId} (h : Validated cat s now user p r c)
    (hcap : 0 < (cat.contract c).learnerCap) :
    contractEnrollments cat s r < (cat.contract c).learnerCap := by
  have henrollable := h.enrollable
  unfold isEnrollableForB2b at henrollable
  rw [h.contract] at henrollable
  dsimp only at henrollable
  rw [if_neg (Nat.pos_iff_ne_zero.mp hcap), Bool.and_eq_true, decide_eq_true_eq] at henrollable
  exact henrollable.1

/-- What the order of a request grants is the enrollment in its run. -/
theorem MakesOrder.enrollsOnly {c : ContractId} {db1 : SeatStore} {s1 : Store}
    (hone : PendingOnePurchase db.store) (hvalid : Validated cat db.store req.now user p r c)
    (hprepares : Prepares user db db1) (hmakes : MakesOrder cat req user p db db1 db' d o s1) :
    EnrollsOnly user r db.store db'.store ∧ OrderForRun user r o db'.store := by
  have hone1 : PendingOnePurchase (setBasket user ⟨[⟨p, 1⟩], [⟨user, d⟩]⟩ db1.store) :=
    hone.of_orders hprepares.orders
  have hfor : OrderForRun user r o s1 := orderForRun_of_checkedOut (cat.withDiscounts db1) hone1
    hvalid.contentType hvalid.objectId hmakes.made
  obtain ⟨honly, hfor'⟩ := hmakes.enrolls r hfor
  have hbefore : s1.enrollments = db.store.enrollments :=
    hmakes.made.enrollments.trans hprepares.enrollments
  refine ⟨fun user' r' hne => ?_, hfor'⟩
  rw [honly user' r' hne, hbefore]

theorem createB2bEnrollment_onePurchase (hone : PendingOnePurchase db.store) (u : Option UserId) :
    PendingOnePurchase (createB2bEnrollment cat req u p db).1.store := by
  rcases createB2bEnrollment_cases cat req u p db with
    hsame | ⟨user, r, c, db1, rfl, hvalid, hprepares, -, ⟨horders, -⟩ | ⟨d, o, s1, hmakes⟩⟩
  · rw [hsame]
    exact hone
  · exact hone.of_orders horders
  · obtain ⟨-, hfor⟩ := hmakes.enrollsOnly hone hvalid hprepares
    intro o' hkey hpending
    by_cases ho : o' = o
    · subst ho
      exact ⟨.courseRun, r, hfor.lines⟩
    · have hmade : o' ∈ s1.orders.keys := by rwa [hmakes.charged.touches.keys] at hkey
      have horder := (hmakes.charged.touches.others o' ho).trans (hmakes.made.frame o' ho)
      rw [horder] at hpending ⊢
      exact hone.of_orders hprepares.orders o' (((hmakes.made.keys o').mp hmade).resolve_right ho) hpending

theorem createB2bEnrollment_within (hwithin : WithinCaps cat db.store) (hone : PendingOnePurchase db.store)
    (u : Option UserId) : WithinCaps cat (createB2bEnrollment cat req u p db).1.store := by
  rcases createB2bEnrollment_cases cat req u p db with
    hsame | ⟨user, r, c, db1, rfl, hvalid, hprepares, -, ⟨-, henrollments⟩ | ⟨d, o, s1, hmakes⟩⟩
  · rw [hsame]
    exact hwithin
  · refine hwithin.of_unenrolled fun u r hseat => ?_
    rwa [takesContractSeat_of_enrollments (congrFun (congrFun henrollments u) r)] at hseat
  · obtain ⟨honly, -⟩ := hmakes.enrollsOnly hone hvalid hprepares
    intro r' c' hc' hcap'
    by_cases hr : r' = r
    · subst hr
      obtain rfl := Option.some.inj (hc'.symm.trans hvalid.contract)
      have hfree := hvalid.seat_free hcap'
      have hle : contractEnrollments cat _ r' ≤ contractEnrollments cat db.store r' + 1 :=
        contractEnrollments_le_succ honly
      omega
    · rw [contractEnrollments_of_enrollments fun u => honly u r' (Or.inr hr)]
      exact hwithin r' c' hc' hcap'

/-! ## Codes -/

/-- Every redemption is one of a discount that there is. -/
def RedemptionsKnown (db : SeatStore) : Prop :=
  ∀ o ∈ db.store.orders.keys, ∀ x ∈ (db.store.order o).discounts, x.redeemedDiscount ∈ db.discounts.keys

theorem orderRedemptions_eq_zero (h : RedemptionsKnown db) (hd : d ∉ db.discounts.keys) :
    db.store.orderRedemptions d = 0 := by
  unfold Store.orderRedemptions Store.redemptionCount
  rw [List.sum_eq_zero_iff]
  intro n hn
  obtain ⟨o, ho, rfl⟩ := List.mem_map.mp hn
  rw [List.countP_eq_zero]
  intro x hx heq
  exact hd (beq_iff_eq.mp heq ▸ h o ho x hx)

theorem orderRedemptions_of_orders (h : s'.orders = s.orders) :
    s'.orderRedemptions d = s.orderRedemptions d := by
  unfold Store.orderRedemptions Store.redemptionCount Store.order
  rw [h]

/-- Where one order is made or written, its redemptions are all that can be new. -/
theorem orderRedemptions_le (hkeys : ∀ o' ∈ s'.orders.keys, o' ∈ s.orders.keys ∨ o' = o)
    (hothers : ∀ o' ≠ o, s'.order o' = s.order o') :
    s'.orderRedemptions d ≤ s.orderRedemptions d +
      (s'.order o).discounts.countP (·.redeemedDiscount == d) := by
  let count (s : Store) (o : OrderId) : ℕ := (s.order o).discounts.countP (·.redeemedDiscount == d)
  have hcount : ∀ s : Store, s.orderRedemptions d = (s.orders.keys.map (count s)).sum := fun _ => rfl
  have hrest : ((s'.orders.keys.erase o).map (count s')).sum ≤ (s.orders.keys.map (count s)).sum := by
    have hsame : (s'.orders.keys.erase o).map (count s') = (s'.orders.keys.erase o).map (count s) := by
      refine List.map_congr_left fun o' ho' => ?_
      have hne := (s'.orders.keys_nodup.mem_erase_iff.mp ho').1
      show (s'.order o').discounts.countP _ = _
      rw [hothers o' hne]
    have hsub : (s'.orders.keys.erase o).Subperm s.orders.keys := by
      refine List.subperm_of_subset (s'.orders.keys_nodup.erase o) fun o' ho' => ?_
      obtain ⟨hne, hmem⟩ := s'.orders.keys_nodup.mem_erase_iff.mp ho'
      exact (hkeys o' hmem).resolve_right hne
    obtain ⟨l, hperm, hsublist⟩ := hsub
    rw [hsame, ← (hperm.map (count s)).sum_eq]
    exact (hsublist.map (count s)).sum_le_sum fun n _ => Nat.zero_le n
  rw [hcount s', hcount s]
  by_cases hkey : o ∈ s'.orders.keys
  · rw [← List.sum_map_erase (count s') hkey]
    show count s' o + _ ≤ _ + count s' o
    omega
  · rw [List.erase_of_not_mem hkey] at hrest
    exact hrest.trans (Nat.le_add_right _ _)

/-- What the requests keep of the redemptions: a code without limit may be in many orders, any other comes
to be in one at most. -/
structure CodesOnce (start db : SeatStore) : Prop where
  known : RedemptionsKnown db
  once : ∀ d, (db.discounts.row d).redemptionType = .unlimited ∨
    db.store.orderRedemptions d ≤ max 1 (start.store.orderRedemptions d)

theorem CodesOnce.of_prepares {start : SeatStore} (h : CodesOnce start db) (hprepares : Prepares user db db')
    : CodesOnce start db' := by
  constructor
  · intro o ho x hx
    rw [hprepares.orders] at ho
    rw [order_of_ordersKept hprepares.orders] at hx
    exact hprepares.keys _ (h.known o ho x hx)
  · intro d
    rw [hprepares.orderRedemptions]
    by_cases hd : d ∈ db.discounts.keys
    · rw [hprepares.rows d hd]
      exact h.once d
    · rw [orderRedemptions_eq_zero h.known hd]
      exact Or.inr (Nat.zero_le _)

theorem CodesOnce.of_kept {start : SeatStore} (h : CodesOnce start db)
    (horders : db'.store.orders = db.store.orders) (hdiscounts : db'.discounts = db.discounts) :
    CodesOnce start db' := by
  constructor
  · intro o ho x hx
    rw [horders] at ho
    rw [order_of_ordersKept horders] at hx
    rw [hdiscounts]
    exact h.known o ho x hx
  · intro d
    rw [hdiscounts, orderRedemptions_of_orders horders]
    exact h.once d

theorem MakesOrder.codesOnce {start db1 : SeatStore} {s1 : Store} (h : CodesOnce start db)
    (hprepares : Prepares user db db1) (hdiscounts : db'.discounts = db1.discounts)
    (hmakes : MakesOrder cat req user p db db1 db' d o s1) : CodesOnce start db' := by
  have h1 := h.of_prepares hprepares
  have hbasket : (setBasket user ⟨[⟨p, 1⟩], [⟨user, d⟩]⟩ db1.store).orders = db1.store.orders := rfl
  have hrow : (db'.store.order o).discounts = [⟨user, d⟩] :=
    hmakes.charged.discounts.trans hmakes.made.filled.discounts
  have hkeys : ∀ o' ∈ db'.store.orders.keys, o' ∈ db1.store.orders.keys ∨ o' = o := by
    intro o' ho'
    rw [hmakes.charged.touches.keys] at ho'
    exact (hmakes.made.keys o').mp ho'
  have hothers : ∀ o' ≠ o, db'.store.order o' = db1.store.order o' := fun o' hne =>
    (hmakes.charged.touches.others o' hne).trans (hmakes.made.frame o' hne)
  constructor
  · intro o' ho' x hx
    rw [hdiscounts]
    by_cases ho : o' = o
    · rw [ho, hrow, List.mem_singleton] at hx
      rw [hx]
      exact hmakes.code.key
    · rw [hothers o' ho] at hx
      exact h1.known o' ((hkeys o' ho').resolve_right ho) x hx
  · intro d'
    have hle := orderRedemptions_le (d := d') hkeys hothers
    rw [hrow] at hle
    rw [hdiscounts]
    by_cases hd : d' = d
    · subst hd
      have hone : ([⟨user, d'⟩] : List DiscountRedemption).countP (·.redeemedDiscount == d') = 1 := by simp
      rw [hone] at hle
      rcases hmakes.code.free with hnew | hzero | hunlimited
      · have hzero := orderRedemptions_eq_zero h.known hnew
        rw [← hprepares.orderRedemptions] at hzero
        exact Or.inr (by omega)
      · rw [← hprepares.orderRedemptions] at hzero
        exact Or.inr (by omega)
      · exact Or.inl hunlimited
    · have hnone : ([⟨user, d⟩] : List DiscountRedemption).countP (·.redeemedDiscount == d') = 0 := by
        simp [Ne.symm hd]
      rw [hnone] at hle
      exact (h1.once d').imp id fun hold => hle.trans hold

theorem createB2bEnrollment_codes {start : SeatStore} (h : CodesOnce start db) (u : Option UserId) :
    CodesOnce start (createB2bEnrollment cat req u p db).1 := by
  rcases createB2bEnrollment_cases cat req u p db with
    hsame | ⟨user, r, c, db1, rfl, -, hprepares, hdiscounts, ⟨horders, -⟩ | ⟨d, o, s1, hmakes⟩⟩
  · rw [hsame]
    exact h
  · exact (h.of_prepares hprepares).of_kept (horders.trans hprepares.orders.symm) hdiscounts
  · exact hmakes.codesOnce h hprepares hdiscounts

/-! ## The other events -/

/-- Neither an order nor an enrollment is written. -/
def MembershipsOnly (s s' : Store) : Prop := s'.orders = s.orders ∧ s'.enrollments = s.enrollments

theorem membershipsOnly_frame : IsFrame MembershipsOnly := by
  constructor
  · intro s
    exact ⟨rfl, rfl⟩
  · rintro s t u ⟨ho, he⟩ ⟨ho', he'⟩
    exact ⟨ho'.trans ho, he'.trans he⟩

theorem attachContract_membershipsOnly {cat : Catalog} {code : DiscountId} :
    Keeps MembershipsOnly (attachContract f cat now user code) := by
  have hr := membershipsOnly_frame
  have hround : ∀ c, Keeps MembershipsOnly (attachUserToContract f cat now user code c) := by
    intro c s
    unfold attachUserToContract
    split
    · exact hr.refl s
    · refine keeps_seq_cons hr ?_ (keeps_seq_cons hr ?_ (keeps_seq_cons hr ?_ (keeps_seq_nil hr))) s
      · exact keeps_processAddOrgMembership hr (fun _ _ => ⟨rfl, rfl⟩) fun _ _ _ => ⟨rfl, rfl⟩
      · exact keeps_write hr fun _ => ⟨rfl, rfl⟩
      · refine keeps_fallible hr (keeps_statement hr fun s s' hs => ?_)
        obtain ⟨rows, rfl⟩ := redeem_cases hs
        exact ⟨rfl, rfl⟩
  intro s
  unfold attachContract
  split
  · refine keeps_seq hr (fun a ha => ?_) s
    obtain ⟨c, -, rfl⟩ := List.mem_map.mp ha
    exact hround c
  · exact hr.refl s

theorem reconcileUserOrgs_membershipsOnly {cat : Catalog} {organizations : List ℕ} :
    Keeps MembershipsOnly (reconcileUserOrgs f cat now user organizations) := by
  have hr := membershipsOnly_frame
  have hadd : ∀ o : OrgId, Keeps MembershipsOnly (seq
      [fallible f (.userOrganization o) (update (setUserOrganization user o (some false))),
        addUserContracts f cat now o user]) := fun o =>
    keeps_seq_cons hr (keeps_write hr fun _ => ⟨rfl, rfl⟩)
      (keeps_seq_cons hr (keeps_addUserContracts hr fun _ _ _ => ⟨rfl, rfl⟩) (keeps_seq_nil hr))
  have hremove : ∀ o : OrgId, Keeps MembershipsOnly (seq
      [removeUserContracts f cat now o user,
        fallible f (.userOrganization o) (update (setUserOrganization user o none))]) := fun o =>
    keeps_seq_cons hr (keeps_write hr fun _ => ⟨rfl, rfl⟩)
      (keeps_seq_cons hr (keeps_write hr fun _ => ⟨rfl, rfl⟩) (keeps_seq_nil hr))
  intro s
  unfold reconcileUserOrgs
  split
  · exact hr.refl s
  · refine keeps_seq_cons hr (keeps_seq hr fun a ha => ?_) (keeps_seq_cons hr
      (keeps_seq hr fun a ha => ?_) (keeps_seq_cons hr ?_ (keeps_seq_nil hr))) s
    · obtain ⟨o, -, rfl⟩ := List.mem_map.mp ha
      exact hadd o
    · obtain ⟨o, -, rfl⟩ := List.mem_map.mp ha
      exact hremove o
    · exact keeps_fallible hr fun _ => ⟨rfl, rfl⟩

theorem deactivateRunEnrollment_seats (unenroll : Unenrollments) (user : UserId) (r : RunId)
    (e : CourseRunEnrollment) (changeStatus : String) (keep : Bool) (s : Store) :
    (deactivateRunEnrollment unenroll user r e changeStatus keep s).1.orders = s.orders ∧
      ∀ u r', (deactivateRunEnrollment unenroll user r e changeStatus keep s).1.takesContractSeat u r' = true →
        s.takesContractSeat u r' = true := by
  unfold deactivateRunEnrollment
  split
  · exact ⟨rfl, fun _ _ h => h⟩
  · refine ⟨rfl, fun u r' hseat => ?_⟩
    by_cases hrow : u = user ∧ r' = r
    · obtain ⟨rfl, rfl⟩ := hrow
      simp [Store.takesContractSeat, deletePaidCourseRuns, setEnrollment,
        CourseRunEnrollment.deactivated] at hseat
    · have hsame : (setEnrollment user r (e.deactivated changeStatus (unenroll r).isNone) s).enrollments u r' =
          s.enrollments u r' := by
        simp [setEnrollment, hrow]
      rwa [← takesContractSeat_of_enrollments hsame]

/-- An event that is no request writes no order and no discount, and nobody takes a seat by it. -/
theorem seatStep_of_other (cat : ContractCatalog) (db : SeatStore) {event : SeatEvent}
    (h : ∀ req user p, event ≠ .enroll req user p) :
    (seatStep cat db event).store.orders = db.store.orders ∧
      (seatStep cat db event).discounts = db.discounts ∧
      ∀ u r, (seatStep cat db event).store.takesContractSeat u r = true →
        db.store.takesContractSeat u r = true := by
  have hmembers : ∀ s', MembershipsOnly db.store s' → ∀ u r, s'.takesContractSeat u r = true →
      db.store.takesContractSeat u r = true := by
    intro s' hs' u r hseat
    rwa [takesContractSeat_of_enrollments (congrFun (congrFun hs'.2 u) r)] at hseat
  cases event with
  | enroll req user p => exact absurd rfl (h req user p)
  | redeemCode f now user code =>
    have honly : MembershipsOnly db.store
        (attachContract f (cat.withDiscounts db) now user code db.store).state :=
      attachContract_membershipsOnly db.store
    exact ⟨honly.1, rfl, hmembers _ honly⟩
  | login f now user organizations =>
    have honly : MembershipsOnly db.store
        (reconcileUserOrgs f (cat.withDiscounts db) now user organizations db.store).state :=
      reconcileUserOrgs_membershipsOnly db.store
    exact ⟨honly.1, rfl, hmembers _ honly⟩
  | unenroll unenroll user r keep =>
    unfold seatStep
    dsimp only
    split
    · exact ⟨rfl, rfl, fun _ _ hseat => hseat⟩
    · rename_i e _
      obtain ⟨horders, hseats⟩ := deactivateRunEnrollment_seats unenroll user r e
        enrollChangeStatusUnenrolled keep db.store
      exact ⟨horders, rfl, hseats⟩

/-! ## Runs -/

/-- The invariant of the events. -/
structure SeatInvariant (cat : ContractCatalog) (db : SeatStore) : Prop where
  within : WithinCaps cat db.store
  onePurchase : PendingOnePurchase db.store

theorem seatStep_onePurchase (cat : ContractCatalog) (db : SeatStore) (event : SeatEvent)
    (h : PendingOnePurchase db.store) : PendingOnePurchase (seatStep cat db event).store := by
  by_cases hother : ∀ req user p, event ≠ .enroll req user p
  · exact h.of_orders (seatStep_of_other cat db hother).1
  · push Not at hother
    obtain ⟨req, user, p, rfl⟩ := hother
    exact createB2bEnrollment_onePurchase h user

theorem seatStep_seats (cat : ContractCatalog) (db : SeatStore) (event : SeatEvent)
    (h : SeatInvariant cat db) : SeatInvariant cat (seatStep cat db event) := by
  refine ⟨?_, seatStep_onePurchase cat db event h.onePurchase⟩
  by_cases hother : ∀ req user p, event ≠ .enroll req user p
  · exact h.within.of_unenrolled (seatStep_of_other cat db hother).2.2
  · push Not at hother
    obtain ⟨req, user, p, rfl⟩ := hother
    exact createB2bEnrollment_within h.within h.onePurchase user

theorem seatStep_codes (cat : ContractCatalog) {start : SeatStore} (db : SeatStore) (event : SeatEvent)
    (h : CodesOnce start db) : CodesOnce start (seatStep cat db event) := by
  by_cases hother : ∀ req user p, event ≠ .enroll req user p
  · obtain ⟨horders, hdiscounts, -⟩ := seatStep_of_other cat db hother
    exact h.of_kept horders hdiscounts
  · push Not at hother
    obtain ⟨req, user, p, rfl⟩ := hother
    exact createB2bEnrollment_codes h user

/-- A seat is taken by a validated request of its learner for its run. -/
theorem seatStep_validated {event : SeatEvent} (hone : PendingOnePurchase db.store)
    (hbefore : db.store.takesContractSeat user r = false)
    (hafter : (seatStep cat db event).store.takesContractSeat user r = true) :
    ∃ req p c, event = .enroll req (some user) p ∧ Validated cat db.store req.now user p r c := by
  by_cases hother : ∀ req user p, event ≠ .enroll req user p
  · obtain ⟨-, -, hseats⟩ := seatStep_of_other cat db hother
    rw [hseats user r hafter] at hbefore
    cases hbefore
  push Not at hother
  obtain ⟨req, u, p, rfl⟩ := hother
  have hwritten : (createB2bEnrollment cat req u p db).1.store.enrollments user r ≠
      db.store.enrollments user r := by
    intro hsame
    have hseat : (createB2bEnrollment cat req u p db).1.store.takesContractSeat user r = true := hafter
    rw [takesContractSeat_of_enrollments hsame, hbefore] at hseat
    cases hseat
  rcases createB2bEnrollment_cases cat req u p db with
    heq | ⟨user', r', c, db1, rfl, hvalid, hprepares, -, ⟨-, henrollments⟩ | ⟨d, o, s1, hmakes⟩⟩
  · exact absurd (by rw [heq]) hwritten
  · exact absurd (by rw [henrollments]) hwritten
  · obtain ⟨honly, -⟩ := hmakes.enrollsOnly hone hvalid hprepares
    by_cases hmine : user = user' ∧ r = r'
    · obtain ⟨rfl, rfl⟩ := hmine
      exact ⟨req, p, c, rfl, hvalid⟩
    · exact absurd (honly user r (not_and_or.mp hmine)) hwritten

/-- However requests of learners, failures of any kind, redeemed codes and logins follow on each other, no
run of a contract gets more enrollments than the contract may have learners. -/
theorem runs_within_caps (cat : ContractCatalog) (db : SeatStore) (events : List SeatEvent)
    (hwithin : WithinCaps cat db.store) (hone : PendingOnePurchase db.store) :
    WithinCaps cat (Trace.run (seatStep cat) db events).store :=
  (Trace.run_of_invariant (SeatInvariant cat) (seatStep_seats cat) ⟨hwithin, hone⟩ events).within

/-- One contract with one seat and one course run, and two learners. -/
def oneSeat : ContractCatalog where
  toCatalog := { Catalog.ofPrices fun _ => ⟨0⟩ with
    productIds := [0]
    runIds := [0]
    courseRun := fun r => ⟨r, true, none, true, false, false, some 0⟩
    contract := fun _ => ⟨.managed, 0, none, none, true, some 1, none⟩
    contractIds := [0] }
  schedule r := ⟨⟨r, true, none, true, false, false, some 0⟩, "", "", "", false, some 0, none, some 0,
    none, none⟩
  schedule_courseRun _ := rfl
  usable _ := true
  accounts := {1, 2}
  programNamed _ := none
  contractPrograms _ := []

/-- The two learners are in the contract. -/
def oneSeatStart : SeatStore where
  store := { Store.empty with contractUsers := fun _ => {1, 2} }
  discounts := ⟨[], fun _ => CodeStore.newCode 0 ⟨0⟩ .oneTime, Table.sorted_nil⟩
  isBulk _ := false
  productDiscounts _ := []
  productDiscounts_iff _ _ := iff_of_false List.not_mem_nil fun h => List.not_mem_nil h.1

/-- A request in which nothing fails. -/
def plainRequest : B2bRequest where
  programId := none
  now := 1
  gatewayType := .stripe
  userDiscount := none
  startPayment := .error .gatewayError
  basketFaults _ := none
  faults := Faults.none

/-- Both learners ask for the seat. -/
def twoRequests : List SeatEvent := [.enroll plainRequest (some 1) 0, .enroll plainRequest (some 2) 0]

theorem oneSeatStart_within : WithinCaps oneSeat oneSeatStart.store := by
  intro r c _ _
  simp [contractEnrollments, Store.takesContractSeat, oneSeatStart, Store.empty]

theorem oneSeatStart_onePurchase : PendingOnePurchase oneSeatStart.store := by
  intro o ho
  simp [oneSeatStart, Store.empty] at ho

/-- The first of two learners gets the only seat, the second gets none. -/
theorem runs_within_caps_oneSeat :
    WithinCaps oneSeat (Trace.run (seatStep oneSeat) oneSeatStart twoRequests).store ∧
      (Trace.run (seatStep oneSeat) oneSeatStart twoRequests).store.takesContractSeat 1 0 = true ∧
      (Trace.run (seatStep oneSeat) oneSeatStart twoRequests).store.takesContractSeat 2 0 = false :=
  ⟨runs_within_caps oneSeat oneSeatStart twoRequests oneSeatStart_within oneSeatStart_onePurchase,
    by decide +kernel, by decide +kernel⟩

/-- Over the same runs, a code with a limit comes to be in at most one order, unless it was in more before
the run. -/
theorem limited_codes_once (cat : ContractCatalog) (db : SeatStore) (events : List SeatEvent)
    (hknown : RedemptionsKnown db) (d : DiscountId) :
    ((Trace.run (seatStep cat) db events).discounts.row d).redemptionType = .unlimited ∨
      (Trace.run (seatStep cat) db events).store.orderRedemptions d ≤ max 1 (db.store.orderRedemptions d) := by
  have hstart : CodesOnce db db := ⟨hknown, fun d => Or.inr (le_max_right _ _)⟩
  exact (Trace.run_of_invariant (CodesOnce db) (fun db' event => seatStep_codes cat db' event) hstart
    events).once d

/-- The code that is made for the first learner is in one order. -/
theorem limited_codes_once_oneSeat :
    ((Trace.run (seatStep oneSeat) oneSeatStart twoRequests).discounts.row 1).redemptionType = .unlimited ∨
      (Trace.run (seatStep oneSeat) oneSeatStart twoRequests).store.orderRedemptions 1 ≤
        max 1 (oneSeatStart.store.orderRedemptions 1) :=
  limited_codes_once oneSeat oneSeatStart twoRequests
    (fun o ho => by simp [oneSeatStart, Store.empty] at ho) 1

/-- A seat that a learner comes to have over a run is due to a request of this learner for this course run:
when it came, the learner was in the contract, which was active, and the course run was enrollable and had
a seat free. -/
theorem seat_due_to_validated_request (cat : ContractCatalog) (db : SeatStore) (events : List SeatEvent)
    (hone : PendingOnePurchase db.store) (hbefore : db.store.takesContractSeat user r = false)
    (hafter : (Trace.run (seatStep cat) db events).store.takesContractSeat user r = true) :
    ∃ before req p c after, events = before ++ .enroll req (some user) p :: after ∧
      Validated cat (Trace.run (seatStep cat) db before).store req.now user p r c := by
  obtain ⟨before, event, after, rfl, hnot, hturn⟩ :=
    Trace.exists_turn (Q := fun db : SeatStore => db.store.takesContractSeat user r = true)
      (Bool.eq_false_iff.mp hbefore) hafter
  have hone' : PendingOnePurchase (Trace.run (seatStep cat) db before).store :=
    Trace.run_of_invariant (fun db : SeatStore => PendingOnePurchase db.store) (seatStep_onePurchase cat)
      hone before
  obtain ⟨req, p, c, rfl, hvalid⟩ := seatStep_validated hone' (Bool.eq_false_iff.mpr hnot) hturn
  exact ⟨before, req, p, c, after, rfl, hvalid⟩

theorem seat_due_to_validated_request_oneSeat :
    ∃ before req p c after, twoRequests = before ++ .enroll req (some 1) p :: after ∧
      Validated oneSeat (Trace.run (seatStep oneSeat) oneSeatStart before).store req.now 1 p 0 c :=
  seat_due_to_validated_request oneSeat oneSeatStart twoRequests oneSeatStart_onePurchase
    (by decide +kernel) (by decide +kernel)

end MitxOnline

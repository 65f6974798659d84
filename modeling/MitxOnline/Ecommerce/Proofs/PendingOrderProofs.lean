import Mathlib.Algebra.BigOperators.Group.List.Basic
import Mathlib.Data.List.Dedup
import Mathlib.Data.List.Pairwise
import Mathlib.Data.List.ReduceOption
import MitxOnline.Ecommerce.PendingOrder

/-!
# The order that a checkout returns

Every requested product ends up with the line that the order had for it, or with a new one at the
latest version; no other line is added, none is changed, and the total is summed over the requested
products, once for each time one is requested.
-/

namespace MitxOnline

open FixedPoint

variable {cat : Catalog} {s s' : Store} {products : List ProductId} {user : UserId}
  {discounts : List (Option DiscountId)} {gatewayType : GatewayType} {o : OrderId}

/-- The line that product `p` has, or gets, in an order with the given lines. -/
def Lines.lineFor (cat : Catalog) (lines : Lines) (p : ProductId) (v : Version) : Line :=
  (lines.rows.find? (Line.isFor cat p)).getD (Line.new cat p v)

/-- The price of a line, or zero where `Line.discounted_price` raises. -/
def Line.price (cat : Catalog) (discounts : List DiscountId) (l : Line) : ℚ :=
  match l.discountedPrice cat discounts with
  | .ok price => price
  | .error _ => 0

/-- The requested products, each with its latest version. -/
def requested (cat : Catalog) (products : List ProductId) : List (ProductId × Version) :=
  match productVersions cat products with
  | .ok versions => products.zip versions
  | .error _ => []

/-- The order that a checkout reuses, if it reuses one. -/
def reusedOrder (cat : Catalog) (s : Store) (products : List ProductId) (user : UserId)
    (gatewayType : GatewayType) : Option OrderId :=
  match productVersions cat products with
  | .ok versions => reusableOrder cat s products versions user gatewayType
  | .error _ => none

/-- The row that a checkout starts from: that of the order it reuses, or that of a new one. -/
def startingOrder (cat : Catalog) (s : Store) (products : List ProductId) (user : UserId)
    (gatewayType : GatewayType) : Order :=
  match reusedOrder cat s products user gatewayType with
  | some o => s.order o
  | none => Order.new user gatewayType

/-! ## Versions -/

theorem productVersions_length {versions : List Version}
    (h : productVersions cat products = .ok versions) : versions.length = products.length := by
  induction products generalizing versions with
  | nil =>
    cases h
    rfl
  | cons p products ih =>
    unfold productVersions at h
    split at h
    · cases h
    · split at h
      · cases h
        rename_i hrest
        simp [ih hrest]
      · cases h

theorem productVersions_head {versions : List Version}
    (h : productVersions cat products = .ok versions) {p : ProductId} {v : Version}
    (hp : (p, v) ∈ products.zip versions) : (cat.versions p).head? = some v := by
  induction products generalizing versions with
  | nil => simp at hp
  | cons q products ih =>
    unfold productVersions at h
    split at h
    · cases h
    · rename_i w ws hw
      split at h
      · cases h
        rename_i hrest
        rcases List.mem_cons.mp hp with heq | hp
        · obtain ⟨rfl, rfl⟩ := Prod.mk.inj heq
          simp [hw]
        · exact ih hrest hp
      · cases h

/-- Each requested product is paired with its latest version. -/
theorem requested_head {p : ProductId} {v : Version} (h : (p, v) ∈ requested cat products) :
    (cat.versions p).head? = some v := by
  unfold requested at h
  split at h
  · rename_i versions hversions
    exact productVersions_head hversions h
  · simp at h

theorem requested_unique {p : ProductId} {v w : Version} (hv : (p, v) ∈ requested cat products)
    (hw : (p, w) ∈ requested cat products) : v = w := by
  have hhead := requested_head hv
  rw [requested_head hw] at hhead
  exact (Option.some.inj hhead).symm

theorem mem_of_requested {r : ProductId × Version} (h : r ∈ requested cat products) :
    r.1 ∈ products := by
  unfold requested at h
  split at h
  · exact (List.of_mem_zip h).1
  · simp at h

theorem requested_products {versions : List Version}
    (h : productVersions cat products = .ok versions) :
    (requested cat products).map Prod.fst = products := by
  have hlen := productVersions_length h
  unfold requested
  rw [h]
  exact List.map_fst_zip (by omega)

/-! ## Lines -/

@[simp] theorem isFor_new (p : ProductId) (v : Version) :
    (Line.new cat p v).isFor cat p = true := by
  simp [Line.isFor, Line.purchases, Line.new]

/-- A line is for at most one product. -/
theorem isFor_unique {l : Line} {p q : ProductId} (hp : l.isFor cat p = true)
    (hq : l.isFor cat q = true) : p = q := by
  simp only [Line.isFor, Line.purchases, Bool.and_eq_true, beq_iff_eq] at hp hq
  obtain ⟨hptype, hpid⟩ := hp
  obtain ⟨hqtype, hqid⟩ := hq
  rw [hptype, Option.some.injEq] at hqtype
  rw [hpid, Option.some.injEq] at hqid
  exact cat.unique_purchasable_object p q hqtype hqid

/-- Two lines for one product purchase the same object. -/
theorem samePurchase_of_isFor {a b : Line} {p : ProductId} (ha : a.isFor cat p = true)
    (hb : b.isFor cat p = true) : a.samePurchase b = true := by
  simp only [Line.isFor, Line.purchases, Bool.and_eq_true, beq_iff_eq] at ha hb
  simp [Line.samePurchase, ha, hb]

theorem samePurchase_symm {a b : Line} (h : a.samePurchase b = false) :
    b.samePurchase a = false := by
  unfold Line.samePurchase at h ⊢
  grind

/-- An order has at most one line for a product. -/
theorem Lines.unique_line (lines : Lines) {a b : Line} {p : ProductId} (ha : a ∈ lines.rows)
    (hb : b ∈ lines.rows) (hap : a.isFor cat p = true) (hbp : b.isFor cat p = true) : a = b := by
  by_contra hne
  have : Std.Symm fun a b : Line => a.samePurchase b = false := ⟨fun _ _ => samePurchase_symm⟩
  have hdiff : a.samePurchase b = false :=
    lines.unique_order_purchased_object.forall ha hb hne
  simp [samePurchase_of_isFor hap hbp] at hdiff

/-- The line for a product is the one the order has. -/
theorem Lines.lineFor_of_mem {lines : Lines} {l : Line} {p : ProductId} (hl : l ∈ lines.rows)
    (hp : l.isFor cat p = true) (v : Version) : lines.lineFor cat p v = l := by
  unfold Lines.lineFor
  cases hfind : lines.rows.find? (Line.isFor cat p) with
  | none => exact absurd hp (List.find?_eq_none.mp hfind l hl)
  | some l' =>
    exact lines.unique_line (List.mem_of_find?_eq_some hfind) hl (List.find?_some hfind) hp

theorem Lines.lineFor_of_none {lines : Lines} {p : ProductId}
    (h : ∀ l ∈ lines.rows, l.isFor cat p = false) (v : Version) :
    lines.lineFor cat p v = Line.new cat p v := by
  unfold Lines.lineFor
  rw [List.find?_eq_none.mpr (by simpa using h)]
  rfl

theorem Lines.lineFor_isFor (cat : Catalog) (lines : Lines) (p : ProductId) (v : Version) :
    (lines.lineFor cat p v).isFor cat p = true := by
  unfold Lines.lineFor
  cases hfind : lines.rows.find? (Line.isFor cat p) with
  | none => exact isFor_new p v
  | some l => exact List.find?_some hfind

/-- What `Line.objects.get_or_create` returns and leaves. -/
theorem Lines.getOrCreate_spec (cat : Catalog) (lines : Lines) (p : ProductId) (v : Version) :
    (lines.getOrCreate cat p v).1 = lines.lineFor cat p v ∧
      ∀ l, l ∈ (lines.getOrCreate cat p v).2.rows ↔
        l ∈ lines.rows ∨ l = lines.lineFor cat p v := by
  unfold Lines.getOrCreate
  split
  · rename_i l hfind
    have hl : l ∈ lines.rows := List.mem_of_find?_eq_some hfind
    rw [Lines.lineFor_of_mem hl (List.find?_some hfind)]
    refine ⟨rfl, fun l' => ⟨Or.inl, ?_⟩⟩
    rintro (h | rfl)
    · exact h
    · exact hl
  · rename_i hfind
    have hnone : ∀ l ∈ lines.rows, l.isFor cat p = false := by
      intro l hl
      simpa using List.find?_eq_none.mp hfind l hl
    rw [Lines.lineFor_of_none hnone]
    refine ⟨rfl, fun l' => ?_⟩
    simp [List.mem_append]

/-- After a product has its line, the line for each product is the same as before. -/
theorem Lines.lineFor_getOrCreate (lines : Lines) {p q : ProductId} {v w : Version}
    (hvw : p = q → v = w) :
    (lines.getOrCreate cat p v).2.lineFor cat q w = lines.lineFor cat q w := by
  obtain ⟨-, hmem⟩ := lines.getOrCreate_spec cat p v
  by_cases hpq : p = q
  · obtain rfl := hvw hpq
    subst hpq
    exact Lines.lineFor_of_mem ((hmem _).mpr (Or.inr rfl)) (lines.lineFor_isFor cat p v) v
  · by_cases hq : ∃ l ∈ lines.rows, l.isFor cat q = true
    · obtain ⟨l, hl, hlq⟩ := hq
      rw [Lines.lineFor_of_mem hl hlq, Lines.lineFor_of_mem ((hmem l).mpr (Or.inl hl)) hlq]
    · have hnone : ∀ l ∈ lines.rows, l.isFor cat q = false := by
        intro l hl
        by_contra h
        exact hq ⟨l, hl, by simpa using h⟩
      rw [Lines.lineFor_of_none hnone, Lines.lineFor_of_none]
      intro l hl
      rcases (hmem l).mp hl with hl | rfl
      · exact hnone l hl
      · by_contra h
        exact hpq (isFor_unique (lines.lineFor_isFor cat p v) (by simpa using h))

/-! ## The loop over the requested products -/

theorem price_of_ok {ds : List DiscountId} {l : Line} {price : ℚ}
    (h : l.discountedPrice cat ds = .ok price) : l.price cat ds = price := by
  simp [Line.price, h]

/-- The loop keeps the lines there are, gives every requested product its line, adds no other, and
adds up the prices of the lines of the requested products. -/
theorem addLines_spec {ds : List DiscountId} {reqs : List (ProductId × Version)}
    (hv : ∀ p v w, (p, v) ∈ reqs → (p, w) ∈ reqs → v = w) {lines lines' : Lines}
    {total total' : ℚ} (h : addLines cat ds reqs lines total = .ok (lines', total')) :
    (∀ l, l ∈ lines'.rows ↔ l ∈ lines.rows ∨ ∃ r ∈ reqs, l = lines.lineFor cat r.1 r.2) ∧
      total' = total + (reqs.map fun r => (lines.lineFor cat r.1 r.2).price cat ds).sum ∧
      ∀ r ∈ reqs, ∃ price, (lines.lineFor cat r.1 r.2).discountedPrice cat ds = .ok price := by
  induction reqs generalizing lines total with
  | nil =>
    cases h
    simp
  | cons r rest ih =>
    obtain ⟨p, v⟩ := r
    unfold addLines at h
    obtain ⟨hline, hmem⟩ := lines.getOrCreate_spec cat p v
    rw [hline] at h
    have hsame : ∀ r ∈ rest, (lines.getOrCreate cat p v).2.lineFor cat r.1 r.2 =
        lines.lineFor cat r.1 r.2 := by
      rintro ⟨q, w⟩ hr
      apply lines.lineFor_getOrCreate
      rintro rfl
      exact hv _ _ _ List.mem_cons_self (List.mem_cons_of_mem _ hr)
    split at h
    · rename_i price hprice
      have hvrest : ∀ q w x, (q, w) ∈ rest → (q, x) ∈ rest → w = x := by
        intro q w x hw hx
        exact hv q w x (List.mem_cons_of_mem _ hw) (List.mem_cons_of_mem _ hx)
      obtain ⟨hrows, htotal, hok⟩ := ih hvrest h
      refine ⟨fun l => ?_, ?_, ?_⟩
      · rw [hrows, hmem, or_assoc]
        constructor
        · rintro (hl | rfl | ⟨r, hr, rfl⟩)
          · exact Or.inl hl
          · exact Or.inr ⟨_, List.mem_cons_self, rfl⟩
          · exact Or.inr ⟨r, List.mem_cons_of_mem _ hr, hsame r hr⟩
        · rintro (hl | ⟨r, hr, rfl⟩)
          · exact Or.inl hl
          · rcases List.mem_cons.mp hr with rfl | hr
            · exact Or.inr (Or.inl rfl)
            · exact Or.inr (Or.inr ⟨r, hr, (hsame r hr).symm⟩)
      · rw [htotal, List.map_cons, List.sum_cons, price_of_ok hprice, ← add_assoc]
        congr 2
        apply List.map_congr_left
        intro r hr
        rw [hsame r hr]
      · intro r hr
        rcases List.mem_cons.mp hr with rfl | hr
        · exact ⟨price, hprice⟩
        · rw [← hsame r hr]
          exact hok r hr
    · cases h

theorem Lines.getOrCreate_rows (cat : Catalog) (lines : Lines) (p : ProductId) (v : Version) :
    ∃ news, (lines.getOrCreate cat p v).2.rows = lines.rows ++ news ∧
      ∀ l ∈ news, l.isFor cat p = true := by
  unfold Lines.getOrCreate
  split
  · exact ⟨[], by simp, by simp⟩
  · refine ⟨[Line.new cat p v], rfl, ?_⟩
    intro l hl
    obtain rfl := List.mem_singleton.mp hl
    exact isFor_new p v

/-- The loop appends lines for requested products. -/
theorem addLines_rows {ds : List DiscountId} {reqs : List (ProductId × Version)} {lines lines' : Lines}
    {total total' : ℚ} (h : addLines cat ds reqs lines total = .ok (lines', total')) :
    ∃ news, lines'.rows = lines.rows ++ news ∧ ∀ l ∈ news, ∃ r ∈ reqs, l.isFor cat r.1 = true := by
  induction reqs generalizing lines total with
  | nil =>
    cases h
    exact ⟨[], by simp, by simp⟩
  | cons r rest ih =>
    obtain ⟨p, v⟩ := r
    unfold addLines at h
    split at h
    · obtain ⟨first, hfirst, hp⟩ := lines.getOrCreate_rows cat p v
      obtain ⟨news, hnews, hrest⟩ := ih h
      refine ⟨first ++ news, by rw [hnews, hfirst, List.append_assoc], fun l hl => ?_⟩
      rcases List.mem_append.mp hl with hl | hl
      · exact ⟨(p, v), List.mem_cons_self, hp l hl⟩
      · obtain ⟨r, hr, hlr⟩ := hrest l hl
        exact ⟨r, List.mem_cons_of_mem _ hr, hlr⟩
    · cases h

/-! ## The order returned -/

theorem redemptions_ids (user : UserId) (discounts : List (Option DiscountId)) :
    (redemptions user discounts).map (·.redeemedDiscount) = discounts.reduceOption := by
  induction discounts with
  | nil => rfl
  | cons d ds ih =>
    cases d with
    | none =>
      rw [List.reduceOption_cons_of_none]
      exact ih
    | some d =>
      rw [List.reduceOption_cons_of_some, ← ih]
      rfl

/-- What filling an order leaves in its row. -/
structure Filled (cat : Catalog) (user : UserId) (ds : List DiscountId)
    (reqs : List (ProductId × Version)) (start row : Order) : Prop where
  rows : ∀ l, l ∈ row.lines.rows ↔
    l ∈ start.lines.rows ∨ ∃ r ∈ reqs, l = start.lines.lineFor cat r.1 r.2
  grown : ∃ news, row.lines.rows = start.lines.rows ++ news ∧
    ∀ l ∈ news, ∃ r ∈ reqs, l.isFor cat r.1 = true
  total : row.totalPricePaid = (reqs.map fun r => (start.lines.lineFor cat r.1 r.2).price cat ds).sum
  priced : ∀ r ∈ reqs, ∃ price, (start.lines.lineFor cat r.1 r.2).discountedPrice cat ds = .ok price
  discounts : row.discounts = ds.map fun d => ⟨user, d⟩
  state : row.state = start.state
  purchaser : row.purchaser = start.purchaser
  gatewayType : row.gatewayType = start.gatewayType
  transactions : row.transactions = start.transactions

theorem Filled.discounts_ids {ds : List DiscountId} {reqs : List (ProductId × Version)}
    {start row : Order} (h : Filled cat user ds reqs start row) :
    row.discounts.map (·.redeemedDiscount) = ds := by
  rw [h.discounts, List.map_map]
  exact List.map_id ds

theorem fill_spec {reqs : List (ProductId × Version)} {start row : Order}
    (hv : ∀ p v w, (p, v) ∈ reqs → (p, w) ∈ reqs → v = w)
    (h : start.fill cat user discounts reqs = .ok row) :
    Filled cat user discounts.reduceOption reqs start row := by
  unfold Order.fill at h
  rw [redemptions_ids] at h
  split at h
  · rename_i lines total hadd
    cases h
    obtain ⟨hrows, htotal, hpriced⟩ := addLines_spec hv hadd
    refine ⟨hrows, addLines_rows hadd, by simpa using htotal, hpriced, ?_, rfl, rfl, rfl, rfl⟩
    rw [← redemptions_ids user, List.map_map]
    refine (List.map_id _).symm.trans (List.map_congr_left ?_)
    intro r hr
    obtain ⟨d, -, hd⟩ := List.mem_filterMap.mp hr
    cases d with
    | none => simp at hd
    | some d =>
      obtain rfl : (⟨user, d⟩ : DiscountRedemption) = r := by simpa using hd
      rfl
  · cases h

/-- The line is for one of the products. -/
def Line.isRequested (cat : Catalog) (products : List ProductId) (l : Line) : Bool :=
  products.any fun p => l.isFor cat p

theorem isRequested_iff {l : Line} :
    l.isRequested cat products = true ↔ ∃ p ∈ products, l.isFor cat p = true := by
  simp [Line.isRequested]

/-- The lines for requested products of an order are all different. -/
theorem Lines.nodup_requested (cat : Catalog) (lines : Lines) (products : List ProductId) :
    (lines.rows.filter (Line.isRequested cat products)).Nodup := by
  have hpair := lines.unique_order_purchased_object.filter (Line.isRequested cat products)
  refine List.Pairwise.imp_of_mem ?_ hpair
  rintro a b ha - hdiff rfl
  obtain ⟨p, -, hp⟩ := isRequested_iff.mp (List.mem_filter.mp ha).2
  simp [samePurchase_of_isFor hp hp] at hdiff

/-- The checkout returns the order it starts from, filled, and touches nothing else. -/
structure CheckedOut (cat : Catalog) (s s' : Store) (products : List ProductId) (user : UserId)
    (ds : List DiscountId) (gatewayType : GatewayType) (o : OrderId) : Prop where
  requests : (requested cat products).map Prod.fst = products
  filled : Filled cat user ds (requested cat products)
    (startingOrder cat s products user gatewayType) (s'.order o)
  frame : ∀ o' ≠ o, s'.order o' = s.order o'
  keys : ∀ o', o' ∈ s'.orders.keys ↔ o' ∈ s.orders.keys ∨ o' = o
  reused : reusedOrder cat s products user gatewayType = some o ∨
    reusedOrder cat s products user gatewayType = none ∧ o = s.orders.nextKey
  rest : { s' with orders := s.orders } = s

/-- The lines of the order: those it had for other products, and the line of each requested one. -/
theorem CheckedOut.rows_perm {ds : List DiscountId}
    (h : CheckedOut cat s s' products user ds gatewayType o) :
    (s'.order o).lines.rows.Perm
      (((startingOrder cat s products user gatewayType).lines.rows.filter
          fun l => !l.isRequested cat products) ++
        (requested cat products).dedup.map fun r =>
          (startingOrder cat s products user gatewayType).lines.lineFor cat r.1 r.2) := by
  obtain ⟨news, hgrown, hnews⟩ := h.filled.grown
  have hother : (s'.order o).lines.rows.filter (fun l => !l.isRequested cat products) =
      (startingOrder cat s products user gatewayType).lines.rows.filter
        fun l => !l.isRequested cat products := by
    have hnil : news.filter (fun l => !l.isRequested cat products) = [] := by
      rw [List.filter_eq_nil_iff]
      intro l hl
      obtain ⟨r, hr, hlr⟩ := hnews l hl
      have hreq := isRequested_iff.mpr ⟨r.1, mem_of_requested hr, hlr⟩
      simp [hreq]
    rw [hgrown, List.filter_append, hnil, List.append_nil]
  have hrequested : ((s'.order o).lines.rows.filter (Line.isRequested cat products)).Perm
      ((requested cat products).dedup.map fun r =>
        (startingOrder cat s products user gatewayType).lines.lineFor cat r.1 r.2) := by
    rw [List.perm_ext_iff_of_nodup (Lines.nodup_requested _ _ _)]
    · intro l
      rw [List.mem_filter, h.filled.rows, isRequested_iff, List.mem_map]
      constructor
      · rintro ⟨hl | ⟨r, hr, rfl⟩, p, hp, hlp⟩
        · rw [← h.requests] at hp
          obtain ⟨r, hr, rfl⟩ := List.mem_map.mp hp
          exact ⟨r, List.mem_dedup.mpr hr, Lines.lineFor_of_mem hl hlp r.2⟩
        · exact ⟨r, List.mem_dedup.mpr hr, rfl⟩
      · rintro ⟨r, hr, rfl⟩
        have hr' := List.mem_dedup.mp hr
        exact ⟨Or.inr ⟨r, hr', rfl⟩, r.1, mem_of_requested hr', Lines.lineFor_isFor _ _ _ _⟩
    · refine List.Nodup.map_on ?_ (List.nodup_dedup _)
      rintro ⟨p, v⟩ hr ⟨q, w⟩ hq heq
      have hp := Lines.lineFor_isFor cat
        (startingOrder cat s products user gatewayType).lines p v
      rw [heq] at hp
      obtain rfl := isFor_unique hp (Lines.lineFor_isFor _ _ q w)
      obtain rfl := requested_unique (List.mem_dedup.mp hr) (List.mem_dedup.mp hq)
      rfl
  refine (List.filter_append_perm (Line.isRequested cat products) _).symm.trans ?_
  rw [hother]
  exact (List.Perm.append_right _ hrequested).trans List.perm_append_comm

theorem reusedOrder_spec (h : reusedOrder cat s products user gatewayType = some o) :
    o ∈ s.orders.keys ∧ (s.order o).state = .pending ∧ (s.order o).purchaser = user ∧
      (s.order o).gatewayType = gatewayType := by
  unfold reusedOrder at h
  split at h
  · obtain ⟨hkey, hrow⟩ := Table.first_eq_some h
    simp only [Order.isReusable, Bool.and_eq_true, beq_iff_eq] at hrow
    exact ⟨hkey, hrow.1.1.2, hrow.1.2, hrow.2⟩
  · cases h

/-- The order that a checkout makes or reuses is pending. -/
theorem CheckedOut.pending {ds : List DiscountId}
    (h : CheckedOut cat s s' products user ds gatewayType o) :
    (s'.order o).state = .pending ∧ o ∈ s'.orders.keys ∧
      (o ∈ s.orders.keys → (s.order o).state = .pending) := by
  rw [h.filled.state, h.keys]
  unfold startingOrder
  rcases h.reused with hreused | ⟨hnone, rfl⟩
  · rw [hreused]
    have hpending := (reusedOrder_spec hreused).2.1
    exact ⟨hpending, Or.inr rfl, fun _ => hpending⟩
  · rw [hnone]
    exact ⟨rfl, Or.inr rfl, fun hkey => absurd hkey s.orders.nextKey_not_mem⟩

theorem getOrCreate_spec (h : getOrCreate cat s products user discounts gatewayType = .ok (o, s')) :
    CheckedOut cat s s' products user discounts.reduceOption gatewayType o := by
  unfold getOrCreate at h
  split at h
  · cases h
  · rename_i versions hversions
    have hv : ∀ p v w, (p, v) ∈ requested cat products → (p, w) ∈ requested cat products → v = w :=
      fun p v w => requested_unique
    have hreqs : requested cat products = products.zip versions := by simp [requested, hversions]
    have hre : reusedOrder cat s products user gatewayType =
        reusableOrder cat s products versions user gatewayType := by
      simp [reusedOrder, hversions]
    rw [← hre, ← hreqs] at h
    split at h
    · rename_i o' hreused
      split at h
      · rename_i row hfill
        cases h
        have hkey := (reusedOrder_spec hreused).1
        refine ⟨requested_products hversions, ?_, ?_, ?_, Or.inl hreused, rfl⟩
        · rw [startingOrder, hreused, Store.setOrder_order_self]
          exact fill_spec hv hfill
        · intro o' ho'
          exact Store.setOrder_order_of_ne s row ho'
        · intro o'
          rw [Store.setOrder_keys]
          constructor
          · exact Or.inl
          · rintro (hold | rfl)
            · exact hold
            · exact hkey
      · cases h
    · rename_i hreused
      split at h
      · rename_i row hfill
        cases h
        refine ⟨requested_products hversions, ?_, ?_, ?_, Or.inr ⟨hreused, rfl⟩, rfl⟩
        · rw [startingOrder, hreused]
          have hrow : Store.order { s with orders := s.orders.create row } s.orders.nextKey = row :=
            s.orders.create_row_self row
          rw [hrow]
          exact fill_spec hv hfill
        · intro o' ho'
          exact s.orders.create_row_of_ne row ho'
        · intro o'
          exact s.orders.mem_create_keys row o'
      · cases h

theorem createFromProduct_spec {p : ProductId} {discount : Option DiscountId}
    (h : createFromProduct cat s p user discount gatewayType = .ok (o, s')) :
    CheckedOut cat s s' [p] user discount.toList gatewayType o := by
  have hids : [discount].reduceOption = discount.toList := by
    cases discount <;> rfl
  rw [← hids]
  exact getOrCreate_spec h

end MitxOnline

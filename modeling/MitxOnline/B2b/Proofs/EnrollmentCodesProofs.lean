import MitxOnline.B2b.EnrollmentCodes
import MitxOnline.Lib.Autocommit

/-!
# What a run does to enrollment codes

The queries and writes of `ensure_enrollment_codes_exist`, one lemma each, and what the work on one
product of a contract leaves: other products' rows, used codes and redemptions are as they were.
-/

namespace MitxOnline

open Autocommit CodeStore

variable {cat : Catalog} {rows : RowOrder} {c : ContractId} {db db' : CodeStore} {t : CodeTally}
  {d : DiscountId} {p : ProductId} {amount : FixedPoint.Decimal 5} {redemptionType : RedemptionType}

/-! ## Queries -/

theorem productRows_pos {test : Option ProductId → Bool} :
    0 < db.productRows d test ↔ ∃ product ∈ (db.discounts.row d).products, test product = true :=
  List.countP_pos_iff

theorem productRows_some_pos :
    0 < db.productRows d (· == some p) ↔ some p ∈ (db.discounts.row d).products := by
  rw [productRows_pos]
  simp

theorem mem_codesFor : d ∈ db.codesFor p ↔
    d ∈ db.discounts.keys ∧ some p ∈ (db.discounts.row d).products := by
  unfold codesFor
  rw [List.mem_filter, decide_eq_true_iff, productRows_some_pos]

theorem codesFor_nodup (db : CodeStore) (p : ProductId) : (db.codesFor p).Nodup :=
  db.discounts.keys_nodup.filter _

theorem mem_getDiscounts : d ∈ db.getDiscounts cat c ↔
    d ∈ db.discounts.keys ∧ 0 < db.productRows d (ofContract cat c) := by
  unfold getDiscounts
  simp only [List.mem_flatMap, List.mem_replicate]
  constructor
  · rintro ⟨d', hkey, hpos, rfl⟩
    exact ⟨hkey, by omega⟩
  · rintro ⟨hkey, hpos⟩
    exact ⟨d, hkey, by omega, rfl⟩

theorem mem_filterProduct {discounts : List DiscountId} : d ∈ db.filterProduct p discounts ↔
    d ∈ discounts ∧ 0 < db.productRows d (· == some p) := by
  unfold filterProduct
  simp only [List.mem_flatMap, List.mem_replicate]
  constructor
  · rintro ⟨d', hmem, hpos, rfl⟩
    exact ⟨hmem, by omega⟩
  · rintro ⟨hmem, hpos⟩
    exact ⟨d, hmem, by omega, rfl⟩

theorem isUsed_eq_false : db.isUsed d = false ↔ db.store.orderRedemptions d = 0 ∧
    db.store.contractRedemptions.any (·.discount == d) = false := by
  unfold isUsed
  rw [Bool.or_eq_false_iff, decide_eq_false_iff_not]
  constructor
  · rintro ⟨horders, hcontracts⟩
    exact ⟨by omega, hcontracts⟩
  · rintro ⟨horders, hcontracts⟩
    exact ⟨by omega, hcontracts⟩

/-! ## Codes that are rewritten -/

/-- The same discounts for the same products, redeemed as before. -/
structure RowsKept (db db' : CodeStore) : Prop where
  store : db'.store = db.store
  keys : db'.discounts.keys = db.discounts.keys
  products : ∀ d, (db'.discounts.row d).products = (db.discounts.row d).products

theorem rowsKept_refl (db : CodeStore) : RowsKept db db := ⟨rfl, rfl, fun _ => rfl⟩

theorem RowsKept.trans {db'' : CodeStore} (h : RowsKept db db') (h' : RowsKept db' db'') :
    RowsKept db db'' :=
  ⟨h'.store.trans h.store, h'.keys.trans h.keys, fun d => (h'.products d).trans (h.products d)⟩

theorem RowsKept.productRows (h : RowsKept db db') (d : DiscountId) (test : Option ProductId → Bool) :
    db'.productRows d test = db.productRows d test := by
  unfold CodeStore.productRows
  rw [h.products]

theorem RowsKept.isUsed (h : RowsKept db db') (d : DiscountId) : db'.isUsed d = db.isUsed d := by
  unfold CodeStore.isUsed
  rw [h.store]

theorem RowsKept.codesFor (h : RowsKept db db') (p : ProductId) : db'.codesFor p = db.codesFor p := by
  unfold CodeStore.codesFor
  simp only [h.keys, h.productRows]

theorem RowsKept.getDiscounts (h : RowsKept db db') (cat : Catalog) (c : ContractId) :
    db'.getDiscounts cat c = db.getDiscounts cat c := by
  unfold CodeStore.getDiscounts
  simp only [h.keys, h.productRows]

theorem RowsKept.filterProduct (h : RowsKept db db') (p : ProductId) (discounts : List DiscountId) :
    db'.filterProduct p discounts = db.filterProduct p discounts := by
  unfold CodeStore.filterProduct
  simp only [h.productRows]

theorem updateDiscount_rowsKept : RowsKept db (db.updateDiscount d amount redemptionType) := by
  refine ⟨rfl, rfl, fun d' => ?_⟩
  by_cases hd : d' = d
  · rw [hd]
    simp [updateDiscount, setDiscount]
  · simp [updateDiscount, setDiscount, Table.set_row_of_ne _ _ hd]

/-- A code that is for the product already is updated, and nothing else. -/
theorem updateCode_db (h : 0 < t.db.productRows d (· == some p)) :
    (updateCode p amount redemptionType t d).db = t.db.updateDiscount d amount redemptionType := by
  unfold updateCode ensureDiscountProductAssociation
  dsimp only
  rw [updateDiscount_rowsKept.productRows, if_pos h]

theorem foldl_updateCode {discounts : List DiscountId}
    (h : ∀ d ∈ discounts, 0 < t.db.productRows d (· == some p)) :
    RowsKept t.db (discounts.foldl (updateCode p amount redemptionType) t).db := by
  induction discounts generalizing t with
  | nil => exact rowsKept_refl _
  | cons d rest ih =>
    have hkept : RowsKept t.db (updateCode p amount redemptionType t d).db := by
      rw [updateCode_db (h d List.mem_cons_self)]
      exact updateDiscount_rowsKept
    refine hkept.trans (ih (t := updateCode p amount redemptionType t d) fun d' hd' => ?_)
    rw [hkept.productRows]
    exact h d' (List.mem_cons_of_mem d hd')

/-- The row has the values that the run writes. -/
structure IsCode (amount : FixedPoint.Decimal 5) (redemptionType : RedemptionType) (row : Discount) :
    Prop where
  amount : row.amount = amount
  redemptionType : row.redemptionType = redemptionType
  discountType : row.discountType = .fixedPrice
  paymentType : row.paymentType = some .sales

theorem updateDiscount_isCode {d' : DiscountId}
    (h : IsCode amount redemptionType (db.discounts.row d') ∨ d' = d) : IsCode amount redemptionType
      ((db.updateDiscount d amount redemptionType).discounts.row d') := by
  by_cases hd : d' = d
  · rw [hd]
    have hrow : (db.updateDiscount d amount redemptionType).discounts.row d = _ :=
      Table.set_row_self _ _ _
    rw [hrow]
    exact ⟨rfl, rfl, rfl, rfl⟩
  · have hrow : (db.updateDiscount d amount redemptionType).discounts.row d' = db.discounts.row d' :=
      Table.set_row_of_ne _ _ hd
    rw [hrow]
    exact h.resolve_right hd

/-- Writing the values that a code has changes nothing. -/
theorem updateDiscount_of_isCode (h : IsCode amount redemptionType (db.discounts.row d)) :
    db.updateDiscount d amount redemptionType = db := by
  have hrow : { db.discounts.row d with
      amount, redemptionType, discountType := .fixedPrice, paymentType := some .sales } =
      db.discounts.row d := by
    obtain ⟨rfl, rfl, hdiscountType, hpaymentType⟩ := h
    rw [← hdiscountType, ← hpaymentType]
  unfold updateDiscount setDiscount
  rw [hrow, Table.set_row_eq]

theorem foldl_updateCode_isCode {discounts : List DiscountId} {d' : DiscountId}
    (h : ∀ d ∈ discounts, 0 < t.db.productRows d (· == some p))
    (hcode : IsCode amount redemptionType (t.db.discounts.row d') ∨ d' ∈ discounts) :
    IsCode amount redemptionType
      ((discounts.foldl (updateCode p amount redemptionType) t).db.discounts.row d') := by
  induction discounts generalizing t with
  | nil => exact hcode.resolve_right List.not_mem_nil
  | cons d rest ih =>
    have hdb : (updateCode p amount redemptionType t d).db =
        t.db.updateDiscount d amount redemptionType := updateCode_db (h d List.mem_cons_self)
    refine ih (t := updateCode p amount redemptionType t d) (fun d'' hd'' => ?_) ?_
    · rw [hdb, updateDiscount_rowsKept.productRows]
      exact h d'' (List.mem_cons_of_mem d hd'')
    · rw [hdb]
      rcases hcode with hcode | hmem
      · exact Or.inl (updateDiscount_isCode (Or.inl hcode))
      · rcases List.mem_cons.mp hmem with rfl | hmem
        · exact Or.inl (updateDiscount_isCode (Or.inr rfl))
        · exact Or.inr hmem

theorem foldl_updateCode_of_isCode {discounts : List DiscountId}
    (h : ∀ d ∈ discounts, 0 < t.db.productRows d (· == some p))
    (hcode : ∀ d ∈ discounts, IsCode amount redemptionType (t.db.discounts.row d)) :
    (discounts.foldl (updateCode p amount redemptionType) t).db = t.db := by
  induction discounts generalizing t with
  | nil => rfl
  | cons d rest ih =>
    have hdb : (updateCode p amount redemptionType t d).db = t.db := by
      rw [updateCode_db (h d List.mem_cons_self),
        updateDiscount_of_isCode (hcode d List.mem_cons_self)]
    rw [List.foldl_cons, ih (t := updateCode p amount redemptionType t d) ?_ ?_, hdb]
    · intro d' hd'
      rw [hdb]
      exact h d' (List.mem_cons_of_mem d hd')
    · intro d' hd'
      rw [hdb]
      exact hcode d' (List.mem_cons_of_mem d hd')

/-! ## Codes that are removed -/

/-- The rows of a discount that are not for the product. -/
def otherProducts (p : ProductId) (row : Discount) : List (Option ProductId) :=
  row.products.filter fun product => !(product == some p)

/-- The codes lose the product, and those that were for nothing else are gone. -/
structure ExtraRemoved (p : ProductId) (ds : List DiscountId) (db db' : CodeStore) : Prop where
  keys : db'.discounts.keys = db.discounts.keys.filter fun d =>
    decide (d ∉ ds ∨ otherProducts p (db.discounts.row d) ≠ [])
  rows : ∀ d, db'.discounts.row d = if d ∈ ds then
    { db.discounts.row d with products := otherProducts p (db.discounts.row d) }
    else db.discounts.row d
  used : ∀ d, db'.isUsed d = db.isUsed d

theorem otherProducts_idem (p : ProductId) (row : Discount) :
    otherProducts p { row with products := otherProducts p row } = otherProducts p row := by
  unfold otherProducts
  rw [List.filter_filter]
  simp

theorem extraRemoved_nil (p : ProductId) (db : CodeStore) : ExtraRemoved p [] db db := by
  refine ⟨?_, fun d => ?_, fun _ => rfl⟩
  · simp
  · simp

theorem ExtraRemoved.append {db'' : CodeStore} {ds ds' : List DiscountId}
    (h : ExtraRemoved p ds db db') (h' : ExtraRemoved p ds' db' db'') :
    ExtraRemoved p (ds ++ ds') db db'' := by
  have hother : ∀ d, otherProducts p (db'.discounts.row d) = otherProducts p (db.discounts.row d) := by
    intro d
    rw [h.rows]
    split
    · exact otherProducts_idem p _
    · rfl
  refine ⟨?_, fun d => ?_, fun d => (h'.used d).trans (h.used d)⟩
  · rw [h'.keys, h.keys, List.filter_filter]
    refine List.filter_congr fun d _ => ?_
    rw [hother]
    simp only [List.mem_append, ← Bool.decide_and, decide_eq_decide]
    tauto
  · rw [h'.rows, hother]
    by_cases hd' : d ∈ ds'
    · have hmem : d ∈ ds ++ ds' := List.mem_append_right _ hd'
      rw [if_pos hd', if_pos hmem, h.rows]
      split <;> rfl
    · by_cases hd : d ∈ ds
      · rw [if_neg hd', if_pos (List.mem_append_left _ hd), h.rows, if_pos hd]
      · have hmem : d ∉ ds ++ ds' := by
          rw [List.mem_append]
          tauto
        rw [if_neg hd', if_neg hmem, h.rows, if_neg hd]

theorem orderRedemptions_withoutDiscount (db : CodeStore) (d d' : DiscountId) :
    (db.withoutDiscount d).store.orderRedemptions d' =
      if d' = d then 0 else db.store.orderRedemptions d' := by
  have hcount : ∀ o, ((db.withoutDiscount d).store.order o).discounts.countP
      (fun r => r.redeemedDiscount == d') =
      if d' = d then 0 else (db.store.order o).discounts.countP fun r => r.redeemedDiscount == d' := by
    intro o
    show ((db.store.order o).discounts.filter (·.redeemedDiscount != d)).countP _ = _
    rw [List.countP_filter]
    split
    · rename_i hd
      refine List.countP_eq_zero.mpr fun r _ => ?_
      simp [hd]
    · rename_i hd
      refine List.countP_congr fun r _ => ?_
      simp only [Bool.and_eq_true, beq_iff_eq, bne_iff_ne]
      constructor
      · exact And.left
      · intro hr
        exact ⟨hr, fun hrd => hd (hr.symm.trans hrd)⟩
  unfold Store.orderRedemptions Store.redemptionCount
  simp only [hcount]
  split
  · exact List.sum_eq_zero fun n hn => by
      obtain ⟨_, -, rfl⟩ := List.mem_map.mp hn
      rfl
  · rfl

theorem isUsed_withoutDiscount (h : db.isUsed d = false) (d' : DiscountId) :
    (db.withoutDiscount d).isUsed d' = db.isUsed d' := by
  have horders : (db.withoutDiscount d).store.orderRedemptions d' = db.store.orderRedemptions d' := by
    rw [orderRedemptions_withoutDiscount]
    split
    · rename_i hd
      rw [hd, (isUsed_eq_false.mp h).1]
    · rfl
  unfold isUsed
  rw [horders]
  rfl

theorem deleteProducts_row_self (db : CodeStore) (d : DiscountId) (test : Option ProductId → Bool) :
    (db.deleteProducts d test).discounts.row d = { db.discounts.row d with
      products := (db.discounts.row d).products.filter fun product => !test product } :=
  Table.set_row_self _ _ _

theorem deleteProducts_row_of_ne {d' : DiscountId} (test : Option ProductId → Bool) (h : d' ≠ d) :
    (db.deleteProducts d test).discounts.row d' = db.discounts.row d' :=
  Table.set_row_of_ne _ _ h

/-- An unused code can be removed. -/
theorem removeExtraCode_spec (h : t.db.isUsed d = false) :
    ∃ db', removeExtraCode p d t = ⟨{ t with db := db' }, none⟩ ∧ ExtraRemoved p [d] t.db db' := by
  have hrows : ∀ d', (t.db.deleteProducts d (· == some p)).discounts.row d' = if d' ∈ [d] then
      { t.db.discounts.row d' with products := otherProducts p (t.db.discounts.row d') }
      else t.db.discounts.row d' := by
    intro d'
    by_cases hd : d' = d
    · rw [hd, deleteProducts_row_self, if_pos (List.mem_singleton_self d)]
      rfl
    · rw [deleteProducts_row_of_ne _ hd, if_neg (by simpa using hd)]
  have hproducts : ((t.db.deleteProducts d (· == some p)).discounts.row d).products =
      otherProducts p (t.db.discounts.row d) := by
    rw [deleteProducts_row_self]
    rfl
  have hused : (t.db.deleteProducts d (· == some p)).isUsed d = false := h
  unfold removeExtraCode deleteDiscount
  dsimp only
  rw [hproducts]
  by_cases hempty : otherProducts p (t.db.discounts.row d) = []
  · rw [if_pos hempty, if_neg (by rw [(isUsed_eq_false.mp hused).2]; simp)]
    refine ⟨_, rfl, ?_, hrows, fun d' => isUsed_withoutDiscount hused d'⟩
    show t.db.discounts.keys.filter (· != d) = _
    refine List.filter_congr fun d' _ => ?_
    by_cases hd : d' = d
    · simp [hd, hempty]
    · simp [hd]
  · rw [if_neg hempty]
    refine ⟨_, rfl, ?_, hrows, fun _ => rfl⟩
    show t.db.discounts.keys = _
    refine (List.filter_eq_self.mpr fun d' _ => ?_).symm
    by_cases hd : d' = d
    · simp [hd, hempty]
    · simp [hd]

theorem seq_removeExtraCode {ds : List DiscountId} (h : ∀ d ∈ ds, t.db.isUsed d = false) :
    ∃ db', seq (ds.map (removeExtraCode p)) t = ⟨{ t with db := db' }, none⟩ ∧
      ExtraRemoved p ds t.db db' := by
  induction ds generalizing t with
  | nil => exact ⟨t.db, rfl, extraRemoved_nil p t.db⟩
  | cons d rest ih =>
    obtain ⟨db1, hstep, hremoved⟩ := removeExtraCode_spec (p := p) (h d List.mem_cons_self)
    obtain ⟨db2, hrest, hremoved'⟩ := ih (t := { t with db := db1 }) fun d' hd' => by
      rw [hremoved.used]
      exact h d' (List.mem_cons_of_mem d hd')
    have hreturns : (removeExtraCode p d t).error = none := by rw [hstep]
    refine ⟨db2, ?_, hremoved.append hremoved'⟩
    rw [List.map_cons, seq_cons, andThen_of_ok hreturns, hstep]
    exact hrest

/-! ## Codes that are created -/

/-- The discounts with `news` after them, which are codes for the product. -/
structure CodesAdded (p : ProductId) (amount : FixedPoint.Decimal 5) (redemptionType : RedemptionType)
    (news : List DiscountId) (db db' : CodeStore) : Prop where
  keys : db'.discounts.keys = db.discounts.keys ++ news
  old : ∀ d ∈ db.discounts.keys, db'.discounts.row d = db.discounts.row d
  new : ∀ d ∈ news, db'.discounts.row d = newCode p amount redemptionType
  store : db'.store = db.store

theorem iterate_createCode (t : CodeTally) (p : ProductId) (amount : FixedPoint.Decimal 5)
    (redemptionType : RedemptionType) (n : ℕ) : ∃ news, news.length = n ∧
      CodesAdded p amount redemptionType news t.db
        ((createCode p amount redemptionType)^[n] t).db := by
  induction n with
  | zero => exact ⟨[], rfl, by simp, fun _ _ => rfl, nofun, rfl⟩
  | succ n ih =>
    obtain ⟨news, hlength, hkeys, hold, hnew, hstore⟩ := ih
    rw [Function.iterate_succ_apply']
    generalize (createCode p amount redemptionType)^[n] t = t' at *
    have hfresh : ∀ d ∈ t'.db.discounts.keys,
        (t'.db.discounts.create (newCode p amount redemptionType)).row d = t'.db.discounts.row d :=
      fun d hd => Table.create_row_of_ne _ _ fun heq =>
        t'.db.discounts.nextKey_not_mem (heq ▸ hd)
    refine ⟨news ++ [t'.db.discounts.nextKey], by simp [hlength], ?_, fun d hd => ?_,
      fun d hd => ?_, hstore⟩
    · show t'.db.discounts.keys ++ [t'.db.discounts.nextKey] = _
      rw [hkeys, List.append_assoc]
    · refine (hfresh d ?_).trans (hold d hd)
      rw [hkeys]
      exact List.mem_append_left _ hd
    · rcases List.mem_append.mp hd with hd | hd
      · refine (hfresh d ?_).trans (hnew d hd)
        rw [hkeys]
        exact List.mem_append_right _ hd
      · rw [List.mem_singleton.mp hd]
        exact Table.create_row_self _ _

theorem CodesAdded.codesFor {news : List DiscountId}
    (h : CodesAdded p amount redemptionType news db db') :
    db'.codesFor p = db.codesFor p ++ news := by
  unfold CodeStore.codesFor
  rw [h.keys, List.filter_append]
  congr 1
  · refine List.filter_congr fun d hd => ?_
    unfold CodeStore.productRows
    rw [h.old d hd]
  · refine List.filter_eq_self.mpr fun d hd => ?_
    unfold CodeStore.productRows
    rw [h.new d hd]
    simp [newCode]

/-! ## One product -/

/-- What the work on the codes of one product leaves: no row for another product is written, used
codes are not touched, and new codes are for the product only. -/
structure Adjusted (p : ProductId) (db db' : CodeStore) : Prop where
  rows : ∀ d ∈ db.discounts.keys, (db'.discounts.row d).products = (db.discounts.row d).products ∨
    (db.isUsed d = false ∧
      (db'.discounts.row d).products = otherProducts p (db.discounts.row d))
  kept : ∀ d ∈ db.discounts.keys, d ∈ db'.discounts.keys ∨
    (db.isUsed d = false ∧ otherProducts p (db.discounts.row d) = [])
  new : ∀ d ∈ db'.discounts.keys, d ∈ db.discounts.keys ∨
    (db'.discounts.row d).products = [some p]
  used : ∀ d, db'.isUsed d = db.isUsed d

theorem RowsKept.adjusted (h : RowsKept db db') (p : ProductId) : Adjusted p db db' :=
  ⟨fun d _ => Or.inl (h.products d), fun _ hd => Or.inl (h.keys ▸ hd),
    fun _ hd => Or.inl (h.keys ▸ hd), h.isUsed⟩

theorem RowsKept.then_adjusted {db'' : CodeStore} (h : RowsKept db db') (h' : Adjusted p db' db'') :
    Adjusted p db db'' := by
  have hother : ∀ d, otherProducts p (db'.discounts.row d) = otherProducts p (db.discounts.row d) := by
    intro d
    unfold otherProducts
    rw [h.products]
  refine ⟨fun d hd => ?_, fun d hd => ?_, fun d hd => ?_, fun d => (h'.used d).trans (h.isUsed d)⟩
  · rw [← h.products, ← h.isUsed, ← hother]
    exact h'.rows d (h.keys ▸ hd)
  · rw [← h.isUsed, ← hother]
    exact h'.kept d (h.keys ▸ hd)
  · rw [← h.keys]
    exact h'.new d hd

theorem ExtraRemoved.adjusted {ds : List DiscountId} (h : ExtraRemoved p ds db db')
    (hunused : ∀ d ∈ ds, db.isUsed d = false) : Adjusted p db db' := by
  refine ⟨fun d _ => ?_, fun d hd => ?_, fun d hd => Or.inl ?_, h.used⟩
  · rw [h.rows]
    by_cases hmem : d ∈ ds
    · rw [if_pos hmem]
      exact Or.inr ⟨hunused d hmem, rfl⟩
    · rw [if_neg hmem]
      exact Or.inl rfl
  · rw [h.keys, List.mem_filter, decide_eq_true_iff]
    by_cases hmem : d ∈ ds
    · by_cases hempty : otherProducts p (db.discounts.row d) = []
      · exact Or.inr ⟨hunused d hmem, hempty⟩
      · exact Or.inl ⟨hd, Or.inr hempty⟩
    · exact Or.inl ⟨hd, Or.inl hmem⟩
  · rw [h.keys] at hd
    exact (List.mem_filter.mp hd).1

theorem CodesAdded.adjusted {news : List DiscountId}
    (h : CodesAdded p amount redemptionType news db db') : Adjusted p db db' := by
  refine ⟨fun d hd => Or.inl (by rw [h.old d hd]), fun d hd => Or.inl ?_, fun d hd => ?_, fun d => ?_⟩
  · rw [h.keys]
    exact List.mem_append_left _ hd
  · rw [h.keys] at hd
    rcases List.mem_append.mp hd with hd | hd
    · exact Or.inl hd
    · rw [h.new d hd]
      exact Or.inr rfl
  · unfold isUsed
    rw [h.store]

/-! ## Seat-limited contracts -/

/-- The number of rows that the queries for the codes of a product give. -/
def codeCount (cat : Catalog) (c : ContractId) (p : ProductId) (db : CodeStore) : ℕ :=
  (db.filterProduct p (db.getDiscounts cat c)).length

/-- The unused codes of a product that are removed if there are `n` too many. -/
def extraCodes (p : ProductId) (db : CodeStore) (n : ℕ) : List DiscountId :=
  ((db.codesFor p).filter fun d => !db.isUsed d).reverse.take n

theorem ofContract_some (hp : p ∈ contractProducts cat c) : ofContract cat c (some p) = true := by
  simp [ofContract, hp]

/-- A code of a product of the contract is a code of the contract. -/
theorem productRows_ofContract (hp : p ∈ contractProducts cat c)
    (h : some p ∈ (db.discounts.row d).products) : 0 < db.productRows d (ofContract cat c) :=
  productRows_pos.mpr ⟨some p, h, ofContract_some hp⟩

theorem mem_filterProduct_getDiscounts (hp : p ∈ contractProducts cat c) :
    d ∈ db.filterProduct p (db.getDiscounts cat c) ↔ d ∈ db.codesFor p := by
  rw [mem_filterProduct, mem_getDiscounts, mem_codesFor, productRows_some_pos]
  constructor
  · rintro ⟨⟨hkey, -⟩, hmem⟩
    exact ⟨hkey, hmem⟩
  · rintro ⟨hkey, hmem⟩
    exact ⟨⟨hkey, productRows_ofContract hp hmem⟩, hmem⟩

theorem unused_filter (hp : p ∈ contractProducts cat c) :
    ((db.getUnusedDiscounts cat c).filter fun d => decide (0 < db.productRows d (· == some p))) =
      (db.codesFor p).filter fun d => !db.isUsed d := by
  unfold getUnusedDiscounts codesFor
  rw [List.filter_filter, List.filter_filter]
  refine List.filter_congr fun d _ => ?_
  by_cases hpos : 0 < db.productRows d (· == some p)
  · have hcontract := productRows_ofContract hp (productRows_some_pos.mp hpos)
    simp [hpos, hcontract]
  · simp [hpos]

theorem handleExtraEnrollmentCodes_eq (hp : p ∈ contractProducts cat c)
    (hcap : (cat.contract c).learnerCap ≠ 0) (t : CodeTally) :
    handleExtraEnrollmentCodes cat c p t =
      andThen (seq ((extraCodes p t.db (codeCount cat c p t.db - (cat.contract c).learnerCap)).map
        (removeExtraCode p)))
        (fun t' => ⟨{ t' with errors := t'.errors +
          (codeCount cat c p t.db - (cat.contract c).learnerCap) }, none⟩) t := by
  unfold handleExtraEnrollmentCodes
  dsimp only
  rw [if_neg hcap, unused_filter hp]
  rfl

theorem mem_extraCodes {n : ℕ} (h : d ∈ extraCodes p db n) :
    d ∈ db.codesFor p ∧ db.isUsed d = false := by
  have hmem := List.mem_reverse.mp (List.mem_of_mem_take h)
  obtain ⟨hcode, hunused⟩ := List.mem_filter.mp hmem
  exact ⟨hcode, by simpa using hunused⟩

/-- The extra codes are removed. -/
theorem handleExtraEnrollmentCodes_spec (hp : p ∈ contractProducts cat c)
    (hcap : (cat.contract c).learnerCap ≠ 0) (t : CodeTally) :
    ∃ t', handleExtraEnrollmentCodes cat c p t = ⟨t', none⟩ ∧
      ExtraRemoved p (extraCodes p t.db (codeCount cat c p t.db - (cat.contract c).learnerCap))
        t.db t'.db := by
  obtain ⟨db', hseq, hremoved⟩ := seq_removeExtraCode (p := p)
    fun d (hd : d ∈ extraCodes p t.db (codeCount cat c p t.db - (cat.contract c).learnerCap)) =>
      (mem_extraCodes hd).2
  have hreturns : (seq ((extraCodes p t.db
      (codeCount cat c p t.db - (cat.contract c).learnerCap)).map (removeExtraCode p)) t).error =
      none := by rw [hseq]
  rw [handleExtraEnrollmentCodes_eq hp hcap, andThen_of_ok hreturns, hseq]
  exact ⟨_, rfl, hremoved⟩

theorem codeCount_of_rowsKept (h : RowsKept db db') : codeCount cat c p db' = codeCount cat c p db := by
  unfold codeCount
  rw [h.getDiscounts, h.filterProduct]

theorem extraCodes_of_rowsKept (h : RowsKept db db') (n : ℕ) :
    extraCodes p db' n = extraCodes p db n := by
  unfold extraCodes
  simp only [h.codesFor, h.isUsed]

theorem ExtraRemoved.codesFor {ds : List DiscountId} (h : ExtraRemoved p ds db db') :
    db'.codesFor p = (db.codesFor p).filter fun d => decide (d ∉ ds) := by
  unfold CodeStore.codesFor
  rw [h.keys, List.filter_filter, List.filter_filter]
  refine List.filter_congr fun d _ => ?_
  unfold CodeStore.productRows
  rw [h.rows]
  by_cases hd : d ∈ ds
  · have hnone : (otherProducts p (db.discounts.row d)).countP (· == some p) = 0 := by
      refine List.countP_eq_zero.mpr fun product hproduct => ?_
      simpa [otherProducts] using (List.mem_filter.mp hproduct).2
    simp [hd, hnone]
  · simp [hd]

/-- What handling the seats of a product does. -/
structure SeatsHandled (cat : Catalog) (c : ContractId) (p : ProductId) (db db' : CodeStore) : Prop where
  adjusted : Adjusted p db db'
  isCode : ∀ d ∈ db.discounts.keys, IsCode (cat.contract c).codeAmount .oneTime (db.discounts.row d) →
    IsCode (cat.contract c).codeAmount .oneTime (db'.discounts.row d)
  codes : ∀ d ∈ db'.codesFor p, IsCode (cat.contract c).codeAmount .oneTime (db'.discounts.row d)
  few : codeCount cat c p db ≤ (cat.contract c).learnerCap → ∃ news,
    db'.codesFor p = db.codesFor p ++ news ∧
      news.length = (cat.contract c).learnerCap - codeCount cat c p db
  many : (cat.contract c).learnerCap < codeCount cat c p db →
    db'.codesFor p = (db.codesFor p).filter fun d =>
      decide (d ∉ extraCodes p db (codeCount cat c p db - (cat.contract c).learnerCap))

/-- The loop over the codes of a product rewrites them. -/
theorem updateCodes_spec (rows : RowOrder) (hp : p ∈ contractProducts cat c) :
    RowsKept t.db (updateCodes cat rows c p t).db ∧
      (∀ d, IsCode (cat.contract c).codeAmount .oneTime (t.db.discounts.row d) ∨
        d ∈ t.db.codesFor p → IsCode (cat.contract c).codeAmount .oneTime
          ((updateCodes cat rows c p t).db.discounts.row d)) ∧
      ((∀ d ∈ t.db.codesFor p,
          IsCode (cat.contract c).codeAmount .oneTime (t.db.discounts.row d)) →
        (updateCodes cat rows c p t).db = t.db) := by
  have hmem : ∀ d, d ∈ rows.discounts (t.db.filterProduct p (t.db.getDiscounts cat c)) ↔
      d ∈ t.db.codesFor p := by
    intro d
    rw [(rows.discounts_perm _).mem_iff]
    exact mem_filterProduct_getDiscounts hp
  have hpos : ∀ d ∈ rows.discounts (t.db.filterProduct p (t.db.getDiscounts cat c)),
      0 < t.db.productRows d (· == some p) := fun d hd =>
    productRows_some_pos.mpr (mem_codesFor.mp ((hmem d).mp hd)).2
  unfold updateCodes
  refine ⟨foldl_updateCode hpos, fun d hd => ?_, fun hcode => ?_⟩
  · exact foldl_updateCode_isCode hpos (hd.imp_right (hmem d).mpr)
  · exact foldl_updateCode_of_isCode hpos fun d hd => hcode d ((hmem d).mp hd)

theorem updateCodes_created (cat : Catalog) (rows : RowOrder) (c : ContractId) (p : ProductId)
    (t : CodeTally) : (updateCodes cat rows c p t).created = t.created := by
  unfold updateCodes
  generalize rows.discounts (t.db.filterProduct p (t.db.getDiscounts cat c)) = discounts
  induction discounts generalizing t with
  | nil => rfl
  | cons d rest ih => exact ih (t := updateCode p (cat.contract c).codeAmount .oneTime t d)

theorem handleLimitedSeats_eq (rows : RowOrder) (hcap : (cat.contract c).learnerCap ≠ 0) :
    handleLimitedSeats cat rows c p t =
      if (cat.contract c).learnerCap < codeCount cat c p (updateCodes cat rows c p t).db
      then handleExtraEnrollmentCodes cat c p (updateCodes cat rows c p t)
      else ⟨(createCode p (cat.contract c).codeAmount .oneTime)^[(cat.contract c).learnerCap -
        codeCount cat c p (updateCodes cat rows c p t).db] (updateCodes cat rows c p t), none⟩ :=
  if_neg hcap

section Handled

variable {db1 : CodeStore} (hkept : RowsKept db db1)
  (hcode : ∀ d, IsCode (cat.contract c).codeAmount .oneTime (db.discounts.row d) ∨ d ∈ db.codesFor p →
    IsCode (cat.contract c).codeAmount .oneTime (db1.discounts.row d))

include hkept hcode

/-- The codes of a product are rewritten, and the extra ones removed. -/
theorem ExtraRemoved.seatsHandled (hmany : (cat.contract c).learnerCap < codeCount cat c p db1)
    (h : ExtraRemoved p (extraCodes p db1 (codeCount cat c p db1 - (cat.contract c).learnerCap))
      db1 db') : SeatsHandled cat c p db db' := by
  have hcount : codeCount cat c p db1 = codeCount cat c p db := codeCount_of_rowsKept hkept
  have hunused : ∀ d ∈ extraCodes p db1 (codeCount cat c p db1 - (cat.contract c).learnerCap),
      db1.isUsed d = false := fun d hd => (mem_extraCodes hd).2
  have hrow : ∀ d, IsCode (cat.contract c).codeAmount .oneTime (db1.discounts.row d) →
      IsCode (cat.contract c).codeAmount .oneTime (db'.discounts.row d) := by
    intro d hd
    rw [h.rows]
    split
    · exact ⟨hd.amount, hd.redemptionType, hd.discountType, hd.paymentType⟩
    · exact hd
  have hcodes := h.codesFor
  rw [hkept.codesFor, extraCodes_of_rowsKept hkept, hcount] at hcodes
  refine ⟨hkept.then_adjusted (h.adjusted hunused), fun d _ hd => hrow d (hcode d (Or.inl hd)),
    fun d hd => ?_, fun hfew => ?_, fun _ => hcodes⟩
  · rw [hcodes] at hd
    exact hrow d (hcode d (Or.inr (List.mem_filter.mp hd).1))
  · omega

/-- The codes of a product are rewritten, and the missing ones created. -/
theorem CodesAdded.seatsHandled {news : List DiscountId}
    (hfew : codeCount cat c p db1 ≤ (cat.contract c).learnerCap)
    (hlength : news.length = (cat.contract c).learnerCap - codeCount cat c p db1)
    (h : CodesAdded p (cat.contract c).codeAmount .oneTime news db1 db') :
    SeatsHandled cat c p db db' := by
  have hcount : codeCount cat c p db1 = codeCount cat c p db := codeCount_of_rowsKept hkept
  have hcodes := h.codesFor
  rw [hkept.codesFor] at hcodes
  rw [hcount] at hlength hfew
  refine ⟨hkept.then_adjusted h.adjusted, fun d hd hrow => ?_, fun d hd => ?_,
    fun _ => ⟨news, hcodes, hlength⟩, fun hmany => ?_⟩
  · rw [← hkept.keys] at hd
    rw [h.old d hd]
    exact hcode d (Or.inl hrow)
  · rw [hcodes] at hd
    rcases List.mem_append.mp hd with hold | hnew
    · have hkey : d ∈ db1.discounts.keys := by
        rw [hkept.keys]
        exact (mem_codesFor.mp hold).1
      rw [h.old d hkey]
      exact hcode d (Or.inr hold)
    · rw [h.new d hnew]
      exact ⟨rfl, rfl, rfl, rfl⟩
  · omega

end Handled

theorem handleLimitedSeats_spec (rows : RowOrder) (hp : p ∈ contractProducts cat c)
    (hcap : (cat.contract c).learnerCap ≠ 0) :
    ∃ t', handleLimitedSeats cat rows c p t = ⟨t', none⟩ ∧ SeatsHandled cat c p t.db t'.db := by
  obtain ⟨hkept, hcode, -⟩ := updateCodes_spec (t := t) rows hp
  rw [handleLimitedSeats_eq rows hcap]
  generalize updateCodes cat rows c p t = t1 at *
  by_cases hmany : (cat.contract c).learnerCap < codeCount cat c p t1.db
  · obtain ⟨t', hextra, hremoved⟩ := handleExtraEnrollmentCodes_spec hp hcap t1
    exact ⟨t', (if_pos hmany).trans hextra, hremoved.seatsHandled hkept hcode hmany⟩
  · obtain ⟨news, hlength, hadded⟩ := iterate_createCode t1 p (cat.contract c).codeAmount .oneTime
      ((cat.contract c).learnerCap - codeCount cat c p t1.db)
    exact ⟨_, if_neg hmany, hadded.seatsHandled hkept hcode (by omega) hlength⟩

/-! ## All products -/

theorem handleUnlimitedSeats_spec (cat : Catalog) (c : ContractId) (p : ProductId) (t : CodeTally) :
    ∃ t', handleUnlimitedSeats cat c p (t.db.codesFor p) t = ⟨t', none⟩ ∧ Adjusted p t.db t'.db := by
  unfold handleUnlimitedSeats
  dsimp only
  split
  · obtain ⟨news, -, hadded⟩ := iterate_createCode t p (cat.contract c).codeAmount .unlimited 1
    exact ⟨_, rfl, hadded.adjusted⟩
  · rename_i d hcodes
    have hmem : d ∈ t.db.codesFor p := by
      rw [hcodes]
      exact List.mem_singleton_self d
    have hpos : 0 < t.db.productRows d (· == some p) :=
      productRows_some_pos.mpr (mem_codesFor.mp hmem).2
    refine ⟨_, rfl, RowsKept.adjusted ?_ p⟩
    rw [updateCode_db hpos]
    exact updateDiscount_rowsKept
  · exact ⟨_, rfl, (rowsKept_refl _).adjusted p⟩

theorem ensureProductCodes_spec (rows : RowOrder) (hp : p ∈ contractProducts cat c) (t : CodeTally) :
    ∃ t', ensureProductCodes cat rows c p t = ⟨t', none⟩ ∧ Adjusted p t.db t'.db := by
  unfold ensureProductCodes
  by_cases hcap : (cat.contract c).learnerCap = 0
  · rw [if_pos hcap]
    exact handleUnlimitedSeats_spec cat c p t
  · rw [if_neg hcap]
    obtain ⟨t', heq, hhandled⟩ := handleLimitedSeats_spec rows hp hcap (t := t)
    exact ⟨t', heq, hhandled.adjusted⟩

/-- A loop over products of the contract returns, and what the work on each of them keeps is kept. -/
theorem seq_ensureProductCodes (rows : RowOrder) {P : CodeStore → Prop} {products : List ProductId}
    (hproducts : ∀ p ∈ products, p ∈ contractProducts cat c)
    (hstep : ∀ p ∈ products, ∀ t t', ensureProductCodes cat rows c p t = ⟨t', none⟩ →
      Adjusted p t.db t'.db → P t.db → P t'.db) (t : CodeTally) (ht : P t.db) :
    ∃ t', seq (products.map (ensureProductCodes cat rows c)) t = ⟨t', none⟩ ∧ P t'.db := by
  induction products generalizing t with
  | nil => exact ⟨t, rfl, ht⟩
  | cons p rest ih =>
    obtain ⟨t1, hfirst, hadjusted⟩ := ensureProductCodes_spec rows (hproducts p List.mem_cons_self) t
    have hreturns : (ensureProductCodes cat rows c p t).error = none := by rw [hfirst]
    rw [List.map_cons, seq_cons, andThen_of_ok hreturns, hfirst]
    exact ih (fun q hq => hproducts q (List.mem_cons_of_mem p hq))
      (fun q hq => hstep q (List.mem_cons_of_mem p hq)) t1
      (hstep p List.mem_cons_self t t1 hfirst hadjusted ht)

end MitxOnline

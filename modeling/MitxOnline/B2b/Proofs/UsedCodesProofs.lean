import Mathlib.Algebra.Order.BigOperators.Group.List
import MitxOnline.B2b.Proofs.EnrollmentCodesProofs
import MitxOnline.Ecommerce.Proofs.PaymentsProofs

/-!
# Used enrollment codes

The work on seats never touches a used code. Where a contract needs no codes, its codes are taken off
its products without a look at their redemptions, and are deleted when nothing is left of them.
-/

namespace MitxOnline

open Autocommit CodeStore

variable {cat : Catalog} {rows : RowOrder} {c : ContractId} {db db' : CodeStore} {t : CodeTally}
  {d : DiscountId} {p : ProductId} {ds : List DiscountId}

/-- A fulfilled order redeemed the code, or somebody did to get into a contract. -/
def CodeStore.IsRedeemed (db : CodeStore) (d : DiscountId) : Prop :=
  0 < db.store.fulfilledRedemptions d ∨ ∃ r ∈ db.store.contractRedemptions, r.discount = d

/-- The code was used for the product: in a fulfilled order with a line for it, or for a contract that
has it. -/
def CodeStore.UsedFor (cat : Catalog) (db : CodeStore) (d : DiscountId) (p : ProductId) : Prop :=
  (∃ o ∈ db.store.orders.keys, (db.store.order o).state = .fulfilled ∧
    d ∈ (db.store.order o).discounts.map (·.redeemedDiscount) ∧
    ∃ l ∈ (db.store.order o).lines.rows, l.isFor cat p = true) ∨
  ∃ r ∈ db.store.contractRedemptions, r.discount = d ∧ p ∈ contractProducts cat r.contract

/-- Used codes still exist, and are for the products that they were used for, if they were before. -/
structure UsedCodesSurvive (cat : Catalog) (db db' : CodeStore) : Prop where
  exist : ∀ d ∈ db.discounts.keys, db.IsRedeemed d → d ∈ db'.discounts.keys
  attached : ∀ d ∈ db.discounts.keys, db.IsRedeemed d → ∀ p, db.UsedFor cat d p →
    some p ∈ (db.discounts.row d).products → some p ∈ (db'.discounts.row d).products

/-- The contract needs codes; or every used code that it has is for something else too, or was used
for a contract, and was not used for a product of this contract that it is for. -/
def UsedCodesSafe (cat : Catalog) (c : ContractId) (db : CodeStore) : Prop :=
  (cat.contract c).isSsoFree = false ∨
    ∀ d ∈ db.discounts.keys, db.IsRedeemed d → 0 < db.productRows d (ofContract cat c) →
      ((∃ product ∈ (db.discounts.row d).products, ofContract cat c product = false) ∨
        ∃ r ∈ db.store.contractRedemptions, r.discount = d) ∧
      ∀ p ∈ contractProducts cat c, some p ∈ (db.discounts.row d).products → ¬db.UsedFor cat d p

/-! ## Contracts that need codes -/

theorem isUsed_of_isRedeemed (h : db.IsRedeemed d) : db.isUsed d = true := by
  unfold isUsed
  rw [Bool.or_eq_true, decide_eq_true_iff, List.any_eq_true]
  rcases h with horder | ⟨r, hr, hd⟩
  · have hle : db.store.fulfilledRedemptions d ≤ db.store.orderRedemptions d := by
      unfold Store.fulfilledRedemptions Store.orderRedemptions Store.redemptionCount
      refine List.sum_le_sum fun o _ => List.countP_mono_left fun r _ hr => ?_
      exact (Bool.and_eq_true_iff.mp hr).2
    exact Or.inl (horder.trans_le hle)
  · exact Or.inr ⟨r, hr, by simpa using hd⟩

/-- Codes that are used are as they were: they exist, and for the same products. -/
def KeepsUsed (db db' : CodeStore) : Prop :=
  ∀ d ∈ db.discounts.keys, db.isUsed d = true → d ∈ db'.discounts.keys ∧
    (db'.discounts.row d).products = (db.discounts.row d).products ∧ db'.isUsed d = true

theorem KeepsUsed.survive (h : KeepsUsed db db') : UsedCodesSurvive cat db db' := by
  refine ⟨fun d hd hredeemed => (h d hd (isUsed_of_isRedeemed hredeemed)).1,
    fun d hd hredeemed p _ hattached => ?_⟩
  rw [(h d hd (isUsed_of_isRedeemed hredeemed)).2.1]
  exact hattached

theorem Adjusted.keepsUsed {db'' : CodeStore} (h : KeepsUsed db db') (h' : Adjusted p db' db'') :
    KeepsUsed db db'' := by
  intro d hd hused
  obtain ⟨hkey, hproducts, hused'⟩ := h d hd hused
  refine ⟨?_, ?_, (h'.used d).trans hused'⟩
  · rcases h'.kept d hkey with hkept | ⟨hunused, -⟩
    · exact hkept
    · rw [hused'] at hunused
      cases hunused
  · rcases h'.rows d hkey with hsame | ⟨hunused, -⟩
    · exact hsame.trans hproducts
    · rw [hused'] at hunused
      cases hunused

theorem ensureEnrollmentCodesExist_of_codes (rows : RowOrder) (h : (cat.contract c).isSsoFree = false) :
    ensureEnrollmentCodesExist cat rows c =
      seq ((rows.products (contractProducts cat c)).map (ensureProductCodes cat rows c)) := by
  unfold ensureEnrollmentCodesExist
  rw [h]
  rfl

theorem keepsUsed_of_codes (rows : RowOrder) (h : (cat.contract c).isSsoFree = false) :
    KeepsUsed db (ensureEnrollmentCodesExist cat rows c (CodeTally.start db)).state.db := by
  rw [ensureEnrollmentCodesExist_of_codes rows h]
  have hproducts : ∀ p ∈ rows.products (contractProducts cat c), p ∈ contractProducts cat c :=
    fun p hp => (rows.products_perm _).mem_iff.mp hp
  have hstart : KeepsUsed db (CodeTally.start db).db := fun d hd hused => ⟨hd, rfl, hused⟩
  obtain ⟨t', heq, hkept⟩ := seq_ensureProductCodes rows (P := KeepsUsed db) hproducts
    (fun p _ t t' _ hadjusted hkept => hadjusted.keepsUsed hkept) (CodeTally.start db) hstart
  rw [heq]
  exact hkept

/-! ## Contracts that need no codes -/

/-- What clearing the codes `ds` does: they lose products of the contract only, and those that are
deleted were for nothing else and were not used for a contract. -/
structure Cleared (cat : Catalog) (c : ContractId) (ds : List DiscountId) (db db' : CodeStore) :
    Prop where
  keys : ∀ d ∈ db'.discounts.keys, d ∈ db.discounts.keys
  rows : ∀ d, ∀ product ∈ (db'.discounts.row d).products, product ∈ (db.discounts.row d).products
  others : ∀ d, ∀ product ∈ (db.discounts.row d).products, ofContract cat c product = false →
    product ∈ (db'.discounts.row d).products
  kept : ∀ d ∈ db.discounts.keys, d ∈ db'.discounts.keys ∨ (d ∈ ds ∧
    (∀ product ∈ (db.discounts.row d).products, ofContract cat c product = true) ∧
    ∀ r ∈ db.store.contractRedemptions, r.discount ≠ d)
  redemptions : db'.store.contractRedemptions = db.store.contractRedemptions

theorem cleared_frame (cat : Catalog) (c : ContractId) (ds : List DiscountId) :
    IsFrame (Cleared cat c ds) := by
  constructor
  · intro db
    exact ⟨fun _ h => h, fun _ _ h => h, fun _ _ h _ => h, fun _ h => Or.inl h, rfl⟩
  · intro db db' db'' h h'
    refine ⟨fun d hd => h.keys d (h'.keys d hd),
      fun d product hmem => h.rows d product (h'.rows d product hmem),
      fun d product hmem hother => h'.others d product (h.others d product hmem hother) hother,
      fun d hd => ?_, h'.redemptions.trans h.redemptions⟩
    rcases h.kept d hd with hkept | hgone
    · rcases h'.kept d hkept with hkept' | ⟨hds, hall, hnone⟩
      · exact Or.inl hkept'
      · refine Or.inr ⟨hds, fun product hmem => ?_, h.redemptions ▸ hnone⟩
        by_contra hother
        rw [Bool.not_eq_true] at hother
        have hof := hall product (h.others d product hmem hother)
        rw [hother] at hof
        cases hof
    · exact Or.inr hgone

theorem deleteProducts_cleared (cat : Catalog) (c : ContractId) (ds : List DiscountId)
    (db : CodeStore) (d : DiscountId) : Cleared cat c ds db (db.deleteProducts d (ofContract cat c)) := by
  refine ⟨fun _ h => h, fun d' product hmem => ?_, fun d' product hmem hother => ?_,
    fun _ h => Or.inl h, rfl⟩
  · by_cases hd : d' = d
    · rw [hd, deleteProducts_row_self] at hmem
      rw [hd]
      exact (List.mem_filter.mp hmem).1
    · rw [deleteProducts_row_of_ne _ hd] at hmem
      exact hmem
  · by_cases hd : d' = d
    · rw [hd, deleteProducts_row_self]
      rw [hd] at hmem
      exact List.mem_filter.mpr ⟨hmem, by simp [hother]⟩
    · rw [deleteProducts_row_of_ne _ hd]
      exact hmem

/-- What a round leaves. A code that it does not find any more, or cannot delete, ends the loop. -/
theorem clearCode_cases (cat : Catalog) (c : ContractId) (d : DiscountId) (t : CodeTally) :
    ((clearCode cat c d t).state.db = t.db.deleteProducts d (ofContract cat c) ∧
      (d ∈ t.db.discounts.keys →
        ((t.db.deleteProducts d (ofContract cat c)).discounts.row d).products ≠ [] ∨
          ∃ r ∈ t.db.store.contractRedemptions, r.discount = d)) ∨
    ((clearCode cat c d t).state.db =
        (t.db.deleteProducts d (ofContract cat c)).withoutDiscount d ∧
      ((t.db.deleteProducts d (ofContract cat c)).discounts.row d).products = [] ∧
      ∀ r ∈ t.db.store.contractRedemptions, r.discount ≠ d) := by
  unfold clearCode
  dsimp only
  split
  · split
    · rename_i hempty
      unfold deleteDiscount andThen
      by_cases hany : t.db.store.contractRedemptions.any (·.discount == d) = true
      · refine Or.inl ⟨?_, fun _ => Or.inr ?_⟩
        · dsimp only
          rw [if_pos (show (t.db.deleteProducts d (ofContract cat c)).store.contractRedemptions.any
            (·.discount == d) = true from hany)]
        · obtain ⟨r, hr, hd⟩ := List.any_eq_true.mp hany
          exact ⟨r, hr, by simpa using hd⟩
      · refine Or.inr ⟨?_, hempty, fun r hr hd => hany ?_⟩
        · dsimp only
          rw [if_neg (show ¬(t.db.deleteProducts d (ofContract cat c)).store.contractRedemptions.any
            (·.discount == d) = true from hany)]
        · exact List.any_eq_true.mpr ⟨r, hr, by simpa using hd⟩
    · rename_i hnonempty
      exact Or.inl ⟨rfl, fun _ => Or.inl hnonempty⟩
  · rename_i hgone
    exact Or.inl ⟨rfl, fun hkey => absurd hkey hgone⟩

theorem clearCode_cleared (hd : d ∈ ds) :
    Keeps (fun t t' => Cleared cat c ds t.db t'.db) (clearCode cat c d) := by
  intro t
  have hdeleted := deleteProducts_cleared cat c ds t.db d
  rcases clearCode_cases cat c d t with ⟨hstate, -⟩ | ⟨hstate, hempty, hnone⟩
  · rw [hstate]
    exact hdeleted
  · rw [hstate]
    refine ⟨fun d' hd' => ?_, hdeleted.rows, hdeleted.others, fun d' hd' => ?_, rfl⟩
    · exact ((Table.mem_erase_keys _).mp hd').1
    · by_cases heq : d' = d
      · subst heq
        refine Or.inr ⟨hd, fun product hmem => ?_, hnone⟩
        by_contra hother
        rw [Bool.not_eq_true] at hother
        have hleft := hdeleted.others d' product hmem hother
        rw [hempty] at hleft
        exact absurd hleft List.not_mem_nil
      · exact Or.inl ((Table.mem_erase_keys _).mpr ⟨hd', heq⟩)

theorem isFrame_db {r : CodeStore → CodeStore → Prop} (h : IsFrame r) :
    IsFrame fun t t' : CodeTally => r t.db t'.db :=
  ⟨fun t => h.refl t.db, fun _ _ _ h1 h2 => h.trans _ _ _ h1 h2⟩

theorem seq_clearCode_cleared {rest : List DiscountId} (h : ∀ d ∈ rest, d ∈ ds) :
    Keeps (fun t t' => Cleared cat c ds t.db t'.db) (seq (rest.map (clearCode cat c))) := by
  refine keeps_seq (isFrame_db (cleared_frame cat c ds)) fun a ha => ?_
  obtain ⟨d, hd, rfl⟩ := List.mem_map.mp ha
  exact clearCode_cleared (h d hd)

theorem ensureEnrollmentCodesExist_of_ssoFree (rows : RowOrder)
    (h : (cat.contract c).isSsoFree = true) (t : CodeTally) :
    ensureEnrollmentCodesExist cat rows c t =
      seq ((rows.discounts (t.db.getDiscounts cat c)).map (clearCode cat c)) t := by
  unfold ensureEnrollmentCodesExist
  rw [if_pos h]
  rfl

/-- The rows of a query, one of them first. -/
def moveFirst (a : ℕ) (l : List ℕ) : List ℕ := if a ∈ l then a :: l.erase a else l

theorem moveFirst_perm (a : ℕ) (l : List ℕ) : (moveFirst a l).Perm l := by
  unfold moveFirst
  split
  · rename_i hmem
    exact (List.perm_cons_erase hmem).symm
  · exact List.Perm.refl l

/-- The order in which a product and a discount come first. -/
def RowOrder.first (p : ProductId) (d : DiscountId) : RowOrder :=
  ⟨moveFirst p, moveFirst d, moveFirst_perm p, moveFirst_perm d⟩

/-- A code that the contract has may be the one that is cleared first. -/
theorem cleared_first (h : (cat.contract c).isSsoFree = true) (hd : d ∈ db.getDiscounts cat c) :
    Cleared cat c (db.getDiscounts cat c) (clearCode cat c d (CodeTally.start db)).state.db
      (ensureEnrollmentCodesExist cat (RowOrder.first 0 d) c (CodeTally.start db)).state.db := by
  have hfirst : (RowOrder.first 0 d).discounts ((CodeTally.start db).db.getDiscounts cat c) =
      d :: (db.getDiscounts cat c).erase d := if_pos hd
  rw [ensureEnrollmentCodesExist_of_ssoFree _ h, hfirst, List.map_cons]
  exact seq_cons_after (isFrame_db (cleared_frame cat c _))
    (seq_clearCode_cleared fun d' hd' => List.mem_of_mem_erase hd') (CodeTally.start db)

/-- The code that is cleared first is kept only if it is for something else, or was used for a
contract. -/
theorem kept_first (hfree : (cat.contract c).isSsoFree = true) (hkey : d ∈ db.discounts.keys)
    (hpos : 0 < db.productRows d (ofContract cat c))
    (hkept : d ∈ (ensureEnrollmentCodesExist cat (RowOrder.first 0 d) c
      (CodeTally.start db)).state.db.discounts.keys) :
    (∃ product ∈ (db.discounts.row d).products, ofContract cat c product = false) ∨
      ∃ r ∈ db.store.contractRedemptions, r.discount = d := by
  have hcleared := cleared_first hfree (mem_getDiscounts.mpr ⟨hkey, hpos⟩)
  rcases clearCode_cases cat c d (CodeTally.start db) with ⟨-, hleft⟩ | ⟨hstate, -, -⟩
  · refine (hleft hkey).imp_left fun hnonempty => ?_
    obtain ⟨product, hproduct⟩ := List.exists_mem_of_ne_nil _ hnonempty
    rw [deleteProducts_row_self] at hproduct
    obtain ⟨hrow, hother⟩ := List.mem_filter.mp hproduct
    exact ⟨product, hrow, by simpa using hother⟩
  · have hafter := hcleared.keys d hkept
    rw [hstate] at hafter
    exact absurd rfl ((Table.mem_erase_keys _).mp hafter).2

/-- The code that is cleared first is for no product of the contract any more. -/
theorem detached_first (hfree : (cat.contract c).isSsoFree = true) (hkey : d ∈ db.discounts.keys)
    (hpos : 0 < db.productRows d (ofContract cat c)) (hp : p ∈ contractProducts cat c) :
    some p ∉ ((ensureEnrollmentCodesExist cat (RowOrder.first 0 d) c
      (CodeTally.start db)).state.db.discounts.row d).products := by
  intro hattached
  have hcleared := cleared_first hfree (mem_getDiscounts.mpr ⟨hkey, hpos⟩)
  have hafter := hcleared.rows d _ hattached
  have hgone : some p ∉ ((db.deleteProducts d (ofContract cat c)).discounts.row d).products := by
    rw [deleteProducts_row_self]
    simp [ofContract_some hp]
  rcases clearCode_cases cat c d (CodeTally.start db) with ⟨hstate, -⟩ | ⟨hstate, -, -⟩
  · rw [hstate] at hafter
    exact hgone hafter
  · rw [hstate] at hafter
    exact hgone hafter

/-- Safe codes survive when the codes of the contract are cleared. -/
theorem Cleared.survive (h : Cleared cat c (db.getDiscounts cat c) db db')
    (hsafe : ∀ d ∈ db.discounts.keys, db.IsRedeemed d → 0 < db.productRows d (ofContract cat c) →
      ((∃ product ∈ (db.discounts.row d).products, ofContract cat c product = false) ∨
        ∃ r ∈ db.store.contractRedemptions, r.discount = d) ∧
      ∀ p ∈ contractProducts cat c, some p ∈ (db.discounts.row d).products → ¬db.UsedFor cat d p) :
    UsedCodesSurvive cat db db' := by
  constructor
  · intro d hd hredeemed
    rcases h.kept d hd with hkept | ⟨hmem, hall, hnone⟩
    · exact hkept
    · rcases (hsafe d hd hredeemed (mem_getDiscounts.mp hmem).2).1 with
        ⟨product, hproduct, hother⟩ | ⟨r, hr, hrd⟩
      · have hof := hall product hproduct
        rw [hother] at hof
        cases hof
      · exact absurd hrd (hnone r hr)
  · intro d hd hredeemed p hfor hattached
    by_cases hp : p ∈ contractProducts cat c
    · have hpos := productRows_ofContract hp hattached
      exact absurd hfor ((hsafe d hd hredeemed hpos).2 p hp hattached)
    · refine h.others d _ hattached ?_
      simp [ofContract, hp]

/-! ## All contracts -/

/-- However the rows of its queries come, `ensure_enrollment_codes_exist` lets the used codes be,
exactly if the contract needs codes or its used codes are safe. -/
theorem used_codes_survive_iff (cat : Catalog) (c : ContractId) (db : CodeStore) :
    (∀ rows, UsedCodesSurvive cat db
      (ensureEnrollmentCodesExist cat rows c (CodeTally.start db)).state.db) ↔
      UsedCodesSafe cat c db := by
  constructor
  · intro h
    cases hfree : (cat.contract c).isSsoFree with
    | false => exact Or.inl hfree
    | true =>
      refine Or.inr fun d hkey hredeemed hpos => ?_
      have hsurvive := h (RowOrder.first 0 d)
      refine ⟨kept_first hfree hkey hpos (hsurvive.exist d hkey hredeemed), ?_⟩
      intro p hp hattached hfor
      exact detached_first hfree hkey hpos hp (hsurvive.attached d hkey hredeemed p hfor hattached)
  · intro h rows
    cases hfree : (cat.contract c).isSsoFree with
    | false => exact (keepsUsed_of_codes rows hfree).survive
    | true =>
      have hsafe := h.resolve_left (by simp [hfree])
      have hcleared : Cleared cat c (db.getDiscounts cat c) db
          (ensureEnrollmentCodesExist cat rows c (CodeTally.start db)).state.db := by
        rw [ensureEnrollmentCodesExist_of_ssoFree rows hfree]
        exact seq_clearCode_cleared
          (fun d hd => (rows.discounts_perm _).mem_iff.mp hd) (CodeTally.start db)
      exact hcleared.survive hsafe

/-- The catalog in which product 1 is for the run of a managed contract without a price. -/
def managedCatalog : Catalog :=
  { hundredDollarCatalog with
    productIds := [1]
    courseRun := fun r => ⟨r, true, none, true, false, false, some 1⟩
    contract := fun _ => ⟨.managed, 1, none, none, true, some 1, none⟩ }

/-- A database with discount 1 for product 1, which a fulfilled order for the product redeemed. -/
def redeemedCode : CodeStore where
  store := storeWith { pendingStripeOrder with state := .fulfilled, discounts := [⟨1, 1⟩] }
  discounts := Table.single 1 (newCode 1 ⟨0⟩ .oneTime)

/-- The contract needs no codes any more, and the code that was used is deleted. -/
theorem used_code_is_deleted :
    ¬∀ (cat : Catalog) (rows : RowOrder) (c : ContractId) (db : CodeStore), UsedCodesSurvive cat db
      (ensureEnrollmentCodesExist cat rows c (CodeTally.start db)).state.db := by
  intro h
  have hsurvive := h managedCatalog (RowOrder.first 1 1) 1 redeemedCode
  exact absurd (hsurvive.exist 1 (by decide) (Or.inl (by decide))) (by decide +kernel)

end MitxOnline

import MitxOnline.B2b.CodeValidation
import MitxOnline.B2b.Proofs.ContractProductsProofs
import MitxOnline.B2b.Proofs.SeatSettlementProofs

/-!
# What `b2b_codes validate` restores

Codes that a contract requires get their type and amount, whatever they were. Unused codes of a managed
contract without a price are removed only where the rows of its codes outnumber them, and seats that share
codes can take turns in being repaired.
-/

namespace MitxOnline

open Autocommit FixedPoint CodeStore

variable {cat : Catalog} {runs : CourseRuns} {rows rows' : RowOrder} {c : ContractId}
  {db db' db1 : CodeStore} {t : CodeTally} {d : DiscountId} {p q : ProductId} {n : ℕ}
  {contract : ContractPage} {products products' : Products}

/-! ## Settings of codes -/

/-- The row has the type and the amount that the contract requires. -/
structure IsRequired (contract : ContractPage) (row : Discount) : Prop where
  redemptionType : row.redemptionType = contract.codeRedemptionType
  amount : row.amount = contract.codeAmount

theorem mem_badSettingsCodes : d ∈ db.badSettingsCodes cat c ↔
    d ∈ db.getDiscounts cat c ∧ ¬IsRequired (cat.contract c) (db.discounts.row d) := by
  unfold badSettingsCodes
  rw [List.mem_filter]
  refine and_congr_right fun _ => ?_
  rw [Bool.not_eq_true', Bool.and_eq_false_iff, beq_eq_false_iff_ne, beq_eq_false_iff_ne]
  constructor
  · rintro hbad ⟨htype, hamount⟩
    exact hbad.elim (· htype) (· hamount)
  · intro hbad
    by_contra hboth
    rw [not_or, not_ne_iff, not_ne_iff] at hboth
    exact hbad ⟨hboth.1, hboth.2⟩

theorem setCode_rowsKept : RowsKept db (setCode contract db d) := by
  refine ⟨rfl, rfl, fun d' => ?_⟩
  by_cases hd : d' = d
  · rw [hd]
    simp [setCode, setDiscount]
  · simp [setCode, setDiscount, Table.set_row_of_ne _ _ hd]

theorem setCode_row_self : (setCode contract db d).discounts.row d = { db.discounts.row d with
    redemptionType := contract.codeRedemptionType
    amount := contract.codeAmount } := Table.set_row_self _ _ _

theorem setCode_row_of_ne {d' : DiscountId} (hne : d' ≠ d) :
    (setCode contract db d).discounts.row d' = db.discounts.row d' := Table.set_row_of_ne _ _ hne

/-- A code that is as required stays as it is. -/
theorem foldl_setCode_row (ds : List DiscountId)
    (hd : IsRequired contract (db.discounts.row d)) :
    (ds.foldl (setCode contract) db).discounts.row d = db.discounts.row d := by
  induction ds generalizing db with
  | nil => rfl
  | cons d' rest ih =>
    have hrow : (setCode contract db d').discounts.row d = db.discounts.row d := by
      by_cases hdd : d = d'
      · rw [← hdd, setCode_row_self, ← hd.redemptionType, ← hd.amount]
      · exact setCode_row_of_ne hdd
    rw [List.foldl_cons, ih (hrow ▸ hd), hrow]

theorem foldl_setCode (ds : List DiscountId) (db : CodeStore) :
    RowsKept db (ds.foldl (setCode contract) db) ∧
      ∀ d ∈ ds, IsRequired contract ((ds.foldl (setCode contract) db).discounts.row d) := by
  induction ds generalizing db with
  | nil => exact ⟨rowsKept_refl db, fun d hd => absurd hd List.not_mem_nil⟩
  | cons d' rest ih =>
    obtain ⟨hkept, hrest⟩ := ih (setCode contract db d')
    refine ⟨setCode_rowsKept.trans hkept, fun d hd => ?_⟩
    rcases List.mem_cons.mp hd with rfl | hd
    · have hset : IsRequired contract ((setCode contract db d).discounts.row d) := by
        rw [setCode_row_self]
        exact ⟨rfl, rfl⟩
      rw [List.foldl_cons, foldl_setCode_row rest hset]
      exact hset
    · exact hrest d hd

theorem fixSettings_rowsKept (cat : Catalog) (c : ContractId) (db : CodeStore) :
    RowsKept db (db.fixSettings cat c) := (foldl_setCode _ db).1

/-- Step 5 leaves all codes as the contract requires them. -/
theorem fixSettings_isRequired (hd : d ∈ db.getDiscounts cat c) :
    IsRequired (cat.contract c) ((db.fixSettings cat c).discounts.row d) := by
  by_cases hgood : IsRequired (cat.contract c) (db.discounts.row d)
  · have hrow := foldl_setCode_row (db.badSettingsCodes cat c) hgood
    unfold fixSettings
    rw [hrow]
    exact hgood
  · exact (foldl_setCode _ db).2 d (mem_badSettingsCodes.mpr ⟨hd, hgood⟩)

/-- There is nothing to do in step 5 if all codes are as required. -/
theorem fixSettings_of_isRequired
    (h : ∀ d ∈ db.getDiscounts cat c, IsRequired (cat.contract c) (db.discounts.row d)) :
    db.fixSettings cat c = db := by
  have hnone : db.badSettingsCodes cat c = [] := by
    refine List.eq_nil_iff_forall_not_mem.mpr fun d hd => ?_
    obtain ⟨hmem, hbad⟩ := mem_badSettingsCodes.mp hd
    exact hbad (h d hmem)
  unfold fixSettings
  rw [hnone]
  rfl

theorem fixSettings_idem : (db.fixSettings cat c).fixSettings cat c = db.fixSettings cat c := by
  refine fixSettings_of_isRequired fun d hd => ?_
  rw [(fixSettings_rowsKept cat c db).getDiscounts] at hd
  exact fixSettings_isRequired hd

/-! ## Unlimited seats -/

/-- Nothing is left to do for a product whose codes are unlimited. -/
structure SettledUnlimited (contract : ContractPage) (p : ProductId) (db : CodeStore) : Prop where
  some : db.codesFor p ≠ []
  isCode : ∀ d, db.codesFor p = [d] → IsCode contract.codeAmount .unlimited (db.discounts.row d)

theorem handleUnlimitedSeats_cases (cat : Catalog) (c : ContractId) (p : ProductId) (t : CodeTally) :
    ∃ t', handleUnlimitedSeats cat c p (t.db.codesFor p) t = ⟨t', none⟩ ∧
      ((t.db.codesFor p = [] ∧ ∃ d,
          CodesAdded p (cat.contract c).codeAmount .unlimited [d] t.db t'.db) ∨
        (∃ d, t.db.codesFor p = [d] ∧
          t'.db = t.db.updateDiscount d (cat.contract c).codeAmount .unlimited) ∨
        (2 ≤ (t.db.codesFor p).length ∧ t'.db = t.db)) := by
  unfold handleUnlimitedSeats
  dsimp only
  split
  · rename_i hnone
    obtain ⟨news, hlength, hadded⟩ :=
      iterate_createCode t p (cat.contract c).codeAmount .unlimited 1
    obtain ⟨d, rfl⟩ := List.length_eq_one_iff.mp hlength
    exact ⟨_, rfl, Or.inl ⟨hnone, d, hadded⟩⟩
  · rename_i d hcodes
    have hmem : d ∈ t.db.codesFor p := by
      rw [hcodes]
      exact List.mem_singleton_self d
    refine ⟨_, rfl, Or.inr (Or.inl ⟨d, hcodes, ?_⟩)⟩
    exact updateCode_db (productRows_some_pos.mpr (mem_codesFor.mp hmem).2)
  · rename_i hnone hsingle
    refine ⟨_, rfl, Or.inr (Or.inr ⟨?_, rfl⟩)⟩
    rcases hcodes : t.db.codesFor p with _ | ⟨d, _ | ⟨d', rest⟩⟩
    · exact absurd hcodes hnone
    · exact absurd hcodes (hsingle d)
    · simp

theorem CodesAdded.codesFor_of_ne {news : List DiscountId} {amount : Decimal 5}
    {redemptionType : RedemptionType} (h : CodesAdded q amount redemptionType news db db')
    (hne : p ≠ q) : db'.codesFor p = db.codesFor p := by
  refine codesFor_eq fun d => ?_
  exact h.adjusted.mem_codesFor_iff hne d

/-- The round for a product settles it. -/
theorem handleUnlimitedSeats_settles (t' : CodeTally)
    (h : handleUnlimitedSeats cat c p (t.db.codesFor p) t = ⟨t', none⟩) :
    SettledUnlimited (cat.contract c) p t'.db := by
  obtain ⟨t'', heq, hcases⟩ := handleUnlimitedSeats_cases cat c p t
  obtain rfl : t' = t'' := by
    rw [h] at heq
    exact (Outcome.mk.injEq ..).mp heq |>.1
  rcases hcases with ⟨hnone, d, hadded⟩ | ⟨d, hcodes, hdb⟩ | ⟨hmany, hdb⟩
  · have hcodes : t'.db.codesFor p = [d] := by
      rw [hadded.codesFor, hnone, List.nil_append]
    refine ⟨by rw [hcodes]; exact List.cons_ne_nil d [], fun d' hd' => ?_⟩
    rw [hcodes, List.singleton_inj] at hd'
    rw [← hd', hadded.new d (List.mem_singleton_self d)]
    exact ⟨rfl, rfl, rfl, rfl⟩
  · have hcodes' : t'.db.codesFor p = [d] := by
      rw [hdb, updateDiscount_rowsKept.codesFor, hcodes]
    refine ⟨by rw [hcodes']; exact List.cons_ne_nil d [], fun d' hd' => ?_⟩
    rw [hcodes', List.singleton_inj] at hd'
    rw [hdb]
    exact updateDiscount_isCode (Or.inr hd'.symm)
  · rw [hdb]
    refine ⟨fun hnone => ?_, fun d hcodes => ?_⟩
    · rw [hnone] at hmany
      simp at hmany
    · rw [hcodes] at hmany
      simp at hmany

/-- The round for another product leaves a settled one. -/
theorem handleUnlimitedSeats_keeps (hne : p ≠ q) (t' : CodeTally)
    (h : handleUnlimitedSeats cat c q (t.db.codesFor q) t = ⟨t', none⟩)
    (hsettled : SettledUnlimited (cat.contract c) p t.db) :
    SettledUnlimited (cat.contract c) p t'.db := by
  obtain ⟨t'', heq, hcases⟩ := handleUnlimitedSeats_cases cat c q t
  obtain rfl : t' = t'' := by
    rw [h] at heq
    exact (Outcome.mk.injEq ..).mp heq |>.1
  rcases hcases with ⟨-, d, hadded⟩ | ⟨d, hcodes, hdb⟩ | ⟨-, hdb⟩
  · have hcodes := hadded.codesFor_of_ne hne
    refine ⟨by rw [hcodes]; exact hsettled.some, fun d' hd' => ?_⟩
    rw [hcodes] at hd'
    have hmem : d' ∈ t.db.codesFor p := by
      rw [hd']
      exact List.mem_singleton_self d'
    rw [hadded.old d' (mem_codesFor.mp hmem).1]
    exact hsettled.isCode d' hd'
  · have hcodes' : t'.db.codesFor p = t.db.codesFor p := by
      rw [hdb, updateDiscount_rowsKept.codesFor]
    refine ⟨by rw [hcodes']; exact hsettled.some, fun d' hd' => ?_⟩
    rw [hcodes'] at hd'
    rw [hdb]
    exact updateDiscount_isCode (Or.inl (hsettled.isCode d' hd'))
  · rw [hdb]
    exact hsettled

theorem ensureProductCodes_of_unlimited (rows : RowOrder) (hcap : (cat.contract c).learnerCap = 0)
    (p : ProductId) (t : CodeTally) :
    ensureProductCodes cat rows c p t = handleUnlimitedSeats cat c p (t.db.codesFor p) t := if_pos hcap

theorem ensureProductCodes_unlimited_returns (rows : RowOrder)
    (hcap : (cat.contract c).learnerCap = 0) (p : ProductId) (t : CodeTally) :
    ∃ t', ensureProductCodes cat rows c p t = ⟨t', none⟩ ∧
      handleUnlimitedSeats cat c p (t.db.codesFor p) t = ⟨t', none⟩ := by
  obtain ⟨t', heq, -⟩ := handleUnlimitedSeats_cases cat c p t
  exact ⟨t', (ensureProductCodes_of_unlimited rows hcap p t).trans heq, heq⟩

/-- After a run over unlimited seats every product is settled. -/
theorem settled_of_unlimited (rows : RowOrder) (hids : cat.productIds.Nodup)
    (hcodes : (cat.contract c).isSsoFree = false) (hcap : (cat.contract c).learnerCap = 0)
    (hp : p ∈ contractProducts cat c) (db : CodeStore) : SettledUnlimited (cat.contract c) p
      (ensureEnrollmentCodesExist cat rows c (CodeTally.start db)).state.db := by
  have hperm := rows.products_perm (contractProducts cat c)
  have hframe : IsFrame fun t t' : CodeTally =>
      SettledUnlimited (cat.contract c) p t.db → SettledUnlimited (cat.contract c) p t'.db :=
    isFrame_preserves _
  have hreturns : ∀ q ∈ rows.products (contractProducts cat c), ∀ t,
      (ensureProductCodes cat rows c q t).error = none := by
    intro q _ t
    obtain ⟨t', heq, -⟩ := ensureProductCodes_unlimited_returns rows hcap q t
    rw [heq]
  have hothers : ∀ q ∈ rows.products (contractProducts cat c), q ≠ p →
      Keeps (fun t t' : CodeTally => SettledUnlimited (cat.contract c) p t.db →
        SettledUnlimited (cat.contract c) p t'.db) (ensureProductCodes cat rows c q) := by
    intro q _ hne t
    obtain ⟨t', heq, hround⟩ := ensureProductCodes_unlimited_returns rows hcap q t
    rw [heq]
    exact handleUnlimitedSeats_keeps (Ne.symm hne) t' hround
  obtain ⟨t', -, hafter⟩ := seq_once hframe (hperm.mem_iff.mpr hp)
    (hperm.nodup_iff.mpr (contractProducts_nodup hids)) hreturns hothers (CodeTally.start db)
  rw [ensureEnrollmentCodesExist_of_codes rows hcodes]
  refine hafter ?_
  obtain ⟨t'', heq, hround⟩ := ensureProductCodes_unlimited_returns rows hcap p t'
  rw [heq]
  exact handleUnlimitedSeats_settles t'' hround

/-- A run over settled products writes nothing. -/
theorem seq_of_settledUnlimited (rows : RowOrder) (hcap : (cat.contract c).learnerCap = 0)
    {todo : List ProductId} (h : ∀ p ∈ todo, SettledUnlimited (cat.contract c) p t.db) :
    (seq (todo.map (ensureProductCodes cat rows c)) t).state.db = t.db ∧
      (seq (todo.map (ensureProductCodes cat rows c)) t).error = none := by
  induction todo generalizing t with
  | nil => exact ⟨rfl, rfl⟩
  | cons p rest ih =>
    have hsettled := h p List.mem_cons_self
    obtain ⟨t', heq, hcases⟩ := handleUnlimitedSeats_cases cat c p t
    have hfirst := (ensureProductCodes_of_unlimited rows hcap p t).trans heq
    have hdb : t'.db = t.db := by
      rcases hcases with ⟨hnone, -⟩ | ⟨d, hcodes, hdb⟩ | ⟨-, hdb⟩
      · exact absurd hnone hsettled.some
      · rw [hdb]
        exact updateDiscount_of_isCode (hsettled.isCode d hcodes)
      · exact hdb
    have hreturns : (ensureProductCodes cat rows c p t).error = none := by rw [hfirst]
    obtain ⟨hrest, herror⟩ := ih (t := t') fun q hq => by
      rw [hdb]
      exact h q (List.mem_cons_of_mem p hq)
    rw [List.map_cons, seq_cons, andThen_of_ok hreturns, hfirst]
    exact ⟨hrest.trans hdb, herror⟩

theorem RowsKept.settledUnlimited (h : RowsKept db db')
    (hrow : ∀ d, IsCode contract.codeAmount .unlimited (db.discounts.row d) →
      db'.discounts.row d = db.discounts.row d)
    (hsettled : SettledUnlimited contract p db) : SettledUnlimited contract p db' := by
  have hcodes := h.codesFor p
  refine ⟨by rw [hcodes]; exact hsettled.some, fun d hd => ?_⟩
  rw [hcodes] at hd
  have hcode := hsettled.isCode d hd
  rw [hrow d hcode]
  exact hcode

/-! ## Contracts that require codes -/

theorem ensureEnrollmentCodesExist_returns (rows : RowOrder)
    (hcodes : (cat.contract c).isSsoFree = false) (t : CodeTally) :
    (ensureEnrollmentCodesExist cat rows c t).error = none := by
  obtain ⟨t', heq, -⟩ := seq_ensureProductCodes rows (P := fun _ => True)
    (fun p hp => (rows.products_perm (contractProducts cat c)).mem_iff.mp hp)
    (fun _ _ _ _ _ _ _ => trivial) t trivial
  rw [ensureEnrollmentCodesExist_of_codes rows hcodes, heq]

/-- The codes after step 4. -/
theorem createExpectedCodes_eq (rows : RowOrder) (n : ℕ)
    (hcodes : (cat.contract c).isSsoFree = false) (db : CodeStore) :
    createExpectedCodes cat rows n c db =
      ⟨if (cat.contract c).expectedCodesCount n ≠ (db.getDiscounts cat c).length then
        (ensureEnrollmentCodesExist cat rows c (CodeTally.start db)).state.db else db, none⟩ := by
  unfold createExpectedCodes
  dsimp only
  split
  · rw [ensureEnrollmentCodesExist_returns rows hcodes]
  · rfl

theorem validateCodes_eq (rows : RowOrder) (n : ℕ) (hcodes : (cat.contract c).isSsoFree = false)
    (db : CodeStore) : validateCodes cat rows n c db =
      ⟨(createExpectedCodes cat rows n c db).state.fixSettings cat c, none⟩ := by
  have hreturns : (createExpectedCodes cat rows n c db).error = none := by
    rw [createExpectedCodes_eq rows n hcodes]
  unfold validateCodes
  rw [hcodes, if_neg (by simp), andThen_of_ok hreturns]

theorem validateCodes_isRequired (rows : RowOrder) (n : ℕ)
    (hcodes : (cat.contract c).isSsoFree = false)
    (hd : d ∈ (validateCodes cat rows n c db).state.getDiscounts cat c) :
    IsRequired (cat.contract c) ((validateCodes cat rows n c db).state.discounts.row d) := by
  rw [validateCodes_eq rows n hcodes] at hd ⊢
  rw [(fixSettings_rowsKept cat c _).getDiscounts] at hd
  exact fixSettings_isRequired hd

/-- A run of `ensure_enrollment_codes_exist` writes nothing. -/
def Leaves (cat : Catalog) (rows : RowOrder) (c : ContractId) (db : CodeStore) : Prop :=
  (ensureEnrollmentCodesExist cat rows c (CodeTally.start db)).state.db = db

/-- A second run changes nothing if there are as many codes as expected or nothing is left to do. -/
theorem validateCodes_again (hcodes : (cat.contract c).isSsoFree = false)
    (h : (cat.contract c).expectedCodesCount n = (db.getDiscounts cat c).length ∨
      Leaves cat rows' c ((ensureEnrollmentCodesExist cat rows c
        (CodeTally.start db)).state.db.fixSettings cat c)) :
    validateCodes cat rows' n c (validateCodes cat rows n c db).state =
      ⟨(validateCodes cat rows n c db).state, none⟩ := by
  rw [validateCodes_eq rows n hcodes, validateCodes_eq rows' n hcodes]
  have hsame : ((createExpectedCodes cat rows' n c
      ((createExpectedCodes cat rows n c db).state.fixSettings cat c)).state) =
      (createExpectedCodes cat rows n c db).state.fixSettings cat c := by
    rw [createExpectedCodes_eq rows n hcodes, createExpectedCodes_eq rows' n hcodes]
    dsimp only
    by_cases hcount : (cat.contract c).expectedCodesCount n = (db.getDiscounts cat c).length
    · rw [if_neg (not_not.mpr hcount), (fixSettings_rowsKept cat c db).getDiscounts,
        if_neg (not_not.mpr hcount)]
    · rw [if_pos hcount]
      split
      · exact h.resolve_left hcount
      · rfl
  rw [hsame, fixSettings_idem]

/-- With unlimited seats a second run finds nothing to do. -/
theorem leaves_of_unlimited (hids : cat.productIds.Nodup)
    (hcodes : (cat.contract c).isSsoFree = false) (hcap : (cat.contract c).learnerCap = 0)
    (db : CodeStore) : Leaves cat rows' c ((ensureEnrollmentCodesExist cat rows c
      (CodeTally.start db)).state.db.fixSettings cat c) := by
  have hsettled : ∀ p ∈ rows'.products (contractProducts cat c),
      SettledUnlimited (cat.contract c) p ((ensureEnrollmentCodesExist cat rows c
        (CodeTally.start db)).state.db.fixSettings cat c) := by
    intro p hp
    have hp' := (rows'.products_perm _).mem_iff.mp hp
    refine (fixSettings_rowsKept cat c _).settledUnlimited (fun d hd => ?_)
      (settled_of_unlimited rows hids hcodes hcap hp' db)
    refine foldl_setCode_row _ ⟨?_, hd.amount⟩
    rw [hd.redemptionType]
    unfold ContractPage.codeRedemptionType
    rw [if_pos hcap]
  unfold Leaves
  rw [ensureEnrollmentCodesExist_of_codes rows' hcodes]
  exact (seq_of_settledUnlimited rows' hcap hsettled).1

/-- With limited seats a second run finds nothing to do where the seats are stable. -/
theorem leaves_of_stable (hids : cat.productIds.Nodup)
    (hcodes : (cat.contract c).isSsoFree = false) (hcap : (cat.contract c).learnerCap ≠ 0)
    (hstable : SeatsStable cat c db) : Leaves cat rows' c ((ensureEnrollmentCodesExist cat rows c
      (CodeTally.start db)).state.db.fixSettings cat c) := by
  have hsettled := fun p hp => settled_of_stable rows hids hcodes hcap hstable (p := p) hp
  have hfix : (ensureEnrollmentCodesExist cat rows c
      (CodeTally.start db)).state.db.fixSettings cat c =
      (ensureEnrollmentCodesExist cat rows c (CodeTally.start db)).state.db := by
    refine fixSettings_of_isRequired fun d hd => ?_
    obtain ⟨hkey, hpos⟩ := mem_getDiscounts.mp hd
    obtain ⟨product, hproduct, hcontract⟩ := productRows_pos.mp hpos
    obtain ⟨p, rfl, hp⟩ := (Option.any_eq_true _ _).mp hcontract
    have hcode := (hsettled p (of_decide_eq_true hp)).isCode d (mem_codesFor.mpr ⟨hkey, hproduct⟩)
    refine ⟨?_, hcode.amount⟩
    rw [hcode.redemptionType]
    unfold ContractPage.codeRedemptionType
    rw [if_neg hcap]
  rw [hfix]
  unfold Leaves
  rw [ensureEnrollmentCodesExist_of_codes rows' hcodes]
  have hdone := seq_of_settled (t := CodeTally.start (ensureEnrollmentCodesExist cat rows c
    (CodeTally.start db)).state.db) rows' hcap (fun p hp => (rows'.products_perm _).mem_iff.mp hp)
    fun p hp => hsettled p ((rows'.products_perm _).mem_iff.mp hp)
  exact hdone.1

/-! ## Managed contracts without a price -/

/-- Discounts that nobody has used are gone, and the others are as they were. -/
structure UnusedGone (ds : List DiscountId) (db db' : CodeStore) : Prop where
  keys : db'.discounts.keys = db.discounts.keys.filter fun d => decide (d ∉ ds)
  row : ∀ d, db'.discounts.row d = db.discounts.row d
  used : ∀ d, db'.isUsed d = db.isUsed d

theorem foldl_withoutDiscount {ds : List DiscountId} (h : ∀ d ∈ ds, db.isUsed d = false) :
    UnusedGone ds db (ds.foldl withoutDiscount db) := by
  induction ds generalizing db with
  | nil => exact ⟨by simp, fun _ => rfl, fun _ => rfl⟩
  | cons d rest ih =>
    have hused : ∀ d', (db.withoutDiscount d).isUsed d' = db.isUsed d' :=
      isUsed_withoutDiscount (h d List.mem_cons_self)
    have hunused : ∀ d' ∈ rest, (db.withoutDiscount d).isUsed d' = false := by
      intro d' hd'
      rw [hused]
      exact h d' (List.mem_cons_of_mem d hd')
    obtain ⟨hkeys, hrow, hrest⟩ := ih hunused
    refine ⟨?_, fun d' => hrow d', fun d' => (hrest d').trans (hused d')⟩
    have herase : (db.withoutDiscount d).discounts.keys = db.discounts.keys.filter (· != d) := rfl
    rw [List.foldl_cons, hkeys, herase, List.filter_filter]
    refine List.filter_congr fun d' _ => ?_
    rw [Bool.eq_iff_iff, Bool.and_eq_true, decide_eq_true_iff, decide_eq_true_iff, bne_iff_ne,
      List.mem_cons, not_or, and_comm]

theorem mem_getUnusedDiscounts : d ∈ db.getUnusedDiscounts cat c ↔
    d ∈ db.discounts.keys ∧ 0 < db.productRows d (ofContract cat c) ∧ db.isUsed d = false := by
  unfold getUnusedDiscounts
  rw [List.mem_filter, Bool.and_eq_true, decide_eq_true_iff, Bool.not_eq_true']

/-- What step 4 leaves. -/
theorem removeUnusedCodes_cases (cat : Catalog) (c : ContractId) (db : CodeStore) :
    ((db.getUnusedDiscounts cat c).length < (db.getDiscounts cat c).length ∧
        UnusedGone (db.getUnusedDiscounts cat c) db (db.removeUnusedCodes cat c)) ∨
      (¬(db.getUnusedDiscounts cat c).length < (db.getDiscounts cat c).length ∧
        db.removeUnusedCodes cat c = db) := by
  unfold removeUnusedCodes
  dsimp only
  by_cases hmore : (db.getUnusedDiscounts cat c).length < (db.getDiscounts cat c).length
  · rw [if_pos hmore]
    exact Or.inl ⟨hmore, foldl_withoutDiscount fun d hd => (mem_getUnusedDiscounts.mp hd).2.2⟩
  · rw [if_neg hmore]
    exact Or.inr ⟨hmore, rfl⟩

/-- Used codes are not touched. -/
theorem removeUnusedCodes_used (hd : d ∈ db.discounts.keys) (hused : db.isUsed d = true) :
    d ∈ (db.removeUnusedCodes cat c).discounts.keys ∧
      (db.removeUnusedCodes cat c).discounts.row d = db.discounts.row d ∧
        (db.removeUnusedCodes cat c).isUsed d = true := by
  rcases removeUnusedCodes_cases cat c db with ⟨-, hgone⟩ | ⟨-, hsame⟩
  · refine ⟨?_, hgone.row d, (hgone.used d).trans hused⟩
    rw [hgone.keys, List.mem_filter, decide_eq_true_iff]
    refine ⟨hd, fun hunused => ?_⟩
    rw [(mem_getUnusedDiscounts.mp hunused).2.2] at hused
    cases hused
  · rw [hsame]
    exact ⟨hd, rfl, hused⟩

/-- No unused code is left exactly if there was none or the rows of all codes outnumber them. -/
theorem removeUnusedCodes_eq_nil_iff :
    (db.removeUnusedCodes cat c).getUnusedDiscounts cat c = [] ↔ db.getUnusedDiscounts cat c = [] ∨
      (db.getUnusedDiscounts cat c).length < (db.getDiscounts cat c).length := by
  rcases removeUnusedCodes_cases cat c db with ⟨hmore, hgone⟩ | ⟨hless, hsame⟩
  · refine iff_of_true ?_ (Or.inr hmore)
    refine List.eq_nil_iff_forall_not_mem.mpr fun d hd => ?_
    obtain ⟨hkey, hpos, hunused⟩ := mem_getUnusedDiscounts.mp hd
    rw [hgone.keys, List.mem_filter, decide_eq_true_iff] at hkey
    refine hkey.2 (mem_getUnusedDiscounts.mpr ⟨hkey.1, ?_, ?_⟩)
    · unfold productRows at hpos ⊢
      rwa [hgone.row] at hpos
    · rw [← hgone.used]
      exact hunused
  · rw [hsame]
    exact (or_iff_left hless).symm

/-- A second run removes nothing if nothing was left to remove. -/
theorem removeUnusedCodes_of_nil (h : db.getUnusedDiscounts cat c = []) :
    db.removeUnusedCodes cat c = db := by
  unfold removeUnusedCodes
  dsimp only
  rw [h]
  split <;> rfl

/-! ## Products -/

namespace Products

/-- The products stay, up to their prices. -/
def Extended (products products' : Products) : Prop :=
  ∀ p ∈ products.table.keys, p ∈ products'.table.keys ∧
    (products'.table.row p).contentType = (products.table.row p).contentType ∧
    (products'.table.row p).objectId = (products.table.row p).objectId ∧
    (products'.table.row p).isActive = (products.table.row p).isActive

theorem Extended.trans {products'' : Products} (h : Extended products products')
    (h' : Extended products' products'') : Extended products products'' := by
  intro p hp
  obtain ⟨hmem, htype, hobject, hactive⟩ := h p hp
  obtain ⟨hmem', htype', hobject', hactive'⟩ := h' p hmem
  exact ⟨hmem', htype'.trans htype, hobject'.trans hobject, hactive'.trans hactive⟩

theorem extended_refl (products : Products) : Extended products products :=
  fun _ hp => ⟨hp, rfl, rfl, rfl⟩

theorem mem_ofContract : p ∈ products.ofContract runs c ↔ p ∈ products.table.keys ∧
    (products.table.row p).isActive = true ∧ (products.table.row p).contentType = .courseRun ∧
      (products.table.row p).objectId ∈ runs.contractRuns c := by
  unfold ofContract
  rw [List.mem_filter, Bool.and_eq_true, Bool.and_eq_true, beq_iff_eq, List.contains_iff_mem,
    and_assoc]

/-- Among the products that were there, those of a contract stay the same ones. -/
theorem Extended.mem_ofContract_iff (h : Extended products products') (hp : p ∈ products.table.keys) :
    p ∈ products'.ofContract runs c ↔ p ∈ products.ofContract runs c := by
  obtain ⟨hmem, htype, hobject, hactive⟩ := h p hp
  rw [mem_ofContract, mem_ofContract, htype, hobject, hactive, and_iff_right hmem, and_iff_right hp]

/-- Every run of the contract has a product, and all are at its price. -/
structure Ready (contract : ContractPage) (runs : CourseRuns) (c : ContractId) (products : Products) :
    Prop where
  runsWithout : products.runsWithout runs c = []
  withBadPricing : products.withBadPricing contract runs c = []

theorem priced_row (ps : List ProductId) (price : Decimal 2) (p : ProductId) :
    (products.priced ps price).table.row p =
      if p ∈ ps then { products.table.row p with price } else products.table.row p := rfl

theorem priced_extended (ps : List ProductId) (price : Decimal 2) :
    Extended products (products.priced ps price) := by
  intro p hp
  rw [priced_row]
  split
  · exact ⟨hp, rfl, rfl, rfl⟩
  · exact ⟨hp, rfl, rfl, rfl⟩

theorem mem_priced_ofContract {ps : List ProductId} {price : Decimal 2} :
    p ∈ (products.priced ps price).ofContract runs c ↔ p ∈ products.ofContract runs c := by
  by_cases hp : p ∈ products.table.keys
  · exact (priced_extended ps price).mem_ofContract_iff hp
  · rw [mem_ofContract, mem_ofContract]
    exact iff_of_false (fun h => hp h.1) (fun h => hp h.1)

/-- All products of the contract are at its price then. -/
theorem priced_withBadPricing : (products.priced (products.ofContract runs c)
    contract.runPrice).withBadPricing contract runs c = [] := by
  unfold withBadPricing
  refine List.filter_eq_nil_iff.mpr fun p hp => ?_
  rw [priced_row, if_pos (mem_priced_ofContract.mp hp)]
  simp

theorem priced_runsWithout {ps : List ProductId} {price : Decimal 2}
    (h : products.runsWithout runs c = []) : (products.priced ps price).runsWithout runs c = [] := by
  refine List.eq_nil_iff_forall_not_mem.mpr fun r hr => ?_
  obtain ⟨hrun, hnone⟩ := mem_runsWithout.mp hr
  have hmem : r ∈ products.runsWithout runs c := by
    refine mem_runsWithout.mpr ⟨hrun, fun p hp hactive => ?_⟩
    obtain ⟨hp', htype, hobject, hactive'⟩ := priced_extended ps price p hp
    have hsells := hnone p hp' (hactive'.trans hactive)
    unfold Product.sellsRun at hsells ⊢
    rwa [htype, hobject] at hsells
  rw [h] at hmem
  exact List.not_mem_nil hmem

/-- When `ensure_contract_run_products` returns, every run has a product. -/
theorem runsWithout_after
    (h : (ensureContractRunProducts contract runs c products).error = none) :
    (ensureContractRunProducts contract runs c products).state.products.runsWithout runs c = [] := by
  refine List.eq_nil_iff_forall_not_mem.mpr fun r hr => ?_
  obtain ⟨hrun, hnone⟩ := mem_runsWithout.mp hr
  have hkept : ProductsKept ⟨products, []⟩ (ensureContractRunProducts contract runs c products).state :=
    productsKept contract runs c
  have hsold : r ∈ products.runsWithout runs c := by
    refine mem_runsWithout.mpr ⟨hrun, fun p hp hactive => ?_⟩
    obtain ⟨hp', hrow⟩ := hkept p hp
    rw [← hrow]
    refine hnone p hp' ?_
    rw [hrow]
    exact hactive
  rw [ensureContractRunProducts_eq] at h hnone
  obtain ⟨p, hp, hrow⟩ := createRunProducts_sells h hsold
  have hsells := hnone p hp (by rw [hrow]; rfl)
  rw [hrow, runProduct_sellsRun.mpr rfl] at hsells
  cases hsells

theorem extended_after : Extended products
    (ensureContractRunProducts contract runs c products).state.products := by
  intro p hp
  obtain ⟨hp', hrow⟩ := productsKept contract runs c p hp
  exact ⟨hp', by rw [hrow], by rw [hrow], by rw [hrow]⟩

end Products

/-- The products of a contract in the catalog are those of the table. -/
theorem contractProducts_withProducts (cat : Catalog) (runs : CourseRuns) (products : Products)
    (c : ContractId) :
    contractProducts (cat.withProducts runs products) c = products.ofContract runs c := by
  unfold contractProducts Products.ofContract
  refine List.filter_congr fun p hp => ?_
  have hrow : (cat.withProducts runs products).product p = products.table.row p :=
    Products.product_of_mem hp
  have hrun : ∀ r, ((cat.withProducts runs products).courseRun r).b2bContract = some c ↔
      r ∈ runs.contractRuns c := by
    intro r
    unfold CourseRuns.contractRuns Catalog.withProducts
    rw [List.mem_filter, Bool.and_eq_true, beq_iff_eq, ← and_assoc]
    dsimp only
    split
    · rename_i husable
      rw [and_iff_right husable]
    · rename_i hnot
      exact iff_of_false (by simp) fun h => hnot h.1
  unfold productContract
  rw [hrow, Bool.eq_iff_iff]
  cases htype : (products.table.row p).contentType with
  | courseRun => simp [hrun]
  | program => simp

/-! ## Other products -/

/-- The products of the discounts exist. -/
def ContractDb.ProductsExist (db : ContractDb) : Prop :=
  ∀ d ∈ db.codes.discounts.keys, ∀ p, some p ∈ (db.codes.discounts.row d).products →
    p ∈ db.products.table.keys

/-- Two catalogs agree on the contract and on which products of codes are the contract's. -/
structure AgreesOnCodes (cat cat' : Catalog) (c : ContractId) (db : CodeStore) : Prop where
  contract : cat'.contract c = cat.contract c
  products : ∀ d ∈ db.discounts.keys, ∀ p, some p ∈ (db.discounts.row d).products →
    (p ∈ contractProducts cat' c ↔ p ∈ contractProducts cat c)

section Agrees

variable {cat' : Catalog} (h : AgreesOnCodes cat cat' c db)

include h

theorem AgreesOnCodes.productRows (hd : d ∈ db.discounts.keys) :
    db.productRows d (ofContract cat' c) = db.productRows d (ofContract cat c) := by
  refine List.countP_congr fun product hproduct => ?_
  cases product with
  | none => rfl
  | some p => simp [ofContract, h.products d hd p hproduct]

theorem AgreesOnCodes.getDiscounts : db.getDiscounts cat' c = db.getDiscounts cat c := by
  unfold CodeStore.getDiscounts
  rw [List.flatMap_def, List.flatMap_def]
  congr 1
  exact List.map_congr_left fun d hd => by rw [h.productRows hd]

theorem AgreesOnCodes.getUnusedDiscounts :
    db.getUnusedDiscounts cat' c = db.getUnusedDiscounts cat c := by
  unfold CodeStore.getUnusedDiscounts
  exact List.filter_congr fun d hd => by rw [h.productRows hd]

theorem AgreesOnCodes.codeCount (p : ProductId) :
    codeCount cat' c p db = MitxOnline.codeCount cat c p db := by
  unfold MitxOnline.codeCount
  rw [h.getDiscounts]

theorem AgreesOnCodes.usedPairs (p : ProductId) : db.usedPairs cat' c p = db.usedPairs cat c p := by
  unfold CodeStore.usedPairs
  congr 1
  refine List.map_congr_left fun d hd => ?_
  have hkey := (mem_codesFor.mp (List.mem_filter.mp hd).1).1
  unfold rowPairs
  rw [h.productRows hkey]

/-- Seats are stable in one catalog if they are in the other. -/
theorem AgreesOnCodes.seatsStable (hstable : SeatsStable cat c db) : SeatsStable cat' c db := by
  have hsurplus : ∀ q, db.surplusCodes cat' c q = db.surplusCodes cat c q := by
    intro q
    unfold CodeStore.surplusCodes
    rw [h.contract, h.codeCount]
  have hmem : ∀ {p d}, p ∈ contractProducts cat' c → d ∈ db.codesFor p →
      p ∈ contractProducts cat c := by
    intro p d hp hd
    obtain ⟨hkey, hrow⟩ := mem_codesFor.mp hd
    exact (h.products d hkey p hrow).mp hp
  intro p hp
  rw [h.contract, h.usedPairs]
  by_cases hp' : p ∈ contractProducts cat c
  · refine (hstable p hp').imp_right fun hsingle q hq d hd hcode => ?_
    rw [hsurplus] at hd
    rw [h.productRows (mem_codesFor.mp hcode).1]
    exact hsingle q (hmem hq (mem_extraCodes hd).1) d hd hcode
  · exact Or.inr fun q _ d _ hcode => absurd (hmem hp hcode) hp'

end Agrees

/-! ## The command -/

section Command

variable {before after : ContractDb}

theorem validateProducts_spec (h : (validateProducts cat runs c before).error = none) :
    ∃ products, (validateProducts cat runs c before).state = { before with products } ∧
      products.runsWithout runs c = [] ∧ before.products.Extended products := by
  unfold validateProducts at h ⊢
  dsimp only at h ⊢
  by_cases hnone : (before.products.runsWithout runs c).length > 0
  · rw [if_pos hnone] at h ⊢
    exact ⟨_, rfl, Products.runsWithout_after h, Products.extended_after⟩
  · rw [if_neg hnone]
    have hnil : before.products.runsWithout runs c = [] :=
      List.length_eq_zero_iff.mp (Nat.eq_zero_of_not_pos hnone)
    exact ⟨before.products, rfl, hnil, Products.extended_refl _⟩

theorem validatePricing_spec (hruns : before.products.runsWithout runs c = [])
    (h : (validatePricing cat runs c before).error = none) :
    ∃ products, (validatePricing cat runs c before).state = { before with products } ∧
      products.Ready (cat.contract c) runs c ∧ before.products.Extended products := by
  unfold validatePricing at h ⊢
  by_cases hbad : (before.products.withBadPricing (cat.contract c) runs c).length > 0
  · rw [if_pos hbad] at h ⊢
    unfold Products.ensureContractRunPricing statement at h ⊢
    dsimp only at h ⊢
    by_cases hfits : before.products.ofContract runs c = [] ∨ fitsPriceColumn (cat.contract c).runPrice
    · rw [if_pos hfits]
      exact ⟨_, rfl, ⟨Products.priced_runsWithout hruns, Products.priced_withBadPricing⟩,
        Products.priced_extended _ _⟩
    · rw [if_neg hfits] at h
      cases h
  · rw [if_neg hbad]
    have hnil : before.products.withBadPricing (cat.contract c) runs c = [] :=
      List.length_eq_zero_iff.mp (Nat.eq_zero_of_not_pos hbad)
    exact ⟨before.products, rfl, ⟨hruns, hnil⟩, Products.extended_refl _⟩

theorem handleValidate_single (rows : RowOrder) (c : ContractId) (before : ContractDb) :
    handleValidate cat runs rows [c] before = validateContract cat runs rows c before := by
  unfold handleValidate
  rw [List.map_singleton, seq_singleton]

/-- Where the products are ready, the command goes on to the codes. -/
theorem validateContract_of_ready (hready : before.products.Ready (cat.contract c) runs c) :
    validateContract cat runs rows c before = validateContractCodes cat runs rows c before := by
  have hfirst : validateProducts cat runs c before = ⟨before, none⟩ := by
    unfold validateProducts
    rw [hready.runsWithout, if_neg (by simp)]
  have hsecond : validatePricing cat runs c before = ⟨before, none⟩ := by
    unfold validatePricing
    rw [hready.withBadPricing, if_neg (by simp)]
  unfold validateContract
  rw [seq_cons, andThen_of_ok (by rw [hfirst]), hfirst, seq_cons, andThen_of_ok (by rw [hsecond]),
    hsecond, seq_singleton]

/-- When the command completes, the products are ready and the codes are repaired. -/
theorem validateContract_spec (h : (validateContract cat runs rows c before).error = none) :
    ∃ products, products.Ready (cat.contract c) runs c ∧ before.products.Extended products ∧
      validateContract cat runs rows c before =
        validateContractCodes cat runs rows c { before with products } := by
  unfold validateContract at h
  obtain ⟨hfirst, hrest⟩ := seq_cons_error h
  obtain ⟨hsecond, -⟩ := seq_cons_error hrest
  obtain ⟨products1, hstate1, hruns, hextended1⟩ := validateProducts_spec hfirst
  rw [hstate1] at hsecond
  obtain ⟨products2, hstate2, hready, hextended2⟩ := validatePricing_spec hruns hsecond
  refine ⟨products2, hready, hextended1.trans hextended2, ?_⟩
  unfold validateContract
  rw [seq_cons, andThen_of_ok hfirst, hstate1, seq_cons, andThen_of_ok hsecond, hstate2, seq_singleton]

/-- Before and after products are made and priced, the codes are those of the same contract. -/
theorem agreesOnCodes (hexist : before.ProductsExist)
    (hextended : before.products.Extended products) :
    AgreesOnCodes (before.catalog cat runs) (cat.withProducts runs products) c before.codes := by
  refine ⟨rfl, fun d hd p hrow => ?_⟩
  unfold ContractDb.catalog
  rw [contractProducts_withProducts, contractProducts_withProducts]
  exact hextended.mem_ofContract_iff (hexist d hd p hrow)

/-- What a run of the command is for. No unused code is left to a managed contract without a price, and no
used code is changed; all codes of another contract have its type and price; and another run changes
nothing. -/
structure RulesRestored (cat : Catalog) (runs : CourseRuns) (rows' : RowOrder) (c : ContractId)
    (before after : ContractDb) : Prop where
  unused : (cat.contract c).isSsoFree = true →
    after.codes.getUnusedDiscounts (after.catalog cat runs) c = []
  used : (cat.contract c).isSsoFree = true → ∀ d ∈ before.codes.discounts.keys,
    before.codes.isUsed d = true → d ∈ after.codes.discounts.keys ∧
      after.codes.discounts.row d = before.codes.discounts.row d ∧ after.codes.isUsed d = true
  required : (cat.contract c).isSsoFree = false →
    ∀ d ∈ after.codes.getDiscounts (after.catalog cat runs) c,
      (after.codes.discounts.row d).redemptionType = (cat.contract c).codeRedemptionType ∧
        (after.codes.discounts.row d).amount = (cat.contract c).codeAmount
  again : handleValidate cat runs rows' [c] after = ⟨after, none⟩

/-- The command can repair the codes: a managed contract without a price has no unused codes, or its codes
have more rows than there are unused ones; and a contract with limited seats has as many codes as expected,
or codes that are not counted twice where it matters. -/
structure Repairable (cat : Catalog) (runs : CourseRuns) (c : ContractId) (before : ContractDb) :
    Prop where
  unused : (cat.contract c).isSsoFree = true →
    before.codes.getUnusedDiscounts (before.catalog cat runs) c = [] ∨
      (before.codes.getUnusedDiscounts (before.catalog cat runs) c).length <
        (before.codes.getDiscounts (before.catalog cat runs) c).length
  seats : (cat.contract c).isSsoFree = false → (cat.contract c).learnerCap ≠ 0 →
    (cat.contract c).expectedCodesCount (runs.contractRuns c).length =
        (before.codes.getDiscounts (before.catalog cat runs) c).length ∨
      SeatsStable (before.catalog cat runs) c before.codes

/-- Where the products are ready, a run that leaves the codes changes nothing. -/
theorem handleValidate_again {codes : CodeStore} (hready : products.Ready (cat.contract c) runs c)
    (hagain : validateCodes (cat.withProducts runs products) rows' (runs.contractRuns c).length c
      codes = ⟨codes, none⟩) :
    handleValidate cat runs rows' [c] ⟨products, codes⟩ = ⟨⟨products, codes⟩, none⟩ := by
  rw [handleValidate_single, validateContract_of_ready hready]
  unfold validateContractCodes ContractDb.catalog
  rw [hagain]

/-- The rules of a managed contract without a price are restored exactly if its unused codes are gone. -/
theorem rulesRestored_of_free (hfree : (cat.contract c).isSsoFree = true)
    (hready : products.Ready (cat.contract c) runs c) :
    RulesRestored cat runs rows' c before
      (validateContractCodes cat runs rows c { before with products }).state ↔
      (before.codes.removeUnusedCodes (cat.withProducts runs products) c).getUnusedDiscounts
        (cat.withProducts runs products) c = [] := by
  have hcodes : ∀ rows codes, validateCodes (cat.withProducts runs products) rows
      (runs.contractRuns c).length c codes =
      ⟨codes.removeUnusedCodes (cat.withProducts runs products) c, none⟩ := fun _ _ => if_pos hfree
  have hstate : (validateContractCodes cat runs rows c { before with products }).state =
      ⟨products, before.codes.removeUnusedCodes (cat.withProducts runs products) c⟩ := by
    unfold validateContractCodes ContractDb.catalog
    rw [hcodes]
  rw [hstate]
  constructor
  · intro hrestored
    exact hrestored.unused hfree
  · intro hnil
    refine ⟨fun _ => hnil, fun _ d hd hused => removeUnusedCodes_used hd hused,
      fun hother => ?_, handleValidate_again hready ?_⟩
    · rw [hfree] at hother
      cases hother
    · rw [hcodes, removeUnusedCodes_of_nil hnil]

/-- The rules of another contract are restored if a second run finds nothing to do. -/
theorem rulesRestored_of_codes (hcodes : (cat.contract c).isSsoFree = false)
    (hready : products.Ready (cat.contract c) runs c)
    (hcount : (cat.contract c).expectedCodesCount (runs.contractRuns c).length =
        (before.codes.getDiscounts (cat.withProducts runs products) c).length ∨
      Leaves (cat.withProducts runs products) rows' c
        ((ensureEnrollmentCodesExist (cat.withProducts runs products) rows c
          (CodeTally.start before.codes)).state.db.fixSettings (cat.withProducts runs products) c)) :
    RulesRestored cat runs rows' c before
      (validateContractCodes cat runs rows c { before with products }).state := by
  have hcodes' : ((cat.withProducts runs products).contract c).isSsoFree = false := hcodes
  refine ⟨fun hfree => ?_, fun hfree => ?_, fun _ d hd => ?_,
    handleValidate_again hready (validateCodes_again hcodes' hcount)⟩
  · rw [hcodes] at hfree
    cases hfree
  · rw [hcodes] at hfree
    cases hfree
  · have hrequired := validateCodes_isRequired rows (runs.contractRuns c).length hcodes' hd
    exact ⟨hrequired.redemptionType, hrequired.amount⟩

/-- Where the command completes, it restores the rules if it can repair the codes; and for a managed
contract without a price, only then. -/
theorem validate_restores_rules (cat : Catalog) (runs : CourseRuns) (rows rows' : RowOrder)
    (c : ContractId) (before : ContractDb) (hexist : before.ProductsExist)
    (hcompletes : (handleValidate cat runs rows [c] before).error = none) :
    (Repairable cat runs c before →
      RulesRestored cat runs rows' c before (handleValidate cat runs rows [c] before).state) ∧
    ((cat.contract c).isSsoFree = true →
      RulesRestored cat runs rows' c before (handleValidate cat runs rows [c] before).state →
        Repairable cat runs c before) := by
  rw [handleValidate_single] at hcompletes ⊢
  obtain ⟨products, hready, hextended, heq⟩ := validateContract_spec hcompletes
  have hagrees : AgreesOnCodes (before.catalog cat runs) (cat.withProducts runs products) c
      before.codes := agreesOnCodes hexist hextended
  have hdiscounts : before.codes.getDiscounts (cat.withProducts runs products) c =
      before.codes.getDiscounts (before.catalog cat runs) c := hagrees.getDiscounts
  rw [heq]
  cases hfree : (cat.contract c).isSsoFree with
  | true =>
    rw [rulesRestored_of_free hfree hready, removeUnusedCodes_eq_nil_iff, hdiscounts,
      hagrees.getUnusedDiscounts]
    constructor
    · intro hrepair
      exact hrepair.unused hfree
    · intro _ hunused
      refine ⟨fun _ => hunused, fun hother => ?_⟩
      rw [hfree] at hother
      cases hother
  | false =>
    refine ⟨fun hrepair => rulesRestored_of_codes hfree hready ?_, fun hother => by cases hother⟩
    have hids : (cat.withProducts runs products).productIds.Nodup := products.table.keys_nodup
    by_cases hcap : (cat.contract c).learnerCap = 0
    · exact Or.inr (leaves_of_unlimited hids hfree hcap before.codes)
    · rw [hdiscounts]
      refine (hrepair.seats hfree hcap).imp_right fun hstable => ?_
      exact leaves_of_stable hids hfree hcap (hagrees.seatsStable hstable)

end Command

/-- One code for the product of the run of contract 5, which nobody has used. -/
def oneUnusedCode : ContractDb :=
  ⟨⟨Table.single 1 (runProduct ⟨0⟩ 1), by decide⟩, oneCode [some 1]⟩

theorem oneUnusedCode_productsExist : oneUnusedCode.ProductsExist := by
  intro d _ p hp
  have hsome : some p = some 1 := List.mem_singleton.mp hp
  rw [Option.some_inj.mp hsome]
  exact List.mem_singleton_self 1

theorem validate_restores_rules_oneUnusedCode :
    (Repairable threeSeatsCatalog loneRuns 5 oneUnusedCode →
      RulesRestored threeSeatsCatalog loneRuns (RowOrder.first 1 1) 5 oneUnusedCode
        (handleValidate threeSeatsCatalog loneRuns (RowOrder.first 1 1) [5] oneUnusedCode).state) ∧
    ((threeSeatsCatalog.contract 5).isSsoFree = true →
      RulesRestored threeSeatsCatalog loneRuns (RowOrder.first 1 1) 5 oneUnusedCode
        (handleValidate threeSeatsCatalog loneRuns (RowOrder.first 1 1) [5] oneUnusedCode).state →
          Repairable threeSeatsCatalog loneRuns 5 oneUnusedCode) :=
  validate_restores_rules threeSeatsCatalog loneRuns (RowOrder.first 1 1) (RowOrder.first 1 1) 5
    oneUnusedCode oneUnusedCode_productsExist (by decide +kernel)

/-- The contract should have no codes, but its only one stays. -/
theorem unused_code_stays :
    ¬∀ (cat : Catalog) (runs : CourseRuns) (rows rows' : RowOrder) (c : ContractId)
      (before : ContractDb), before.ProductsExist →
      (handleValidate cat runs rows [c] before).error = none →
        RulesRestored cat runs rows' c before (handleValidate cat runs rows [c] before).state := by
  intro h
  have hrestored := h managedCatalog loneRuns (RowOrder.first 1 1) (RowOrder.first 1 1) 5 oneUnusedCode
    oneUnusedCode_productsExist (by decide +kernel)
  exact absurd (hrestored.unused (by decide)) (by decide +kernel)

end MitxOnline

import MitxOnline.B2b.Proofs.UsedCodesProofs
import MitxOnline.Lib.Proofs.FoldsProofs

/-!
# How many enrollment codes a product gets

The queries count a code once for every pair of its rows, one for a product of the contract and one
for the product that is worked on. So a product gets as many codes as there are seats, or as are used
if these are more, exactly if each of its codes is counted once or the seats are all used.
-/

namespace MitxOnline

open Autocommit CodeStore

variable {cat : Catalog} {rows : RowOrder} {c : ContractId} {db db' : CodeStore} {t : CodeTally}
  {d : DiscountId} {p q : ProductId}

/-- The number of used codes of a product. -/
def CodeStore.usedCount (db : CodeStore) (p : ProductId) : ℕ := (db.codesFor p).countP db.isUsed

/-- The codes of a product are for the product once, and for no other product of the contract. -/
def SingleCodes (cat : Catalog) (c : ContractId) (p : ProductId) (db : CodeStore) : Prop :=
  ∀ d ∈ db.codesFor p, db.productRows d (ofContract cat c) = 1

/-! ## Counting rows -/

theorem codeCount_eq_sum (cat : Catalog) (c : ContractId) (p : ProductId) (db : CodeStore) :
    codeCount cat c p db = (db.discounts.keys.map fun d =>
      db.productRows d (ofContract cat c) * db.productRows d (· == some p)).sum := by
  unfold codeCount filterProduct getDiscounts
  rw [List.flatMap_assoc, List.length_flatMap]
  congr 1
  refine List.map_congr_left fun d _ => ?_
  rw [List.length_flatMap]
  simp

theorem codesFor_eq_filter (hp : p ∈ contractProducts cat c) :
    db.codesFor p = db.discounts.keys.filter fun d => decide
      (0 < db.productRows d (ofContract cat c) * db.productRows d (· == some p)) := by
  unfold codesFor
  refine List.filter_congr fun d _ => ?_
  rw [decide_eq_decide]
  constructor
  · intro hpos
    exact Nat.mul_pos (productRows_ofContract hp (productRows_some_pos.mp hpos)) hpos
  · exact Nat.pos_of_mul_pos_left

theorem length_codesFor_le (hp : p ∈ contractProducts cat c) (db : CodeStore) :
    (db.codesFor p).length ≤ codeCount cat c p db := by
  rw [codeCount_eq_sum, codesFor_eq_filter hp]
  exact Folds.length_filter_pos_le_sum _ _

theorem productRows_some_le (hp : p ∈ contractProducts cat c) (db : CodeStore) (d : DiscountId) :
    db.productRows d (· == some p) ≤ db.productRows d (ofContract cat c) := by
  refine List.countP_mono_left fun product _ hproduct => ?_
  rw [beq_iff_eq] at hproduct
  rw [hproduct]
  exact ofContract_some hp

/-- The rows are counted right exactly if no code of the product is counted more than once. -/
theorem codeCount_eq_length_iff (hp : p ∈ contractProducts cat c) :
    codeCount cat c p db = (db.codesFor p).length ↔ SingleCodes cat c p db := by
  rw [codeCount_eq_sum, codesFor_eq_filter hp, Folds.sum_eq_length_filter_pos_iff]
  unfold SingleCodes
  constructor
  · intro h d hd
    obtain ⟨hkey, hrow⟩ := mem_codesFor.mp hd
    have hle := h d hkey
    have hone := productRows_some_pos.mpr hrow
    have hcontract := productRows_ofContract hp hrow
    have hmul := Nat.le_mul_of_pos_right (db.productRows d (ofContract cat c)) hone
    omega
  · intro h d hkey
    by_cases hrow : some p ∈ (db.discounts.row d).products
    · have hone := h d (mem_codesFor.mpr ⟨hkey, hrow⟩)
      have hle := productRows_some_le hp db d
      rw [hone] at hle ⊢
      omega
    · have hzero : db.productRows d (· == some p) = 0 :=
        Nat.eq_zero_of_not_pos fun hpos => hrow (productRows_some_pos.mp hpos)
      rw [hzero]
      omega

/-! ## One product -/

theorem length_extraCodes (p : ProductId) (db : CodeStore) (n : ℕ) :
    (extraCodes p db n).length = min n ((db.codesFor p).length - db.usedCount p) := by
  have hsplit := List.length_eq_countP_add_countP db.isUsed (l := db.codesFor p)
  unfold extraCodes CodeStore.usedCount
  rw [List.length_take, List.length_reverse, ← List.countP_eq_length_filter]
  have hnot : (db.codesFor p).countP (fun d => !db.isUsed d) =
      (db.codesFor p).countP fun d => decide ¬db.isUsed d = true := by
    refine List.countP_congr fun d _ => ?_
    simp
  rw [hnot]
  omega

theorem usedCount_le_length (db : CodeStore) (p : ProductId) :
    db.usedCount p ≤ (db.codesFor p).length := List.countP_le_length

/-- How many codes the product has after its seats are handled. -/
theorem SeatsHandled.length (h : SeatsHandled cat c p db db') :
    (db'.codesFor p).length =
      if codeCount cat c p db ≤ (cat.contract c).learnerCap then
        (db.codesFor p).length + ((cat.contract c).learnerCap - codeCount cat c p db)
      else (db.codesFor p).length - min (codeCount cat c p db - (cat.contract c).learnerCap)
        ((db.codesFor p).length - db.usedCount p) := by
  by_cases hfew : codeCount cat c p db ≤ (cat.contract c).learnerCap
  · obtain ⟨news, hcodes, hlength⟩ := h.few hfew
    rw [if_pos hfew, hcodes, List.length_append, hlength]
  · have hcodes := h.many (by omega)
    have hnodup : (extraCodes p db (codeCount cat c p db - (cat.contract c).learnerCap)).Nodup :=
      ((List.nodup_reverse.mpr ((codesFor_nodup db p).filter _)).sublist (List.take_sublist _ _))
    have hrest := Folds.length_filter_notMem (codesFor_nodup db p) hnodup
      fun d hd => (mem_extraCodes hd).1
    rw [if_neg hfew, hcodes, ← length_extraCodes]
    omega

/-- The number is right exactly if the seats are all used or the codes are counted once. -/
theorem SeatsHandled.length_iff (h : SeatsHandled cat c p db db')
    (hp : p ∈ contractProducts cat c) :
    (db'.codesFor p).length = max (cat.contract c).learnerCap (db.usedCount p) ↔
      (cat.contract c).learnerCap ≤ db.usedCount p ∨ SingleCodes cat c p db := by
  have hle := length_codesFor_le hp db
  have hused := usedCount_le_length db p
  rw [h.length, ← codeCount_eq_length_iff hp]
  split <;> omega

/-! ## The other products -/

/-- The rows of a discount after the work on a product are among those that it had. -/
theorem Adjusted.sublist (h : Adjusted q db db') (hd : d ∈ db.discounts.keys) :
    (db'.discounts.row d).products.Sublist (db.discounts.row d).products := by
  rcases h.rows d hd with hsame | ⟨-, hother⟩
  · rw [hsame]
  · rw [hother]
    exact List.filter_sublist

/-- Single codes stay single. -/
theorem Adjusted.singleCodes (h : Adjusted q db db') (hp : p ∈ contractProducts cat c)
    (hsingle : SingleCodes cat c p db) : SingleCodes cat c p db' := by
  intro d hd
  obtain ⟨hkey, hrow⟩ := mem_codesFor.mp hd
  have hpos := productRows_ofContract hp hrow
  rcases h.new d hkey with hold | hnew
  · have hsub := h.sublist hold
    have hone := hsingle d (mem_codesFor.mpr ⟨hold, hsub.subset hrow⟩)
    have hle : db'.productRows d (ofContract cat c) ≤ db.productRows d (ofContract cat c) :=
      hsub.countP_le
    omega
  · have hle : db'.productRows d (ofContract cat c) ≤ 1 := by
      unfold CodeStore.productRows
      rw [hnew]
      exact List.countP_le_length
    omega

/-- The work on another product leaves the codes of a product. -/
theorem Adjusted.mem_codesFor_iff (h : Adjusted q db db') (hne : p ≠ q) (d : DiscountId) :
    d ∈ db'.codesFor p ↔ d ∈ db.codesFor p := by
  rw [mem_codesFor, mem_codesFor]
  have hother : ∀ d, some p ∈ (db.discounts.row d).products →
      some p ∈ otherProducts q (db.discounts.row d) := by
    intro d hrow
    exact List.mem_filter.mpr ⟨hrow, by simpa using hne⟩
  constructor
  · rintro ⟨hkey, hrow⟩
    rcases h.new d hkey with hold | hnew
    · exact ⟨hold, (h.sublist hold).subset hrow⟩
    · rw [hnew, List.mem_singleton, Option.some_inj] at hrow
      exact absurd hrow hne
  · rintro ⟨hkey, hrow⟩
    constructor
    · rcases h.kept d hkey with hkept | ⟨-, hempty⟩
      · exact hkept
      · have hleft := hother d hrow
        rw [hempty] at hleft
        exact absurd hleft List.not_mem_nil
    · rcases h.rows d hkey with hsame | ⟨-, hrest⟩
      · rw [hsame]
        exact hrow
      · rw [hrest]
        exact hother d hrow

/-- What counts for a product is as it was: its codes, which of them are used, and what the run has
written into them. -/
structure SameCodes (cat : Catalog) (c : ContractId) (p : ProductId) (db db' : CodeStore) : Prop where
  codes : ∀ d, d ∈ db'.codesFor p ↔ d ∈ db.codesFor p
  used : ∀ d, db'.isUsed d = db.isUsed d
  single : SingleCodes cat c p db → SingleCodes cat c p db'
  isCode : ∀ d ∈ db.codesFor p, IsCode (cat.contract c).codeAmount .oneTime (db.discounts.row d) →
    IsCode (cat.contract c).codeAmount .oneTime (db'.discounts.row d)

theorem sameCodes_frame (cat : Catalog) (c : ContractId) (p : ProductId) :
    IsFrame (SameCodes cat c p) := by
  constructor
  · intro db
    exact ⟨fun _ => Iff.rfl, fun _ => rfl, fun h => h, fun _ _ h => h⟩
  · intro db db' db'' h h'
    exact ⟨fun d => (h'.codes d).trans (h.codes d), fun d => (h'.used d).trans (h.used d),
      fun hsingle => h'.single (h.single hsingle),
      fun d hd hcode => h'.isCode d ((h.codes d).mpr hd) (h.isCode d hd hcode)⟩

theorem SameCodes.perm (h : SameCodes cat c p db db') : (db'.codesFor p).Perm (db.codesFor p) :=
  (List.perm_ext_iff_of_nodup (codesFor_nodup db' p) (codesFor_nodup db p)).mpr h.codes

theorem SameCodes.usedCount (h : SameCodes cat c p db db') : db'.usedCount p = db.usedCount p := by
  unfold CodeStore.usedCount
  rw [h.perm.countP_eq]
  refine List.countP_congr fun d _ => ?_
  rw [h.used]

/-- Handling the seats of a contract's product. -/
theorem ensureProductCodes_handled (rows : RowOrder) (hp : p ∈ contractProducts cat c)
    (hcap : (cat.contract c).learnerCap ≠ 0) (t : CodeTally) :
    (ensureProductCodes cat rows c p t).error = none ∧
      SeatsHandled cat c p t.db (ensureProductCodes cat rows c p t).state.db := by
  obtain ⟨t', heq, hhandled⟩ := handleLimitedSeats_spec (t := t) rows hp hcap
  unfold ensureProductCodes
  rw [if_neg hcap, heq]
  exact ⟨rfl, hhandled⟩

/-- The work on another product leaves what counts for a product. -/
theorem ensureProductCodes_sameCodes (rows : RowOrder) (hcap : (cat.contract c).learnerCap ≠ 0)
    (hp : p ∈ contractProducts cat c) (hq : q ∈ contractProducts cat c) (hne : q ≠ p) :
    Keeps (fun t t' => SameCodes cat c p t.db t'.db) (ensureProductCodes cat rows c q) := by
  intro t
  have hhandled := (ensureProductCodes_handled rows hq hcap t).2
  exact ⟨hhandled.adjusted.mem_codesFor_iff (Ne.symm hne), hhandled.adjusted.used,
    hhandled.adjusted.singleCodes hp, fun d hd hcode => hhandled.isCode d (mem_codesFor.mp hd).1 hcode⟩

/-- A run handles the seats of a product once, and leaves what counts for it before and after. -/
theorem seq_handles (rows : RowOrder) (hp : p ∈ contractProducts cat c)
    (hcap : (cat.contract c).learnerCap ≠ 0) {products : List ProductId} (hmem : p ∈ products)
    (hnodup : products.Nodup) (hproducts : ∀ q ∈ products, q ∈ contractProducts cat c)
    (t : CodeTally) : ∃ db1 db2, SameCodes cat c p t.db db1 ∧ SeatsHandled cat c p db1 db2 ∧
      SameCodes cat c p db2 (seq (products.map (ensureProductCodes cat rows c)) t).state.db := by
  obtain ⟨t1, hbefore, hafter⟩ := seq_once (isFrame_db (sameCodes_frame cat c p)) hmem hnodup
    (fun q hq t => (ensureProductCodes_handled rows (hproducts q hq) hcap t).1)
    (fun q hq hne => ensureProductCodes_sameCodes rows hcap hp (hproducts q hq) hne) t
  exact ⟨t1.db, _, hbefore, (ensureProductCodes_handled rows hp hcap t1).2, hafter⟩

/-! ## A second run -/

/-- Nothing is left to do for the product. -/
structure Settled (cat : Catalog) (c : ContractId) (p : ProductId) (db : CodeStore) : Prop where
  isCode : ∀ d ∈ db.codesFor p, IsCode (cat.contract c).codeAmount .oneTime (db.discounts.row d)
  enough : (cat.contract c).learnerCap ≤ codeCount cat c p db
  used : (cat.contract c).learnerCap < codeCount cat c p db → ∀ d ∈ db.codesFor p, db.isUsed d = true

theorem Settled.ensureProductCodes (rows : RowOrder) (hp : p ∈ contractProducts cat c)
    (hcap : (cat.contract c).learnerCap ≠ 0) (h : Settled cat c p t.db) :
    ∃ t', ensureProductCodes cat rows c p t = ⟨t', none⟩ ∧ t'.db = t.db ∧ t'.created = t.created := by
  have hdb : (updateCodes cat rows c p t).db = t.db := (updateCodes_spec rows hp).2.2 h.isCode
  have hcreated := updateCodes_created cat rows c p t
  unfold MitxOnline.ensureProductCodes
  rw [if_neg hcap, handleLimitedSeats_eq rows hcap, hdb]
  by_cases hmany : (cat.contract c).learnerCap < codeCount cat c p t.db
  · have hnone : extraCodes p (updateCodes cat rows c p t).db
        (codeCount cat c p (updateCodes cat rows c p t).db - (cat.contract c).learnerCap) = [] := by
      refine List.eq_nil_iff_forall_not_mem.mpr fun d hd => ?_
      obtain ⟨hcode, hunused⟩ := mem_extraCodes hd
      rw [hdb] at hcode hunused
      rw [h.used hmany d hcode] at hunused
      cases hunused
    rw [if_pos hmany, handleExtraEnrollmentCodes_eq hp hcap, hnone]
    exact ⟨_, rfl, hdb, hcreated⟩
  · have henough := h.enough
    have hzero : (cat.contract c).learnerCap - codeCount cat c p t.db = 0 := by omega
    rw [if_neg hmany, hzero]
    exact ⟨_, rfl, hdb, hcreated⟩

theorem seq_of_settled (rows : RowOrder) (hcap : (cat.contract c).learnerCap ≠ 0)
    {products : List ProductId} (hproducts : ∀ p ∈ products, p ∈ contractProducts cat c)
    (h : ∀ p ∈ products, Settled cat c p t.db) :
    (seq (products.map (ensureProductCodes cat rows c)) t).state.db = t.db ∧
      (seq (products.map (ensureProductCodes cat rows c)) t).state.created = t.created := by
  induction products generalizing t with
  | nil => exact ⟨rfl, rfl⟩
  | cons p rest ih =>
    obtain ⟨t1, hfirst, hdb, hcreated⟩ := Settled.ensureProductCodes rows
      (hproducts p List.mem_cons_self) hcap (h p List.mem_cons_self)
    have hreturns : (ensureProductCodes cat rows c p t).error = none := by rw [hfirst]
    rw [List.map_cons, seq_cons, andThen_of_ok hreturns, hfirst]
    obtain ⟨hdb', hcreated'⟩ := ih (t := t1) (fun q hq => hproducts q (List.mem_cons_of_mem p hq))
      fun q hq => by
        rw [hdb]
        exact h q (List.mem_cons_of_mem p hq)
    exact ⟨hdb'.trans hdb, hcreated'.trans hcreated⟩

/-! ## A whole run -/

theorem contractProducts_nodup (hids : cat.productIds.Nodup) : (contractProducts cat c).Nodup :=
  hids.filter _

/-- A product keeps its used codes. -/
theorem SeatsHandled.usedCount_le (h : SeatsHandled cat c p db db') :
    db.usedCount p ≤ db'.usedCount p := by
  have hused : (db'.codesFor p).countP db'.isUsed = (db'.codesFor p).countP db.isUsed := by
    refine List.countP_congr fun d _ => ?_
    rw [h.adjusted.used]
  unfold CodeStore.usedCount
  rw [hused]
  by_cases hfew : codeCount cat c p db ≤ (cat.contract c).learnerCap
  · obtain ⟨news, hcodes, -⟩ := h.few hfew
    rw [hcodes, List.countP_append]
    omega
  · rw [h.many (by omega), List.countP_filter]
    refine le_of_eq (List.countP_congr fun d _ => ?_)
    rw [Bool.and_eq_true, decide_eq_true_iff]
    constructor
    · intro hd
      refine ⟨hd, fun hextra => ?_⟩
      rw [(mem_extraCodes hextra).2] at hd
      cases hd
    · exact And.left

/-- As many codes as there are seats, or as are used, are enough and not too many. -/
theorem settled_of_length {used : ℕ} (hp : p ∈ contractProducts cat c)
    (hcode : ∀ d ∈ db.codesFor p, IsCode (cat.contract c).codeAmount .oneTime (db.discounts.row d))
    (hlength : (db.codesFor p).length = max (cat.contract c).learnerCap used)
    (hused : used ≤ db.usedCount p)
    (h : (cat.contract c).learnerCap ≤ used ∨ SingleCodes cat c p db) : Settled cat c p db := by
  have hle := length_codesFor_le hp db
  refine ⟨hcode, by omega, fun hmany => ?_⟩
  have hfull : (cat.contract c).learnerCap ≤ used := by
    rcases h with hfull | hsingle
    · exact hfull
    · have hcount := (codeCount_eq_length_iff hp).mpr hsingle
      omega
  have hall : (db.codesFor p).countP db.isUsed = (db.codesFor p).length := by
    have hmost := usedCount_le_length db p
    unfold CodeStore.usedCount at hmost hused
    omega
  exact List.countP_eq_length.mp hall

/-- The run returns with as many codes for each product as there are seats, or as are used if these
are more, and leaves nothing to do for a run after it. -/
structure CountsConverge (cat : Catalog) (rows rows' : RowOrder) (c : ContractId) (n : ℕ)
    (db : CodeStore) : Prop where
  returns : (ensureEnrollmentCodesExist cat rows c (CodeTally.start db)).error = none
  counts : ∀ p ∈ contractProducts cat c,
    ((ensureEnrollmentCodesExist cat rows c (CodeTally.start db)).state.db.codesFor p).length =
      max n (db.usedCount p)
  again : (ensureEnrollmentCodesExist cat rows' c (CodeTally.start
    (ensureEnrollmentCodesExist cat rows c (CodeTally.start db)).state.db)).state.db =
      (ensureEnrollmentCodesExist cat rows c (CodeTally.start db)).state.db
  created : (ensureEnrollmentCodesExist cat rows' c (CodeTally.start
    (ensureEnrollmentCodesExist cat rows c (CodeTally.start db)).state.db)).state.created = 0

/-- The product that comes first has the right number of codes only if each is counted once, or the
seats are all used. -/
theorem length_first (hids : cat.productIds.Nodup) (hcodes : (cat.contract c).isSsoFree = false)
    (hcap : (cat.contract c).learnerCap ≠ 0) (hp : p ∈ contractProducts cat c)
    (h : ((ensureEnrollmentCodesExist cat (RowOrder.first p 0) c
      (CodeTally.start db)).state.db.codesFor p).length =
        max (cat.contract c).learnerCap (db.usedCount p)) :
    (cat.contract c).learnerCap ≤ db.usedCount p ∨ SingleCodes cat c p db := by
  have hnodup := contractProducts_nodup (c := c) hids
  have hproducts : (RowOrder.first p 0).products (contractProducts cat c) =
      p :: (contractProducts cat c).erase p := if_pos hp
  have hfirst := (ensureProductCodes_handled (RowOrder.first p 0) hp hcap (CodeTally.start db)).2
  have hrest : Keeps (fun t t' => SameCodes cat c p t.db t'.db)
      (seq (((contractProducts cat c).erase p).map
        (ensureProductCodes cat (RowOrder.first p 0) c))) := by
    refine keeps_seq (isFrame_db (sameCodes_frame cat c p)) fun a ha => ?_
    obtain ⟨q, hq, rfl⟩ := List.mem_map.mp ha
    obtain ⟨hne, hq'⟩ := hnodup.mem_erase_iff.mp hq
    exact ensureProductCodes_sameCodes _ hcap hp hq' hne
  have hsame := seq_cons_after (isFrame_db (sameCodes_frame cat c p)) hrest (CodeTally.start db)
    (a := ensureProductCodes cat (RowOrder.first p 0) c p)
  rw [ensureEnrollmentCodesExist_of_codes _ hcodes, hproducts, List.map_cons,
    hsame.perm.length_eq] at h
  exact (hfirst.length_iff hp).mp h

/-- A run in which every product's codes are counted once, or its seats are all used, leaves as many
codes as it should, and nothing to do. -/
theorem run_settles (rows : RowOrder) (hids : cat.productIds.Nodup)
    (hcodes : (cat.contract c).isSsoFree = false) (hcap : (cat.contract c).learnerCap ≠ 0)
    (hp : p ∈ contractProducts cat c)
    (h : (cat.contract c).learnerCap ≤ db.usedCount p ∨ SingleCodes cat c p db) :
    ((ensureEnrollmentCodesExist cat rows c (CodeTally.start db)).state.db.codesFor p).length =
        max (cat.contract c).learnerCap (db.usedCount p) ∧
      Settled cat c p (ensureEnrollmentCodesExist cat rows c (CodeTally.start db)).state.db := by
  have hperm := rows.products_perm (contractProducts cat c)
  obtain ⟨db1, db2, hbefore, hhandled, hafter⟩ := seq_handles rows hp hcap
    (hperm.mem_iff.mpr hp) (hperm.nodup_iff.mpr (contractProducts_nodup hids))
    (fun q hq => hperm.mem_iff.mp hq) (CodeTally.start db)
  rw [ensureEnrollmentCodesExist_of_codes rows hcodes]
  have h1 : (cat.contract c).learnerCap ≤ db1.usedCount p ∨ SingleCodes cat c p db1 :=
    h.imp (fun hfull => hbefore.usedCount ▸ hfull) hbefore.single
  have hlength := (hhandled.length_iff hp).mpr h1
  rw [hbefore.usedCount] at hlength
  rw [← hafter.perm.length_eq] at hlength
  refine ⟨hlength, settled_of_length hp (fun d hd => ?_) hlength ?_ ?_⟩
  · have hd2 := (hafter.codes d).mp hd
    exact hafter.isCode d hd2 (hhandled.codes d hd2)
  · rw [hafter.usedCount, ← hbefore.usedCount]
    exact hhandled.usedCount_le
  · refine h.imp_right fun hsingle => hafter.single ?_
    exact hhandled.adjusted.singleCodes hp (hbefore.single hsingle)

/-- However the rows of its queries come, `ensure_enrollment_codes_exist` gives each product of a
seat-limited contract as many codes as it should have, exactly if for each product the seats are all
used or each code has one row for a product of the contract. -/
theorem code_counts_converge_iff {n : ℕ} (hids : cat.productIds.Nodup)
    (hcodes : (cat.contract c).isSsoFree = false) (hn : (cat.contract c).maxLearners = some n)
    (hpos : 0 < n) (db : CodeStore) :
    (∀ rows rows', CountsConverge cat rows rows' c n db) ↔
      ∀ p ∈ contractProducts cat c, n ≤ db.usedCount p ∨ SingleCodes cat c p db := by
  have hlearners : (cat.contract c).learnerCap = n := by
    unfold ContractPage.learnerCap
    rw [hn]
    rfl
  have hcap : (cat.contract c).learnerCap ≠ 0 := by omega
  rw [← hlearners]
  constructor
  · intro h p hp
    exact length_first hids hcodes hcap hp
      ((h (RowOrder.first p 0) (RowOrder.first p 0)).counts p hp)
  · intro h rows rows'
    have hrun := fun p hp => run_settles rows hids hcodes hcap hp (h p hp)
    have hproducts : ∀ p ∈ rows.products (contractProducts cat c), p ∈ contractProducts cat c :=
      fun p hp => (rows.products_perm _).mem_iff.mp hp
    have hagain := seq_of_settled (t := CodeTally.start
      (ensureEnrollmentCodesExist cat rows c (CodeTally.start db)).state.db) rows' hcap
      (fun p hp => (rows'.products_perm _).mem_iff.mp hp)
      fun p hp => (hrun p ((rows'.products_perm _).mem_iff.mp hp)).2
    refine ⟨?_, fun p hp => (hrun p hp).1, ?_, ?_⟩
    · obtain ⟨t', hreturns, -⟩ := seq_ensureProductCodes rows (P := fun _ => True) hproducts
        (fun _ _ _ _ _ _ _ => trivial) (CodeTally.start db) trivial
      rw [ensureEnrollmentCodesExist_of_codes rows hcodes, hreturns]
    · rw [ensureEnrollmentCodesExist_of_codes rows' hcodes]
      exact hagain.1
    · rw [ensureEnrollmentCodesExist_of_codes rows' hcodes]
      exact hagain.2

/-- The catalog in which products 1 and 2 are for runs of a contract with three seats. -/
def threeSeatsCatalog : Catalog :=
  { managedCatalog with
    productIds := [1, 2]
    contract := fun _ => ⟨.code, 1, none, none, true, some 3, none⟩ }

/-- A database with one code, which nobody has used. -/
def oneCode (products : List (Option ProductId)) : CodeStore where
  store := Store.empty
  discounts := Table.single 1 { newCode 1 ⟨0⟩ .oneTime with products }

theorem code_counts_converge_iff_example :
    (∀ rows rows', CountsConverge threeSeatsCatalog rows rows' 1 3 (oneCode [some 1])) ↔
      ∀ p ∈ contractProducts threeSeatsCatalog 1, 3 ≤ (oneCode [some 1]).usedCount p ∨
        SingleCodes threeSeatsCatalog 1 p (oneCode [some 1]) :=
  code_counts_converge_iff (by decide) (by decide) rfl (by decide) (oneCode [some 1])

/-- A code for both products counts twice for each of them, and each of them gets one more code. -/
theorem shared_code_counts_twice :
    ¬∀ (cat : Catalog) (rows rows' : RowOrder) (c : ContractId) (n : ℕ) (db : CodeStore),
      cat.productIds.Nodup → (cat.contract c).isSsoFree = false →
      (cat.contract c).maxLearners = some n → 0 < n → CountsConverge cat rows rows' c n db := by
  intro h
  have hconverge := h threeSeatsCatalog (RowOrder.first 1 1) (RowOrder.first 1 1) 1 3
    (oneCode [some 1, some 2]) (by decide) (by decide) rfl (by decide)
  exact absurd (hconverge.counts 1 (by decide)) (by decide +kernel)

end MitxOnline

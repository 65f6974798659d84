import MitxOnline.B2b.Proofs.CodeCountsProofs

/-!
# When a run over limited seats leaves nothing to do

A code that is for several products is counted for each of them once for every product that it is for. A
product whose codes are counted often enough stays so as long as no code that it shares is taken from
another product, and as long as what is taken from it is counted once.
-/

namespace MitxOnline

open Autocommit CodeStore

variable {cat : Catalog} {rows : RowOrder} {c : ContractId} {db db1 db2 : CodeStore} {t : CodeTally}
  {d : DiscountId} {p q r : ProductId} {todo : List ProductId}

/-! ## Counting -/

namespace CodeStore

/-- How often the queries count a code for a product. -/
def rowPairs (db : CodeStore) (cat : Catalog) (c : ContractId) (p : ProductId) (d : DiscountId) : ℕ :=
  db.productRows d (ofContract cat c) * db.productRows d (· == some p)

/-- How often they count the used codes of a product. -/
def usedPairs (db : CodeStore) (cat : Catalog) (c : ContractId) (p : ProductId) : ℕ :=
  (((db.codesFor p).filter fun d => db.isUsed d = true).map (db.rowPairs cat c p)).sum

/-- The codes that are removed from a product if it is the first one. -/
def surplusCodes (db : CodeStore) (cat : Catalog) (c : ContractId) (p : ProductId) : List DiscountId :=
  extraCodes p db (codeCount cat c p db - (cat.contract c).learnerCap)

end CodeStore

/-- The seats of every product are used, as the queries count them, or else no code of it that is counted
more than once is removed from a product. -/
def SeatsStable (cat : Catalog) (c : ContractId) (db : CodeStore) : Prop :=
  ∀ p ∈ contractProducts cat c, (cat.contract c).learnerCap ≤ db.usedPairs cat c p ∨
    ∀ q ∈ contractProducts cat c, ∀ d ∈ db.surplusCodes cat c q, d ∈ db.codesFor p →
      db.productRows d (ofContract cat c) = 1

theorem rowPairs_congr (h : (db2.discounts.row d).products = (db1.discounts.row d).products) :
    db2.rowPairs cat c p d = db1.rowPairs cat c p d := by
  unfold rowPairs productRows
  rw [h]

theorem rowPairs_pos (hp : p ∈ contractProducts cat c) (hd : d ∈ db.codesFor p) :
    0 < db.rowPairs cat c p d := by
  have hrow := (mem_codesFor.mp hd).2
  exact Nat.mul_pos (productRows_ofContract hp hrow) (productRows_some_pos.mpr hrow)

theorem rowPairs_le
    (h : (db2.discounts.row d).products.Sublist (db1.discounts.row d).products) :
    db2.rowPairs cat c p d ≤ db1.rowPairs cat c p d :=
  Nat.mul_le_mul h.countP_le h.countP_le

/-- A code that is for one product of the contract only is counted once. -/
theorem rowPairs_of_single (hp : p ∈ contractProducts cat c) (hd : d ∈ db.codesFor p)
    (h : db.productRows d (ofContract cat c) ≤ 1) : db.rowPairs cat c p d = 1 := by
  have hpos := rowPairs_pos hp hd
  have hle := productRows_some_le hp db d
  have hmul : db.rowPairs cat c p d ≤ 1 * 1 := Nat.mul_le_mul h (hle.trans h)
  omega

theorem codeCount_eq_sum_codesFor (hp : p ∈ contractProducts cat c) (db : CodeStore) :
    codeCount cat c p db = ((db.codesFor p).map (db.rowPairs cat c p)).sum := by
  rw [codeCount_eq_sum, codesFor_eq_filter hp]
  have hsplit := List.sum_map_filter_add_sum_map_filter_not
    (fun d => 0 < db.productRows d (ofContract cat c) * db.productRows d (· == some p))
    (db.rowPairs cat c p) db.discounts.keys
  have hzero : ((db.discounts.keys.filter fun d => ¬0 < db.productRows d (ofContract cat c) *
      db.productRows d (· == some p)).map (db.rowPairs cat c p)).sum = 0 := by
    refine List.sum_eq_zero fun n hn => ?_
    obtain ⟨d, hd, rfl⟩ := List.mem_map.mp hn
    have hnot := (List.mem_filter.mp hd).2
    have hnone : ¬0 < db.rowPairs cat c p d := of_decide_eq_true hnot
    omega
  rw [hzero] at hsplit
  exact hsplit.symm

theorem codesFor_sorted (db : CodeStore) (p : ProductId) : (db.codesFor p).Pairwise (· < ·) :=
  db.discounts.sorted.filter _

/-- A product that has the same codes has them in the same order. -/
theorem codesFor_eq (h : ∀ d, d ∈ db2.codesFor p ↔ d ∈ db1.codesFor p) :
    db2.codesFor p = db1.codesFor p := by
  have hperm := (List.perm_ext_iff_of_nodup (codesFor_nodup db2 p) (codesFor_nodup db1 p)).mpr h
  exact hperm.eq_of_pairwise (fun a b _ _ hab hba => absurd (Nat.lt_trans hab hba) (Nat.lt_irrefl a))
    (codesFor_sorted db2 p) (codesFor_sorted db1 p)

theorem codeCount_congr (hp : p ∈ contractProducts cat c) (h : db2.codesFor p = db1.codesFor p)
    (hrows : ∀ d ∈ db1.codesFor p, (db2.discounts.row d).products = (db1.discounts.row d).products) :
    codeCount cat c p db2 = codeCount cat c p db1 := by
  rw [codeCount_eq_sum_codesFor hp, codeCount_eq_sum_codesFor hp, h]
  congr 1
  exact List.map_congr_left fun d hd => rowPairs_congr (hrows d hd)

theorem codeCount_le (hp : p ∈ contractProducts cat c) (h : db2.codesFor p = db1.codesFor p)
    (hrows : ∀ d ∈ db1.codesFor p,
      (db2.discounts.row d).products.Sublist (db1.discounts.row d).products) :
    codeCount cat c p db2 ≤ codeCount cat c p db1 := by
  rw [codeCount_eq_sum_codesFor hp, codeCount_eq_sum_codesFor hp, h]
  exact List.sum_le_sum fun d hd => rowPairs_le (hrows d hd)

/-- Where codes have lost rows, no others are removed. -/
theorem surplusCodes_subset (hp : p ∈ contractProducts cat c) (hused : ∀ d, db2.isUsed d = db1.isUsed d)
    (h : db2.codesFor p = db1.codesFor p) (hrows : ∀ d ∈ db1.codesFor p,
      (db2.discounts.row d).products.Sublist (db1.discounts.row d).products) :
    db2.surplusCodes cat c p ⊆ db1.surplusCodes cat c p := by
  have hcount := codeCount_le hp h hrows
  unfold surplusCodes extraCodes
  simp only [h, hused]
  exact List.take_subset_take_left _ (by omega)

/-- Used codes that are kept count for the product as before. -/
theorem usedPairs_le_codeCount (hp : p ∈ contractProducts cat c)
    (hkept : ∀ d ∈ db1.codesFor p, db1.isUsed d = true → d ∈ db2.codesFor p ∧
      (db2.discounts.row d).products = (db1.discounts.row d).products) :
    db1.usedPairs cat c p ≤ codeCount cat c p db2 := by
  have hkept' : ∀ d ∈ (db1.codesFor p).filter fun d => db1.isUsed d = true, d ∈ db2.codesFor p ∧
      (db2.discounts.row d).products = (db1.discounts.row d).products := by
    intro d hd
    obtain ⟨hcode, hused⟩ := List.mem_filter.mp hd
    exact hkept d hcode (of_decide_eq_true hused)
  have hpart := Folds.sum_filter_notMem (db2.rowPairs cat c p) (codesFor_nodup db2 p)
    ((codesFor_nodup db1 p).filter fun d => db1.isUsed d = true) fun d hd => (hkept' d hd).1
  have hsame : ((db1.codesFor p).filter fun d => db1.isUsed d = true).map (db2.rowPairs cat c p) =
      ((db1.codesFor p).filter fun d => db1.isUsed d = true).map (db1.rowPairs cat c p) :=
    List.map_congr_left fun d hd => rowPairs_congr (hkept' d hd).2
  rw [hsame, ← codeCount_eq_sum_codesFor hp] at hpart
  unfold usedPairs
  omega

/-! ## One round -/

/-- A code that is not removed keeps its products. -/
theorem SeatsHandled.rows_kept (h : SeatsHandled cat c p db1 db2) (hd : d ∈ db1.discounts.keys)
    (hsome : (db1.discounts.row d).products ≠ []) (hout : d ∉ db1.surplusCodes cat c p) :
    d ∈ db2.discounts.keys ∧
      (db2.discounts.row d).products = (db1.discounts.row d).products := by
  by_cases hrow : some p ∈ (db1.discounts.row d).products
  · have hcode : d ∈ db1.codesFor p := mem_codesFor.mpr ⟨hd, hrow⟩
    have hafter : d ∈ db2.codesFor p := by
      by_cases hfew : codeCount cat c p db1 ≤ (cat.contract c).learnerCap
      · obtain ⟨news, hcodes, -⟩ := h.few hfew
        rw [hcodes]
        exact List.mem_append_left _ hcode
      · rw [h.many (by omega), List.mem_filter, decide_eq_true_iff]
        exact ⟨hcode, hout⟩
    obtain ⟨hkey, hrow'⟩ := mem_codesFor.mp hafter
    refine ⟨hkey, (h.adjusted.rows d hd).resolve_right ?_⟩
    rintro ⟨-, hother⟩
    rw [hother] at hrow'
    simpa [otherProducts] using (List.mem_filter.mp hrow').2
  · have hother : otherProducts p (db1.discounts.row d) = (db1.discounts.row d).products := by
      refine List.filter_eq_self.mpr fun product hproduct => ?_
      have hne : product ≠ some p := fun heq => hrow (heq ▸ hproduct)
      simpa using hne
    constructor
    · refine (h.adjusted.kept d hd).resolve_right ?_
      rintro ⟨-, hempty⟩
      exact hsome (hother.symm.trans hempty)
    · rcases h.adjusted.rows d hd with hsame | ⟨-, hrest⟩
      · exact hsame
      · exact hrest.trans hother

theorem products_ne_nil (hd : d ∈ db.codesFor p) : (db.discounts.row d).products ≠ [] :=
  List.ne_nil_of_mem (mem_codesFor.mp hd).2

/-- A product that has too few codes gets the ones that are missing. -/
theorem SeatsHandled.codeCount_of_few (h : SeatsHandled cat c p db1 db2)
    (hp : p ∈ contractProducts cat c)
    (hfew : codeCount cat c p db1 ≤ (cat.contract c).learnerCap) :
    codeCount cat c p db2 = (cat.contract c).learnerCap := by
  obtain ⟨news, hcodes, hlength⟩ := h.few hfew
  have hnone : ∀ d, d ∉ db1.surplusCodes cat c p := by
    intro d hd
    have hzero : codeCount cat c p db1 - (cat.contract c).learnerCap = 0 := by omega
    unfold surplusCodes extraCodes at hd
    rw [hzero, List.take_zero] at hd
    exact List.not_mem_nil hd
  have hold : (db1.codesFor p).map (db2.rowPairs cat c p) =
      (db1.codesFor p).map (db1.rowPairs cat c p) := by
    refine List.map_congr_left fun d hd => rowPairs_congr ?_
    exact (h.rows_kept (mem_codesFor.mp hd).1 (products_ne_nil hd) (hnone d)).2
  have hdisjoint : ∀ d ∈ news, d ∉ db1.codesFor p := by
    have hnodup := codesFor_nodup db2 p
    rw [hcodes, List.nodup_append] at hnodup
    exact fun d hd hd' => hnodup.2.2 d hd' d hd rfl
  have hnew : news.map (db2.rowPairs cat c p) = news.map fun _ => 1 := by
    refine List.map_congr_left fun d hd => ?_
    have hcode : d ∈ db2.codesFor p := by
      rw [hcodes]
      exact List.mem_append_right _ hd
    obtain ⟨hkey, hrow⟩ := mem_codesFor.mp hcode
    refine rowPairs_of_single hp hcode ?_
    rcases h.adjusted.new d hkey with hold | hproducts
    · have hrow' := (h.adjusted.sublist hold).subset hrow
      exact absurd (mem_codesFor.mpr ⟨hold, hrow'⟩) (hdisjoint d hd)
    · unfold productRows
      rw [hproducts]
      exact List.countP_le_length
  have hones : (news.map fun _ => 1).sum = news.length := by simp
  rw [codeCount_eq_sum_codesFor hp] at hfew hlength ⊢
  rw [hcodes, List.map_append, List.sum_append, hold, hnew, hones]
  omega

theorem surplusCodes_nodup (db : CodeStore) (cat : Catalog) (c : ContractId) (p : ProductId) :
    (db.surplusCodes cat c p).Nodup :=
  (List.nodup_reverse.mpr ((codesFor_nodup db p).filter _)).sublist (List.take_sublist _ _)

/-- A product that has too many codes loses what is removed. -/
theorem SeatsHandled.codeCount_of_many (h : SeatsHandled cat c p db1 db2)
    (hp : p ∈ contractProducts cat c)
    (hmany : (cat.contract c).learnerCap < codeCount cat c p db1) :
    codeCount cat c p db2 + ((db1.surplusCodes cat c p).map (db1.rowPairs cat c p)).sum =
      codeCount cat c p db1 := by
  have hcodes : db2.codesFor p =
      (db1.codesFor p).filter fun d => decide (d ∉ db1.surplusCodes cat c p) := h.many hmany
  have hkept : ((db1.codesFor p).filter fun d => decide (d ∉ db1.surplusCodes cat c p)).map
      (db2.rowPairs cat c p) =
      ((db1.codesFor p).filter fun d => decide (d ∉ db1.surplusCodes cat c p)).map
        (db1.rowPairs cat c p) := by
    refine List.map_congr_left fun d hd => rowPairs_congr ?_
    obtain ⟨hcode, hout⟩ := List.mem_filter.mp hd
    exact (h.rows_kept (mem_codesFor.mp hcode).1 (products_ne_nil hcode) (of_decide_eq_true hout)).2
  have hsum := Folds.sum_filter_notMem (db1.rowPairs cat c p) (codesFor_nodup db1 p)
    (surplusCodes_nodup db1 cat c p) fun d hd => (mem_extraCodes hd).1
  rw [codeCount_eq_sum_codesFor hp, codeCount_eq_sum_codesFor hp, hcodes, hkept]
  exact hsum

/-- If a product still has too many codes, all of them are used. -/
theorem SeatsHandled.all_used (h : SeatsHandled cat c p db1 db2) (hp : p ∈ contractProducts cat c)
    (hmany : (cat.contract c).learnerCap < codeCount cat c p db2) :
    ∀ d ∈ db2.codesFor p, db2.isUsed d = true := by
  have hmany1 : (cat.contract c).learnerCap < codeCount cat c p db1 := by
    by_contra hfew
    have hexact := h.codeCount_of_few hp (by omega)
    omega
  have hsum := h.codeCount_of_many hp hmany1
  have hpairs : (db1.surplusCodes cat c p).length ≤
      ((db1.surplusCodes cat c p).map (db1.rowPairs cat c p)).sum := by
    have hone : ((db1.surplusCodes cat c p).map fun _ => 1).sum ≤
        ((db1.surplusCodes cat c p).map (db1.rowPairs cat c p)).sum :=
      List.sum_le_sum fun d hd => rowPairs_pos hp (mem_extraCodes hd).1
    simpa using hone
  have hall : db1.surplusCodes cat c p =
      ((db1.codesFor p).filter fun d => !db1.isUsed d).reverse := by
    have hlength : ((db1.codesFor p).filter fun d => !db1.isUsed d).reverse.length ≤
        codeCount cat c p db1 - (cat.contract c).learnerCap := by
      by_contra hmore
      have htake : (db1.surplusCodes cat c p).length =
          codeCount cat c p db1 - (cat.contract c).learnerCap := by
        unfold surplusCodes extraCodes
        rw [List.length_take]
        omega
      omega
    exact List.take_of_length_le hlength
  intro d hd
  rw [h.many hmany1] at hd
  obtain ⟨hcode, hout⟩ := List.mem_filter.mp hd
  rw [h.adjusted.used]
  by_contra hunused
  refine of_decide_eq_true hout ?_
  show d ∈ db1.surplusCodes cat c p
  rw [hall, List.mem_reverse, List.mem_filter]
  exact ⟨hcode, by simpa using hunused⟩

/-- If what is removed from a product is counted once, it has as many codes as seats, or more. -/
theorem SeatsHandled.enough_of_single (h : SeatsHandled cat c p db1 db2)
    (hp : p ∈ contractProducts cat c)
    (hsingle : ∀ d ∈ db1.surplusCodes cat c p, db1.productRows d (ofContract cat c) ≤ 1) :
    (cat.contract c).learnerCap ≤ codeCount cat c p db2 := by
  by_cases hfew : codeCount cat c p db1 ≤ (cat.contract c).learnerCap
  · exact le_of_eq (h.codeCount_of_few hp hfew).symm
  · have hsum := h.codeCount_of_many hp (by omega)
    have hones : (db1.surplusCodes cat c p).map (db1.rowPairs cat c p) =
        (db1.surplusCodes cat c p).map fun _ => 1 := List.map_congr_left fun d hd =>
      rowPairs_of_single hp (mem_extraCodes hd).1 (hsingle d hd)
    have hlength : (db1.surplusCodes cat c p).length ≤
        codeCount cat c p db1 - (cat.contract c).learnerCap := List.length_take_le _ _
    have hsize : ((db1.surplusCodes cat c p).map fun _ => 1).sum =
        (db1.surplusCodes cat c p).length := by simp
    rw [hones, hsize] at hsum
    omega

/-! ## The loop -/

/-- Nothing is taken from the code: it is used, or it is counted more than once for a product whose seats
are not all used. -/
def Fixed (cat : Catalog) (c : ContractId) (db : CodeStore) (d : DiscountId) : Prop :=
  db.isUsed d = true ∨ ∃ p ∈ contractProducts cat c,
    db.usedPairs cat c p < (cat.contract c).learnerCap ∧ d ∈ db.codesFor p ∧
      db.productRows d (ofContract cat c) ≠ 1

/-- What holds before the rounds for the products that are left to do. -/
structure SeatsLoop (cat : Catalog) (c : ContractId) (db : CodeStore) (todo : List ProductId)
    (db1 : CodeStore) : Prop where
  used : ∀ d, db1.isUsed d = db.isUsed d
  rows : ∀ d ∈ db1.discounts.keys,
    (db1.discounts.row d).products.Sublist (db.discounts.row d).products ∨
      ∃ q, (db1.discounts.row d).products.Sublist [some q]
  kept : ∀ d ∈ db.discounts.keys, Fixed cat c db d → d ∈ db1.discounts.keys ∧
    (db1.discounts.row d).products = (db.discounts.row d).products
  pending : ∀ q ∈ todo, ∀ d, d ∈ db1.codesFor q ↔ d ∈ db.codesFor q
  settled : ∀ p ∈ contractProducts cat c, p ∉ todo → Settled cat c p db1

theorem seatsLoop_start (h : ∀ p ∈ contractProducts cat c, p ∈ todo) :
    SeatsLoop cat c db todo db :=
  ⟨fun _ => rfl, fun _ _ => Or.inl (List.Sublist.refl _), fun _ hd _ => ⟨hd, rfl⟩,
    fun _ _ _ => Iff.rfl, fun p hp hnot => absurd (h p hp) hnot⟩

/-- A code for two products of the contract is counted twice. -/
theorem two_le_productRows (hp : p ∈ contractProducts cat c) (hq : q ∈ contractProducts cat c)
    (hne : p ≠ q) (hdp : d ∈ db.codesFor p) (hdq : d ∈ db.codesFor q) :
    2 ≤ db.productRows d (ofContract cat c) := by
  have hsplit := List.countP_eq_countP_filter_add (db.discounts.row d).products (ofContract cat c)
    (· == some p)
  have hfirst : 0 < ((db.discounts.row d).products.filter (· == some p)).countP
      (ofContract cat c) := by
    refine List.countP_pos_iff.mpr ⟨some p, ?_, ofContract_some hp⟩
    exact List.mem_filter.mpr ⟨(mem_codesFor.mp hdp).2, beq_self_eq_true _⟩
  have hsecond : 0 < ((db.discounts.row d).products.filter fun a => !(a == some p)).countP
      (ofContract cat c) := by
    refine List.countP_pos_iff.mpr ⟨some q, ?_, ofContract_some hq⟩
    exact List.mem_filter.mpr ⟨(mem_codesFor.mp hdq).2, by simpa using Ne.symm hne⟩
  unfold productRows
  omega

section Round

variable (hstable : SeatsStable cat c db) (h : SeatsLoop cat c db (r :: todo) db1)
  (hr : r ∈ contractProducts cat c) (hround : SeatsHandled cat c r db1 db2)

include h

theorem SeatsLoop.codesFor : db1.codesFor r = db.codesFor r :=
  codesFor_eq (h.pending r List.mem_cons_self)

theorem SeatsLoop.sublist (hd : d ∈ db.codesFor r) :
    (db1.discounts.row d).products.Sublist (db.discounts.row d).products := by
  have hd1 : d ∈ db1.codesFor r := h.codesFor ▸ hd
  obtain ⟨hkey, hrow⟩ := mem_codesFor.mp hd1
  rcases h.rows d hkey with hsub | ⟨q, hsub⟩
  · exact hsub
  · have hq : some r = some q := List.mem_singleton.mp (hsub.subset hrow)
    rw [← hq] at hsub
    exact hsub.trans (List.singleton_sublist.mpr (mem_codesFor.mp hd).2)

include hr

theorem SeatsLoop.surplusCodes : db1.surplusCodes cat c r ⊆ db.surplusCodes cat c r :=
  surplusCodes_subset hr h.used h.codesFor fun _ hd => h.sublist hd

include hstable

/-- What is taken from another product is not a code of a product whose seats are not all used. -/
theorem SeatsLoop.not_surplus (hp : p ∈ contractProducts cat c) (hne : p ≠ r)
    (hopen : db.usedPairs cat c p < (cat.contract c).learnerCap) (hd : d ∈ db1.codesFor p) :
    d ∉ db1.surplusCodes cat c r := by
  intro hsurplus
  have hdr1 : d ∈ db1.codesFor r := (mem_extraCodes hsurplus).1
  have hdr : d ∈ db.codesFor r := h.codesFor ▸ hdr1
  have hsub := h.sublist hdr
  have hdp : d ∈ db.codesFor p :=
    mem_codesFor.mpr ⟨(mem_codesFor.mp hdr).1, hsub.subset (mem_codesFor.mp hd).2⟩
  have hsingle := (hstable p hp).resolve_left (by omega) r hr d (h.surplusCodes hr hsurplus) hdp
  have htwo := two_le_productRows hp hr hne hdp hdr
  omega

include hround

theorem SeatsLoop.fixed_kept (hd : d ∈ db.discounts.keys) (hfixed : Fixed cat c db d) :
    d ∈ db2.discounts.keys ∧
      (db2.discounts.row d).products = (db.discounts.row d).products := by
  obtain ⟨hkey, hproducts⟩ := h.kept d hd hfixed
  rw [← hproducts]
  rcases hfixed with hused | ⟨p, hp, hopen, hcode, hmore⟩
  · have hused1 : ¬db1.isUsed d = false := by
      rw [h.used, hused]
      simp
    exact ⟨(hround.adjusted.kept d hkey).resolve_right fun hgone => hused1 hgone.1,
      (hround.adjusted.rows d hkey).resolve_right fun hgone => hused1 hgone.1⟩
  · refine hround.rows_kept hkey ?_ fun hsurplus => ?_
    · rw [hproducts]
      exact products_ne_nil hcode
    · exact hmore ((hstable p hp).resolve_left (by omega) r hr d (h.surplusCodes hr hsurplus) hcode)

/-- The seats of a product that are used stay used. -/
theorem SeatsLoop.enough_of_used (hp : p ∈ contractProducts cat c)
    (hfull : (cat.contract c).learnerCap ≤ db.usedPairs cat c p) :
    (cat.contract c).learnerCap ≤ codeCount cat c p db2 := by
  refine hfull.trans (usedPairs_le_codeCount hp fun d hd hused => ?_)
  obtain ⟨hkey, hproducts⟩ := h.fixed_kept hstable hr hround (mem_codesFor.mp hd).1 (Or.inl hused)
  refine ⟨mem_codesFor.mpr ⟨hkey, ?_⟩, hproducts⟩
  rw [hproducts]
  exact (mem_codesFor.mp hd).2

theorem SeatsLoop.settled_self : Settled cat c r db2 := by
  refine ⟨hround.codes, ?_, hround.all_used hr⟩
  by_cases hfull : (cat.contract c).learnerCap ≤ db.usedPairs cat c r
  · exact h.enough_of_used hstable hr hround hr hfull
  · refine hround.enough_of_single hr fun d hd => ?_
    have hcode : d ∈ db.codesFor r := h.codesFor ▸ (mem_extraCodes hd).1
    have hsingle := (hstable r hr).resolve_left hfull r hr d (h.surplusCodes hr hd) hcode
    have hle : db1.productRows d (ofContract cat c) ≤ db.productRows d (ofContract cat c) :=
      (h.sublist hcode).countP_le
    omega

theorem SeatsLoop.settled_other (hp : p ∈ contractProducts cat c) (hne : p ≠ r)
    (hsettled : Settled cat c p db1) : Settled cat c p db2 := by
  have hcodes : db2.codesFor p = db1.codesFor p :=
    codesFor_eq (hround.adjusted.mem_codesFor_iff hne)
  have hle : codeCount cat c p db2 ≤ codeCount cat c p db1 :=
    codeCount_le hp hcodes fun d hd => hround.adjusted.sublist (mem_codesFor.mp hd).1
  refine ⟨fun d hd => ?_, ?_, fun hmany d hd => ?_⟩
  · rw [hcodes] at hd
    exact hround.isCode d (mem_codesFor.mp hd).1 (hsettled.isCode d hd)
  · by_cases hfull : (cat.contract c).learnerCap ≤ db.usedPairs cat c p
    · exact h.enough_of_used hstable hr hround hp hfull
    · have hsame : codeCount cat c p db2 = codeCount cat c p db1 :=
        codeCount_congr hp hcodes fun d hd => (hround.rows_kept (mem_codesFor.mp hd).1
          (products_ne_nil hd) (h.not_surplus hstable hr hp hne (by omega) hd)).2
      rw [hsame]
      exact hsettled.enough
  · rw [hcodes] at hd
    rw [hround.adjusted.used]
    exact hsettled.used (by omega) d hd

theorem SeatsLoop.step (hnot : r ∉ todo) : SeatsLoop cat c db todo db2 := by
  refine ⟨fun d => ?_, fun d hd => ?_, fun d => h.fixed_kept hstable hr hround, fun q hq d => ?_,
    fun p hp hdone => ?_⟩
  · rw [hround.adjusted.used, h.used]
  · rcases hround.adjusted.new d hd with hold | hnew
    · have hsub := hround.adjusted.sublist hold
      rcases h.rows d hold with hrow | ⟨q, hrow⟩
      · exact Or.inl (hsub.trans hrow)
      · exact Or.inr ⟨q, hsub.trans hrow⟩
    · exact Or.inr ⟨r, hnew ▸ List.Sublist.refl _⟩
  · have hne : q ≠ r := fun heq => hnot (heq ▸ hq)
    exact (hround.adjusted.mem_codesFor_iff hne d).trans (h.pending q (List.mem_cons_of_mem r hq) d)
  · by_cases heq : p = r
    · rw [heq]
      exact h.settled_self hstable hr hround
    · refine h.settled_other hstable hr hround hp heq (h.settled p hp fun hmem => ?_)
      exact (List.mem_cons.mp hmem).elim heq hdone

end Round

/-- A run from stable seats leaves nothing to do. -/
theorem seq_settles (rows : RowOrder) (hcap : (cat.contract c).learnerCap ≠ 0)
    (hstable : SeatsStable cat c db) (hproducts : ∀ q ∈ todo, q ∈ contractProducts cat c)
    (hnodup : todo.Nodup) (h : SeatsLoop cat c db todo t.db) :
    SeatsLoop cat c db [] (seq (todo.map (ensureProductCodes cat rows c)) t).state.db := by
  induction todo generalizing t with
  | nil => exact h
  | cons r rest ih =>
    have hr := hproducts r List.mem_cons_self
    obtain ⟨hreturns, hround⟩ := ensureProductCodes_handled rows hr hcap t
    rw [List.map_cons, seq_cons, andThen_of_ok hreturns]
    refine ih (fun q hq => hproducts q (List.mem_cons_of_mem r hq)) hnodup.of_cons ?_
    exact h.step hstable hr hround (List.nodup_cons.mp hnodup).1

/-- After `ensure_enrollment_codes_exist` with stable seats nothing is left to do for any product. -/
theorem settled_of_stable (rows : RowOrder) (hids : cat.productIds.Nodup)
    (hcodes : (cat.contract c).isSsoFree = false) (hcap : (cat.contract c).learnerCap ≠ 0)
    (hstable : SeatsStable cat c db) (hp : p ∈ contractProducts cat c) :
    Settled cat c p (ensureEnrollmentCodesExist cat rows c (CodeTally.start db)).state.db := by
  have hperm := rows.products_perm (contractProducts cat c)
  have hstart : SeatsLoop cat c db (rows.products (contractProducts cat c)) (CodeTally.start db).db :=
    seatsLoop_start fun p hp => hperm.mem_iff.mpr hp
  have hloop := seq_settles rows hcap hstable (fun q hq => hperm.mem_iff.mp hq)
    (hperm.nodup_iff.mpr (contractProducts_nodup hids)) hstart
  rw [ensureEnrollmentCodesExist_of_codes rows hcodes]
  exact hloop.settled p hp List.not_mem_nil

end MitxOnline

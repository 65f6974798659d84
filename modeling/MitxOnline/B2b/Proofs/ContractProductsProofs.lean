import MitxOnline.B2b.ContractProducts
import MitxOnline.B2b.CourseRunGroups
import MitxOnline.Lib.Autocommit
import MitxOnline.Lib.UniqueConstraint

/-!
# When every run of a contract gets its product

The loop returns exactly if no run in it has a product of any kind. A run with an inactive product is in
the loop, so it is the one that the loop stops at.
-/

namespace MitxOnline

open Autocommit FixedPoint

variable {contract : ContractPage} {runs : CourseRuns} {c : ContractId} {products : Products}
  {s s' : ProductCreation} {price : Decimal 2} {r r' : RunId} {p q : ProductId} {rs : List RunId}

theorem sellsRun_iff {product : Product} :
    product.sellsRun r = true ↔ product.contentType = .courseRun ∧ product.objectId = r := by
  simp only [Product.sellsRun, Bool.and_eq_true, beq_iff_eq]

@[simp] theorem runProduct_sellsRun : (runProduct price r).sellsRun r' = true ↔ r = r' := by
  simp [sellsRun_iff, runProduct]

namespace Products

/-- No product, active or not, sells the run. -/
def Unsold (products : Products) (r : RunId) : Prop :=
  ∀ p ∈ products.table.keys, (products.table.row p).sellsRun r = false

/-- Two products for one run are the same. -/
theorem eq_of_sellsRun (hp : p ∈ products.table.keys) (hq : q ∈ products.table.keys)
    (hpr : (products.table.row p).sellsRun r = true) (hqr : (products.table.row q).sellsRun r = true) :
    p = q := by
  obtain ⟨hptype, hpobject⟩ := sellsRun_iff.mp hpr
  obtain ⟨hqtype, hqobject⟩ := sellsRun_iff.mp hqr
  refine products.unique_purchasable_object.eq_of_clash hp hq
    (UniqueConstraint.clash_iff.mpr ⟨rfl, rfl, ?_⟩)
  exact Prod.ext (hptype.trans hqtype.symm) (hpobject.trans hqobject.symm)

/-- The runs that the query finds are those without an active product. -/
theorem mem_runsWithout : r ∈ products.runsWithout runs c ↔ r ∈ runs.contractRuns c ∧
    ∀ p ∈ products.table.keys, (products.table.row p).isActive = true →
      (products.table.row p).sellsRun r = false := by
  simp only [runsWithout, List.mem_filter, Bool.not_eq_true', List.contains_eq_mem,
    decide_eq_false_iff_not, ofContract, List.mem_map, Bool.and_eq_true, beq_iff_eq, decide_eq_true_eq]
  refine and_congr_right fun hr => ?_
  constructor
  · intro hnone p hp hactive
    rw [← Bool.not_eq_true, sellsRun_iff]
    rintro ⟨htype, hobject⟩
    exact hnone ⟨p, ⟨hp, ⟨hactive, htype⟩, by rwa [hobject]⟩, hobject⟩
  · rintro hunsold ⟨p, ⟨hp, ⟨hactive, htype⟩, -⟩, hobject⟩
    have hsells : (products.table.row p).sellsRun r = true := sellsRun_iff.mpr ⟨htype, hobject⟩
    rw [hunsold p hp hactive] at hsells
    cases hsells

/-- The query finds the runs without any product. -/
theorem mem_runsWithout_of_unsold (hr : r ∈ runs.contractRuns c)
    (h : ¬∃ p ∈ products.table.keys, (products.table.row p).sellsRun r = true) :
    r ∈ products.runsWithout runs c := by
  refine mem_runsWithout.mpr ⟨hr, fun p hp _ => ?_⟩
  by_contra hsells
  exact h ⟨p, hp, Bool.not_eq_false _ ▸ hsells⟩

/-- Where no product is inactive, the query finds nothing exactly if all runs have a product. -/
theorem runsWithout_eq_nil_iff (hactive : ∀ p ∈ products.table.keys, ∀ r ∈ runs.contractRuns c,
      (products.table.row p).sellsRun r = true → (products.table.row p).isActive = true) :
    products.runsWithout runs c = [] ↔ ∀ r ∈ runs.contractRuns c, ∃ p ∈ products.table.keys,
      (products.table.row p).sellsRun r = true := by
  rw [List.eq_nil_iff_forall_not_mem]
  constructor
  · intro hnone r hr
    by_contra hunsold
    exact hnone r (mem_runsWithout_of_unsold hr hunsold)
  · intro hsold r hr
    obtain ⟨hmem, hunsold⟩ := mem_runsWithout.mp hr
    obtain ⟨p, hp, hsells⟩ := hsold r hmem
    rw [hunsold p hp (hactive p hp r hmem hsells)] at hsells
    cases hsells

theorem runsWithout_nodup : (products.runsWithout runs c).Nodup :=
  (runs.table.keys_nodup.filter _).filter _

variable (price) in
theorem holdsIn_create_iff :
    uniquePurchasableObject.HoldsIn (products.table.create (runProduct price r)) ↔
      products.Unsold r := by
  rw [products.unique_purchasable_object.create_iff]
  refine forall₂_congr fun p hp => ?_
  rw [← Bool.not_eq_true, ← Bool.not_eq_true, UniqueConstraint.clash_iff, sellsRun_iff]
  simp only [uniquePurchasableObject, runProduct, true_and, Prod.mk.injEq, eq_comm]

end Products

open Products

/-! ## One round -/

/-- A round returns exactly if the price fits and nothing sells the run yet. -/
theorem createRunProduct_error : (createRunProduct price r s).error = none ↔
    fitsPriceColumn price ∧ s.products.Unsold r := by
  rw [← holdsIn_create_iff price]
  unfold createRunProduct Products.create statement
  by_cases hfits : fitsPriceColumn (runProduct price r).price
  · by_cases hholds : uniquePurchasableObject.HoldsIn (s.products.table.create (runProduct price r))
    · simp [hfits, hholds, Except.map, show fitsPriceColumn price from hfits]
    · simp [hfits, hholds, Except.map]
  · simp [hfits, Except.map, show ¬fitsPriceColumn price from hfits]

/-- A round that returns has added one product. -/
theorem createRunProduct_state (h : (createRunProduct price r s).error = none) :
    (createRunProduct price r s).state.products.table = s.products.table.create (runProduct price r) := by
  obtain ⟨hfits, hunsold⟩ := createRunProduct_error.mp h
  have hholds := (holdsIn_create_iff price).mpr hunsold
  have hprice : fitsPriceColumn (runProduct price r).price := hfits
  simp [createRunProduct, Products.create, statement, hprice, hholds, Except.map]

theorem unsold_after (h : (createRunProduct price r s).error = none) :
    (createRunProduct price r s).state.products.Unsold r' ↔ s.products.Unsold r' ∧ r ≠ r' := by
  unfold Unsold
  rw [createRunProduct_state h]
  constructor
  · intro hunsold
    constructor
    · intro p hp
      have hp' := hunsold p ((Table.mem_create_keys _ _ _).mpr (.inl hp))
      rwa [Table.create_row_of_ne _ _ (Nat.ne_of_lt (Table.lt_nextKey _ hp))] at hp'
    · rintro rfl
      have hnew := hunsold _ ((Table.mem_create_keys _ _ _).mpr (.inr rfl))
      rw [Table.create_row_self, runProduct_sellsRun.mpr rfl] at hnew
      cases hnew
  · rintro ⟨hunsold, hne⟩ p hp
    rcases (Table.mem_create_keys _ _ _).mp hp with hp | rfl
    · rw [Table.create_row_of_ne _ _ (Nat.ne_of_lt (Table.lt_nextKey _ hp))]
      exact hunsold p hp
    · rw [Table.create_row_self, ← Bool.not_eq_true, runProduct_sellsRun]
      exact hne

/-- The products that were there stay as they are. -/
def ProductsKept (s s' : ProductCreation) : Prop :=
  ∀ p ∈ s.products.table.keys,
    p ∈ s'.products.table.keys ∧ s'.products.table.row p = s.products.table.row p

theorem isFrame_productsKept : IsFrame ProductsKept := by
  constructor
  · intro s p hp
    exact ⟨hp, rfl⟩
  · intro s t u hst htu p hp
    obtain ⟨hpt, hrow⟩ := hst p hp
    obtain ⟨hpu, hrow'⟩ := htu p hpt
    exact ⟨hpu, hrow'.trans hrow⟩

theorem keeps_createRunProduct : Keeps ProductsKept (createRunProduct price r) := by
  intro s
  by_cases h : (createRunProduct price r s).error = none
  · intro p hp
    rw [createRunProduct_state h]
    exact ⟨(Table.mem_create_keys _ _ _).mpr (.inl hp),
      Table.create_row_of_ne _ _ (Nat.ne_of_lt (Table.lt_nextKey _ hp))⟩
  · have hstate : (createRunProduct price r s).state = s := by
      unfold createRunProduct statement at h ⊢
      dsimp only at h ⊢
      split
      · rename_i s' hs'
        simp [hs'] at h
      · rfl
    rw [hstate]
    exact isFrame_productsKept.refl s

/-! ## The loop -/

theorem keeps_createRunProducts : Keeps ProductsKept (seq (rs.map (createRunProduct price))) := by
  refine keeps_seq isFrame_productsKept fun a ha => ?_
  obtain ⟨r, -, rfl⟩ := List.mem_map.mp ha
  exact keeps_createRunProduct

/-- The loop over distinct runs returns exactly if the price fits and nothing sells any of them. -/
theorem createRunProducts_error (hnodup : rs.Nodup) :
    (seq (rs.map (createRunProduct price)) s).error = none ↔
      ∀ r ∈ rs, fitsPriceColumn price ∧ s.products.Unsold r := by
  induction rs generalizing s with
  | nil => simp
  | cons r rest ih =>
    obtain ⟨hr, hrest⟩ := List.nodup_cons.mp hnodup
    rw [List.map_cons, List.forall_mem_cons]
    by_cases hfirst : (createRunProduct price r s).error = none
    · rw [seq_cons, andThen_of_ok hfirst, ih hrest, and_iff_right (createRunProduct_error.mp hfirst)]
      refine forall₂_congr fun r' hr' => and_congr_right fun _ => ?_
      have hne : r ≠ r' := fun h => hr (h ▸ hr')
      rw [unsold_after hfirst, and_iff_left hne]
    · constructor
      · intro h
        exact absurd (seq_cons_error h).1 hfirst
      · intro h
        exact absurd (createRunProduct_error.mpr h.1) hfirst

/-- The created products are the new ones. -/
def CreatedListed (before : List ProductId) (s : ProductCreation) : Prop :=
  s.products.table.keys = before ++ s.created

theorem keeps_createdListed (before : List ProductId) :
    Keeps (fun s s' => CreatedListed before s → CreatedListed before s')
      (createRunProduct price r) := by
  refine keeps_statement (isFrame_preserves _) fun s s' hs' hlisted => ?_
  unfold Products.create at hs'
  by_cases hfits : fitsPriceColumn (runProduct price r).price
  · by_cases hholds : uniquePurchasableObject.HoldsIn (s.products.table.create (runProduct price r))
    · simp only [hfits, not_true, if_false, hholds, dif_pos, Except.map, Except.ok.injEq] at hs'
      subst hs'
      show s.products.table.keys ++ [s.products.table.nextKey] =
        before ++ (s.created ++ [s.products.table.nextKey])
      rw [hlisted, List.append_assoc]
    · simp [hfits, hholds, Except.map] at hs'
  · simp [hfits, Except.map] at hs'

/-- After the loop every run in it has a product. -/
theorem createRunProducts_sells (h : (seq (rs.map (createRunProduct price)) s).error = none)
    (hr : r ∈ rs) : ∃ p ∈ (seq (rs.map (createRunProduct price)) s).state.products.table.keys,
      (seq (rs.map (createRunProduct price)) s).state.products.table.row p = runProduct price r := by
  induction rs generalizing s with
  | nil => exact absurd hr List.not_mem_nil
  | cons r' rest ih =>
    obtain ⟨hfirst, hrest⟩ := seq_cons_error h
    rw [List.map_cons, seq_cons, andThen_of_ok hfirst]
    rcases List.mem_cons.mp hr with rfl | hr
    · have hstate := createRunProduct_state hfirst
      have hnew : s.products.table.nextKey ∈
          (createRunProduct price r s).state.products.table.keys := by
        rw [hstate]
        exact (Table.mem_create_keys _ _ _).mpr (.inr rfl)
      obtain ⟨hmem, hrow⟩ := keeps_createRunProducts _ _ hnew
      refine ⟨_, hmem, ?_⟩
      rw [hrow, hstate, Table.create_row_self]
    · exact ih hrest hr

/-! ## The command -/

/-- The call does what it is for: it raises nothing, every run of the contract ends up with an active
product at the contract's price, and the active products that were there stay, without a second one for
what they sell. -/
structure EnsuresProducts (contract : ContractPage) (runs : CourseRuns) (c : ContractId)
    (products : Products) : Prop where
  returns : (ensureContractRunProducts contract runs c products).error = none
  priced : let after := (ensureContractRunProducts contract runs c products).state.products
    ∀ r ∈ runs.contractRuns c, ∃ p ∈ after.table.keys, (after.table.row p).isActive = true ∧
      (after.table.row p).sellsRun r = true ∧ (after.table.row p).price = contract.runPrice
  kept : let after := (ensureContractRunProducts contract runs c products).state.products
    ∀ p ∈ products.table.keys, (products.table.row p).isActive = true →
      p ∈ after.table.keys ∧ after.table.row p = products.table.row p
  notDuplicated : let after := (ensureContractRunProducts contract runs c products).state.products
    ∀ p ∈ products.table.keys, (products.table.row p).isActive = true → ∀ q ∈ after.table.keys,
      (after.table.row q).contentType = (products.table.row p).contentType →
        (after.table.row q).objectId = (products.table.row p).objectId → q = p

theorem ensureContractRunProducts_eq : ensureContractRunProducts contract runs c products =
    seq ((products.runsWithout runs c).map (createRunProduct contract.runPrice)) ⟨products, []⟩ := by
  unfold ensureContractRunProducts
  dsimp only
  split
  · rename_i hnone
    rw [List.length_eq_zero_iff.mp hnone]
    rfl
  · rfl

variable (contract runs c) in
theorem productsKept : ProductsKept ⟨products, []⟩
    (ensureContractRunProducts contract runs c products).state := by
  rw [ensureContractRunProducts_eq]
  exact keeps_createRunProducts _

/-- The list that the command returns is that of the products that are new, and so it is where an
exception ends it. -/
theorem ensureContractRunProducts_created :
    CreatedListed products.table.keys (ensureContractRunProducts contract runs c products).state := by
  rw [ensureContractRunProducts_eq]
  refine keeps_seq (isFrame_preserves _) (fun a ha => ?_) _ (List.append_nil _).symm
  obtain ⟨r, -, rfl⟩ := List.mem_map.mp ha
  exact keeps_createdListed _

/-- The command returns exactly if no run of the contract has an inactive product and, unless all have a
product, the price fits. -/
theorem ensureContractRunProducts_error :
    (ensureContractRunProducts contract runs c products).error = none ↔
      (∀ p ∈ products.table.keys, ∀ r ∈ runs.contractRuns c,
        (products.table.row p).sellsRun r = true → (products.table.row p).isActive = true) ∧
      (fitsPriceColumn contract.runPrice ∨ products.runsWithout runs c = []) := by
  rw [ensureContractRunProducts_eq, createRunProducts_error runsWithout_nodup]
  constructor
  · intro h
    constructor
    · intro p hp r hr hsells
      by_contra hinactive
      have hr' : r ∈ products.runsWithout runs c := by
        refine mem_runsWithout.mpr ⟨hr, fun q hq hactive => ?_⟩
        by_contra hq'
        obtain rfl := eq_of_sellsRun hp hq hsells (Bool.not_eq_false _ ▸ hq')
        exact hinactive hactive
      have hunsold := (h r hr').2 p hp
      rw [hsells] at hunsold
      cases hunsold
    · cases hnone : products.runsWithout runs c with
      | nil => exact .inr rfl
      | cons r rest => exact .inl (h r (hnone ▸ List.mem_cons_self)).1
  · rintro ⟨hactive, hfits⟩ r hr
    obtain ⟨hmem, hunsold⟩ := mem_runsWithout.mp hr
    have hprice : fitsPriceColumn contract.runPrice := by
      refine hfits.resolve_right fun hnone => ?_
      rw [hnone] at hr
      exact List.not_mem_nil hr
    refine ⟨hprice, fun p hp => ?_⟩
    by_contra hsells
    have hsells' : (products.table.row p).sellsRun r = true := by simpa using hsells
    exact hsells (hunsold p hp (hactive p hp r hmem hsells'))

/-- An active product for a run that had one is that one. -/
theorem eq_of_sold_after (hp : p ∈ products.table.keys)
    (hq : q ∈ (ensureContractRunProducts contract runs c products).state.products.table.keys)
    (htype : ((ensureContractRunProducts contract runs c products).state.products.table.row
      q).contentType = (products.table.row p).contentType)
    (hobject : ((ensureContractRunProducts contract runs c products).state.products.table.row
      q).objectId = (products.table.row p).objectId) : q = p := by
  obtain ⟨hp', hrow⟩ := productsKept contract runs c p hp
  refine (ensureContractRunProducts contract runs c products).state.products
    |>.unique_purchasable_object.eq_of_clash hq hp' (UniqueConstraint.clash_iff.mpr ⟨rfl, rfl, ?_⟩)
  exact Prod.ext (htype.trans (congrArg _ hrow.symm)) (hobject.trans (congrArg _ hrow.symm))

/-- The call does what it is for exactly if every product that the runs of the contract have is active and
at the contract's price, and the price fits into the column for a run that has none. -/
theorem ensuresProducts_iff (contract : ContractPage) (runs : CourseRuns) (c : ContractId)
    (products : Products) : EnsuresProducts contract runs c products ↔
      (∀ p ∈ products.table.keys, ∀ r ∈ runs.contractRuns c,
        (products.table.row p).sellsRun r = true → (products.table.row p).isActive = true ∧
          (products.table.row p).price = contract.runPrice) ∧
      (fitsPriceColumn contract.runPrice ∨ ∀ r ∈ runs.contractRuns c, ∃ p ∈ products.table.keys,
        (products.table.row p).sellsRun r = true) := by
  constructor
  · rintro ⟨hreturns, hpriced, hkept, hsame⟩
    obtain ⟨hactive, hfits⟩ := ensureContractRunProducts_error.mp hreturns
    constructor
    · intro p hp r hr hsells
      refine ⟨hactive p hp r hr hsells, ?_⟩
      obtain ⟨q, hq, -, hqsells, hprice⟩ := hpriced r hr
      obtain ⟨hptype, hpobject⟩ := sellsRun_iff.mp hsells
      obtain ⟨hqtype, hqobject⟩ := sellsRun_iff.mp hqsells
      obtain rfl := eq_of_sold_after hp hq (hqtype.trans hptype.symm) (hqobject.trans hpobject.symm)
      rw [← (productsKept contract runs c q hp).2]
      exact hprice
    · exact hfits.imp_right (runsWithout_eq_nil_iff hactive).mp
  · rintro ⟨hgood, hfits⟩
    have hactive : ∀ p ∈ products.table.keys, ∀ r ∈ runs.contractRuns c,
        (products.table.row p).sellsRun r = true → (products.table.row p).isActive = true :=
      fun p hp r hr hsells => (hgood p hp r hr hsells).1
    have hreturns : (ensureContractRunProducts contract runs c products).error = none :=
      ensureContractRunProducts_error.mpr
        ⟨hactive, hfits.imp_right (runsWithout_eq_nil_iff hactive).mpr⟩
    refine ⟨hreturns, ?_, fun p hp _ => productsKept contract runs c p hp,
      fun p hp _ q => eq_of_sold_after hp⟩
    intro after r hr
    by_cases hsold : ∃ p ∈ products.table.keys, (products.table.row p).sellsRun r = true
    · obtain ⟨p, hp, hsells⟩ := hsold
      obtain ⟨hmem, hrow⟩ := productsKept contract runs c p hp
      refine ⟨p, hmem, ?_⟩
      rw [hrow]
      exact ⟨hactive p hp r hr hsells, hsells, (hgood p hp r hr hsells).2⟩
    · have hr' := mem_runsWithout_of_unsold hr hsold
      rw [ensureContractRunProducts_eq] at hreturns
      obtain ⟨p, hp, hrow⟩ := createRunProducts_sells hreturns hr'
      rw [← ensureContractRunProducts_eq] at hp hrow
      refine ⟨p, hp, ?_⟩
      rw [hrow]
      exact ⟨rfl, runProduct_sellsRun.mpr rfl, rfl⟩

/-- A run of contract 5 without siblings, and the only product there is: an inactive one for it. -/
def withdrawnProduct : Products := ⟨Table.single 1 ⟨.courseRun, 1, ⟨0⟩, false⟩, by decide⟩

theorem not_ensuresProducts :
    ¬EnsuresProducts ⟨.code, 0, none, none, true, none, none⟩ loneRuns 5 withdrawnProduct := by
  intro h
  have hactive := (ensureContractRunProducts_error.mp h.returns).1 1 (List.mem_singleton_self 1) 1
    (by decide) (by decide)
  exact absurd hactive (by decide)

end MitxOnline

import MitxOnline.B2b.ContractCourseware
import MitxOnline.B2b.Proofs.EnrollmentCodesProofs

/-!
# Codes that lose products

The loop over the discounts of some products takes each of them on its own, so it does the same whatever the
order is. Losing some products and then others is losing both. Where the loop stops on the way, each discount is
as before, without the products, or gone.
-/

namespace MitxOnline

open Autocommit

variable {products : List ProductId} {codes : CodeStore} {d : DiscountId}

namespace ContractCourseware

/-- What a round leaves where nothing fails. -/
def withdrawDiscount (products : List ProductId) (codes : CodeStore) (d : DiscountId) : CodeStore :=
  let codes := codes.deleteProducts d (isProductOf products)
  if (codes.discounts.row d).products.length = 0 ∧ codes.isUsed d = false then codes.withoutDiscount d
  else codes

/-- What the loop leaves where nothing fails. -/
def withdrawDiscounts (products : List ProductId) (codes : CodeStore) : CodeStore :=
  (discountsOf products codes).foldl (withdrawDiscount products) codes

/-- The code has a product that passes the test and none that does not, and nobody redeemed it. -/
def withdrawn (test : Option ProductId → Bool) (codes : CodeStore) (d : DiscountId) : Bool :=
  !codes.isUsed d && (codes.discounts.row d).products.any test && (codes.discounts.row d).products.all test

theorem withdrawn_iff {test : Option ProductId → Bool} : withdrawn test codes d = true ↔
    codes.isUsed d = false ∧ (∃ product ∈ (codes.discounts.row d).products, test product = true) ∧
      ∀ product ∈ (codes.discounts.row d).products, test product = true := by
  unfold withdrawn
  rw [Bool.and_eq_true, Bool.and_eq_true, Bool.not_eq_true', List.any_eq_true, List.all_eq_true, and_assoc]

/-- The code without the products that pass the test. -/
def without (test : Option ProductId → Bool) (discount : Discount) : Discount :=
  { discount with products := discount.products.filter fun product => !test product }

variable {test test' : Option ProductId → Bool}

theorem without_all (test : Option ProductId → Bool) (discount : Discount) :
    (without test discount).products.all test = discount.products.all test := by
  rw [Bool.eq_iff_iff, List.all_eq_true, List.all_eq_true]
  constructor
  · intro h product hproduct
    by_contra hnot
    have hkept : product ∈ (without test discount).products :=
      List.mem_filter.mpr ⟨hproduct, by simp [hnot]⟩
    exact hnot (h product hkept)
  · intro h product hproduct
    exact h product (List.mem_filter.mp hproduct).1

theorem without_without (test test' : Option ProductId → Bool) (discount : Discount) :
    without test' (without test discount) =
      without (fun product => test product || test' product) discount := by
  unfold without
  dsimp only
  rw [List.filter_filter]
  congr 1
  refine List.filter_congr fun product _ => ?_
  rw [Bool.not_or, Bool.and_comm]

theorem without_self (test : Option ProductId → Bool) (discount : Discount) :
    without test (without test discount) = without test discount := by
  rw [without_without]
  simp only [Bool.or_self]

theorem without_of_none {discount : Discount} (h : discount.products.any test = false) :
    without test discount = discount := by
  have hall : discount.products.filter (fun product => !test product) = discount.products := by
    refine List.filter_eq_self.mpr fun product hproduct => ?_
    have hnot := List.any_eq_false.mp h product hproduct
    simpa using hnot
  unfold without
  rw [hall]

/-- One discount loses the products; it is deleted if it has no other and was not redeemed. -/
theorem withdrawDiscount_spec (products : List ProductId) (codes : CodeStore) (d : DiscountId) :
    (∀ d', d' ∈ (withdrawDiscount products codes d).discounts.keys ↔ d' ∈ codes.discounts.keys ∧
      ¬(d' = d ∧ codes.isUsed d = false ∧
        (codes.discounts.row d).products.all (isProductOf products) = true)) ∧
    (∀ d', (withdrawDiscount products codes d).discounts.row d' =
      if d' = d then without (isProductOf products) (codes.discounts.row d') else codes.discounts.row d') ∧
    ∀ d', (withdrawDiscount products codes d).isUsed d' = codes.isUsed d' := by
  have hrows : ∀ d', (codes.deleteProducts d (isProductOf products)).discounts.row d' =
      if d' = d then without (isProductOf products) (codes.discounts.row d')
      else codes.discounts.row d' := by
    intro d'
    split_ifs with hd
    · rw [hd, deleteProducts_row_self]
      rfl
    · exact deleteProducts_row_of_ne _ hd
  have hempty : ((codes.deleteProducts d (isProductOf products)).discounts.row d).products.length = 0 ↔
      (codes.discounts.row d).products.all (isProductOf products) = true := by
    rw [deleteProducts_row_self, List.length_eq_zero_iff, List.filter_eq_nil_iff,
      List.all_eq_true]
    simp
  unfold withdrawDiscount
  by_cases hgone : ((codes.deleteProducts d (isProductOf products)).discounts.row d).products.length = 0 ∧
      (codes.deleteProducts d (isProductOf products)).isUsed d = false
  · rw [if_pos hgone]
    refine ⟨fun d' => ?_, hrows, fun d' => isUsed_withoutDiscount hgone.2 d'⟩
    have hmem : d' ∈ ((codes.deleteProducts d (isProductOf products)).withoutDiscount d).discounts.keys ↔
        d' ∈ codes.discounts.keys ∧ d' ≠ d := Table.mem_erase_keys _
    rw [hmem]
    have hall := hempty.mp hgone.1
    have hunused : codes.isUsed d = false := hgone.2
    simp [hall, hunused]
  · rw [if_neg hgone]
    refine ⟨fun d' => ?_, hrows, fun _ => rfl⟩
    show d' ∈ codes.discounts.keys ↔ _
    have hkept : ¬(codes.isUsed d = false ∧
        (codes.discounts.row d).products.all (isProductOf products) = true) := fun h =>
      hgone ⟨hempty.mpr h.2, h.1⟩
    tauto

/-- The loop over any discounts. -/
theorem foldl_withdrawDiscount_spec (products : List ProductId) (ds : List DiscountId) (codes : CodeStore) :
    (∀ d', d' ∈ (ds.foldl (withdrawDiscount products) codes).discounts.keys ↔
      d' ∈ codes.discounts.keys ∧ ¬(d' ∈ ds ∧ codes.isUsed d' = false ∧
        (codes.discounts.row d').products.all (isProductOf products) = true)) ∧
    (∀ d', (ds.foldl (withdrawDiscount products) codes).discounts.row d' =
      if d' ∈ ds then without (isProductOf products) (codes.discounts.row d')
      else codes.discounts.row d') ∧
    ∀ d', (ds.foldl (withdrawDiscount products) codes).isUsed d' = codes.isUsed d' := by
  induction ds generalizing codes with
  | nil => simp
  | cons d ds ih =>
    obtain ⟨hkeys, hrows, hused⟩ := withdrawDiscount_spec products codes d
    obtain ⟨hkeys', hrows', hused'⟩ := ih (withdrawDiscount products codes d)
    have hall (d' : DiscountId) : ((withdrawDiscount products codes d).discounts.row d').products.all
        (isProductOf products) = (codes.discounts.row d').products.all (isProductOf products) := by
      rw [hrows d']
      split_ifs
      · exact without_all _ _
      · rfl
    rw [List.foldl_cons]
    refine ⟨fun d' => ?_, fun d' => ?_, fun d' => (hused' d').trans (hused d')⟩
    · rw [hkeys', hkeys, hused d', hall d', List.mem_cons]
      by_cases hd : d' = d
      · subst hd
        tauto
      · tauto
    · rw [hrows', hrows]
      by_cases hd : d' = d
      · subst hd
        rw [if_pos rfl, without_self, ite_self, if_pos List.mem_cons_self]
      · rw [if_neg hd]
        simp only [List.mem_cons, hd, false_or]

/-- Between two states codes lose the products that pass the test, and those that had no others and were not
redeemed are deleted. -/
structure CodesWithdrawn (test : Option ProductId → Bool) (codes codes' : CodeStore) : Prop where
  mem_keys : ∀ d, d ∈ codes'.discounts.keys ↔ d ∈ codes.discounts.keys ∧ withdrawn test codes d = false
  row : ∀ d ∈ codes'.discounts.keys, codes'.discounts.row d = without test (codes.discounts.row d)
  isUsed : ∀ d, codes'.isUsed d = codes.isUsed d

theorem mem_discountsOf : d ∈ discountsOf products codes ↔
    d ∈ codes.discounts.keys ∧ (codes.discounts.row d).products.any (isProductOf products) = true := by
  unfold discountsOf
  rw [List.mem_filter, decide_eq_true_eq, CodeStore.productRows, List.countP_pos_iff, List.any_eq_true]

theorem withdrawDiscounts_withdrawn (products : List ProductId) (codes : CodeStore) :
    CodesWithdrawn (isProductOf products) codes (withdrawDiscounts products codes) := by
  obtain ⟨hkeys, hrows, hused⟩ := foldl_withdrawDiscount_spec products (discountsOf products codes) codes
  have hkeep : ∀ d ∈ codes.discounts.keys,
      ¬((codes.discounts.row d).products.any (isProductOf products) = true ∧ codes.isUsed d = false ∧
        (codes.discounts.row d).products.all (isProductOf products) = true) ↔
        withdrawn (isProductOf products) codes d = false := by
    intro d hd
    rw [← Bool.not_eq_true (withdrawn _ _ _), withdrawn_iff, List.any_eq_true, List.all_eq_true]
    exact not_congr and_left_comm
  have hkeys' : ∀ d, d ∈ (withdrawDiscounts products codes).discounts.keys ↔
      d ∈ codes.discounts.keys ∧ withdrawn (isProductOf products) codes d = false := by
    intro d
    unfold withdrawDiscounts
    rw [hkeys]
    constructor
    · rintro ⟨hd, hkept⟩
      rw [mem_discountsOf, and_iff_right hd] at hkept
      exact ⟨hd, (hkeep d hd).mp hkept⟩
    · rintro ⟨hd, hkept⟩
      refine ⟨hd, ?_⟩
      rw [mem_discountsOf, and_iff_right hd]
      exact (hkeep d hd).mpr hkept
  refine ⟨hkeys', fun d hd' => ?_, hused⟩
  have hd := ((hkeys' d).mp hd').1
  unfold withdrawDiscounts
  rw [hrows]
  by_cases hin : (codes.discounts.row d).products.any (isProductOf products) = true
  · rw [if_pos (mem_discountsOf.mpr ⟨hd, hin⟩)]
  · rw [if_neg fun h => hin (mem_discountsOf.mp h).2, without_of_none (Bool.eq_false_iff.mpr hin)]

theorem codesWithdrawn_none (codes : CodeStore) : CodesWithdrawn (fun _ => false) codes codes := by
  have hnone : ∀ d, (codes.discounts.row d).products.any (fun _ => false) = false := fun d =>
    List.any_eq_false.mpr fun _ _ => Bool.false_ne_true
  refine ⟨fun d => ?_, fun d _ => (without_of_none (hnone d)).symm, fun _ => rfl⟩
  unfold withdrawn
  rw [hnone d]
  simp

/-- A code that a first withdrawal kept goes in a second one if all it had passes one of the tests. -/
theorem CodesWithdrawn.withdrawn_next {codes codes' : CodeStore} (h : CodesWithdrawn test codes codes')
    (hd : d ∈ codes.discounts.keys) (hkept : withdrawn test codes d = false) :
    withdrawn test' codes' d = true ↔
      withdrawn (fun product => test product || test' product) codes d = true := by
  have hrow := h.row d ((h.mem_keys d).mpr ⟨hd, hkept⟩)
  have hmem : ∀ product, product ∈ (codes'.discounts.row d).products ↔
      product ∈ (codes.discounts.row d).products ∧ test product = false := by
    intro product
    rw [hrow]
    show product ∈ (codes.discounts.row d).products.filter _ ↔ _
    rw [List.mem_filter, Bool.not_eq_true']
  have hnot := mt withdrawn_iff.mpr (Bool.eq_false_iff.mp hkept)
  rw [withdrawn_iff, withdrawn_iff, h.isUsed d]
  constructor
  · rintro ⟨hunused, ⟨product, hproduct, htest'⟩, hall⟩
    refine ⟨hunused, ⟨product, ((hmem product).mp hproduct).1, ?_⟩, fun other hother => ?_⟩
    · rw [htest', Bool.or_true]
    · cases htest : test other with
      | true => rfl
      | false => exact hall other ((hmem other).mpr ⟨hother, htest⟩)
  · rintro ⟨hunused, ⟨product, hproduct, -⟩, hall⟩
    have hrest : ∀ other, other ∈ (codes'.discounts.row d).products → test' other = true := by
      intro other hother
      obtain ⟨hbefore, htest⟩ := (hmem other).mp hother
      have hor := hall other hbefore
      rwa [htest, Bool.false_or] at hor
    refine ⟨hunused, ?_, hrest⟩
    by_contra hnone
    -- nothing was left for the second test, so the first one deleted the code
    have htests : ∀ other ∈ (codes.discounts.row d).products, test other = true := by
      intro other hother
      by_contra htest
      have hleft := (hmem other).mpr ⟨hother, Bool.eq_false_iff.mpr htest⟩
      exact hnone ⟨other, hleft, hrest other hleft⟩
    exact hnot ⟨hunused, ⟨product, hproduct, htests product hproduct⟩, htests⟩

theorem withdrawn_or (h : withdrawn test codes d = true) :
    withdrawn (fun product => test product || test' product) codes d = true := by
  obtain ⟨hunused, ⟨product, hproduct, htest⟩, hall⟩ := withdrawn_iff.mp h
  refine withdrawn_iff.mpr ⟨hunused, ⟨product, hproduct, ?_⟩, fun other hother => ?_⟩
  · rw [htest, Bool.true_or]
  · rw [hall other hother, Bool.true_or]

/-- Codes that lose some products and then others have lost both. -/
theorem CodesWithdrawn.trans {codes codes' codes'' : CodeStore} (h : CodesWithdrawn test codes codes')
    (h' : CodesWithdrawn test' codes' codes'') :
    CodesWithdrawn (fun product => test product || test' product) codes codes'' := by
  refine ⟨fun d => ?_, fun d hd => ?_, fun d => (h'.isUsed d).trans (h.isUsed d)⟩
  · rw [h'.mem_keys, h.mem_keys, and_assoc]
    refine and_congr_right fun hd => ?_
    cases hfirst : withdrawn test codes d with
    | true =>
      rw [withdrawn_or hfirst]
      simp
    | false =>
      rw [Bool.eq_iff_iff.mpr (h.withdrawn_next hd hfirst)]
      simp
  · have hd' := (h'.mem_keys d).mp hd
    rw [h'.row d hd, h.row d hd'.1, without_without]

/-! ## A loop that stops -/

variable {fate : RemoveWrite → WriteFate} {hasTier : DiscountId → Bool} {ds : List DiscountId}
  {codes' : CodeStore} {e : Error}

/-- Of the discounts `ds` each is as before, has lost the products, or is gone with them; the others are as
before. -/
structure CodesBetween (products : List ProductId) (ds : List DiscountId) (codes codes' : CodeStore) :
    Prop where
  mem_keys : ∀ d ∈ codes'.discounts.keys, d ∈ codes.discounts.keys
  gone : ∀ d ∈ codes.discounts.keys, d ∉ codes'.discounts.keys → d ∈ ds ∧ codes.isUsed d = false ∧
    (codes.discounts.row d).products.all (isProductOf products) = true
  row : ∀ d, codes'.discounts.row d = codes.discounts.row d ∨
    d ∈ ds ∧ codes'.discounts.row d = without (isProductOf products) (codes.discounts.row d)
  isUsed : ∀ d, codes'.isUsed d = codes.isUsed d

theorem codesBetween_isFrame (products : List ProductId) (ds : List DiscountId) :
    IsFrame (CodesBetween products ds) := by
  constructor
  · intro codes
    exact ⟨fun _ hd => hd, fun _ hd hgone => absurd hd hgone, fun _ => Or.inl rfl, fun _ => rfl⟩
  · intro codes codes' codes'' h h'
    refine ⟨fun d hd => h.mem_keys d (h'.mem_keys d hd), fun d hd hgone => ?_, fun d => ?_,
      fun d => (h'.isUsed d).trans (h.isUsed d)⟩
    · by_cases hmid : d ∈ codes'.discounts.keys
      · obtain ⟨hin, hunused, hall⟩ := h'.gone d hmid hgone
        refine ⟨hin, (h.isUsed d).symm.trans hunused, ?_⟩
        rcases h.row d with hsame | ⟨-, hlost⟩
        · rwa [hsame] at hall
        · rwa [hlost, without_all] at hall
      · exact h.gone d hd hmid
    · rcases h'.row d with hsame' | ⟨hin, hlost'⟩
      · rw [hsame']
        exact h.row d
      · refine Or.inr ⟨hin, ?_⟩
        rw [hlost']
        rcases h.row d with hsame | ⟨-, hlost⟩
        · rw [hsame]
        · rw [hlost, without_self]

theorem deleteProducts_between (hd : d ∈ ds) (codes : CodeStore) :
    CodesBetween products ds codes (codes.deleteProducts d (isProductOf products)) := by
  refine ⟨fun _ h => h, fun _ h hgone => absurd h hgone, fun d' => ?_, fun _ => rfl⟩
  by_cases heq : d' = d
  · rw [heq, deleteProducts_row_self]
    exact Or.inr ⟨hd, rfl⟩
  · exact Or.inl (deleteProducts_row_of_ne _ heq)

theorem withoutDiscount_between (hd : d ∈ ds) (hnone : (codes.discounts.row d).products.length = 0)
    (hunused : codes.isUsed d = false) : CodesBetween products ds codes (codes.withoutDiscount d) := by
  refine ⟨fun d' h => ((Table.mem_erase_keys _).mp h).1, fun d' h hgone => ?_, fun _ => Or.inl rfl,
    fun d' => isUsed_withoutDiscount hunused d'⟩
  have heq : d' = d := by
    by_contra hne
    exact hgone ((Table.mem_erase_keys _).mpr ⟨h, hne⟩)
  rw [heq, List.length_eq_zero_iff.mp hnone]
  exact ⟨hd, hunused, rfl⟩

theorem write_cases {σ : Type} (fate : WriteFate) (f : σ → σ) (s : σ) :
    (fate.write f s).state = f s ∨ (fate.write f s).state = s := by
  cases fate with
  | done => exact Or.inl rfl
  | fails => exact Or.inr rfl
  | hookFails => exact Or.inl rfl

theorem write_of_ok {σ : Type} {fate : WriteFate} {f : σ → σ} {s : σ} (h : (fate.write f s).error = none) :
    (fate.write f s).state = f s := by
  cases fate with
  | done => rfl
  | fails => cases h
  | hookFails => cases h

theorem write_fate {σ : Type} {fate : WriteFate} {f : σ → σ} {s : σ} {e : Error}
    (h : (fate.write f s).error = some e) : fate ≠ .done := by
  rintro rfl
  cases h

/-- One round, wherever it stops. -/
theorem removeDiscount_between (fate : RemoveWrite → WriteFate) (hasTier : DiscountId → Bool)
    (products : List ProductId) (hd : d ∈ ds) :
    Keeps (CodesBetween products ds) (removeDiscount fate hasTier products d) := by
  have hframe := codesBetween_isFrame products ds
  refine keeps_andThen hframe (fun codes => ?_) fun codes => ?_
  · rcases write_cases (fate (.codeProducts d)) (fun codes => codes.deleteProducts d (isProductOf products))
      codes with hdone | hsame
    · rw [hdone]
      exact deleteProducts_between hd codes
    · rw [hsame]
      exact hframe.refl codes
  · split_ifs with hlast htier
    · exact hframe.refl codes
    · rcases write_cases (fate (.code d)) (fun codes => codes.withoutDiscount d) codes with hdone | hsame
      · rw [hdone]
        exact withoutDiscount_between hd hlast.1 hlast.2
      · rw [hsame]
        exact hframe.refl codes
    · exact hframe.refl codes

/-- A round that returns withdraws the discount. -/
theorem removeDiscount_of_ok (h : (removeDiscount fate hasTier products d codes).error = none) :
    (removeDiscount fate hasTier products d codes).state = withdrawDiscount products codes d := by
  unfold removeDiscount at h ⊢
  cases hfirst : ((fate (.codeProducts d)).write (fun codes => codes.deleteProducts d (isProductOf products))
      codes).error with
  | some e =>
    rw [andThen_of_error hfirst] at h
    cases h
  | none =>
    rw [andThen_of_ok hfirst, write_of_ok hfirst] at h ⊢
    unfold withdrawDiscount
    dsimp only
    split_ifs at h ⊢ with hlast htier
    · exact write_of_ok h
    · rfl

/-- A round raises where a write does, or where a tier refers to a discount that nobody redeemed. -/
theorem removeDiscount_error (h : (removeDiscount fate hasTier products d codes).error = some e) :
    (∃ w, fate w ≠ .done) ∨ hasTier d = true ∧ codes.isUsed d = false := by
  unfold removeDiscount at h
  cases hfirst : ((fate (.codeProducts d)).write (fun codes => codes.deleteProducts d (isProductOf products))
      codes).error with
  | some e' => exact Or.inl ⟨_, write_fate hfirst⟩
  | none =>
    rw [andThen_of_ok hfirst, write_of_ok hfirst] at h
    split_ifs at h with hlast htier
    · exact Or.inr ⟨htier, hlast.2⟩
    · exact Or.inl ⟨_, write_fate h⟩

/-- The loop over some of the discounts, wherever it stops. -/
theorem removeDiscounts_between (fate : RemoveWrite → WriteFate) (hasTier : DiscountId → Bool)
    (products : List ProductId) (ds : List DiscountId) :
    Keeps (CodesBetween products ds) (seq (ds.map (removeDiscount fate hasTier products))) := by
  refine keeps_seq (codesBetween_isFrame products ds) fun round hround => ?_
  obtain ⟨d, hd, rfl⟩ := List.mem_map.mp hround
  exact removeDiscount_between fate hasTier products hd

theorem removeDiscounts_of_ok
    (h : (seq (ds.map (removeDiscount fate hasTier products)) codes).error = none) :
    (seq (ds.map (removeDiscount fate hasTier products)) codes).state =
      ds.foldl (withdrawDiscount products) codes := by
  induction ds generalizing codes with
  | nil => rfl
  | cons d ds ih =>
    obtain ⟨hfirst, hrest⟩ := seq_cons_error h
    have hround := removeDiscount_of_ok hfirst
    rw [List.map_cons, seq_cons, andThen_of_ok hfirst, hround, List.foldl_cons]
    rw [hround] at hrest
    exact ih hrest

theorem removeDiscounts_error
    (h : (seq (ds.map (removeDiscount fate hasTier products)) codes).error = some e) :
    (∃ w, fate w ≠ .done) ∨ ∃ d ∈ ds, hasTier d = true ∧ codes.isUsed d = false := by
  induction ds generalizing codes with
  | nil => cases h
  | cons d ds ih =>
    cases hfirst : (removeDiscount fate hasTier products d codes).error with
    | some e' => exact (removeDiscount_error hfirst).imp_right fun htier => ⟨d, List.mem_cons_self, htier⟩
    | none =>
      rw [List.map_cons, seq_cons, andThen_of_ok hfirst] at h
      refine (ih h).imp_right ?_
      rintro ⟨d', hd', htier, hunused⟩
      have hround : CodesBetween products (d :: ds) codes (removeDiscount fate hasTier products d codes).state :=
        removeDiscount_between fate hasTier products List.mem_cons_self codes
      exact ⟨d', List.mem_cons_of_mem d hd', htier, (hround.isUsed d').symm.trans hunused⟩

end ContractCourseware

end MitxOnline

import MitxOnline.B2b.Proofs.ContractRunKeysProofs

/-!
# Runs that are made one after the other

From the second run on, the index is that of the last key. Keys are listed as strings, so that the ninth run
stays the last one and the eleventh gets the key of the tenth. A `T` in the tags of the variant stops the
second run.
-/

namespace MitxOnline

/-- The order of strings by code points. -/
def codePointOrder (a b : Text) : Bool := decide (a < b)

/-- The run with an index for a source run. -/
def indexedRun (source : CourseRunRow) (contract : RunKeyContract) (courseKey : Text) (year i : ℕ) :
    CourseRunRow where
  coursewareId := courseKey ++ '+' :: runTag (Nat.toDigits 10 i) contract.id year ++ variantTags source
  runTag := runTag (Nat.toDigits 10 i) contract.id year
  language := source.language
  variantIndustry := source.variantIndustry
  variantLength := source.variantLength
  isSourceRun := false

/-- The runs with the indices from 1 to `n`. -/
def indexedRuns (source : CourseRunRow) (contract : RunKeyContract) (courseKey : Text) (year n : ℕ) :
    List CourseRunRow :=
  (List.range n).map fun k => indexedRun source contract courseKey year (k + 1)

/-- Keys can be read if their run consists of the characters of keys. -/
def ReadsRuns (fromString : Text → Except Error CourseKey) (courseKey : Text) : Prop :=
  ∀ run, run ≠ [] → (∀ c ∈ run, keyChar c = true) →
    ∃ course, fromString (courseKey ++ '+' :: run) = .ok ⟨courseKey ++ '+' :: run, course, run⟩

/-- All keys that are read for runs of a source run can be read. -/
structure KeysReadable (fromString : Text → Except Error CourseKey) (source : CourseRunRow)
    (contract : RunKeyContract) (orgPrefix : Option Text) (sourceId : CourseKey) : Prop where
  sourceKey : fromString source.coursewareId = .ok sourceId
  reads : ReadsRuns fromString (newCourseKey contract orgPrefix sourceId.course)
  tags : ∀ c ∈ variantTags source, keyChar c = true

variable {fromString : Text → Except Error CourseKey} {before : Text → Text → Bool}
  {rows : List CourseRunRow} {source : CourseRunRow} {contract : RunKeyContract} {courseKey : Text}
  {orgPrefix : Option Text} {year : ℕ} {i j n : ℕ}

/-! ## Keys that can be read -/

theorem plus_not_mem {part : Text} (h : ∀ c ∈ part, keyChar c = true) : '+' ∉ part := by
  intro hplus
  have hkey := h _ hplus
  revert hkey
  decide

/-- With an organization and a course, the reading of course keys reads all runs. -/
theorem readsRuns_readCourseKey {org course : Text} (horg : org ≠ []) (hcourse : course ≠ [])
    (horgChars : ∀ c ∈ org, keyChar c = true) (hcourseChars : ∀ c ∈ course, keyChar c = true) :
    ReadsRuns readCourseKey ("course-v1:".toList ++ org ++ '+' :: course) := by
  intro run hrun hrunChars
  have hnamespace : ∀ c ∈ "course-v1:".toList ++ org, keyChar c = true := by
    intro c hc
    obtain hc | hc := List.mem_append.mp hc
    · have hall : "course-v1:".toList.all keyChar = true := rfl
      exact List.all_eq_true.mp hall c hc
    · exact horgChars c hc
  have hsplit : ("course-v1:".toList ++ org ++ '+' :: course ++ '+' :: run).splitOn '+' =
      ["course-v1:".toList ++ org, course, run] := by
    rw [List.append_assoc _ ('+' :: course), List.cons_append,
      List.splitOn_append_cons_self_of_not_mem (plus_not_mem hnamespace),
      List.splitOn_append_cons_self_of_not_mem (plus_not_mem hcourseChars),
      List.splitOn_eq_singleton (plus_not_mem hrunChars)]
  have hlength : ("course-v1:".toList ++ org).length ≠ 10 := by
    have hpos := List.length_pos_of_ne_nil horg
    have hten : "course-v1:".toList.length = 10 := rfl
    rw [List.length_append]
    omega
  refine ⟨course, ?_⟩
  unfold readCourseKey
  rw [hsplit]
  dsimp only
  rw [if_pos]
  simp only [Bool.and_eq_true, bne_iff_ne, Bool.not_eq_true', List.isEmpty_eq_false_iff, List.all_eq_true]
  exact ⟨⟨⟨⟨⟨⟨List.isPrefixOf_iff_prefix.mpr (List.prefix_append _ _), hlength⟩, hcourse⟩, hrun⟩,
    hnamespace⟩, hcourseChars⟩, hrunChars⟩

/-! ## Run tags -/

theorem isDigit_of_mem {c : Char} (h : c ∈ Nat.toDigits 10 n) : c.isDigit = true :=
  Nat.isDigit_of_mem_toDigits (by omega) (by omega) h

theorem T_not_mem_toDigits : 'T' ∉ Nat.toDigits 10 n := by
  intro h
  have := isDigit_of_mem h
  revert this
  decide

theorem toDigits_injective (h : Nat.toDigits 10 i = Nat.toDigits 10 j) : i = j := by
  rw [← Nat.ofDigitChars_ten_toDigits (n := i), h, Nat.ofDigitChars_ten_toDigits]

theorem keyChar_runTag : ∀ c ∈ runTag (Nat.toDigits 10 i) contract.id year, keyChar c = true := by
  intro c hc
  have hdigit : c.isDigit = true ∨ c = 'T' ∨ c = 'C' := by
    simp only [runTag, List.mem_append, List.mem_cons] at hc
    rcases hc with hc | rfl | hc | rfl | hc
    · exact Or.inl (isDigit_of_mem hc)
    · exact Or.inr (Or.inl rfl)
    · exact Or.inl (isDigit_of_mem hc)
    · exact Or.inr (Or.inr rfl)
    · exact Or.inl (isDigit_of_mem hc)
  rcases hdigit with hdigit | rfl | rfl
  · simp [keyChar, Char.isAlphanum, hdigit]
  · decide
  · decide

theorem runTag_ne_nil {index : Text} : runTag index contract.id year ≠ [] := by
  simp [runTag]

/-- The tag that is looked for ends every tag with an index. -/
theorem runTag_nil_suffix {index : Text} :
    (runTag [] contract.id year).isSuffixOf (runTag index contract.id year) = true := by
  rw [List.isSuffixOf_iff_suffix]
  exact ⟨index, by simp [runTag]⟩

theorem runTag_ne_source : runTag (Nat.toDigits 10 i) contract.id year ≠ "SOURCE".toList := by
  intro h
  have hT : 'T' ∈ runTag (Nat.toDigits 10 i) contract.id year := by simp [runTag]
  rw [h] at hT
  revert hT
  decide

theorem runTag_injective
    (h : runTag (Nat.toDigits 10 i) contract.id year = runTag (Nat.toDigits 10 j) contract.id year) :
    i = j :=
  toDigits_injective (List.append_cancel_right h)

/-! ## The runs with indices -/

theorem indexedRun_injective
    (h : (indexedRun source contract courseKey year i).coursewareId =
      (indexedRun source contract courseKey year j).coursewareId) : i = j := by
  have htags := List.append_cancel_right h
  have hruns := List.append_cancel_left htags
  exact runTag_injective (List.cons.inj hruns).2

theorem mem_indexedRuns {r : CourseRunRow} :
    r ∈ indexedRuns source contract courseKey year n ↔
      ∃ i, 1 ≤ i ∧ i ≤ n ∧ r = indexedRun source contract courseKey year i := by
  simp only [indexedRuns, List.mem_map, List.mem_range]
  constructor
  · rintro ⟨k, hk, rfl⟩
    exact ⟨k + 1, by omega, by omega, rfl⟩
  · rintro ⟨i, hpos, hle, rfl⟩
    exact ⟨i - 1, by omega, by rw [Nat.sub_add_cancel hpos]⟩

theorem indexedRuns_succ :
    indexedRuns source contract courseKey year (n + 1) =
      indexedRuns source contract courseKey year n ++ [indexedRun source contract courseKey year (n + 1)] := by
  simp [indexedRuns, List.range_succ]

/-- All runs with an index match. -/
theorem matchingRuns_indexedRuns :
    matchingRuns (indexedRuns source contract courseKey year n) source courseKey
        (runTag [] contract.id year) = indexedRuns source contract courseKey year n := by
  unfold matchingRuns
  rw [List.filter_eq_self]
  intro r hr
  obtain ⟨i, -, -, rfl⟩ := mem_indexedRuns.mp hr
  have husable : (indexedRun source contract courseKey year i).usable = true := by
    simp only [CourseRunRow.usable, indexedRun, Bool.not_false, Bool.true_and, bne_iff_ne]
    exact runTag_ne_source
  have hkey : courseKey.isPrefixOf (indexedRun source contract courseKey year i).coursewareId = true := by
    simp [indexedRun]
  rw [husable, hkey]
  simp [indexedRun, runTag_nil_suffix]

/-! ## The order of the keys -/

theorem isDigit_lt_T {c : Char} (h : c.isDigit = true) : c < 'T' := by
  have hle : c.toNat ≤ '9'.toNat := (Char.isDigit_iff_toNat.mp h).2
  have hnine : '9'.toNat < 'T'.toNat := by decide
  exact Char.lt_def.mpr (UInt32.lt_iff_toNat_lt.mpr (by exact lt_of_le_of_lt hle hnine))

theorem isDigit_le_nine {c : Char} (h : c.isDigit = true) : c < '9' ∨ c = '9' := by
  obtain hlt | heq := lt_or_eq_of_le (Char.isDigit_iff_toNat.mp h).2
  · exact Or.inl (Char.lt_def.mpr (UInt32.lt_iff_toNat_lt.mpr hlt))
  · exact Or.inr (Char.toNat_inj.mp heq)

/-- An index with one digit is before the larger ones with one digit. -/
theorem toDigits_lt_of_lt {x y : Text} (hlt : i < j) (hj : j < 10) :
    Nat.toDigits 10 i ++ x < Nat.toDigits 10 j ++ y := by
  have hdigits : ∀ b < 10, ∀ a < b, Nat.digitChar a < Nat.digitChar b := by decide
  rw [Nat.toDigits_of_lt_base (by omega : i < 10), Nat.toDigits_of_lt_base hj]
  exact List.cons_lt_cons_iff.mpr (Or.inl (hdigits j hj i hlt))

/-- Every index with more digits is before 9, as the tag goes on with a `T`. -/
theorem toDigits_lt_nine {x y : Text} (hi : 10 ≤ i) :
    Nat.toDigits 10 i ++ x < Nat.toDigits 10 9 ++ 'T' :: y := by
  have hdigit : ∀ c ∈ Nat.toDigits 10 i, c.isDigit = true := fun c => isDigit_of_mem
  rw [Nat.toDigits_of_base_le (by omega) hi] at hdigit ⊢
  obtain ⟨first, tens, htens⟩ := List.exists_cons_of_ne_nil (Nat.toDigits_ne_nil (n := i / 10) (b := 10))
  rw [htens] at hdigit ⊢
  obtain ⟨second, rest, hrest⟩ :=
    List.exists_cons_of_ne_nil (List.append_ne_nil_of_right_ne_nil tens (List.cons_ne_nil (i % 10).digitChar []))
  rw [List.cons_append, hrest] at hdigit ⊢
  have hsecond := isDigit_lt_T (hdigit second (by simp))
  show first :: second :: (rest ++ x) < '9' :: 'T' :: y
  rw [List.cons_lt_cons_iff, List.cons_lt_cons_iff]
  obtain hlt | heq := isDigit_le_nine (hdigit first (by simp))
  · exact Or.inl hlt
  · exact Or.inr ⟨heq, Or.inl hsecond⟩

theorem indexedRun_before
    (h : ∀ x y : Text, Nat.toDigits 10 i ++ 'T' :: x < Nat.toDigits 10 j ++ 'T' :: y) :
    codePointOrder (indexedRun source contract courseKey year i).coursewareId
        (indexedRun source contract courseKey year j).coursewareId = true ∧
      codePointOrder (indexedRun source contract courseKey year j).coursewareId
        (indexedRun source contract courseKey year i).coursewareId = false := by
  have hlt : (indexedRun source contract courseKey year i).coursewareId <
      (indexedRun source contract courseKey year j).coursewareId := by
    simp only [indexedRun, runTag, List.append_assoc, List.cons_append]
    exact List.append_left_lt (List.cons_lt_cons_iff.mpr (Or.inr ⟨rfl, h _ _⟩))
  exact ⟨decide_eq_true hlt, decide_eq_false (List.lt_asymm hlt)⟩

/-! ## The last key -/

theorem lastRun_mem {rows : List CourseRunRow} {last : CourseRunRow}
    (h : lastRun before rows = some last) : last ∈ rows := by
  induction rows generalizing last with
  | nil => cases h
  | cons r rest ih =>
    unfold lastRun at h
    cases hfound : lastRun before rest with
    | none =>
      rw [hfound] at h
      cases h
      exact List.mem_cons_self
    | some found =>
      rw [hfound] at h
      dsimp only at h
      split at h
      · cases h
        exact List.mem_cons_self
      · cases h
        exact List.mem_cons_of_mem _ (ih hfound)

/-- The last run is the one whose key is after all other keys. -/
theorem lastRun_of_greatest {rows : List CourseRunRow} {last : CourseRunRow} (hmem : last ∈ rows)
    (hlast : ∀ r ∈ rows, r ≠ last → before r.coursewareId last.coursewareId = true ∧
      before last.coursewareId r.coursewareId = false) : lastRun before rows = some last := by
  induction rows with
  | nil => cases hmem
  | cons r rest ih =>
    have hrest : last ∈ rest → lastRun before rest = some last :=
      fun h => ih h fun r hr => hlast r (List.mem_cons_of_mem _ hr)
    unfold lastRun
    by_cases hr : r = last
    · subst hr
      cases hfound : lastRun before rest with
      | none => rfl
      | some found =>
        dsimp only
        by_cases heq : found = r
        · rw [heq, ite_self]
        · rw [if_pos (hlast found (List.mem_cons_of_mem _ (lastRun_mem hfound)) heq).1]
    · obtain hr' | htail := List.mem_cons.mp hmem
      · exact absurd hr'.symm hr
      · rw [hrest htail]
        dsimp only
        rw [(hlast r List.mem_cons_self hr).2]
        rfl

/-- The last of the runs is the newest one up to the ninth, and then the ninth. -/
theorem lastRun_indexedRuns (hn : 1 ≤ n) :
    lastRun codePointOrder (indexedRuns source contract courseKey year n) =
      some (indexedRun source contract courseKey year (min n 9)) := by
  refine lastRun_of_greatest (mem_indexedRuns.mpr ⟨min n 9, by omega, by omega, rfl⟩) fun r hr hne => ?_
  obtain ⟨i, hpos, hle, rfl⟩ := mem_indexedRuns.mp hr
  have hi : i ≠ min n 9 := fun heq => hne (by rw [heq])
  refine indexedRun_before fun x y => ?_
  obtain hsmall | hlarge := Nat.lt_or_ge i 10
  · exact toDigits_lt_of_lt (by omega) (by omega)
  · rw [Nat.min_eq_right (by omega)]
    exact toDigits_lt_nine hlarge

/-! ## The index of the last key -/

theorem hasIndex_indexedRun (htags : 'T' ∉ variantTags source) (hi : i < 10) :
    HasIndex (runTag (Nat.toDigits 10 i) contract.id year ++ variantTags source) i := by
  have hparse : ∀ i < 10, parseInt (Nat.toDigits 10 i) = .ok (i : ℤ) := by decide
  refine ⟨Nat.toDigits 10 i, Nat.toDigits 10 contract.id ++ 'C' :: Nat.toDigits 10 year ++
    variantTags source, by simp [runTag], T_not_mem_toDigits, ?_, hparse i hi⟩
  intro hT
  simp only [List.mem_append, List.mem_cons] at hT
  rcases hT with (hT | hT | hT) | hT
  · exact T_not_mem_toDigits hT
  · cases hT
  · exact T_not_mem_toDigits hT
  · exact htags hT

/-- A `T` in the tags of the variant is the second one of the key. -/
theorem not_hasIndex_indexedRun (htags : 'T' ∈ variantTags source) {index : Text} {k : ℤ} :
    ¬HasIndex (runTag index contract.id year ++ variantTags source) k := by
  rintro ⟨index', rest, hrun, hindex, hrest, -⟩
  have hone : (runTag index contract.id year ++ variantTags source).count 'T' = 1 := by
    rw [hrun, List.count_append, List.count_cons_self, List.count_eq_zero_of_not_mem hindex,
      List.count_eq_zero_of_not_mem hrest]
  have htag : 1 ≤ (runTag index contract.id year).count 'T' :=
    List.one_le_count_iff.mpr (by simp [runTag])
  have htwo : 1 ≤ (variantTags source).count 'T' := List.one_le_count_iff.mpr htags
  rw [List.count_append] at hone
  omega

/-! ## One more run -/

variable {sourceId : CourseKey}

/-- Runs whose keys start otherwise do not matter. -/
theorem matchingRuns_others (hrows : ∀ r ∈ rows, ¬courseKey <+: r.coursewareId) :
    matchingRuns (rows ++ indexedRuns source contract courseKey year n) source courseKey
        (runTag [] contract.id year) = indexedRuns source contract courseKey year n := by
  have hnone : matchingRuns rows source courseKey (runTag [] contract.id year) = [] := by
    unfold matchingRuns
    rw [List.filter_eq_nil_iff]
    intro r hr hmatch
    simp only [Bool.and_eq_true] at hmatch
    exact hrows r hr (List.isPrefixOf_iff_prefix.mp hmatch.1.1.1.1.2)
  rw [matchingRuns, List.filter_append, ← matchingRuns, ← matchingRuns, hnone,
    matchingRuns_indexedRuns, List.nil_append]

variable (year i) in
/-- The key of a run with an index is read with its tag and the tags of the variant. -/
theorem KeysReadable.fromString_indexedRun
    (hkeys : KeysReadable fromString source contract orgPrefix sourceId) : ∃ key,
      fromString (indexedRun source contract (newCourseKey contract orgPrefix sourceId.course) year
        i).coursewareId = .ok key ∧
      key.run = runTag (Nat.toDigits 10 i) contract.id year ++ variantTags source := by
  have hchars : ∀ c ∈ runTag (Nat.toDigits 10 i) contract.id year ++ variantTags source,
      keyChar c = true := by
    intro c hc
    obtain hc | hc := List.mem_append.mp hc
    · exact keyChar_runTag c hc
    · exact hkeys.tags c hc
  obtain ⟨course, hread⟩ := hkeys.reads _ (List.append_ne_nil_of_left_ne_nil runTag_ne_nil _) hchars
  rw [← List.cons_append, ← List.append_assoc] at hread
  exact ⟨_, hread, rfl⟩

variable (year) in
/-- The index of the next run among those with an index. -/
theorem KeysReadable.nextIndex_indexedRuns
    (hkeys : KeysReadable fromString source contract orgPrefix sourceId)
    (hrows : ∀ r ∈ rows, ¬newCourseKey contract orgPrefix sourceId.course <+: r.coursewareId)
    (hn : n = 0 ∨ 'T' ∉ variantTags source) :
    nextIndex fromString (lastRun codePointOrder (matchingRuns
      (rows ++ indexedRuns source contract (newCourseKey contract orgPrefix sourceId.course) year n)
      source (newCourseKey contract orgPrefix sourceId.course) (runTag [] contract.id year))) =
        .ok ((min n 9 + 1 : ℕ) : ℤ) := by
  rw [matchingRuns_others hrows]
  obtain rfl | hpos := Nat.eq_zero_or_pos n
  · rfl
  · obtain rfl | hT := hn
    · omega
    · obtain ⟨key, hread, hrun⟩ := hkeys.fromString_indexedRun year (min n 9)
      rw [lastRun_indexedRuns hpos, nextIndex_some]
      refine ⟨key, (min n 9 : ℕ), hread, ?_, by push_cast; rfl⟩
      rw [hrun]
      exact hasIndex_indexedRun hT (by omega)

/-- With an index, the id and the tag are those of the run with it. -/
theorem KeysReadable.newReadableId_of_index
    (hkeys : KeysReadable fromString source contract orgPrefix sourceId)
    (hindex : nextIndex fromString (lastRun before (matchingRuns rows source
      (newCourseKey contract orgPrefix sourceId.course) (runTag [] contract.id year))) = .ok (i : ℤ)) :
    newReadableId fromString before rows source contract orgPrefix year =
      .ok ((indexedRun source contract (newCourseKey contract orgPrefix sourceId.course) year
        i).coursewareId, runTag (Nat.toDigits 10 i) contract.id year) := by
  obtain ⟨course, hread⟩ := hkeys.reads (runTag (Nat.toDigits 10 i) contract.id year) runTag_ne_nil keyChar_runTag
  unfold newReadableId createContractRunKey
  rw [hkeys.sourceKey]
  dsimp only
  rw [hindex]
  dsimp only [intText]
  rw [hread]
  dsimp only
  rw [hread]
  rfl

/-- From the second run on, no run is made if the variant has a `T`. -/
theorem KeysReadable.createContractRun_of_T
    (hkeys : KeysReadable fromString source contract orgPrefix sourceId)
    (hrows : ∀ r ∈ rows, ¬newCourseKey contract orgPrefix sourceId.course <+: r.coursewareId)
    (hn : 1 ≤ n) (hT : 'T' ∈ variantTags source) :
    ∃ e, createContractRun fromString codePointOrder
      (rows ++ indexedRuns source contract (newCourseKey contract orgPrefix sourceId.course) year n)
      source contract orgPrefix year = .error e := by
  cases hindex : nextIndex fromString (lastRun codePointOrder (matchingRuns
      (rows ++ indexedRuns source contract (newCourseKey contract orgPrefix sourceId.course) year n)
      source (newCourseKey contract orgPrefix sourceId.course) (runTag [] contract.id year))) with
  | error e =>
    unfold createContractRun newReadableId createContractRunKey
    rw [hkeys.sourceKey]
    dsimp only
    rw [hindex]
    exact ⟨e, rfl⟩
  | ok k =>
    rw [matchingRuns_others hrows, lastRun_indexedRuns hn, nextIndex_some] at hindex
    obtain ⟨key, j, hkey, hj, -⟩ := hindex
    obtain ⟨key', hread, hrun⟩ := hkeys.fromString_indexedRun year (min n 9)
    rw [hread] at hkey
    cases hkey
    rw [hrun] at hj
    exact absurd hj (not_hasIndex_indexedRun hT)

/-- From the eleventh run on, the index of the tenth is given out again. -/
theorem KeysReadable.createContractRun_of_ten
    (hkeys : KeysReadable fromString source contract orgPrefix sourceId)
    (hrows : ∀ r ∈ rows, ¬newCourseKey contract orgPrefix sourceId.course <+: r.coursewareId)
    (hn : 10 ≤ n) (hT : 'T' ∉ variantTags source) :
    createContractRun fromString codePointOrder
      (rows ++ indexedRuns source contract (newCourseKey contract orgPrefix sourceId.course) year n)
      source contract orgPrefix year = .error .integrityError := by
  have hid := hkeys.newReadableId_of_index (hkeys.nextIndex_indexedRuns year hrows
    (n := n) (Or.inr hT))
  unfold createContractRun
  rw [hid]
  dsimp only
  rw [if_pos]
  rw [List.any_eq_true]
  refine ⟨_, List.mem_append_right _ (mem_indexedRuns.mpr ⟨min n 9 + 1, by omega, by omega, rfl⟩), ?_⟩
  exact beq_self_eq_true _

/-- Up to the tenth, a run gets the next index. -/
theorem KeysReadable.createContractRun_of_lt_ten
    (hkeys : KeysReadable fromString source contract orgPrefix sourceId)
    (hrows : ∀ r ∈ rows, ¬newCourseKey contract orgPrefix sourceId.course <+: r.coursewareId)
    (hn : n < 10) (hT : n = 0 ∨ 'T' ∉ variantTags source) :
    createContractRun fromString codePointOrder
      (rows ++ indexedRuns source contract (newCourseKey contract orgPrefix sourceId.course) year n)
      source contract orgPrefix year =
        .ok (rows ++ indexedRuns source contract (newCourseKey contract orgPrefix sourceId.course) year
          (n + 1)) := by
  have hid := hkeys.newReadableId_of_index (hkeys.nextIndex_indexedRuns year hrows hT)
  rw [Nat.min_eq_left (by omega)] at hid
  unfold createContractRun
  rw [hid]
  dsimp only
  rw [if_neg, indexedRuns_succ, ← List.append_assoc]
  · rfl
  · simp only [List.any_eq_true, beq_iff_eq]
    rintro ⟨r, hr, heq⟩
    obtain hr | hr := List.mem_append.mp hr
    · refine hrows r hr ?_
      rw [heq]
      simp [indexedRun]
    · obtain ⟨i, -, hle, rfl⟩ := mem_indexedRuns.mp hr
      have := indexedRun_injective heq
      omega

/-! ## All runs -/

variable (year n) in
/-- After `k` runs, `n` more are made if there are at most ten in all, and at most one with a `T`. -/
theorem KeysReadable.createContractRuns_from
    (hkeys : KeysReadable fromString source contract orgPrefix sourceId)
    (hrows : ∀ r ∈ rows, ¬newCourseKey contract orgPrefix sourceId.course <+: r.coursewareId) (k : ℕ) :
    (∃ made, createContractRuns fromString codePointOrder source contract orgPrefix year n
      (rows ++ indexedRuns source contract (newCourseKey contract orgPrefix sourceId.course) year k) =
        .ok made) ↔ n = 0 ∨ k + n ≤ 1 ∨ k + n ≤ 10 ∧ 'T' ∉ variantTags source := by
  induction n generalizing k with
  | zero => simp [createContractRuns]
  | succ n ih =>
    unfold createContractRuns
    by_cases hnext : k < 10 ∧ (k = 0 ∨ 'T' ∉ variantTags source)
    · rw [hkeys.createContractRun_of_lt_ten hrows hnext.1 hnext.2]
      dsimp only
      rw [ih (k + 1)]
      by_cases hT : 'T' ∈ variantTags source
      · simp only [hT, not_true_eq_false, and_false, or_false] at hnext ⊢
        omega
      · simp only [hT, not_false_eq_true, and_true]
        omega
    · have herror : ∃ e, createContractRun fromString codePointOrder
          (rows ++ indexedRuns source contract (newCourseKey contract orgPrefix sourceId.course) year k)
          source contract orgPrefix year = .error e := by
        by_cases hT : 'T' ∈ variantTags source
        · refine hkeys.createContractRun_of_T hrows ?_ hT
          by_contra hzero
          exact hnext ⟨by omega, Or.inl (by omega)⟩
        · refine ⟨_, hkeys.createContractRun_of_ten hrows ?_ hT⟩
          by_contra hten
          exact hnext ⟨by omega, Or.inr hT⟩
      obtain ⟨e, he⟩ := herror
      rw [he]
      refine iff_of_false (by simp) ?_
      by_cases hT : 'T' ∈ variantTags source
      · simp only [hT, not_true_eq_false, and_false, or_false] at hnext ⊢
        omega
      · simp only [hT, not_false_eq_true, and_true, or_true] at hnext ⊢
        omega

/-- Of runs for one source run, contract and year, ten can be made, and only one with a `T` in the
variant. -/
theorem KeysReadable.createContractRuns_ok_iff
    (hkeys : KeysReadable fromString source contract orgPrefix sourceId)
    (hrows : ∀ r ∈ rows, ¬newCourseKey contract orgPrefix sourceId.course <+: r.coursewareId) :
    (∃ made, createContractRuns fromString codePointOrder source contract orgPrefix year n rows =
      .ok made) ↔ n ≤ 1 ∨ n ≤ 10 ∧ 'T' ∉ variantTags source := by
  have hfrom := hkeys.createContractRuns_from year n hrows 0
  simp only [indexedRuns, List.range_zero, List.map_nil, List.append_nil, Nat.zero_add] at hfrom
  rw [hfrom]
  by_cases hT : 'T' ∈ variantTags source
  · simp only [hT, not_true_eq_false, and_false, or_false]
    omega
  · simp only [hT, not_false_eq_true, and_true]
    omega

end MitxOnline

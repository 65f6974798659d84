import MitxOnline.B2b.Proofs.ContractProductsProofs
import MitxOnline.B2b.Proofs.ContractRunKeysProofs
import MitxOnline.B2b.SourceRuns
import MitxOnline.Lib.Trace

/-!
# The rounds of `create_contract_run`

A round makes one run and one product if the next index of the source run's key is free and the new rows
meet the constraints. Otherwise it raises, or it skips the source run.
-/

namespace MitxOnline

open Autocommit FixedPoint Trace Products

variable {env : RunEnvironment} {call : ContractRunCall} {source : GroupedRun} {s s' : RunCreation}
  {runs : CourseRuns} {run : GroupedRun} {readableId tag : Text}

/-! ## The new id -/

/-- The index of the next run: 1, or the one after that of the last run by its key. -/
inductive NextIndexIs (env : RunEnvironment) (rows : List CourseRunRow) (source : CourseRunRow)
    (courseKey mostlyRunTag : Text) : ℤ → Prop
  | first (none : matchingRuns rows source courseKey mostlyRunTag = []) :
      NextIndexIs env rows source courseKey mostlyRunTag 1
  | after {last : CourseRunRow} {key : CourseKey} {i : ℤ}
      (isLast : lastRun env.before (matchingRuns rows source courseKey mostlyRunTag) = some last)
      (isKey : env.fromString last.coursewareId = .ok key) (hasIndex : HasIndex key.run i) :
      NextIndexIs env rows source courseKey mostlyRunTag (i + 1)

theorem nextIndexIs_iff {rows : List CourseRunRow} {source : CourseRunRow} {courseKey mostlyRunTag : Text}
    {i : ℤ} : NextIndexIs env rows source courseKey mostlyRunTag i ↔
      nextIndex env.fromString (lastRun env.before (matchingRuns rows source courseKey mostlyRunTag)) =
        .ok i := by
  cases hlast : lastRun env.before (matchingRuns rows source courseKey mostlyRunTag) with
  | none =>
    have hnone := lastRun_eq_none_iff.mp hlast
    constructor
    · intro h
      cases h with
      | first => rfl
      | after isLast => cases hlast.symm.trans isLast
    · intro h
      cases h
      exact .first hnone
  | some last =>
    rw [nextIndex_some]
    constructor
    · intro h
      cases h with
      | first hnone => cases hlast.symm.trans (lastRun_eq_none_iff.mpr hnone)
      | after isLast isKey hasIndex =>
        cases hlast.symm.trans isLast
        exact ⟨_, _, isKey, hasIndex, rfl⟩
    · rintro ⟨key, j, hkey, hindex, rfl⟩
      exact .after hlast hkey hindex

/-- The key of a contract run with an index. -/
def ContractRunCall.key (call : ContractRunCall) (course : Text) (i : ℤ) : Text :=
  newCourseKey call.contract call.orgPrefix course ++
    '+' :: MitxOnline.runTag (intText i) call.contract.id call.year

/-- A source run gives a key: its own can be read, and so can the one with the next index. -/
structure GivesKey (env : RunEnvironment) (call : ContractRunCall) (rows : List CourseRunRow)
    (source : CourseRunRow) (sourceId : CourseKey) (i : ℤ) (newKey : CourseKey) : Prop where
  readsSource : env.fromString source.coursewareId = .ok sourceId
  nextIndexIs : NextIndexIs env rows source (newCourseKey call.contract call.orgPrefix sourceId.course)
    (MitxOnline.runTag [] call.contract.id call.year) i
  readsKey : env.fromString (call.key sourceId.course i) = .ok newKey

theorem GivesKey.newReadableId_eq (hround : RoundTrips env.fromString) {rows : List CourseRunRow}
    {source : CourseRunRow} {sourceId newKey : CourseKey} {i : ℤ}
    (h : GivesKey env call rows source sourceId i newKey) :
    newReadableId env.fromString env.before rows source call.contract call.orgPrefix call.year =
      .ok (call.key sourceId.course i ++ variantTags source, newKey.run) := by
  have htext := hround _ newKey h.readsKey
  have hkey := h.readsKey
  unfold ContractRunCall.key at hkey htext
  unfold newReadableId createContractRunKey ContractRunCall.key
  simp only [h.readsSource, nextIndexIs_iff.mp h.nextIndexIs, hkey]
  rw [htext, hkey]
  dsimp only
  rw [htext]

/-- Only such a source run gives a key. -/
theorem givesKey_of_newReadableId {rows : List CourseRunRow} {source : CourseRunRow} {id : Text × Text}
    (h : newReadableId env.fromString env.before rows source call.contract call.orgPrefix call.year =
      .ok id) : ∃ sourceId i newKey, GivesKey env call rows source sourceId i newKey := by
  unfold newReadableId createContractRunKey at h
  cases hsource : env.fromString source.coursewareId with
  | error e => simp [hsource] at h
  | ok sourceId =>
    cases hindex : nextIndex env.fromString (lastRun env.before (matchingRuns rows source
        (newCourseKey call.contract call.orgPrefix sourceId.course)
        (MitxOnline.runTag [] call.contract.id call.year))) with
    | error e => simp [hsource, hindex] at h
    | ok i =>
      cases hkey : env.fromString (call.key sourceId.course i) with
      | error e =>
        unfold ContractRunCall.key at hkey
        simp [hsource, hindex, hkey] at h
      | ok newKey => exact ⟨sourceId, i, newKey, hsource, nextIndexIs_iff.mpr hindex, hkey⟩

/-! ## The new rows -/

/-- The database takes a new run: its language is valid, its id is short enough and new, and its group has
no run in its language and variant and, if it is in the primary language, no other such run. -/
structure AcceptsRun (env : RunEnvironment) (runs : CourseRuns) (run : GroupedRun) : Prop where
  validLanguage : run.language = [] ∨ env.validLanguage run.language = true
  shortId : run.coursewareId.length ≤ 255
  newId : ∀ r ∈ runs.table.keys, (runs.row r).coursewareId ≠ run.coursewareId
  language : ∀ r ∈ runs.table.keys, uniqueLanguagePerGroup.clash run (runs.row r) = false
  primary : ∀ r ∈ runs.table.keys, uniquePrimaryLanguagePerGroup.clash run (runs.row r) = false

theorem meetsConstraints_create_iff : MeetsConstraints (runs.table.create run) ↔
    (∀ r ∈ runs.table.keys, (runs.row r).coursewareId ≠ run.coursewareId) ∧
      (∀ r ∈ runs.table.keys, uniqueLanguagePerGroup.clash run (runs.row r) = false) ∧
      ∀ r ∈ runs.table.keys, uniquePrimaryLanguagePerGroup.clash run (runs.row r) = false := by
  have hid : ∀ r, uniqueCoursewareId.clash run (runs.table.row r) = false ↔
      (runs.row r).coursewareId ≠ run.coursewareId := by
    intro r
    rw [← Bool.not_eq_true, UniqueConstraint.clash_iff]
    simp only [uniqueCoursewareId, true_and, ne_eq, eq_comm, CourseRuns.row]
  rw [meetsConstraints_iff, runs.meetsConstraints.uniquePrimaryLanguagePerGroup.create_iff,
    runs.meetsConstraints.uniqueLanguagePerGroup.create_iff,
    runs.meetsConstraints.uniqueCoursewareId.create_iff]
  simp only [hid]
  constructor
  · rintro ⟨hprimary, hlanguage, hnew⟩
    exact ⟨hnew, hlanguage, hprimary⟩
  · rintro ⟨hnew, hlanguage, hprimary⟩
    exact ⟨hprimary, hlanguage, hnew⟩

theorem AcceptsRun.save_eq (h : AcceptsRun env runs run) :
    ∃ runs', runs.save env.validLanguage run = .ok runs' ∧ runs'.table = runs.table.create run := by
  have hmeets := meetsConstraints_create_iff.mpr ⟨h.newId, h.language, h.primary⟩
  have hlanguage : ¬(run.language ≠ [] ∧ env.validLanguage run.language = false) := by
    rintro ⟨hne, hinvalid⟩
    rw [h.validLanguage.resolve_left hne] at hinvalid
    cases hinvalid
  refine ⟨⟨_, hmeets⟩, ?_, rfl⟩
  unfold CourseRuns.save CourseRuns.write
  rw [if_neg hlanguage, if_neg (Nat.not_lt.mpr h.shortId), dif_pos hmeets]

theorem acceptsRun_of_save {runs' : CourseRuns} (h : runs.save env.validLanguage run = .ok runs') :
    AcceptsRun env runs run := by
  unfold CourseRuns.save CourseRuns.write at h
  split_ifs at h with hlanguage hlong hmeets
  obtain ⟨hnew, hfree, hprimary⟩ := meetsConstraints_create_iff.mp hmeets
  refine ⟨?_, Nat.not_lt.mp hlong, hnew, hfree, hprimary⟩
  by_cases hne : run.language = []
  · exact Or.inl hne
  · exact Or.inr (Bool.not_eq_false _ ▸ fun hinvalid => hlanguage ⟨hne, hinvalid⟩)

theorem products_create_of_unsold {products : Products} {price : Decimal 2} {r : RunId}
    (hfits : fitsPriceColumn price) (hunsold : products.Unsold r) :
    ∃ products', products.create (runProduct price r) = .ok products' ∧
      products'.table = products.table.create (runProduct price r) := by
  have hholds := (holdsIn_create_iff price).mpr hunsold
  have hprice : ¬¬fitsPriceColumn (runProduct price r).price := not_not.mpr hfits
  refine ⟨⟨_, hholds⟩, ?_, rfl⟩
  unfold Products.create
  rw [if_neg hprice, dif_pos hholds]

theorem unsold_of_products_create {products products' : Products} {price : Decimal 2} {r : RunId}
    (h : products.create (runProduct price r) = .ok products') :
    fitsPriceColumn price ∧ products.Unsold r := by
  unfold Products.create at h
  split_ifs at h with hfits hholds
  exact ⟨hfits, (holdsIn_create_iff price).mp hholds⟩

/-! ## One round -/

/-- What a round needs to make its run. -/
structure RoundFree (env : RunEnvironment) (call : ContractRunCall) (s : RunCreation)
    (source : GroupedRun) : Prop where
  run : ∃ sourceId i newKey, GivesKey env call s.runs.rows source.toCourseRunRow sourceId i newKey ∧
    AcceptsRun env s.runs (contractRun call source
      (call.key sourceId.course i ++ variantTags source.toCourseRunRow) newKey.run)
  noRerun : call.noReruns = true → s.runs.hasContractRun call.contract.id source = false
  fits : fitsPriceColumn call.price
  unsold : s.products.Unsold s.runs.table.nextKey

/-- A round adds one run for the source run and a product for it. -/
structure RoundAdds (call : ContractRunCall) (source : GroupedRun) (s s' : RunCreation) : Prop where
  runs : ∃ readableId tag, s'.runs.table = s.runs.table.create (contractRun call source readableId tag)
  products : s'.products.table =
    s.products.table.create (runProduct call.price s.runs.table.nextKey)
  results : s'.results = s.results ++ [(s.runs.table.nextKey, s.products.table.nextKey)]

theorem createRunFor_of_free (hround : RoundTrips env.fromString) (h : RoundFree env call s source) :
    (createRunFor env call source s).error = none ∧
      RoundAdds call source s (createRunFor env call source s).state := by
  obtain ⟨sourceId, i, newKey, hgives, haccepts⟩ := h.run
  obtain ⟨runs', hsave, hruns⟩ := haccepts.save_eq
  obtain ⟨products', hcreate, hproducts⟩ := products_create_of_unsold h.fits h.unsold
  have hrerun : ¬(s.runs.hasContractRun call.contract.id source = true ∧ call.noReruns = true) := by
    rintro ⟨hrun, hno⟩
    rw [h.noRerun hno] at hrun
    cases hrun
  have hround : createRunFor env call source s = ⟨⟨runs', products',
      s.results ++ [(s.runs.table.nextKey, s.products.table.nextKey)]⟩, none⟩ := by
    unfold createRunFor
    simp only [hgives.newReadableId_eq hround, if_neg hrerun, hsave, hcreate]
  rw [hround]
  exact ⟨rfl, ⟨_, _, hruns⟩, hproducts, rfl⟩

/-- A round that is not free raises or skips the source run. -/
theorem createRunFor_of_not_free (hround : RoundTrips env.fromString)
    (h : ¬RoundFree env call s source) :
    (createRunFor env call source s).state.results = s.results := by
  unfold createRunFor
  split
  · rfl
  · rename_i readableId tag hid
    split_ifs with hrerun
    · rfl
    · split
      · rfl
      · rename_i runs hsave
        split
        · rfl
        · rename_i products hcreate
          refine absurd ?_ h
          obtain ⟨sourceId, i, newKey, hgives⟩ := givesKey_of_newReadableId hid
          obtain ⟨hfits, hunsold⟩ := unsold_of_products_create hcreate
          cases (hgives.newReadableId_eq hround).symm.trans hid
          refine ⟨⟨sourceId, i, newKey, hgives, acceptsRun_of_save hsave⟩, fun hno => ?_, hfits, hunsold⟩
          exact Bool.eq_false_iff.mpr fun hrun => hrerun ⟨hrun, hno⟩

/-! ## The loop -/

/-- The runs and products that were there stay as they are. -/
structure CoursewareKept (s s' : RunCreation) : Prop where
  runs : ∀ r ∈ s.runs.table.keys, r ∈ s'.runs.table.keys ∧ s'.runs.row r = s.runs.row r
  products : ∀ p ∈ s.products.table.keys,
    p ∈ s'.products.table.keys ∧ s'.products.table.row p = s.products.table.row p

theorem CoursewareKept.refl (s : RunCreation) : CoursewareKept s s :=
  ⟨fun _ hr => ⟨hr, rfl⟩, fun _ hp => ⟨hp, rfl⟩⟩

theorem CoursewareKept.trans {s'' : RunCreation} (h : CoursewareKept s s') (h' : CoursewareKept s' s'') :
    CoursewareKept s s'' := by
  constructor
  · intro r hr
    obtain ⟨hmem, hrow⟩ := h.runs r hr
    obtain ⟨hmem', hrow'⟩ := h'.runs r hmem
    exact ⟨hmem', hrow'.trans hrow⟩
  · intro p hp
    obtain ⟨hmem, hrow⟩ := h.products p hp
    obtain ⟨hmem', hrow'⟩ := h'.products p hmem
    exact ⟨hmem', hrow'.trans hrow⟩

theorem RoundAdds.rowsKept (h : RoundAdds call source s s') : CoursewareKept s s' := by
  obtain ⟨readableId, tag, hruns⟩ := h.runs
  constructor
  · intro r hr
    unfold CourseRuns.row
    rw [hruns]
    exact ⟨(Table.mem_create_keys _ _ _).mpr (.inl hr),
      Table.create_row_of_ne _ _ (Nat.ne_of_lt (Table.lt_nextKey _ hr))⟩
  · intro p hp
    rw [h.products]
    exact ⟨(Table.mem_create_keys _ _ _).mpr (.inl hp),
      Table.create_row_of_ne _ _ (Nat.ne_of_lt (Table.lt_nextKey _ hp))⟩

/-- A run of the contract in the language and variant of the source run, with its product. -/
structure MadeFrom (call : ContractRunCall) (s : RunCreation) (source : GroupedRun)
    (result : RunId × ProductId) : Prop where
  isRun : result.1 ∈ s.runs.table.keys
  run : ∃ readableId tag, s.runs.row result.1 = contractRun call source readableId tag
  isProduct : result.2 ∈ s.products.table.keys
  product : s.products.table.row result.2 = runProduct call.price result.1

theorem RoundAdds.madeFrom (h : RoundAdds call source s s') :
    MadeFrom call s' source (s.runs.table.nextKey, s.products.table.nextKey) := by
  obtain ⟨readableId, tag, hruns⟩ := h.runs
  refine ⟨?_, ⟨readableId, tag, ?_⟩, ?_, ?_⟩
  · rw [hruns]
    exact (Table.mem_create_keys _ _ _).mpr (.inr rfl)
  · unfold CourseRuns.row
    rw [hruns]
    exact Table.create_row_self _ _
  · rw [h.products]
    exact (Table.mem_create_keys _ _ _).mpr (.inr rfl)
  · rw [h.products]
    exact Table.create_row_self _ _

theorem MadeFrom.kept {result : RunId × ProductId} (h : MadeFrom call s source result)
    (hkept : CoursewareKept s s') : MadeFrom call s' source result := by
  obtain ⟨readableId, tag, hrun⟩ := h.run
  obtain ⟨hmem, hrow⟩ := hkept.runs _ h.isRun
  obtain ⟨hmem', hrow'⟩ := hkept.products _ h.isProduct
  exact ⟨hmem, ⟨readableId, tag, hrow.trans hrun⟩, hmem', hrow'.trans h.product⟩

/-- The step of the loop, where no round raises. -/
def roundState (env : RunEnvironment) (call : ContractRunCall) (s : RunCreation) (source : GroupedRun) :
    RunCreation := (createRunFor env call source s).state

/-- What the loop leaves when every round makes its run. -/
structure LoopMakes (call : ContractRunCall) (sources : List GroupedRun) (s : RunCreation)
    (outcome : Outcome RunCreation ContractRunError) (made : List (RunId × ProductId)) : Prop where
  returns : outcome.error = none
  results : outcome.state.results = s.results ++ made
  madeFrom : List.Forall₂ (MadeFrom call outcome.state) sources made
  keys : outcome.state.runs.table.keys = s.runs.table.keys ++ made.map Prod.fst
  rowsKept : CoursewareKept s outcome.state

theorem loopMakes_of_along (hround : RoundTrips env.fromString) {sources : List GroupedRun}
    (h : Along (roundState env call) (RoundFree env call) s sources) :
    ∃ made, LoopMakes call sources s (seq (sources.map (createRunFor env call)) s) made := by
  induction sources generalizing s with
  | nil => exact ⟨[], rfl, (List.append_nil _).symm, .nil, (List.append_nil _).symm, CoursewareKept.refl s⟩
  | cons source rest ih =>
    obtain ⟨hfree, hrest⟩ := h
    obtain ⟨herror, hadds⟩ := createRunFor_of_free hround hfree
    obtain ⟨made, hmakes⟩ := ih hrest
    have hcons : seq ((source :: rest).map (createRunFor env call)) s =
        seq (rest.map (createRunFor env call)) (roundState env call s source) := by
      rw [List.map_cons, seq_cons, andThen_of_ok herror]
      rfl
    have hkeys : (roundState env call s source).runs.table.keys =
        s.runs.table.keys ++ [s.runs.table.nextKey] := by
      obtain ⟨readableId, tag, hruns⟩ := hadds.runs
      exact congrArg Table.keys hruns
    rw [hcons]
    exact ⟨(s.runs.table.nextKey, s.products.table.nextKey) :: made,
      { returns := hmakes.returns
        results := by
          have hresults : (roundState env call s source).results = _ := hadds.results
          rw [hmakes.results, hresults, List.append_assoc]
          rfl
        madeFrom := .cons (hadds.madeFrom.kept hmakes.rowsKept) hmakes.madeFrom
        keys := by
          rw [hmakes.keys, hkeys, List.append_assoc]
          rfl
        rowsKept := hadds.rowsKept.trans hmakes.rowsKept }⟩

variable (call) in
/-- A round adds at most one result. -/
theorem createRunFor_results_le (hround : RoundTrips env.fromString) (source : GroupedRun)
    (s : RunCreation) :
    (createRunFor env call source s).state.results.length ≤ s.results.length + 1 := by
  by_cases hfree : RoundFree env call s source
  · rw [(createRunFor_of_free hround hfree).2.results, List.length_append]
    rfl
  · rw [createRunFor_of_not_free hround hfree]
    exact Nat.le_succ _

variable (call) in
theorem loop_results_le (hround : RoundTrips env.fromString) (sources : List GroupedRun)
    (s : RunCreation) :
    (seq (sources.map (createRunFor env call)) s).state.results.length ≤
      s.results.length + sources.length := by
  induction sources generalizing s with
  | nil => exact Nat.le_refl _
  | cons source rest ih =>
    have hfirst := createRunFor_results_le call hround source s
    rw [List.map_cons, seq_cons, List.length_cons]
    rcases herror : (createRunFor env call source s).error with _ | e
    · rw [andThen_of_ok herror]
      have hrest := ih (createRunFor env call source s).state
      omega
    · rw [andThen_of_error herror]
      dsimp only
      omega

/-- If there is a result for each source run, every round was free. -/
theorem along_of_results (hround : RoundTrips env.fromString) {sources : List GroupedRun}
    (h : (seq (sources.map (createRunFor env call)) s).state.results.length =
      s.results.length + sources.length) :
    Along (roundState env call) (RoundFree env call) s sources := by
  induction sources generalizing s with
  | nil => trivial
  | cons source rest ih =>
    rw [List.map_cons, seq_cons, List.length_cons] at h
    by_cases hfree : RoundFree env call s source
    · obtain ⟨herror, hadds⟩ := createRunFor_of_free hround hfree
      refine ⟨hfree, ih ?_⟩
      rw [andThen_of_ok herror] at h
      have hresults : (roundState env call s source).results.length = s.results.length + 1 := by
        have hadded : (roundState env call s source).results = _ := hadds.results
        rw [hadded, List.length_append]
        rfl
      rw [hresults]
      change (seq (rest.map (createRunFor env call))
        (createRunFor env call source s).state).state.results.length = _
      omega
    · -- the round adds nothing, and the others cannot make up for it
      have hnone := createRunFor_of_not_free hround hfree
      rcases herror : (createRunFor env call source s).error with _ | e
      · rw [andThen_of_ok herror] at h
        have hrest := loop_results_le call hround rest (createRunFor env call source s).state
        rw [hnone] at hrest
        omega
      · rw [andThen_of_error herror] at h
        have hsame := congrArg List.length hnone
        dsimp only at h
        omega

end MitxOnline

import Mathlib.Data.List.Nodup
import MitxOnline.B2b.Proofs.ContractRunRoundsProofs

/-!
# One contract run for each source run

The resolution of source runs goes wrong in two places: no variant is left after the filters, or a single
run is returned as a fallback. Where it returns source runs, `create_contract_run` makes a run for each of
them exactly if all rounds of its loop are free.
-/

namespace MitxOnline

open Autocommit Trace

variable {env : RunEnvironment} {call : ContractRunCall} {course : VariantCourse} {o : SourceRunOptions}
  {runs : CourseRuns} {products : Products} {queryOrder : QueryOrder} {r : RunId}

/-! ## The source runs -/

/-- A source run that is selected if the selection does not fail. -/
def isWanted (course : VariantCourse) (o : SourceRunOptions) (run : GroupedRun) : Bool :=
  match course.defaultVariantOptions with
  | none => isLegacySource run
  | some default =>
    if o.ignoreLangs = true then isLegacySource run
    else if o.noVariants = true then run.options == default.options
    else (courseVariants course o).contains run.options

/-- The source runs that are selected. -/
def wantedSources (course : VariantCourse) (o : SourceRunOptions) (runs : CourseRuns) : List RunId :=
  (runs.sourceRuns course.id).filter fun r => isWanted course o (runs.row r)

/-- Where source runs are selected by variants, the filters leave one. -/
def VariantsLeft (course : VariantCourse) (o : SourceRunOptions) : Prop :=
  course.defaultVariantOptions.isSome = true → o.ignoreLangs = false → o.noVariants = false →
    courseVariants course o ≠ []

theorem sourceRunFilter_of_left (h : VariantsLeft course o) :
    sourceRunFilter course o = .ok (isWanted course o) := by
  have hwanted : isWanted course o = fun run => isWanted course o run := rfl
  rw [hwanted]
  unfold sourceRunFilter isWanted
  rcases hdefault : course.defaultVariantOptions with _ | default
  · rfl
  · dsimp only
    split_ifs with hignore hno
    · rfl
    · rfl
    · have hleft := h (by rw [hdefault]; rfl) (Bool.eq_false_iff.mpr hignore) (Bool.eq_false_iff.mpr hno)
      rcases hvariants : courseVariants course o with _ | ⟨first, rest⟩
      · exact absurd hvariants hleft
      · refine congrArg Except.ok (funext fun run => ?_)
        rw [List.contains_cons, List.contains_eq_any_beq]

theorem sourceRunFilter_of_not_left (h : ¬VariantsLeft course o) :
    sourceRunFilter course o = .error .indexError := by
  unfold VariantsLeft at h
  simp only [Classical.not_imp, not_not] at h
  obtain ⟨hdefault, hignore, hno, hnone⟩ := h
  obtain ⟨default, hdefault⟩ := Option.isSome_iff_exists.mp hdefault
  unfold sourceRunFilter
  simp only [hdefault, hignore, hno, hnone, Bool.false_eq_true, if_false]

/-- Source runs are resolved: there are wanted ones, or none are and it is not a fallback that is
returned. -/
structure SourcesResolvable (course : VariantCourse) (o : SourceRunOptions) (runs : CourseRuns) : Prop where
  variantsLeft : VariantsLeft course o
  noFallback : wantedSources course o runs ≠ [] ∨ o.requireDesignated = true ∨
    runs.fallback course.id = none

/-- What is expected of `_get_source_runs_for_course`. -/
def SourcesResolved (course : VariantCourse) (runs : CourseRuns)
    (result : Except ContractRunError SourceRuns) : Prop :=
  (∃ message, result = .error (.sourceCourseIncomplete message)) ∨
    ∃ rs, result = .ok (.collection rs) ∧ rs ≠ [] ∧
      ∀ r ∈ rs, r ∈ runs.table.keys ∧ (runs.row r).course = course.id

theorem mem_wantedSources (h : r ∈ wantedSources course o runs) :
    r ∈ runs.table.keys ∧ (runs.row r).course = course.id := by
  obtain ⟨hkey, hsource⟩ := List.mem_filter.mp (List.mem_filter.mp h).1
  rw [Bool.and_eq_true, beq_iff_eq] at hsource
  exact ⟨hkey, hsource.1⟩

/-- Wanted source runs are returned, in the order in which the database lists them. -/
theorem getSourceRuns_of_wanted (h : VariantsLeft course o) (hwanted : wantedSources course o runs ≠ []) :
    getSourceRunsForCourse queryOrder course o runs =
      .ok (.collection (queryOrder.order (wantedSources course o runs))) := by
  have hlength : ¬(wantedSources course o runs).length = 0 := fun hzero =>
    hwanted (List.length_eq_zero_iff.mp hzero)
  unfold getSourceRunsForCourse
  rw [sourceRunFilter_of_left h]
  exact if_neg hlength

/-- Without wanted source runs, the fallback is returned if there is one and it may be. -/
theorem getSourceRuns_of_not_wanted (h : VariantsLeft course o)
    (hwanted : wantedSources course o runs = []) :
    getSourceRunsForCourse queryOrder course o runs =
      if o.requireDesignated = false then
        match runs.fallback course.id with
        | none => .error (.sourceCourseIncomplete (noCourseRuns course))
        | some fallback => .ok (.single fallback)
      else .error (.sourceCourseIncomplete (noSourceRun course)) := by
  have hlength : (wantedSources course o runs).length = 0 := List.length_eq_zero_iff.mpr hwanted
  unfold getSourceRunsForCourse
  rw [sourceRunFilter_of_left h]
  exact if_pos hlength

theorem getSourceRuns_of_not_left (h : ¬VariantsLeft course o) :
    getSourceRunsForCourse queryOrder course o runs = .error .indexError := by
  unfold getSourceRunsForCourse
  rw [sourceRunFilter_of_not_left h]

theorem sourcesResolved_iff :
    SourcesResolved course runs (getSourceRunsForCourse queryOrder course o runs) ↔
      SourcesResolvable course o runs := by
  by_cases hleft : VariantsLeft course o
  · by_cases hwanted : wantedSources course o runs = []
    · rw [getSourceRuns_of_not_wanted hleft hwanted]
      by_cases hdesignated : o.requireDesignated = true
      · rw [if_neg (Bool.not_eq_false _ ▸ hdesignated)]
        exact iff_of_true (Or.inl ⟨_, rfl⟩) ⟨hleft, Or.inr (Or.inl hdesignated)⟩
      · rw [if_pos (Bool.eq_false_iff.mpr hdesignated)]
        rcases hfallback : runs.fallback course.id with _ | fallback
        · exact iff_of_true (Or.inl ⟨_, rfl⟩) ⟨hleft, Or.inr (Or.inr hfallback)⟩
        · -- one run is returned, not a collection
          refine iff_of_false ?_ fun h => ?_
          · rintro (⟨message, hmessage⟩ | ⟨rs, hrs, -⟩)
            · cases hmessage
            · cases hrs
          · rcases h.noFallback with hsome | hrequired | hnone
            · exact hsome hwanted
            · exact hdesignated hrequired
            · cases hfallback.symm.trans hnone
    · rw [getSourceRuns_of_wanted hleft hwanted]
      refine iff_of_true (Or.inr ⟨_, rfl, ?_, fun r hr => ?_⟩) ⟨hleft, Or.inl hwanted⟩
      · exact fun hnil => hwanted (List.Perm.eq_nil (hnil ▸ queryOrder.perm _).symm)
      · exact mem_wantedSources ((queryOrder.perm _).mem_iff.mp hr)
  · rw [getSourceRuns_of_not_left hleft]
    refine iff_of_false ?_ fun h => hleft h.variantsLeft
    rintro (⟨message, hmessage⟩ | ⟨rs, hrs, -⟩)
    · cases hmessage
    · cases hrs

/-! ## The contract runs -/

/-- What is expected of the loop over source runs: it raises nothing, makes a run of the contract and a
product for each of them and no other runs, and no two of the new runs have the same key. -/
structure OnePerSource (call : ContractRunCall) (runs : CourseRuns) (sources : List GroupedRun)
    (outcome : Outcome RunCreation ContractRunError) : Prop where
  returns : outcome.error = none
  madeFrom : List.Forall₂ (MadeFrom call outcome.state) sources outcome.state.results
  onlyThese : outcome.state.runs.table.keys =
    runs.table.keys ++ outcome.state.results.map Prod.fst
  distinctKeys : (outcome.state.results.map fun result =>
    (outcome.state.runs.row result.1).coursewareId).Nodup

/-- Different runs have different keys. -/
theorem newRunKeys_nodup {rs : List RunId} (hmem : ∀ r ∈ rs, r ∈ runs.table.keys) (hnodup : rs.Nodup) :
    (rs.map fun r => (runs.row r).coursewareId).Nodup := by
  refine hnodup.map_on fun r hr r' hr' hsame => ?_
  have hunique := runs.meetsConstraints.uniqueCoursewareId
  exact hunique.eq_of_clash (hmem r hr) (hmem r' hr') (UniqueConstraint.clash_iff.mpr ⟨rfl, rfl, hsame⟩)

theorem onePerSource_iff (hround : RoundTrips env.fromString) (sources : List GroupedRun) :
    OnePerSource call runs sources (seq (sources.map (createRunFor env call)) ⟨runs, products, []⟩) ↔
      Along (roundState env call) (RoundFree env call) ⟨runs, products, []⟩ sources := by
  constructor
  · intro h
    refine along_of_results hround ?_
    rw [← h.madeFrom.length_eq]
    exact (Nat.zero_add _).symm
  · intro h
    obtain ⟨made, hmakes⟩ := loopMakes_of_along hround h
    have hresults : (seq (sources.map (createRunFor env call)) ⟨runs, products, []⟩).state.results =
        made := hmakes.results
    have hkeys := hmakes.keys
    have hnodup :=
      (seq (sources.map (createRunFor env call)) ⟨runs, products, []⟩).state.runs.table.keys_nodup
    rw [hkeys] at hnodup
    have hmem : ∀ r ∈ made.map Prod.fst,
        r ∈ (seq (sources.map (createRunFor env call)) ⟨runs, products, []⟩).state.runs.table.keys := by
      intro r hr
      rw [hkeys]
      exact List.mem_append_right _ hr
    refine ⟨hmakes.returns, ?_, ?_, ?_⟩
    · rw [hresults]
      exact hmakes.madeFrom
    · rw [hresults]
      exact hkeys
    · have hdistinct := newRunKeys_nodup hmem (List.nodup_append.mp hnodup).2.1
      rw [List.map_map] at hdistinct
      rw [hresults]
      exact hdistinct

/-- What is expected of the two functions; `create_contract_run` does not pass on `no_variants`. -/
structure MakesContractRuns (env : RunEnvironment) (call : ContractRunCall) (course : VariantCourse)
    (o : SourceRunOptions) (runs : CourseRuns) (products : Products) : Prop where
  resolved : SourcesResolved course runs (getSourceRunsForCourse env.queryOrder course o runs)
  incomplete : o.noVariants = false → ∀ message,
    getSourceRunsForCourse env.queryOrder course o runs = .error (.sourceCourseIncomplete message) →
      createContractRunsFor env call course o runs products =
        ⟨⟨runs, products, []⟩, some (.sourceCourseIncomplete message)⟩
  created : o.noVariants = false → ∀ rs,
    getSourceRunsForCourse env.queryOrder course o runs = .ok (.collection rs) →
      OnePerSource call runs (rs.map runs.row) (createContractRunsFor env call course o runs products)

/-- The sources in the order in which the loop takes them. -/
def sourcesInOrder (env : RunEnvironment) (course : VariantCourse) (o : SourceRunOptions)
    (runs : CourseRuns) : List GroupedRun :=
  (env.queryOrder.order (wantedSources course o runs)).map runs.row

theorem sourcesInOrder_of_nil (h : wantedSources course o runs = []) :
    sourcesInOrder env course o runs = [] := by
  have hnone : env.queryOrder.order (wantedSources course o runs) = [] := by
    rw [h]
    exact List.Perm.eq_nil (env.queryOrder.perm [])
  rw [sourcesInOrder, hnone, List.map_nil]

/-- A collection that is returned is that of the wanted source runs. -/
theorem eq_of_collection {rs : List RunId} (hleft : VariantsLeft course o)
    (h : getSourceRunsForCourse queryOrder course o runs = .ok (.collection rs)) :
    rs = queryOrder.order (wantedSources course o runs) := by
  by_cases hwanted : wantedSources course o runs = []
  · rw [getSourceRuns_of_not_wanted hleft hwanted] at h
    split_ifs at h
    rcases hfallback : runs.fallback course.id with _ | fallback
    · rw [hfallback] at h
      cases h
    · rw [hfallback] at h
      cases h
  · rw [getSourceRuns_of_wanted hleft hwanted] at h
    cases h
    rfl

theorem withoutNoVariants (h : o.noVariants = false) : { o with noVariants := false } = o := by
  rw [← h]

theorem createContractRunsFor_of_error (hno : o.noVariants = false) {e : ContractRunError}
    (h : getSourceRunsForCourse env.queryOrder course o runs = .error e) :
    createContractRunsFor env call course o runs products = ⟨⟨runs, products, []⟩, some e⟩ := by
  unfold createContractRunsFor
  rw [withoutNoVariants hno, h]

theorem createContractRunsFor_of_collection (hno : o.noVariants = false) {rs : List RunId}
    (h : getSourceRunsForCourse env.queryOrder course o runs = .ok (.collection rs)) :
    createContractRunsFor env call course o runs products =
      seq ((rs.map runs.row).map (createRunFor env call)) ⟨runs, products, []⟩ := by
  unfold createContractRunsFor
  rw [withoutNoVariants hno, h]

/-- Source runs become contract runs one by one exactly if they can be resolved and every round of the
loop finds its key, its group and its product free. -/
theorem makesContractRuns_iff (env : RunEnvironment) (hround : RoundTrips env.fromString)
    (call : ContractRunCall) (course : VariantCourse) (o : SourceRunOptions) (runs : CourseRuns)
    (products : Products) :
    MakesContractRuns env call course o runs products ↔
      SourcesResolvable course o runs ∧ (o.noVariants = false →
        Along (roundState env call) (RoundFree env call) ⟨runs, products, []⟩
          (sourcesInOrder env course o runs)) := by
  constructor
  · intro h
    have hresolvable := sourcesResolved_iff.mp h.resolved
    refine ⟨hresolvable, fun hno => ?_⟩
    by_cases hwanted : wantedSources course o runs = []
    · rw [sourcesInOrder_of_nil hwanted]
      trivial
    · have hget : getSourceRunsForCourse env.queryOrder course o runs = _ :=
        getSourceRuns_of_wanted hresolvable.variantsLeft hwanted
      have hone := h.created hno _ hget
      rw [createContractRunsFor_of_collection hno hget] at hone
      exact (onePerSource_iff hround _).mp hone
  · rintro ⟨hresolvable, hfree⟩
    refine ⟨sourcesResolved_iff.mpr hresolvable, fun hno message hget => ?_, fun hno rs hget => ?_⟩
    · exact createContractRunsFor_of_error hno hget
    · rw [createContractRunsFor_of_collection hno hget, onePerSource_iff hround,
        eq_of_collection hresolvable.variantsLeft hget]
      exact hfree hno

/-! ## A source run and a regular run -/

/-- A run of course 1 that belongs to no contract. -/
def regularRun (isSourceRun : Bool) : GroupedRun where
  coursewareId := "course-v1:MITx+6.00x+1T2026".toList
  runTag := "1T2026".toList
  language := "en".toList
  variantIndustry := []
  variantLength := []
  isSourceRun := isSourceRun
  course := 1
  b2bContract := none
  isPrimaryLanguage := true

def regularRuns (isSourceRun : Bool) : CourseRuns :=
  ⟨Table.single 1 (regularRun isSourceRun), by cases isSourceRun <;> decide⟩

def noProducts : Products := ⟨⟨[], fun _ => ⟨.courseRun, 0, ⟨0⟩, true⟩, Table.sorted_nil⟩, by decide⟩

def courseKeyEnvironment : RunEnvironment where
  fromString := readCourseKey
  before a b := decide (a < b)
  validLanguage language := language == "en".toList
  queryOrder := ⟨id, fun rs => .refl rs⟩

/-- A course without variants. -/
def plainCourse : VariantCourse := ⟨1, "6.00x | Course 1".toList, []⟩

def mitCall : ContractRunCall := ⟨mitContract, ⟨0⟩, none, false, 2026⟩

theorem makesContractRuns_iff_regularRun :
    MakesContractRuns courseKeyEnvironment mitCall plainCourse ⟨true, false, [], [], false⟩
      (regularRuns true) noProducts := by
  refine (makesContractRuns_iff courseKeyEnvironment roundTrips_readCourseKey mitCall plainCourse
    ⟨true, false, [], [], false⟩ (regularRuns true) noProducts).mpr ⟨⟨?_, ?_⟩, fun _ => ⟨?_, trivial⟩⟩
  · intro hvariants
    cases hvariants
  · exact Or.inr (Or.inl rfl)
  · refine ⟨⟨_, 1, _, ⟨rfl, .first rfl, rfl⟩, ?_⟩, fun hno => Bool.noConfusion hno, by decide, ?_⟩
    · exact ⟨Or.inr rfl, by decide, by decide, by decide, by decide⟩
    · intro p hp
      cases hp

/-- Where a regular run is the fallback, it is returned by itself. -/
theorem not_makesContractRuns :
    ¬ ∀ (env : RunEnvironment) (call : ContractRunCall) (course : VariantCourse) (o : SourceRunOptions)
      (runs : CourseRuns) (products : Products), RoundTrips env.fromString →
      MakesContractRuns env call course o runs products := by
  intro h
  have hresolved := (h courseKeyEnvironment mitCall plainCourse ⟨false, false, [], [], false⟩
    (regularRuns false) noProducts roundTrips_readCourseKey).resolved
  have hsingle : getSourceRunsForCourse courseKeyEnvironment.queryOrder plainCourse
      ⟨false, false, [], [], false⟩ (regularRuns false) = .ok (.single 1) := rfl
  rw [hsingle] at hresolved
  rcases hresolved with ⟨message, hmessage⟩ | ⟨rs, hrs, -⟩
  · cases hmessage
  · cases hrs

end MitxOnline

import MitxOnline.B2b.ContractRunKeys

/-!
# When the keys of contract runs are new

The new key differs from all others if the last of the matching runs has an index and the next index is not
taken. The last run is the last one by its key, so that its index need not be the largest.
-/

namespace MitxOnline

variable {fromString : Text → Except Error CourseKey} {before : Text → Text → Bool}
  {rows : List CourseRunRow} {source : CourseRunRow} {contract : RunKeyContract}
  {orgPrefix : Option Text} {year : ℕ} {i : ℤ}

/-- The documented round trip of course keys: a key prints as the string it was read from. -/
def RoundTrips (fromString : Text → Except Error CourseKey) : Prop :=
  ∀ s key, fromString s = .ok key → key.text = s

/-- The new run gets an id, which no run has. -/
def FreshKey (fromString : Text → Except Error CourseKey) (before : Text → Text → Bool)
    (rows : List CourseRunRow) (source : CourseRunRow) (contract : RunKeyContract)
    (orgPrefix : Option Text) (year : ℕ) : Prop :=
  ∃ id tag, newReadableId fromString before rows source contract orgPrefix year = .ok (id, tag) ∧
    ∀ r ∈ rows, r.coursewareId ≠ id

/-- The course key with an index can be read, and no run has the id with that index. -/
structure IndexFree (fromString : Text → Except Error CourseKey) (rows : List CourseRunRow)
    (source : CourseRunRow) (contract : RunKeyContract) (courseKey : Text) (year : ℕ) (i : ℤ) : Prop where
  isKey : ∃ key, fromString (courseKey ++ '+' :: runTag (intText i) contract.id year) = .ok key
  notTaken : ∀ r ∈ rows, r.coursewareId ≠
    courseKey ++ '+' :: runTag (intText i) contract.id year ++ variantTags source

/-- The run part of a key starts with an index and the only `T` of it. -/
def HasIndex (run : Text) (i : ℤ) : Prop :=
  ∃ index rest, run = index ++ 'T' :: rest ∧ 'T' ∉ index ∧ 'T' ∉ rest ∧ parseInt index = .ok i

/-- Without matching runs, index 1 is free; with some, the last one has an index and the next is free. -/
structure NextIndexFree (fromString : Text → Except Error CourseKey) (before : Text → Text → Bool)
    (rows : List CourseRunRow) (source : CourseRunRow) (contract : RunKeyContract) (courseKey : Text)
    (year : ℕ) : Prop where
  first : matchingRuns rows source courseKey (runTag [] contract.id year) = [] →
    IndexFree fromString rows source contract courseKey year 1
  next : ∀ last,
    lastRun before (matchingRuns rows source courseKey (runTag [] contract.id year)) = some last →
      ∃ key i, fromString last.coursewareId = .ok key ∧ HasIndex key.run i ∧
        IndexFree fromString rows source contract courseKey year (i + 1)

/-! ## The index -/

/-- With one `T`, the index is what stands before it. -/
theorem runIndex_of_split {index rest : Text} (hindex : 'T' ∉ index) (hrest : 'T' ∉ rest) :
    runIndex (index ++ 'T' :: rest) = parseInt index := by
  unfold runIndex
  rw [List.splitOn_append_cons_self_of_not_mem hindex, List.splitOn_eq_singleton hrest]

theorem runIndex_error {run : Text}
    (h : ¬∃ index rest, run = index ++ 'T' :: rest ∧ 'T' ∉ index ∧ 'T' ∉ rest) :
    ∃ e, runIndex run = .error e := by
  unfold runIndex
  by_cases hmem : 'T' ∈ run
  · obtain ⟨index, rest, hrun, hindex⟩ := List.eq_append_cons_of_mem hmem
    have hrest : 'T' ∈ rest := by
      by_contra hnot
      exact h ⟨index, rest, hrun, hindex, hnot⟩
    obtain ⟨index', rest', hrest', hindex'⟩ := List.eq_append_cons_of_mem hrest
    rw [hrun, List.splitOn_append_cons_self_of_not_mem hindex, hrest',
      List.splitOn_append_cons_self_of_not_mem hindex']
    cases hsplit : rest'.splitOn 'T' with
    | nil => exact absurd hsplit (List.splitOn_ne_nil _ _)
    | cons part parts => exact ⟨_, rfl⟩
  · rw [List.splitOn_eq_singleton hmem]
    exact ⟨_, rfl⟩

theorem runIndex_eq_ok_iff {run : Text} : runIndex run = .ok i ↔ HasIndex run i := by
  by_cases hsplit : ∃ index rest, run = index ++ 'T' :: rest ∧ 'T' ∉ index ∧ 'T' ∉ rest
  · obtain ⟨index, rest, rfl, hindex, hrest⟩ := hsplit
    rw [runIndex_of_split hindex hrest]
    constructor
    · exact fun h => ⟨index, rest, rfl, hindex, hrest, h⟩
    · rintro ⟨index', rest', hrun, hindex', hrest', h⟩
      have hsame : runIndex (index ++ 'T' :: rest) = runIndex (index' ++ 'T' :: rest') :=
        congrArg runIndex hrun
      rw [runIndex_of_split hindex hrest, runIndex_of_split hindex' hrest'] at hsame
      rw [hsame, h]
  · obtain ⟨e, he⟩ := runIndex_error hsplit
    rw [he]
    refine iff_of_false (by simp) ?_
    rintro ⟨index, rest, hrun, hindex, hrest, -⟩
    exact hsplit ⟨index, rest, hrun, hindex, hrest⟩

theorem nextIndex_some {last : CourseRunRow} :
    nextIndex fromString (some last) = .ok i ↔
      ∃ key j, fromString last.coursewareId = .ok key ∧ HasIndex key.run j ∧ i = j + 1 := by
  simp only [nextIndex]
  cases hkey : fromString last.coursewareId with
  | error e => simp
  | ok key =>
    dsimp only
    simp only [← runIndex_eq_ok_iff]
    cases hindex : runIndex key.run with
    | error e => simp [hindex]
    | ok j => simp [hindex, eq_comm]

theorem lastRun_eq_none_iff {rows : List CourseRunRow} : lastRun before rows = none ↔ rows = [] := by
  cases rows with
  | nil => simp [lastRun]
  | cons r rest =>
    unfold lastRun
    cases lastRun before rest with
    | none => simp
    | some last =>
      dsimp only
      split <;> simp

/-! ## The key -/

/-- Once the index is known, the new key is fresh if the index is free. -/
theorem freshKey_iff_indexFree (hround : RoundTrips fromString) {sourceId : CourseKey}
    (hsource : fromString source.coursewareId = .ok sourceId)
    (hindex : nextIndex fromString (lastRun before (matchingRuns rows source
      (newCourseKey contract orgPrefix sourceId.course) (runTag [] contract.id year))) = .ok i) :
    FreshKey fromString before rows source contract orgPrefix year ↔
      IndexFree fromString rows source contract (newCourseKey contract orgPrefix sourceId.course) year
        i := by
  unfold FreshKey newReadableId createContractRunKey
  rw [hsource]
  dsimp only
  rw [hindex]
  dsimp only
  cases hkey : fromString (newCourseKey contract orgPrefix sourceId.course ++
      '+' :: runTag (intText i) contract.id year) with
  | error e =>
    refine iff_of_false (by simp) fun h => ?_
    obtain ⟨key, hread⟩ := h.isKey
    rw [hkey] at hread
    cases hread
  | ok key =>
    have htext := hround _ key hkey
    dsimp only
    rw [htext, hkey]
    dsimp only
    rw [htext]
    constructor
    · rintro ⟨id, tag, hid, hnew⟩
      cases hid
      exact ⟨⟨key, hkey⟩, hnew⟩
    · intro h
      exact ⟨_, _, rfl, h.notTaken⟩

theorem sourceId_of_fresh (h : FreshKey fromString before rows source contract orgPrefix year) :
    ∃ sourceId, fromString source.coursewareId = .ok sourceId := by
  obtain ⟨id, tag, hid, -⟩ := h
  unfold newReadableId createContractRunKey at hid
  cases hread : fromString source.coursewareId with
  | error e =>
    rw [hread] at hid
    cases hid
  | ok sourceId => exact ⟨sourceId, rfl⟩

theorem nextIndex_of_fresh {sourceId : CourseKey}
    (hsource : fromString source.coursewareId = .ok sourceId)
    (h : FreshKey fromString before rows source contract orgPrefix year) :
    ∃ i, nextIndex fromString (lastRun before (matchingRuns rows source
      (newCourseKey contract orgPrefix sourceId.course) (runTag [] contract.id year))) = .ok i := by
  obtain ⟨id, tag, hid, -⟩ := h
  unfold newReadableId createContractRunKey at hid
  rw [hsource] at hid
  dsimp only at hid
  cases hindex : nextIndex fromString (lastRun before (matchingRuns rows source
      (newCourseKey contract orgPrefix sourceId.course) (runTag [] contract.id year))) with
  | error e =>
    rw [hindex] at hid
    cases hid
  | ok i => exact ⟨i, rfl⟩

/-- A new key is fresh exactly if the source run's id is a key and the index after that of the last
matching run is free. -/
theorem freshKey_iff (hround : RoundTrips fromString) (before : Text → Text → Bool)
    (rows : List CourseRunRow) (source : CourseRunRow) (contract : RunKeyContract)
    (orgPrefix : Option Text) (year : ℕ) :
    FreshKey fromString before rows source contract orgPrefix year ↔
      ∃ sourceId, fromString source.coursewareId = .ok sourceId ∧
        NextIndexFree fromString before rows source contract
          (newCourseKey contract orgPrefix sourceId.course) year := by
  constructor
  · intro h
    obtain ⟨sourceId, hsource⟩ := sourceId_of_fresh h
    obtain ⟨i, hindex⟩ := nextIndex_of_fresh hsource h
    have hfree := (freshKey_iff_indexFree hround hsource hindex).mp h
    refine ⟨sourceId, hsource, fun hnone => ?_, fun last hlast => ?_⟩
    · rw [lastRun_eq_none_iff.mpr hnone] at hindex
      cases hindex
      exact hfree
    · rw [hlast] at hindex
      obtain ⟨key, j, hkey, hj, rfl⟩ := nextIndex_some.mp hindex
      exact ⟨key, j, hkey, hj, hfree⟩
  · rintro ⟨sourceId, hsource, hfree⟩
    cases hlast : lastRun before (matchingRuns rows source
        (newCourseKey contract orgPrefix sourceId.course) (runTag [] contract.id year)) with
    | none =>
      refine (freshKey_iff_indexFree hround hsource ?_).mpr (hfree.first (lastRun_eq_none_iff.mp hlast))
      rw [hlast]
      rfl
    | some last =>
      obtain ⟨key, j, hkey, hj, hnext⟩ := hfree.next last hlast
      refine (freshKey_iff_indexFree hround hsource ?_).mpr hnext
      rw [hlast]
      exact nextIndex_some.mpr ⟨key, j, hkey, hj, rfl⟩

/-! ## The reading of keys -/

/-- A character that a part of a course key can have. -/
def keyChar (c : Char) : Bool :=
  c.isAlphanum || ['_', '-', '~', '.', ':'].contains c

/-- `CourseKey.from_string` of a course key with an organization, a course and a run. -/
def readCourseKey (s : Text) : Except Error CourseKey :=
  match s.splitOn '+' with
  | [org, course, run] =>
    if "course-v1:".toList.isPrefixOf org && org.length != 10 && !course.isEmpty && !run.isEmpty &&
        org.all keyChar && course.all keyChar && run.all keyChar then
      .ok ⟨s, course, run⟩
    else .error .failure
  | _ => .error .failure

theorem roundTrips_readCourseKey : RoundTrips readCourseKey := by
  intro s key h
  unfold readCourseKey at h
  split at h
  · split at h
    · cases h
      rfl
    · cases h
  · cases h

/-! ## One run for each language -/

/-- A run without an industry and a length. -/
def languageRun (coursewareId runTag language : String) (isSourceRun : Bool) : CourseRunRow where
  coursewareId := coursewareId.toList
  runTag := runTag.toList
  language := language.toList
  variantIndustry := []
  variantLength := []
  isSourceRun := isSourceRun

def mitContract : RunKeyContract where
  id := 5
  orgKey := "MIT".toList
  orgKeyPrefix := "UAI_".toList

/-- The first run in a language gets index 1. -/
theorem freshKey_firstRun :
    FreshKey readCourseKey (fun a b => decide (a < b))
      [languageRun "course-v1:UAI_SOURCE+6.00x+SOURCE_it_IT" "SOURCE" "it_IT" true]
      (languageRun "course-v1:UAI_SOURCE+6.00x+SOURCE_it_IT" "SOURCE" "it_IT" true) mitContract none
      2026 := by
  refine (freshKey_iff roundTrips_readCourseKey _ _ _ _ _ _).mpr ⟨_, rfl, fun _ => ⟨⟨_, rfl⟩, ?_⟩, ?_⟩
  · decide
  · intro last hlast
    cases hlast

/-- A second Italian run gets no key, as the language of the first one brings a `T` into its key. -/
theorem not_freshKey :
    ¬∀ (fromString : Text → Except Error CourseKey) (before : Text → Text → Bool)
      (rows : List CourseRunRow) (source : CourseRunRow) (contract : RunKeyContract)
      (orgPrefix : Option Text) (year : ℕ), RoundTrips fromString →
        FreshKey fromString before rows source contract orgPrefix year := by
  intro h
  obtain ⟨id, tag, hid, -⟩ := h readCourseKey (fun a b => decide (a < b))
    [languageRun "course-v1:UAI_SOURCE+6.00x+SOURCE_it_IT" "SOURCE" "it_IT" true,
      languageRun "course-v1:UAI_MIT+6.00x+1T5C2026_it_IT" "1T5C2026" "it_IT" false]
    (languageRun "course-v1:UAI_SOURCE+6.00x+SOURCE_it_IT" "SOURCE" "it_IT" true) mitContract none 2026
    roundTrips_readCourseKey
  cases hid

end MitxOnline

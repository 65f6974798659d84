import Mathlib.Data.List.Sort
import MitxOnline.Courses.ProgramRunBackfill
import MitxOnline.Lib.Autocommit

/-!
# When the backfill of program runs is exact

The loop tells a complete set of runs by its number of runs and its end by the run that starts last. Once it has
returned, a second call finds a program run for every tag and creates nothing.
-/

namespace MitxOnline

open Autocommit Nullable

variable {program : BackfillProgram} {order order' : BackfillOrder} {rows : List DatedRun} {tag : Text}
  {r first last : DatedRun} {programRuns : Table ProgramRunRow} {row : ProgramRunRow} {p : BackfillProgress}
  {dates : Option Instant × Option Instant} {startDate endDate : Instant}

/-! ## The runs with a tag -/

/-- A run of a course of the program that has the tag. -/
structure IsTaggedRun (program : BackfillProgram) (rows : List DatedRun) (tag : Text) (r : DatedRun) : Prop where
  mem : r ∈ rows
  usable : r.usable = true
  course : r.course ∈ program.courseIds
  runTag : runTagMatch r.coursewareId = some tag

/-- The runs with a tag, in the order of their start dates. -/
def taggedRuns (program : BackfillProgram) (order : BackfillOrder) (rows : List DatedRun) (tag : Text) :
    List DatedRun :=
  (allProgramRuns program order rows).filter fun r => runTagMatch r.coursewareId = some tag

theorem mem_taggedRuns : r ∈ taggedRuns program order rows tag ↔ IsTaggedRun program rows tag r := by
  unfold taggedRuns allProgramRuns
  rw [List.mem_filter, (order.runs_perm _).mem_iff, List.mem_filter, decide_eq_true_iff, Bool.and_eq_true,
    List.contains_iff_mem]
  constructor
  · rintro ⟨⟨hmem, husable, hcourse⟩, htag⟩
    exact ⟨hmem, husable, hcourse, htag⟩
  · intro h
    exact ⟨⟨h.mem, h.usable, h.course⟩, h.runTag⟩

/-- The order of the query does not change how many runs have a tag. -/
theorem length_taggedRuns :
    (taggedRuns program order rows tag).length = (taggedRuns program order' rows tag).length := by
  unfold taggedRuns allProgramRuns
  exact (((order.runs_perm _).trans (order'.runs_perm _).symm).filter _).length_eq

theorem taggedRuns_sorted :
    (taggedRuns program order rows tag).Pairwise fun r r' => NullsLast r.startDate r'.startDate :=
  (order.runs_sorted _).filter _

/-- Every course has a run with the tag, and the runs with it have an earliest start and, not before it, a latest
end. -/
structure CompleteRunSet (program : BackfillProgram) (rows : List DatedRun) (tag : Text)
    (startDate endDate : Instant) : Prop where
  covered : ∀ c ∈ program.courseIds, ∃ r, IsTaggedRun program rows tag r ∧ r.course = c
  earliest : IsLeast {x | ∃ r, IsTaggedRun program rows tag r ∧ r.startDate = some x} startDate
  latest : IsGreatest {x | ∃ r, IsTaggedRun program rows tag r ∧ r.endDate = some x} endDate
  ordered : startDate ≤ endDate

/-- The first run of the query has the earliest start. -/
theorem isLeast_iff_first (hfirst : (taggedRuns program order rows tag).head? = some first) :
    IsLeast {x | ∃ r, IsTaggedRun program rows tag r ∧ r.startDate = some x} startDate ↔
      first.startDate = some startDate := by
  obtain ⟨rest, hruns⟩ := List.head?_eq_some_iff.mp hfirst
  have hsorted : (taggedRuns program order rows tag).Pairwise fun r r' => NullsLast r.startDate r'.startDate :=
    taggedRuns_sorted
  have hset : {x | ∃ r, IsTaggedRun program rows tag r ∧ r.startDate = some x} =
      {x | ∃ r ∈ first :: rest, r.startDate = some x} := by
    ext x
    simp only [Set.mem_ofPred_eq, ← hruns, mem_taggedRuns]
  rw [hruns] at hsorted
  rw [hset]
  exact isLeast_of_sorted hsorted

/-! ## The loop over the tags -/

/-- The entry that a round sets. -/
def dateEntry (numProgramCourses : ℕ) (entry : Text × List DatedRun) :
    Option (Text × (Option Instant × Option Instant)) :=
  if entry.2.length ≠ numProgramCourses then none
  else
    match entry.2.head?, entry.2.getLast? with
    | some first, some last => some (entry.1, (first.startDate, last.endDate))
    | _, _ => none

theorem dateEntry_eq_some {n : ℕ} {entry : Text × List DatedRun} {entry' : Text × (Option Instant × Option Instant)} :
    dateEntry n entry = some entry' ↔ entry.2.length = n ∧ ∃ first last, entry.2.head? = some first ∧
      entry.2.getLast? = some last ∧ entry' = (entry.1, (first.startDate, last.endDate)) := by
  unfold dateEntry
  split
  · rename_i hne
    exact iff_of_false (by simp) fun h => hne h.1
  · rename_i heq
    rw [not_not] at heq
    constructor
    · intro h
      split at h
      · rename_i first last hfirst hlast
        exact ⟨heq, first, last, hfirst, hlast, (Option.some.inj h).symm⟩
      · cases h
    · rintro ⟨-, first, last, hfirst, hlast, rfl⟩
      rw [hfirst, hlast]

theorem checkRunSet_dates (n : ℕ) (sets : CompleteRunSets) (entry : Text × List DatedRun) :
    (checkRunSet n sets entry).dates = sets.dates.setAll (dateEntry n entry).toList := by
  unfold checkRunSet dateEntry
  split
  · rfl
  · cases entry.2.head? <;> cases entry.2.getLast? <;> rfl

/-- The loop sets the dates of the groups of the right size. -/
theorem foldl_checkRunSet_dates (n : ℕ) (sets : CompleteRunSets) (entries : List (Text × List DatedRun)) :
    (entries.foldl (checkRunSet n) sets).dates = sets.dates.setAll (entries.filterMap (dateEntry n)) := by
  induction entries generalizing sets with
  | nil => rfl
  | cons entry rest ih =>
    rw [List.foldl_cons, ih, checkRunSet_dates]
    cases hentry : dateEntry n entry with
    | none =>
      rw [List.filterMap_cons_none hentry]
      rfl
    | some entry' =>
      rw [List.filterMap_cons_some hentry]
      rfl

/-- The entry of a tag: there is one exactly if as many runs have it as there are courses. -/
theorem dates_get : (getCompleteRunSetDates program order rows).dates.get tag = some dates ↔
    (taggedRuns program order rows tag).length = program.courses.length ∧
      ∃ first last, (taggedRuns program order rows tag).head? = some first ∧
        (taggedRuns program order rows tag).getLast? = some last ∧
        dates = (first.startDate, last.endDate) := by
  have hnodup := (Dict.map_fst_filterMap_sublist (f := dateEntry program.courses.length)
    (fun entry entry' h => by
      obtain ⟨-, first, last, -, -, rfl⟩ := dateEntry_eq_some.mp h
      rfl) (runMap program order rows).entries).nodup (runMap program order rows).nodup
  have hentries : (getCompleteRunSetDates program order rows).dates.entries =
      (runMap program order rows).entries.filterMap (dateEntry program.courses.length) := by
    unfold getCompleteRunSetDates
    rw [foldl_checkRunSet_dates]
    exact Dict.setAll_entries _ _ hnodup
  rw [Dict.get_eq_some_iff, hentries, List.mem_filterMap]
  constructor
  · rintro ⟨⟨tag', runs⟩, hmem, hentry⟩
    obtain ⟨hlength, first, last, hfirst, hlast, heq⟩ := dateEntry_eq_some.mp hentry
    rw [Prod.mk.injEq] at heq
    obtain ⟨rfl, rfl⟩ := heq
    obtain ⟨-, rfl⟩ := Dict.mem_group_entries.mp hmem
    exact ⟨hlength, first, last, hfirst, hlast, rfl⟩
  · rintro ⟨hlength, first, last, hfirst, hlast, rfl⟩
    refine ⟨(tag, taggedRuns program order rows tag), Dict.mem_group_entries.mpr ⟨?_, rfl⟩, ?_⟩
    · intro hnil
      rw [hnil] at hfirst
      cases hfirst
    · exact dateEntry_eq_some.mpr ⟨hlength, first, last, hfirst, hlast, rfl⟩

/-- A tag has an entry exactly if some runs have it, as many as there are courses. -/
theorem mem_dates_keys : tag ∈ (getCompleteRunSetDates program order rows).dates.keys ↔
    (taggedRuns program order rows tag).length = program.courses.length ∧
      taggedRuns program order rows tag ≠ [] := by
  rw [Dict.mem_keys_iff]
  constructor
  · rintro ⟨dates, hget⟩
    obtain ⟨hlength, first, last, hfirst, -⟩ := dates_get.mp hget
    refine ⟨hlength, fun hnil => ?_⟩
    rw [hnil] at hfirst
    cases hfirst
  · rintro ⟨hlength, hne⟩
    exact ⟨_, dates_get.mpr ⟨hlength, _, _, List.head?_eq_some_head hne, List.getLast?_eq_some_getLast hne, rfl⟩⟩

/-- The condition on the tags: there are as many runs with a tag as courses exactly if they are a complete set,
and then the run that starts last ends last. -/
structure RunSetsMeet (program : BackfillProgram) (order : BackfillOrder) (rows : List DatedRun) : Prop where
  counts : ∀ tag, taggedRuns program order rows tag ≠ [] →
    ((taggedRuns program order rows tag).length = program.courses.length ↔
      ∃ startDate endDate, CompleteRunSet program rows tag startDate endDate)
  ends : ∀ tag last, (taggedRuns program order rows tag).length = program.courses.length →
    (taggedRuns program order rows tag).getLast? = some last →
      ∃ endDate, last.endDate = some endDate ∧
        IsGreatest {x | ∃ r, IsTaggedRun program rows tag r ∧ r.endDate = some x} endDate

/-- The entries are those of the complete sets of runs, with their earliest start and latest end. -/
def EntriesExact (program : BackfillProgram) (order : BackfillOrder) (rows : List DatedRun) : Prop :=
  ∀ tag dates, (getCompleteRunSetDates program order rows).dates.get tag = some dates ↔
    ∃ startDate endDate, CompleteRunSet program rows tag startDate endDate ∧
      dates = (some startDate, some endDate)

theorem CompleteRunSet.taggedRuns_ne_nil (h : CompleteRunSet program rows tag startDate endDate) :
    taggedRuns program order rows tag ≠ [] := by
  obtain ⟨r, hr, -⟩ := h.earliest.1
  exact List.ne_nil_of_mem (mem_taggedRuns.mpr hr)

theorem entriesExact_iff : EntriesExact program order rows ↔ RunSetsMeet program order rows := by
  constructor
  · intro h
    -- a group of the right size has an entry, so it is complete
    have hcomplete : ∀ tag, (taggedRuns program order rows tag).length = program.courses.length →
        ∀ hne : taggedRuns program order rows tag ≠ [], ∃ startDate endDate,
          CompleteRunSet program rows tag startDate endDate ∧
            ((taggedRuns program order rows tag).getLast hne).endDate = some endDate := by
      intro tag hlength hne
      have hget := dates_get.mpr ⟨hlength, _, _, List.head?_eq_some_head hne, List.getLast?_eq_some_getLast hne, rfl⟩
      obtain ⟨startDate, endDate, hset, heq⟩ := (h tag _).mp hget
      exact ⟨startDate, endDate, hset, (Prod.mk.inj heq).2⟩
    constructor
    · intro tag hne
      constructor
      · intro hlength
        obtain ⟨startDate, endDate, hset, -⟩ := hcomplete tag hlength hne
        exact ⟨startDate, endDate, hset⟩
      · rintro ⟨startDate, endDate, hset⟩
        exact (dates_get.mp ((h tag _).mpr ⟨startDate, endDate, hset, rfl⟩)).1
    · intro tag last hlength hlast
      have hne : taggedRuns program order rows tag ≠ [] := by
        intro hnil
        rw [hnil] at hlast
        cases hlast
      obtain ⟨startDate, endDate, hset, hend⟩ := hcomplete tag hlength hne
      rw [List.getLast?_eq_some_getLast hne] at hlast
      obtain rfl := Option.some.inj hlast
      exact ⟨endDate, hend, hset.latest⟩
  · intro h tag dates
    -- the dates of a complete set are those of its first and its last run
    have hdates : ∀ first last startDate endDate, CompleteRunSet program rows tag startDate endDate →
        (taggedRuns program order rows tag).length = program.courses.length →
          (taggedRuns program order rows tag).head? = some first →
            (taggedRuns program order rows tag).getLast? = some last →
              (first.startDate, last.endDate) = (some startDate, some endDate) := by
      intro first last startDate endDate hset hlength hfirst hlast
      obtain ⟨endDate', hend, hgreatest⟩ := h.ends tag last hlength hlast
      rw [(isLeast_iff_first hfirst).mp hset.earliest, hend, hgreatest.unique hset.latest]
    rw [dates_get]
    constructor
    · rintro ⟨hlength, first, last, hfirst, hlast, rfl⟩
      have hne : taggedRuns program order rows tag ≠ [] := by
        intro hnil
        rw [hnil] at hfirst
        cases hfirst
      obtain ⟨startDate, endDate, hset⟩ := (h.counts tag hne).mp hlength
      exact ⟨startDate, endDate, hset, hdates first last startDate endDate hset hlength hfirst hlast⟩
    · rintro ⟨startDate, endDate, hset, rfl⟩
      have hne : taggedRuns program order rows tag ≠ [] := hset.taggedRuns_ne_nil
      have hlength := (h.counts tag hne).mpr ⟨startDate, endDate, hset⟩
      have hfirst := List.head?_eq_some_head hne
      have hlast := List.getLast?_eq_some_getLast hne
      exact ⟨hlength, _, _, hfirst, hlast, (hdates _ _ startDate endDate hset hlength hfirst hlast).symm⟩

/-! ## Program runs -/

/-- The program has a run with the tag. -/
def HasProgramRun (program : ProgramId) (tag : Text) (programRuns : Table ProgramRunRow) : Prop :=
  ∃ k ∈ programRuns.keys, (programRuns.row k).program = program ∧ (programRuns.row k).runTag = tag

theorem programRunsWith_ne_nil {q : ProgramId} :
    programRunsWith q tag programRuns ≠ [] ↔ HasProgramRun q tag programRuns := by
  have hmem : ∀ k, k ∈ programRunsWith q tag programRuns ↔ k ∈ programRuns.keys ∧
      (programRuns.row k).program = q ∧ (programRuns.row k).runTag = tag := by
    intro k
    unfold programRunsWith
    rw [Table.mem_keysWhere, Bool.and_eq_true, decide_eq_true_iff, decide_eq_true_iff]
  constructor
  · intro hne
    obtain ⟨k, hk⟩ := List.exists_mem_of_ne_nil _ hne
    exact ⟨k, (hmem k).mp hk⟩
  · rintro ⟨k, hk⟩
    exact List.ne_nil_of_mem ((hmem k).mpr hk)

theorem hasProgramRun_create {q : ProgramId} : HasProgramRun q tag (programRuns.create row) ↔
    HasProgramRun q tag programRuns ∨ row.program = q ∧ row.runTag = tag := by
  unfold HasProgramRun
  constructor
  · rintro ⟨k, hk, hrow⟩
    rcases (Table.mem_create_keys _ _ _).mp hk with hk | rfl
    · rw [Table.create_row_of_ne _ _ (Nat.ne_of_lt (Table.lt_nextKey _ hk))] at hrow
      exact .inl ⟨k, hk, hrow⟩
    · rw [Table.create_row_self] at hrow
      exact .inr hrow
  · rintro (⟨k, hk, hrow⟩ | hrow)
    · refine ⟨k, (Table.mem_create_keys _ _ _).mpr (.inl hk), ?_⟩
      rw [Table.create_row_of_ne _ _ (Nat.ne_of_lt (Table.lt_nextKey _ hk))]
      exact hrow
    · refine ⟨programRuns.nextKey, (Table.mem_create_keys _ _ _).mpr (.inr rfl), ?_⟩
      rw [Table.create_row_self]
      exact hrow

theorem hasProgramRun_createAll {q : ProgramId} {created : List ProgramRunRow} :
    HasProgramRun q tag (programRuns.createAll created) ↔
      HasProgramRun q tag programRuns ∨ ∃ row ∈ created, row.program = q ∧ row.runTag = tag := by
  induction created generalizing programRuns with
  | nil => simp [Table.createAll]
  | cons row rest ih =>
    have hcreate : programRuns.createAll (row :: rest) = (programRuns.create row).createAll rest := rfl
    rw [hcreate, ih, hasProgramRun_create, List.exists_mem_cons_iff, or_assoc]

theorem mem_existingProgramRunTags :
    tag ∈ existingProgramRunTags program programRuns ↔ HasProgramRun program.id tag programRuns := by
  unfold existingProgramRunTags HasProgramRun
  rw [List.mem_map]
  refine exists_congr fun k => ?_
  rw [Table.mem_keysWhere, decide_eq_true_iff, and_assoc]

theorem mem_runTagsToCreate : tag ∈ runTagsToCreate program order rows programRuns ↔
    tag ∈ (getCompleteRunSetDates program order rows).dates.keys ∧
      ¬ HasProgramRun program.id tag programRuns := by
  unfold runTagsToCreate
  rw [(order.tags_perm _).mem_iff, List.mem_filter, Bool.not_eq_true', ← Bool.not_eq_true,
    List.contains_iff_mem, mem_existingProgramRunTags]

theorem runTagsToCreate_nodup : (runTagsToCreate program order rows programRuns).Nodup := by
  have hkeys : (getCompleteRunSetDates program order rows).dates.keys.Nodup :=
    (getCompleteRunSetDates program order rows).dates.nodup
  unfold runTagsToCreate
  exact (order.tags_perm _).nodup_iff.mpr (hkeys.filter _)

/-! ### The loop that creates them -/

theorem createProgramRun_error : (createProgramRun row p).error = none ↔
    row.runTag.length ≤ 10 ∧ ¬ HasProgramRun row.program row.runTag p.programRuns := by
  unfold createProgramRun
  split
  · rename_i hlong
    exact iff_of_false (by simp) fun h => absurd h.1 (Nat.not_le.mpr hlong)
  · rename_i hfits
    split
    · rename_i hhas
      exact iff_of_false (by simp) fun h => h.2 (programRunsWith_ne_nil.mp hhas)
    · rename_i hnone
      exact iff_of_true rfl ⟨Nat.not_lt.mp hfits, fun h => hnone (programRunsWith_ne_nil.mpr h)⟩

theorem createProgramRun_state (h : (createProgramRun row p).error = none) :
    (createProgramRun row p).state =
      ⟨p.programRuns.create row, p.created ++ [p.programRuns.nextKey]⟩ := by
  unfold createProgramRun at h ⊢
  split at h
  · cases h
  · split at h
    · cases h
    · rename_i hfits hnone
      rw [if_neg hfits, if_neg hnone]

/-- Rows with different tags that the program does not have yet are created if their tags fit. -/
theorem createProgramRuns_error {toCreate : List ProgramRunRow}
    (hdistinct : (toCreate.map (·.runTag)).Nodup)
    (hnew : ∀ row ∈ toCreate, ¬ HasProgramRun row.program row.runTag p.programRuns) :
    (seq (toCreate.map createProgramRun) p).error = none ↔ ∀ row ∈ toCreate, row.runTag.length ≤ 10 := by
  induction toCreate generalizing p with
  | nil => exact iff_of_true rfl (by simp)
  | cons row rest ih =>
    rw [List.map_cons, List.nodup_cons] at hdistinct
    rw [List.forall_mem_cons] at hnew ⊢
    have hrest : (createProgramRun row p).error = none →
        ((seq (rest.map createProgramRun) (createProgramRun row p).state).error = none ↔
          ∀ row ∈ rest, row.runTag.length ≤ 10) := by
      intro hreturns
      refine ih hdistinct.2 fun row' hrow' => ?_
      rw [createProgramRun_state hreturns]
      rintro hhas
      rcases hasProgramRun_create.mp hhas with hhas | ⟨-, hsame⟩
      · exact hnew.2 row' hrow' hhas
      · exact hdistinct.1 (hsame ▸ List.mem_map.mpr ⟨row', hrow', rfl⟩)
    rw [List.map_cons]
    constructor
    · intro h
      obtain ⟨hreturns, hafter⟩ := seq_cons_error h
      exact ⟨(createProgramRun_error.mp hreturns).1, (hrest hreturns).mp hafter⟩
    · rintro ⟨hfits, hfit⟩
      have hreturns := createProgramRun_error.mpr ⟨hfits, hnew.1⟩
      rw [seq_cons, andThen_of_ok hreturns]
      exact (hrest hreturns).mpr hfit

/-- What the loop leaves when it returns. -/
theorem createProgramRuns_state {toCreate : List ProgramRunRow}
    (h : (seq (toCreate.map createProgramRun) p).error = none) :
    (seq (toCreate.map createProgramRun) p).state.programRuns = p.programRuns.createAll toCreate ∧
      ∃ new, (seq (toCreate.map createProgramRun) p).state.created = p.created ++ new ∧
        (p.programRuns.createAll toCreate).keys = p.programRuns.keys ++ new := by
  induction toCreate generalizing p with
  | nil => exact ⟨rfl, [], (List.append_nil _).symm, (List.append_nil _).symm⟩
  | cons row rest ih =>
    rw [List.map_cons] at h ⊢
    obtain ⟨hreturns, hafter⟩ := seq_cons_error h
    rw [seq_cons, andThen_of_ok hreturns]
    obtain ⟨htable, new, hcreated, hkeys⟩ := ih hafter
    rw [createProgramRun_state hreturns] at htable hcreated hkeys ⊢
    refine ⟨htable, p.programRuns.nextKey :: new, ?_, ?_⟩
    · rw [hcreated, List.append_assoc]
      rfl
    · have hcreate : p.programRuns.createAll (row :: rest) = (p.programRuns.create row).createAll rest := rfl
      rw [hcreate, hkeys, Table.create_keys, List.append_assoc]
      rfl

/-! ## The whole call -/

/-- The entries are exact; the call creates one run for each complete tag that has none, and changes nothing
else; and a second call creates nothing. -/
structure BackfillsExactly (program : BackfillProgram) (order : BackfillOrder) (rows : List DatedRun)
    (programRuns : Table ProgramRunRow) : Prop where
  entries : EntriesExact program order rows
  returns : (backfillRunsForProgram program order rows programRuns).error = none
  keys : (backfillRunsForProgram program order rows programRuns).state.programRuns.keys =
    programRuns.keys ++ (backfillRunsForProgram program order rows programRuns).state.created
  kept : ∀ k ∈ programRuns.keys,
    (backfillRunsForProgram program order rows programRuns).state.programRuns.row k = programRuns.row k
  once : ((backfillRunsForProgram program order rows programRuns).state.created.map
    (backfillRunsForProgram program order rows programRuns).state.programRuns.row).Nodup
  creates : ∀ row, row ∈ (backfillRunsForProgram program order rows programRuns).state.created.map
      (backfillRunsForProgram program order rows programRuns).state.programRuns.row ↔
    ∃ tag startDate endDate, CompleteRunSet program rows tag startDate endDate ∧
      ¬ HasProgramRun program.id tag programRuns ∧ row = ⟨program.id, tag, some startDate, some endDate⟩
  again : ∀ order', backfillRunsForProgram program order' rows
      (backfillRunsForProgram program order rows programRuns).state.programRuns =
    ⟨⟨(backfillRunsForProgram program order rows programRuns).state.programRuns, []⟩, none⟩

/-- The condition: the one on the sets of runs, and tags that get a run fit in the column. -/
structure BackfillMeets (program : BackfillProgram) (order : BackfillOrder) (rows : List DatedRun)
    (programRuns : Table ProgramRunRow) : Prop where
  sets : RunSetsMeet program order rows
  tags : ∀ tag startDate endDate, CompleteRunSet program rows tag startDate endDate →
    ¬ HasProgramRun program.id tag programRuns → tag.length ≤ 10

/-- The rows that the call creates. -/
def programRunsToCreate (program : BackfillProgram) (order : BackfillOrder) (rows : List DatedRun)
    (programRuns : Table ProgramRunRow) : List ProgramRunRow :=
  (runTagsToCreate program order rows programRuns).map (programRunFor program order rows)

theorem backfillRunsForProgram_eq : backfillRunsForProgram program order rows programRuns =
    seq ((programRunsToCreate program order rows programRuns).map createProgramRun) ⟨programRuns, []⟩ := by
  unfold backfillRunsForProgram programRunsToCreate
  rw [List.map_map]
  rfl

theorem programRunsToCreate_tags : (programRunsToCreate program order rows programRuns).map (·.runTag) =
    runTagsToCreate program order rows programRuns := by
  unfold programRunsToCreate
  rw [List.map_map]
  exact List.map_id _

/-- The call returns exactly if every tag that gets a run fits. -/
theorem backfillRunsForProgram_error : (backfillRunsForProgram program order rows programRuns).error = none ↔
    ∀ tag ∈ runTagsToCreate program order rows programRuns, tag.length ≤ 10 := by
  have hdistinct : ((programRunsToCreate program order rows programRuns).map (·.runTag)).Nodup := by
    rw [programRunsToCreate_tags]
    exact runTagsToCreate_nodup
  rw [backfillRunsForProgram_eq, createProgramRuns_error hdistinct]
  · unfold programRunsToCreate
    exact List.forall_mem_map
  · intro row hrow
    obtain ⟨tag, htag, rfl⟩ := List.mem_map.mp hrow
    exact (mem_runTagsToCreate.mp htag).2

/-- After a call that returned every tag of an entry has a run, so that nothing is left to create. -/
theorem runTagsToCreate_after :
    runTagsToCreate program order' rows
      (programRuns.createAll (programRunsToCreate program order rows programRuns)) = [] := by
  refine List.eq_nil_iff_forall_not_mem.mpr fun tag htag => ?_
  obtain ⟨hkeys, hnot⟩ := mem_runTagsToCreate.mp htag
  rw [hasProgramRun_createAll, not_or] at hnot
  obtain ⟨hlength, hne⟩ := mem_dates_keys.mp hkeys
  have hsame : (taggedRuns program order rows tag).length = (taggedRuns program order' rows tag).length :=
    length_taggedRuns
  have hne' : taggedRuns program order rows tag ≠ [] := by
    intro hnil
    rw [hnil] at hsame
    exact hne (List.eq_nil_of_length_eq_zero hsame.symm)
  have hcreate : tag ∈ runTagsToCreate program order rows programRuns :=
    mem_runTagsToCreate.mpr ⟨mem_dates_keys.mpr ⟨hsame.trans hlength, hne'⟩, hnot.1⟩
  exact hnot.2 ⟨_, List.mem_map.mpr ⟨tag, hcreate, rfl⟩, rfl, rfl⟩

/-- The rows to create, where the entries are exact. -/
theorem EntriesExact.mem_programRunsToCreate (h : EntriesExact program order rows) :
    row ∈ programRunsToCreate program order rows programRuns ↔
      ∃ tag startDate endDate, CompleteRunSet program rows tag startDate endDate ∧
        ¬ HasProgramRun program.id tag programRuns ∧ row = ⟨program.id, tag, some startDate, some endDate⟩ := by
  have hrow : ∀ tag startDate endDate, CompleteRunSet program rows tag startDate endDate →
      programRunFor program order rows tag = ⟨program.id, tag, some startDate, some endDate⟩ := by
    intro tag startDate endDate hset
    unfold programRunFor
    rw [(h tag _).mpr ⟨startDate, endDate, hset, rfl⟩]
    rfl
  unfold programRunsToCreate
  rw [List.mem_map]
  constructor
  · rintro ⟨tag, htag, rfl⟩
    obtain ⟨hkeys, hnot⟩ := mem_runTagsToCreate.mp htag
    obtain ⟨dates, hget⟩ := Dict.mem_keys_iff.mp hkeys
    obtain ⟨startDate, endDate, hset, -⟩ := (h tag dates).mp hget
    exact ⟨tag, startDate, endDate, hset, hnot, hrow tag startDate endDate hset⟩
  · rintro ⟨tag, startDate, endDate, hset, hnot, rfl⟩
    have hkeys := Dict.mem_keys_iff.mpr ⟨_, (h tag _).mpr ⟨startDate, endDate, hset, rfl⟩⟩
    exact ⟨tag, mem_runTagsToCreate.mpr ⟨hkeys, hnot⟩, hrow tag startDate endDate hset⟩

/-- The backfill is exact exactly under the condition. -/
theorem backfillsExactly_iff (program : BackfillProgram) (order : BackfillOrder) (rows : List DatedRun)
    (programRuns : Table ProgramRunRow) :
    BackfillsExactly program order rows programRuns ↔ BackfillMeets program order rows programRuns := by
  constructor
  · intro h
    refine ⟨entriesExact_iff.mp h.entries, fun tag startDate endDate hset hnot => ?_⟩
    have hkeys := Dict.mem_keys_iff.mpr ⟨_, (h.entries tag _).mpr ⟨startDate, endDate, hset, rfl⟩⟩
    exact backfillRunsForProgram_error.mp h.returns tag (mem_runTagsToCreate.mpr ⟨hkeys, hnot⟩)
  · intro h
    have hentries := entriesExact_iff.mpr h.sets
    have hreturns : (backfillRunsForProgram program order rows programRuns).error = none := by
      rw [backfillRunsForProgram_error]
      intro tag htag
      obtain ⟨hkeys, hnot⟩ := mem_runTagsToCreate.mp htag
      obtain ⟨dates, hget⟩ := Dict.mem_keys_iff.mp hkeys
      obtain ⟨startDate, endDate, hset, -⟩ := (hentries tag dates).mp hget
      exact h.tags tag startDate endDate hset hnot
    have hstate := hreturns
    rw [backfillRunsForProgram_eq] at hstate
    obtain ⟨htable, new, hcreated, hkeys⟩ := createProgramRuns_state hstate
    rw [← backfillRunsForProgram_eq, List.nil_append] at hcreated
    rw [← backfillRunsForProgram_eq] at htable
    obtain ⟨new', hkeys', hrows, hkept⟩ :=
      programRuns.createAll_spec (programRunsToCreate program order rows programRuns)
    -- both ways to say which keys are new agree
    obtain rfl : new = new' := List.append_cancel_left (hkeys.symm.trans hkeys')
    refine ⟨hentries, hreturns, ?_, ?_, ?_, ?_, fun order' => ?_⟩
    · rw [htable, hcreated, hkeys']
    · rw [htable]
      exact hkept
    · rw [htable, hcreated, hrows]
      refine List.Nodup.of_map (·.runTag) ?_
      rw [programRunsToCreate_tags]
      exact runTagsToCreate_nodup
    · intro row
      rw [htable, hcreated, hrows]
      exact hentries.mem_programRunsToCreate
    · rw [htable]
      unfold backfillRunsForProgram
      rw [runTagsToCreate_after]
      rfl

/-! ### A set of runs without an end -/

/-- The runs are sorted by their start dates. -/
def startsNoLater (r r' : DatedRun) : Prop := NullsLast r.startDate r'.startDate

instance : DecidableRel startsNoLater := fun r r' =>
  inferInstanceAs (Decidable (NullsLast r.startDate r'.startDate))

instance : Std.Total startsNoLater := ⟨fun r r' => NullsLast.total r.startDate r'.startDate⟩

instance : IsTrans DatedRun startsNoLater := ⟨fun _ _ _ => NullsLast.trans⟩

def sortedOrder : BackfillOrder where
  runs rows := rows.insertionSort startsNoLater
  runs_perm := List.perm_insertionSort startsNoLater
  runs_sorted := List.pairwise_insertionSort startsNoLater
  tags tags' := tags'
  tags_perm tags' := .refl tags'

def openEndedRun : DatedRun where
  coursewareId := "course-v1:MITx+1x+R1".toList
  runTag := "R1".toList
  language := []
  variantIndustry := []
  variantLength := []
  isSourceRun := false
  course := 1
  startDate := some 0
  endDate := none

def oneCourseProgram : BackfillProgram := ⟨1, [(1, .required)]⟩

/-- The runs have no latest end, but their tag has an entry. -/
theorem openEndedRun_not_exact : ¬ BackfillsExactly oneCourseProgram sortedOrder [openEndedRun]
    ⟨[], fun _ => ⟨0, [], none, none⟩, Table.sorted_nil⟩ := by
  intro h
  have hget : (getCompleteRunSetDates oneCourseProgram sortedOrder [openEndedRun]).dates.get "R1".toList =
      some (some 0, none) := by decide +kernel
  obtain ⟨startDate, endDate, -, hdates⟩ := (h.entries _ _).mp hget
  exact absurd (Prod.mk.inj hdates).2 nofun

end MitxOnline

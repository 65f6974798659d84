import MitxOnline.B2b.ContractTransfer

/-!
# What a payload says

A payload has every program of the contract once, in their order, and says the same of a course wherever the
course comes up. What it says of a run is what one row of the source says, and every value that was written
as text is read back.
-/

namespace MitxOnline

open Nullable Upserts

/-! ## Columns -/

section Columns

variable {α : Type} {site : Site} {field : FieldText α}

theorem deserialize_serialize (column : Option α) :
    field.deserialize (field.serialize column) = .ok column := by
  cases column with
  | none => rfl
  | some a =>
    unfold FieldText.serialize FieldText.deserialize
    simp only [Option.map_some, field.read_text]

/-- The text of a value is truthy, whatever the value is. -/
theorem deserializeTruthy_serialize (column : Option α) :
    field.deserializeTruthy (field.serialize column) = .ok column := by
  have htruthy : field.serialize column ≠ some [] := by
    cases column with
    | none => exact fun h => nomatch h
    | some a =>
      intro h
      have hread := field.read_text a
      rw [Option.some.inj h, field.read_nil] at hread
      cases hread
  unfold FieldText.deserializeTruthy
  rw [if_neg htruthy, deserialize_serialize]

theorem dates_deserialize_serialize (dates : DateColumns Instant) :
    (dates.serialize site).deserialize site = .ok dates := by
  unfold DateColumns.serialize DateColumns.deserialize
  simp only [deserialize_serialize]
  rfl

end Columns

/-! ## Runs -/

section Runs

variable {site : Site} {course : CourseRecord} {runs : List (Text × RunRecord)} {rd : RunData}

/-- What the payload says of a run is what a row says; the run is designated, if only in the payload. -/
structure RunData.From (site : Site) (rd : RunData) (run : Text × RunRecord) : Prop where
  coursewareId : rd.coursewareId = run.1
  dates : rd.dates = run.2.dates.serialize site
  enrollmentModes : rd.enrollmentModes = run.2.enrollmentModes.elements
  designated : rd.columns.designated = true

/-- The payload has a run for each of some rows. -/
theorem sourceRunsData_spec (course : CourseRecord) (runs : List (Text × RunRecord)) :
    ∃ chosen, List.Forall₂ (RunData.From site) (sourceRunsData site course runs) chosen ∧
      (∀ run ∈ chosen, run ∈ runs) ∧ ((runs.map Prod.fst).Nodup → (chosen.map Prod.fst).Nodup) := by
  unfold sourceRunsData
  dsimp only
  split
  · refine ⟨runs.filter (·.2.columns.designated), ?_, fun run hrun => (List.mem_filter.mp hrun).1, ?_⟩
    · rw [List.forall₂_map_left_iff, List.forall₂_same]
      exact fun run hrun => ⟨rfl, rfl, rfl, (List.mem_filter.mp hrun).2⟩
    · exact fun h => h.sublist (List.filter_sublist.map _)
  · have hsublist : (fallbackRuns course runs).Sublist
        (runs.filter fun run => run.2.b2bContract.isNone && !run.2.columns.designated).reverse :=
      firstsBy_sublist
    refine ⟨fallbackRuns course runs, ?_, ?_, ?_⟩
    · rw [List.forall₂_map_left_iff, List.forall₂_same]
      exact fun run _ => ⟨rfl, rfl, rfl, rfl⟩
    · intro run hrun
      exact (List.mem_filter.mp (List.mem_reverse.mp (hsublist.subset hrun))).1
    · intro h
      have hfiltered := (h.sublist (List.filter_sublist.map Prod.fst) :
        ((runs.filter fun run => run.2.b2bContract.isNone && !run.2.columns.designated).map
          Prod.fst).Nodup)
      rw [← List.nodup_reverse, ← List.map_reverse] at hfiltered
      exact hfiltered.sublist (hsublist.map _)

end Runs

/-! ## Courses -/

section Courses

variable {site : Site} {inst : Instance} {readableId : Text} {c : CourseData}

/-- What the payload says of a course. -/
structure CourseData.Exported (site : Site) (inst : Instance) (data : CourseData) : Prop where
  again : inst.courseData site data.readableId = some data
  departments : data.departments.Nodup
  ids : (data.sourceRuns.map (·.coursewareId)).Nodup
  runs : ∀ rd ∈ data.sourceRuns, ∃ run ∈ inst.runsOf data.readableId, rd.From site run

theorem courseData_readableId (h : inst.courseData site readableId = some c) : c.readableId = readableId := by
  unfold Instance.courseData at h
  obtain ⟨course, -, heq⟩ := Option.bind_eq_some_iff.mp h
  exact (Option.some.inj heq) ▸ rfl

theorem runsOf_nodup (inst : Instance) (course : Text) : ((inst.runsOf course).map Prod.fst).Nodup :=
  inst.courseRuns.nodup.sublist (List.filter_sublist.map _)

theorem courseData_exported (h : inst.courseData site readableId = some c) : c.Exported site inst := by
  have hid := courseData_readableId h
  have hagain : inst.courseData site c.readableId = some c := hid.symm ▸ h
  unfold Instance.courseData at h
  obtain ⟨course, hget, heq⟩ := Option.bind_eq_some_iff.mp h
  have hdepartments : c.departments = course.departments.elements := Option.some.inj heq ▸ rfl
  have hruns : c.sourceRuns = sourceRunsData site course (inst.runsOf readableId) := Option.some.inj heq ▸ rfl
  obtain ⟨chosen, hfrom, hsub, hnodup⟩ : ∃ chosen, List.Forall₂ (RunData.From site) c.sourceRuns chosen ∧
      (∀ run ∈ chosen, run ∈ inst.runsOf readableId) ∧
        (((inst.runsOf readableId).map Prod.fst).Nodup → (chosen.map Prod.fst).Nodup) := by
    rw [hruns]
    exact sourceRunsData_spec course _
  refine ⟨hagain, ?_, ?_, fun rd hrd => ?_⟩
  · rw [hdepartments]
    exact course.departments.nodup
  · rw [map_eq_map_of_forall₂ hfrom fun rd run h => h.coursewareId]
    exact hnodup (runsOf_nodup inst readableId)
  · obtain ⟨run, hrun, hrunFrom⟩ := exists_of_forall₂ hfrom hrd
    exact ⟨run, hid.symm ▸ hsub run hrun, hrunFrom⟩

end Courses

/-! ## Programs and contracts -/

section Contracts

variable {site : Site} {inst : Instance} {id : ContractId} {data : ContractPayload}

/-- What the payload says of a program. -/
structure ProgramData.Exported (site : Site) (inst : Instance) (data : ProgramData) : Prop where
  departments : data.departments.Nodup
  courses : ∀ c ∈ data.courses, c.Exported site inst

/-- What is known of a payload that was exported. -/
structure ContractPayload.Exported (site : Site) (inst : Instance) (data : ContractPayload) : Prop where
  version : data.version = 1
  slug : data.sourceContractSlug = data.contract.columns.slug
  organization : ∃ org : OrganizationRecord,
    data.organization = org.data site data.organization.orgKey
  contract : ∃ contract : ContractRecord, data.contract = contract.data site
  programs : ∀ p ∈ data.programs, p.Exported site inst
  ids : (data.programs.map (·.readableId)).Nodup
  sorted : data.programs.Pairwise fun p q => NullsLast p.sortOrder q.sortOrder

theorem programData_spec {item : Text × Option ℤ} {p : ProgramData}
    (h : inst.programData site item = some p) :
    (p.readableId, p.sortOrder) = item ∧ p.Exported site inst := by
  unfold Instance.programData at h
  obtain ⟨program, -, h⟩ := Option.bind_eq_some_iff.mp h
  obtain ⟨courses, hcourses, heq⟩ := Option.bind_eq_some_iff.mp h
  obtain rfl := Option.some.inj heq
  refine ⟨rfl, program.departments.nodup, fun c hc => ?_⟩
  have hmem : some c ∈ program.requirements.courses.map (inst.courseData site) := by
    rw [mapM_eq_some_iff.mp hcourses]
    exact List.mem_map_of_mem hc
  obtain ⟨readableId, -, hdata⟩ := List.mem_map.mp hmem
  exact courseData_exported hdata

/-- The programs of a contract are listed by their sort order. -/
theorem programItems_sorted (contract : ContractRecord) :
    contract.programItems.Pairwise fun a b => NullsLast a.2 b.2 := by
  refine (List.pairwise_mergeSort (fun a b c hab hbc => ?_) (fun a b => ?_) _).imp of_decide_eq_true
  · exact decide_eq_true (NullsLast.trans (of_decide_eq_true hab) (of_decide_eq_true hbc))
  · rw [Bool.or_eq_true, decide_eq_true_iff, decide_eq_true_iff]
    exact NullsLast.total a.2 b.2

theorem handleExport_exported (h : inst.handleExport site id = some data) : data.Exported site inst := by
  unfold Instance.handleExport at h
  split at h
  · obtain ⟨org, -, h⟩ := Option.bind_eq_some_iff.mp h
    obtain ⟨programs, hprograms, heq⟩ := Option.bind_eq_some_iff.mp h
    obtain rfl := Option.some.inj heq
    have hmap := mapM_eq_some_iff.mp hprograms
    have hspec : ∀ p ∈ programs, p.Exported site inst := by
      intro p hp
      have hmem : some p ∈ (inst.contracts.row id).programItems.map (inst.programData site) := by
        rw [hmap]
        exact List.mem_map_of_mem hp
      obtain ⟨item, -, hdata⟩ := List.mem_map.mp hmem
      exact (programData_spec hdata).2
    have hitems : programs.map (fun p => (p.readableId, p.sortOrder)) =
        (inst.contracts.row id).programItems :=
      map_of_mapM_eq_some hprograms fun item p hdata => (programData_spec hdata).1
    refine ⟨rfl, rfl, ⟨org, rfl⟩, ⟨_, rfl⟩, hspec, ?_, ?_⟩
    · have hfst : programs.map (·.readableId) = (inst.contracts.row id).programItems.map Prod.fst := by
        rw [← hitems, List.map_map]
        rfl
      show (programs.map (·.readableId)).Nodup
      rw [hfst]
      exact ((List.mergeSort_perm _ _).map Prod.fst).nodup_iff.mpr (inst.contracts.row id).programs.nodup
    · have hsorted := programItems_sorted (inst.contracts.row id)
      rw [← hitems, List.pairwise_map] at hsorted
      exact hsorted
  · cases h

end Contracts

end MitxOnline

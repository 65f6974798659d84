import MitxOnline.B2b.Proofs.ContractExportProofs
import MitxOnline.B2b.Proofs.TransferProgramsProofs

/-!
# An instance after an import

Into an instance that has none of the objects of a payload, an import that raises nothing creates all of
them. What the instance then exports, and what the same import does to it a second time, is read off the
rows that were created.
-/

namespace MitxOnline

open Nullable Upserts

/-! ## Imports that raise nothing -/

section Imported

variable {site : Site} {target inst : Instance} {id : ContractId} {data : ContractPayload}

/-- The organization that the import creates. -/
def OrganizationData.record (site : Site) (data : OrganizationData) (sso : Option ℕ) : OrganizationRecord :=
  ⟨data.name, data.orgKeyPrefix, sso, site.slugify ("org-".toList ++ data.name)⟩

/-- The organization can be created, and was. -/
structure OrganizationImported (site : Site) (target inst : Instance) (data : OrganizationData)
    (sso : Option ℕ) : Prop where
  read : site.uuid.deserializeTruthy data.ssoOrganizationId = .ok sso
  page : site.addOrganizationPage target.organizations.values (data.record site sso) = true
  unique : ∀ s, sso = some s → some s ∉ target.organizations.values.map (·.ssoOrganizationId)
  created : inst.organizations = target.organizations.set data.orgKey (data.record site sso)

/-- The contract can be created, and was. -/
structure ContractImported (site : Site) (target inst : Instance) (data : ContractPayload)
    (contract : ContractRecord) (rows : List StoredVariant) : Prop where
  create : data.contract.create site data.organization.orgKey data.contract.columns.slug = .ok contract
  page : site.addContractPage (contractsOf target.contracts data.organization.orgKey) contract = true
  variantOptions : upsertVariantOptions site [] data.contract.variantOptions = .ok rows
  created : inst.contracts = (target.contracts.create contract).set target.contracts.nextKey
    { contract with variantOptions := rows, programs := data.programs.foldl linkProgram .empty }

/-- What an import does that creates everything. -/
structure Imported (site : Site) (target : Instance) (data : ContractPayload) (inst : Instance)
    (id : ContractId) : Prop where
  organization : ∃ sso, OrganizationImported site target inst data.organization sso
  rows : (programRequests data.programs).Served site target
    { inst with organizations := target.organizations, contracts := target.contracts }
  contract : ∃ contract rows, ContractImported site target inst data contract rows
  id : id = target.contracts.nextKey

theorem handleImport_ok_iff : inst.handleImport site data [] = .ok (target, id) ↔
    data.version = 1 ∧ inst.runImportTransaction site data [] = .ok (target, id) := by
  unfold Instance.handleImport
  by_cases hversion : data.version = 1
  · rw [if_neg (not_not.mpr hversion), and_iff_right hversion]
    cases inst.runImportTransaction site data [] with
    | error e => exact iff_of_false (fun h => nomatch h) fun h => nomatch h
    | ok result => exact ⟨fun h => congrArg Except.ok (Except.ok.inj h), fun h => congrArg Except.ok (Except.ok.inj h)⟩
  · rw [if_pos hversion]
    exact iff_of_false (fun h => nomatch h) fun h => hversion h.1

theorem importOrganization_ok_iff {data : OrganizationData} (hnew : data.orgKey ∉ target.organizations.keys) :
    target.importOrganization site data = .ok inst ↔
      ∃ sso, site.uuid.deserializeTruthy data.ssoOrganizationId = .ok sso ∧
        site.addOrganizationPage target.organizations.values (data.record site sso) = true ∧
        (∀ s, sso = some s → some s ∉ target.organizations.values.map (·.ssoOrganizationId)) ∧
        inst = { target with
          organizations := target.organizations.set data.orgKey (data.record site sso) } := by
  unfold Instance.importOrganization
  rw [Dict.get_eq_none_iff.mpr hnew]
  dsimp only
  rw [bind_ok_iff]
  refine exists_congr fun sso => and_congr_right fun _ => ?_
  constructor
  · intro h
    split at h
    · cases h
    · rename_i hpage
      split at h
      · cases h
      · rename_i hsso
        refine ⟨Bool.not_eq_false _ ▸ hpage, ?_, (Except.ok.inj h).symm⟩
        rintro s rfl hmem
        exact hsso ⟨Option.some_ne_none s, hmem⟩
  · rintro ⟨hpage, hsso, rfl⟩
    have hpage' : ¬site.addOrganizationPage target.organizations.values (data.record site sso) = false := by
      rw [hpage]
      exact fun h => nomatch h
    have hsso' : ¬(sso ≠ none ∧ sso ∈ target.organizations.values.map (·.ssoOrganizationId)) := by
      rintro ⟨hne, hmem⟩
      obtain ⟨s, rfl⟩ := Option.ne_none_iff_exists'.mp hne
      exact hsso s rfl hmem
    exact (if_neg hpage').trans (if_neg hsso')

theorem importContract_ok_iff {orgKey slug : Text} {data : ContractData}
    (hnew : ∀ id ∈ target.contracts.keys, (target.contracts.row id).columns.slug ≠ slug) :
    target.importContract site orgKey slug data = .ok (inst, id) ↔
      ∃ contract, data.create site orgKey slug = .ok contract ∧
        site.addContractPage (contractsOf target.contracts orgKey) contract = true ∧
        inst = { target with contracts := target.contracts.create contract } ∧
        id = target.contracts.nextKey := by
  have hnone : target.contracts.first (fun _ contract => contract.columns.slug == slug) = none := by
    refine List.find?_eq_none.mpr fun id hid hslug => hnew id hid (beq_iff_eq.mp hslug)
  unfold Instance.importContract
  rw [hnone]
  dsimp only
  rw [bind_ok_iff]
  refine exists_congr fun contract => and_congr_right fun _ => ?_
  constructor
  · intro h
    split at h
    · rename_i hpage
      obtain ⟨rfl, rfl⟩ := Prod.mk.inj (Except.ok.inj h)
      exact ⟨hpage, rfl, rfl⟩
    · cases h
  · rintro ⟨hpage, rfl, rfl⟩
    exact if_pos hpage

theorem create_fields {orgKey slug : Text} {data : ContractData} {contract : ContractRecord}
    (h : data.create site orgKey slug = .ok contract) : contract.organization = orgKey ∧
      contract.columns = { data.columns with slug := slug } ∧
      contract.variantOptions = [] ∧ contract.programs = .empty := by
  unfold ContractData.create at h
  simp only [bind_ok_iff] at h
  obtain ⟨price, -, contractStart, -, contractEnd, -, heq⟩ := h
  obtain rfl := Except.ok.inj heq
  exact ⟨rfl, rfl, rfl, rfl⟩

/-- An import into an instance that has none of the objects. -/
theorem runImportTransaction_ok_iff (hlacks : target.Lacks data) :
    target.runImportTransaction site data [] = .ok (inst, id) ↔ Imported site target data inst id := by
  unfold Instance.runImportTransaction
  simp only [bind_ok_iff, importOrganization_ok_iff hlacks.organization, importPrograms_ok_iff]
  constructor
  · rintro ⟨inst₁, ⟨sso, hread, hpage, hsso, rfl⟩, inst₂, hserved, ⟨inst₃, id₃⟩, himport, rows, hrows, heq⟩
    have hcontracts : target.contracts = inst₂.contracts := hserved.contracts
    obtain ⟨contract, hcreate, hcontractPage, rfl, rfl⟩ := (importContract_ok_iff (by
      rw [← hcontracts]
      exact hlacks.contract)).mp himport
    obtain ⟨rfl, rfl⟩ := Prod.mk.inj (Except.ok.inj heq)
    obtain ⟨-, -, hnoVariants, hnoPrograms⟩ := create_fields hcreate
    have hrow : (inst₂.contracts.create contract).row inst₂.contracts.nextKey = contract :=
      Table.create_row_self _ _
    dsimp only at hrows hcontractPage ⊢
    rw [hrow, hnoVariants] at hrows
    refine ⟨⟨sso, hread, hpage, hsso, hserved.organizations.symm⟩, ?_, ?_, ?_⟩
    · exact ⟨hserved.departments, hserved.enrollmentModes, hserved.courses, hserved.courseRuns,
        hserved.programs, rfl, rfl⟩
    · refine ⟨contract, rows, hcreate, hcontracts ▸ hcontractPage, hrows, ?_⟩
      dsimp only
      rw [hrow, hnoPrograms, hcontracts]
    · rw [hcontracts]
  · rintro ⟨⟨sso, horg⟩, hserved, ⟨contract, rows, hcontract⟩, rfl⟩
    obtain ⟨-, -, hnoVariants, hnoPrograms⟩ := create_fields hcontract.create
    have hrow : (target.contracts.create contract).row target.contracts.nextKey = contract :=
      Table.create_row_self _ _
    have hlacks' : ∀ id ∈ { inst with contracts := target.contracts }.contracts.keys,
        ({ inst with contracts := target.contracts }.contracts.row id).columns.slug ≠
          data.contract.columns.slug := hlacks.contract
    refine ⟨_, ⟨sso, horg.read, horg.page, horg.unique, rfl⟩, { inst with contracts := target.contracts },
      ?_, _, (importContract_ok_iff hlacks').mpr ⟨contract, hcontract.create, hcontract.page, rfl, rfl⟩,
      rows, ?_, ?_⟩
    · exact ⟨hserved.departments, hserved.enrollmentModes, hserved.courses, hserved.courseRuns,
        hserved.programs, horg.created.symm, rfl⟩
    · dsimp only
      rw [hrow, hnoVariants]
      exact hcontract.variantOptions
    · dsimp only
      rw [hrow, hnoPrograms, ← hcontract.created]

end Imported

/-! ## The rows of a payload -/

section Rows

variable {site : Site} {source target inst : Instance} {id : ContractId} {data : ContractPayload}
  {c : CourseData}

theorem exported_course (hexported : data.Exported site source) (hc : c ∈ data.courses) :
    c.Exported site source := by
  obtain ⟨p, hp, hc⟩ := List.mem_flatMap.mp hc
  exact (hexported.programs p hp).courses c hc

/-- A payload says the same of a course wherever it comes up. -/
theorem consistent_courses (hexported : data.Exported site source) :
    Consistent (·.readableId) data.courses := by
  intro c hc c' hc' hid
  have h := (exported_course hexported hc).again
  have h' := (exported_course hexported hc').again
  rw [show c.readableId = c'.readableId from hid, h'] at h
  exact (Option.some.inj h).symm

/-- A payload says the same of a run wherever it comes up. -/
theorem consistent_runs (hexported : data.Exported site source) :
    Consistent (·.2.coursewareId) (data.courses.flatMap CourseData.runRequests) := by
  intro request hrequest request' hrequest' hid
  obtain ⟨c, hc, hrequest⟩ := List.mem_flatMap.mp hrequest
  obtain ⟨c', hc', hrequest'⟩ := List.mem_flatMap.mp hrequest'
  obtain ⟨rd, hrd, rfl⟩ := List.mem_map.mp hrequest
  obtain ⟨rd', hrd', rfl⟩ := List.mem_map.mp hrequest'
  obtain ⟨run, hrun, hfrom⟩ := (exported_course hexported hc).runs rd hrd
  obtain ⟨run', hrun', hfrom'⟩ := (exported_course hexported hc').runs rd' hrd'
  obtain ⟨hentry, hcourse⟩ := List.mem_filter.mp hrun
  obtain ⟨hentry', hcourse'⟩ := List.mem_filter.mp hrun'
  have hkeys : run.1 = run'.1 := hfrom.coursewareId.symm.trans (Eq.trans hid hfrom'.coursewareId)
  obtain rfl := List.inj_on_of_nodup_map source.courseRuns.nodup hentry hentry' hkeys
  have hcourses : c.readableId = c'.readableId :=
    (beq_iff_eq.mp hcourse).symm.trans (beq_iff_eq.mp hcourse')
  obtain rfl := consistent_courses hexported c hc c' hc' hcourses
  obtain rfl := List.inj_on_of_nodup_map (exported_course hexported hc).ids hrd hrd' hid
  rfl

theorem runs_new (hlacks : target.Lacks data) :
    ∀ request ∈ data.courses.flatMap CourseData.runRequests,
      request.2.coursewareId ∉ target.courseRuns.keys := by
  intro request hrequest
  obtain ⟨c, hc, hrequest⟩ := List.mem_flatMap.mp hrequest
  obtain ⟨rd, hrd, rfl⟩ := List.mem_map.mp hrequest
  exact hlacks.sourceRuns c hc rd hrd

/-- The requests for runs of a course are those of its entry, however often it comes up. -/
theorem firstsBy_runRequests (hexported : data.Exported site source) (hlacks : target.Lacks data)
    (hc : c ∈ data.courses) :
    (firstsBy (·.2.coursewareId) target.courseRuns.keys (data.courses.flatMap CourseData.runRequests)).filter
      (fun request => request.1 == c.readableId) = c.runRequests := by
  have hcons := consistent_runs hexported
  rw [filter_firstsBy fun a ha b hb hab => by rw [hcons a ha b hb hab], List.filter_flatMap]
  have hself : c.runRequests.filter (fun request => request.1 == c.readableId) = c.runRequests := by
    refine List.filter_eq_self.mpr fun request hrequest => ?_
    obtain ⟨rd, -, rfl⟩ := List.mem_map.mp hrequest
    exact beq_self_eq_true _
  refine firstsBy_flatMap (fun c' hc' => ?_) ⟨c, hc, hself⟩ ?_ fun request hrequest => ?_
  · by_cases hid : c'.readableId = c.readableId
    · exact .inl (consistent_courses hexported c' hc' c hc hid ▸ hself)
    · refine .inr (List.filter_eq_nil_iff.mpr fun request hrequest heq => hid ?_)
      obtain ⟨rd, -, rfl⟩ := List.mem_map.mp hrequest
      exact beq_iff_eq.mp heq
  · unfold CourseData.runRequests
    rw [List.map_map]
    exact (exported_course hexported hc).ids
  · exact runs_new hlacks request (List.mem_flatMap.mpr ⟨c, hc, hrequest⟩)

/-- The runs of a course after the import are those that were created for its entry. -/
theorem runsOf_imported (hexported : data.Exported site source) (hlacks : target.Lacks data)
    (hlinked : target.RunsLinked) (himported : Imported site target data inst id) (hc : c ∈ data.courses) :
    List.Forall₂ (fun rd run => run.1 = rd.coursewareId ∧ ∃ runs,
      createRun site runs (c.readableId, rd) = some run.2) c.sourceRuns (inst.runsOf c.readableId) := by
  have hknown : Known (·.2.coursewareId) RunDone target.courseRuns
      (data.courses.flatMap CourseData.runRequests) := fun request hrequest run hget =>
    absurd (Dict.mem_keys_iff.mpr ⟨run, hget⟩) (runs_new hlacks request hrequest)
  obtain ⟨⟨rows, hrows, hfirsts⟩, -⟩ :=
    findsOrCreates_run.run hknown (consistent_runs hexported) himported.rows.courseRuns
  have hold : target.courseRuns.entries.filter (fun run => run.2.course == c.readableId) = [] := by
    refine List.filter_eq_nil_iff.mpr fun run hrun heq => hlacks.courses c hc ?_
    exact beq_iff_eq.mp heq ▸ hlinked run hrun
  have hrunsOf : inst.runsOf c.readableId = rows.filter fun run => run.2.course == c.readableId := by
    unfold Instance.runsOf
    rw [show inst.courseRuns.entries = _ from hrows, List.filter_append, hold, List.nil_append]
  have hfilter := List.rel_filter (p := fun request : Text × RunData => request.1 == c.readableId)
    (q := fun run : Text × RunRecord => run.2.course == c.readableId) (by
      rintro request run ⟨-, runs, hcreate⟩
      obtain ⟨dates, -, -, -, hrun⟩ := createRun_eq_some_iff.mp hcreate
      show (request.1 == c.readableId) = true ↔ (run.2.course == c.readableId) = true
      rw [hrun]) hfirsts
  rw [firstsBy_runRequests hexported hlacks hc, CourseData.runRequests, List.forall₂_map_left_iff] at hfilter
  rw [hrunsOf]
  exact hfilter

/-- What is exported of the runs of a course is what was imported. -/
theorem sourceRunsData_imported {course : CourseRecord} {runs : List (Text × RunRecord)}
    (hc : c.Exported site source)
    (hruns : List.Forall₂ (fun rd run => run.1 = rd.coursewareId ∧ ∃ runs,
      createRun site runs (c.readableId, rd) = some run.2) c.sourceRuns runs) :
    sourceRunsData site course runs = c.sourceRuns := by
  have hserialize : List.Forall₂ (fun rd run => run.2.columns.designated = true ∧
      serializeRun site run.1 run.2 false none = rd) c.sourceRuns runs := by
    refine forall₂_imp_of_mem hruns fun rd hrd run => ?_
    rintro ⟨hid, runs, hcreate⟩
    obtain ⟨run₀, -, hfrom⟩ := hc.runs rd hrd
    obtain ⟨dates, hdates, -, -, hrun⟩ := createRun_eq_some_iff.mp hcreate
    have hdates₀ : dates = run₀.2.dates := by
      rw [hfrom.dates, dates_deserialize_serialize] at hdates
      exact (Except.ok.inj hdates).symm
    rw [hid, hrun, hdates₀]
    refine ⟨hfrom.designated, ?_⟩
    have hmodes : (OrderedSet.empty.addAll rd.enrollmentModes).elements = rd.enrollmentModes := by
      refine OrderedSet.empty_addAll_elements ?_
      rw [hfrom.enrollmentModes]
      exact run₀.2.enrollmentModes.nodup
    unfold serializeRun
    rw [hmodes, ← hfrom.dates]
    rfl
  have hdesignated : runs.filter (·.2.columns.designated) = runs := by
    refine List.filter_eq_self.mpr fun run hrun => ?_
    obtain ⟨rd, -, h, -⟩ := exists_of_forall₂ hserialize.flip hrun
    exact h
  have hdata : runs.map (fun run => serializeRun site run.1 run.2 false none) = c.sourceRuns := by
    rw [← map_eq_map_of_forall₂ hserialize fun rd run h => h.2.symm]
    exact List.map_id _
  unfold sourceRunsData
  rw [hdesignated]
  dsimp only
  split
  · exact hdata
  · rename_i hempty
    obtain rfl := not_not.mp hempty
    exact hdata

theorem serialize_rows (data : List VariantOption) :
    serializeVariantOptions (data.map VariantOption.row) = data := by
  unfold serializeVariantOptions
  rw [List.map_map]
  exact List.map_id _

/-- The options that were created are exported as they were imported exactly if they are different. -/
theorem serialize_created_iff {data : List VariantOption} {rows : List StoredVariant}
    (h : upsertVariantOptions site [] data = .ok rows) :
    serializeVariantOptions rows = data ↔ (data.map (·.options)).Nodup := by
  constructor
  · intro hdata
    have hnodup := (upsertVariantOptions_spec h List.nodup_nil).1
    rw [← hdata]
    unfold serializeVariantOptions
    rw [List.map_map]
    exact hnodup
  · intro hnodup
    obtain ⟨rfl, -⟩ := (upsertVariantOptions_nil_iff hnodup).mp h
    exact serialize_rows data

/-- The entry of a course after the import. -/
theorem courseData_imported_iff (hexported : data.Exported site source) (hlacks : target.Lacks data)
    (hlinked : target.RunsLinked) (himported : Imported site target data inst id) (hc : c ∈ data.courses) :
    inst.courseData site c.readableId = some c ↔ (c.variantOptions.map (·.options)).Nodup := by
  have hknown : Known (·.readableId) CourseDone target.courses data.courses := fun c hc course hget =>
    absurd (Dict.mem_keys_iff.mpr ⟨course, hget⟩) (hlacks.courses c hc)
  obtain ⟨courses, course, hcreate, hget⟩ := findsOrCreates_course.get_of_new hknown
    (consistent_courses hexported) himported.rows.courses hc (hlacks.courses c hc)
  obtain ⟨rows, slug, hrows, -, rfl⟩ := createCourse_eq_some_iff.mp hcreate
  have hcourse := exported_course hexported hc
  have hruns : ∀ course, sourceRunsData site course (inst.runsOf c.readableId) = c.sourceRuns :=
    fun course => sourceRunsData_imported hcourse (runsOf_imported hexported hlacks hlinked himported hc)
  have hdata : inst.courseData site c.readableId =
      some { c with variantOptions := serializeVariantOptions rows } := by
    unfold Instance.courseData
    rw [show inst.courses.get c.readableId = _ from hget, Option.bind_eq_bind, Option.bind_some, hruns,
      OrderedSet.empty_addAll_elements hcourse.departments]
  rw [hdata, ← serialize_created_iff hrows]
  constructor
  · intro h
    exact congrArg CourseData.variantOptions (Option.some.inj h)
  · intro h
    rw [h]

/-- The row of a program after the import. -/
theorem program_imported (hexported : data.Exported site source) (hlacks : target.Lacks data)
    (himported : Imported site target data inst id) {p : ProgramData} (hp : p ∈ data.programs) :
    ∃ program, inst.programs.get p.readableId = some program ∧ program.title = p.title ∧
      program.departments.elements = p.departments ∧
      program.requirements = requiredCourses p.courseIds := by
  have hcons : Consistent (·.readableId) data.programs :=
    fun a ha b hb hab => List.inj_on_of_nodup_map hexported.ids ha hb hab
  have hknown : Known (·.readableId) ProgramDone target.programs data.programs := fun p hp program hget =>
    absurd (Dict.mem_keys_iff.mpr ⟨program, hget⟩) (hlacks.programs p hp)
  obtain ⟨programs, program, hcreate, hget⟩ := findsOrCreates_program.get_of_new hknown hcons
    himported.rows.programs hp (hlacks.programs p hp)
  obtain ⟨-, slug, -, rfl⟩ := createProgram_eq_some_iff.mp hcreate
  exact ⟨_, hget, rfl, OrderedSet.empty_addAll_elements (hexported.programs p hp).departments, rfl⟩

theorem mem_courseIds {p : ProgramData} {course : Text} :
    course ∈ p.courseIds ↔ course ∈ p.courses.map (·.readableId) := by
  unfold ProgramData.courseIds
  rw [mem_firstsBy_iff consistent_id, and_iff_left List.not_mem_nil]

/-- After the import the courses of a program are required. -/
theorem classifies_imported_iff (hexported : data.Exported site source) (hlacks : target.Lacks data)
    (himported : Imported site target data inst id) {p : ProgramData} (hp : p ∈ data.programs)
    {course : Text} {type : RequirementType} :
    inst.Classifies p.readableId course type ↔
      course ∈ p.courses.map (·.readableId) ∧ type = .required := by
  obtain ⟨program, hget, -, -, hrequirements⟩ := program_imported hexported hlacks himported hp
  unfold Instance.Classifies
  rw [hget]
  simp only [Option.some.injEq, exists_eq_left']
  rw [hrequirements, requiredCourses_courseClasses, List.mem_map, ← mem_courseIds]
  constructor
  · rintro ⟨course', hmem, heq⟩
    obtain ⟨rfl, rfl⟩ := Prod.mk.inj heq
    exact ⟨hmem, rfl⟩
  · rintro ⟨hmem, rfl⟩
    exact ⟨course, hmem, rfl⟩

/-- The program comes back as it was exported: it has no course twice, and no course options twice. -/
def ProgramData.Returns (p : ProgramData) : Prop :=
  (p.courses.map (·.readableId)).Nodup ∧ ∀ c ∈ p.courses, (c.variantOptions.map (·.options)).Nodup

/-- The entry of a program after the import. -/
theorem programData_imported_iff (hexported : data.Exported site source) (hlacks : target.Lacks data)
    (hlinked : target.RunsLinked) (himported : Imported site target data inst id) {p : ProgramData}
    (hp : p ∈ data.programs) :
    inst.programData site (p.readableId, p.sortOrder) = some p ↔ p.Returns := by
  obtain ⟨program, hget, htitle, hdepartments, hrequirements⟩ :=
    program_imported hexported hlacks himported hp
  have hcourse : ∀ c ∈ p.courses,
      (inst.courseData site c.readableId = some c ↔ (c.variantOptions.map (·.options)).Nodup) :=
    fun c hc => courseData_imported_iff hexported hlacks hlinked himported
      (List.mem_flatMap.mpr ⟨p, hp, hc⟩)
  have hdata : inst.programData site (p.readableId, p.sortOrder) = some p ↔
      p.courseIds.mapM (inst.courseData site) = some p.courses := by
    unfold Instance.programData
    rw [hget, Option.bind_eq_bind, Option.bind_some, Option.bind_eq_bind, Option.bind_eq_some_iff,
      hrequirements, requiredCourses_courses, htitle, hdepartments]
    constructor
    · rintro ⟨courses, hcourses, heq⟩
      rw [hcourses, ← congrArg ProgramData.courses (Option.some.inj heq)]
    · intro hcourses
      exact ⟨_, hcourses, rfl⟩
  rw [hdata]
  unfold ProgramData.Returns
  constructor
  · intro h
    have hids : p.courses.map (·.readableId) = p.courseIds :=
      map_of_mapM_eq_some h fun readableId c hc => courseData_readableId hc
    refine ⟨?_, fun c hc => (hcourse c hc).mp ?_⟩
    · rw [hids]
      exact firstsBy_id_nodup
    · have hmem : some c ∈ p.courseIds.map (inst.courseData site) := by
        rw [mapM_eq_some_iff.mp h]
        exact List.mem_map_of_mem hc
      obtain ⟨readableId, -, hc'⟩ := List.mem_map.mp hmem
      rw [courseData_readableId hc']
      exact hc'
  · rintro ⟨hnodup, hvariants⟩
    have hids : p.courseIds = p.courses.map (·.readableId) :=
      firstsBy_eq_self (by rwa [List.map_id]) fun _ _ => List.not_mem_nil
    rw [mapM_eq_some_iff, hids, List.map_map]
    exact List.map_congr_left fun c hc => (hcourse c hc).mpr (hvariants c hc)

end Rows

/-! ## The contract -/

section Contract

variable {site : Site} {source target inst : Instance} {id : ContractId} {data : ContractPayload}

/-- Programs that are new are linked in their order. -/
theorem linkPrograms_entries {ps : List ProgramData} {programs : Dict Text (Option ℤ)}
    (h : (programs.keys ++ ps.map (·.readableId)).Nodup) :
    (ps.foldl linkProgram programs).entries =
      programs.entries ++ ps.map fun p => (p.readableId, p.sortOrder) := by
  induction ps generalizing programs with
  | nil => simp
  | cons p rest ih =>
    have hnew : p.readableId ∉ programs.keys := fun hmem =>
      (List.nodup_append.mp h).2.2 _ hmem _ List.mem_cons_self rfl
    have hset := Dict.set_entries_of_new (v := p.sortOrder) (Dict.get_eq_none_iff.mpr hnew)
    have hlink : linkProgram programs p = programs.set p.readableId p.sortOrder :=
      if_neg (mt List.contains_iff_mem.mp hnew)
    have hkeys : (programs.set p.readableId p.sortOrder).keys = programs.keys ++ [p.readableId] := by
      unfold Dict.keys
      rw [hset, List.map_append, List.map_singleton]
    rw [List.foldl_cons, hlink, ih, hset, List.append_assoc, List.map_cons, List.singleton_append]
    rw [hkeys, List.append_assoc]
    exact h

/-- The contract that is created has everything but the variant options and the programs. -/
theorem create_data {contract : ContractRecord} {orgKey : Text} :
    (contract.data site).create site orgKey contract.columns.slug = .ok
      { organization := orgKey
        columns := contract.columns
        contractStart := contract.contractStart
        contractEnd := contract.contractEnd
        enrollmentFixedPrice := contract.enrollmentFixedPrice
        googleSheetTarget := some (contract.googleSheetTarget.getD [])
        variantOptions := []
        programs := .empty } := by
  unfold ContractData.create ContractRecord.data
  dsimp only
  rw [deserializeTruthy_serialize, deserialize_serialize, deserialize_serialize]
  rfl

/-- The payload comes back as it was exported: its programs do, it has a sheet, and no options twice. -/
structure ContractPayload.Returns (data : ContractPayload) : Prop where
  programs : ∀ p ∈ data.programs, p.Returns
  sheet : data.contract.googleSheetTarget ≠ none
  variantOptions : (data.contract.variantOptions.map (·.options)).Nodup

/-- The organization after the import. -/
theorem organization_imported (hexported : data.Exported site source)
    (himported : Imported site target data inst id) :
    ∃ org, inst.organizations.get data.organization.orgKey = some org ∧
      org.data site data.organization.orgKey = data.organization := by
  obtain ⟨sso, horg⟩ := himported.organization
  obtain ⟨org, hdata⟩ := hexported.organization
  have hread := horg.read
  rw [hdata] at hread
  have hsso : sso = org.ssoOrganizationId :=
    (Except.ok.inj ((deserializeTruthy_serialize _).symm.trans hread)).symm
  refine ⟨data.organization.record site sso, ?_, ?_⟩
  · rw [horg.created]
    exact Dict.get_set_self
  · rw [hsso]
    conv_rhs => rw [hdata]
    unfold OrganizationRecord.data OrganizationData.record
    rw [hdata]
    rfl

/-- The row of the contract after the import. -/
theorem contract_imported (hexported : data.Exported site source)
    (himported : Imported site target data inst id) :
    id ∈ inst.contracts.keys ∧ (inst.contracts.row id).organization = data.organization.orgKey ∧
      (inst.contracts.row id).programs.entries =
        (data.programs.map fun p => (p.readableId, p.sortOrder)) ∧
      upsertVariantOptions site [] data.contract.variantOptions =
        .ok (inst.contracts.row id).variantOptions ∧
      (inst.contracts.row id).data site = { data.contract with
        googleSheetTarget := some (data.contract.googleSheetTarget.getD [])
        variantOptions := serializeVariantOptions (inst.contracts.row id).variantOptions } := by
  obtain ⟨contract, rows, hcontract⟩ := himported.contract
  obtain ⟨contract₀, hdata⟩ := hexported.contract
  have hcreate := hcontract.create
  rw [hdata] at hcreate
  obtain rfl := Except.ok.inj (create_data.symm.trans hcreate)
  have hrow := congrArg (fun t => t.row id) hcontract.created
  rw [himported.id] at hrow ⊢
  dsimp only at hrow
  rw [Table.set_row_self] at hrow
  rw [hrow]
  refine ⟨?_, rfl, ?_, hcontract.variantOptions, ?_⟩
  · rw [hcontract.created]
    exact List.mem_append_right _ List.mem_cons_self
  · exact linkPrograms_entries hexported.ids
  · rw [hdata]
    rfl

/-- The payload after the import. -/
theorem handleExport_imported_iff (hexported : data.Exported site source) (hlacks : target.Lacks data)
    (hlinked : target.RunsLinked) (himported : Imported site target data inst id) :
    inst.handleExport site id = some data ↔ data.Returns := by
  obtain ⟨org, hgetOrg, horg⟩ := organization_imported hexported himported
  obtain ⟨hmem, horganization, hprograms, hrows, hcontract⟩ := contract_imported hexported himported
  have hitems : (inst.contracts.row id).programItems = data.programs.map fun p => (p.readableId, p.sortOrder) := by
    unfold ContractRecord.programItems
    rw [hprograms]
    refine List.mergeSort_of_pairwise (List.pairwise_map.mpr (hexported.sorted.imp fun h => ?_))
    exact decide_eq_true h
  have hreturns : (data.programs.map fun p => (p.readableId, p.sortOrder)).mapM (inst.programData site) =
      some data.programs ↔ ∀ p ∈ data.programs, p.Returns := by
    rw [mapM_eq_some_iff, List.map_map, List.map_inj_left]
    exact forall₂_congr fun p hp => programData_imported_iff hexported hlacks hlinked himported hp
  have hsheet : some (data.contract.googleSheetTarget.getD []) = data.contract.googleSheetTarget ↔
      data.contract.googleSheetTarget ≠ none := by
    cases data.contract.googleSheetTarget with
    | none => exact iff_of_false (fun h => nomatch h) fun h => h rfl
    | some sheet => exact iff_of_true rfl fun h => nomatch h
  have hcolumns : (inst.contracts.row id).columns = data.contract.columns :=
    congrArg ContractData.columns hcontract
  have hversion : 1 = data.version := hexported.version.symm
  have hslug : data.contract.columns.slug = data.sourceContractSlug := hexported.slug.symm
  unfold Instance.handleExport
  rw [if_pos hmem]
  dsimp only
  rw [horganization, hgetOrg, Option.bind_eq_bind, Option.bind_some, Option.bind_eq_bind,
    Option.bind_eq_some_iff, hitems, horg, hcontract, hcolumns, hversion, hslug]
  constructor
  · rintro ⟨programs, hmap, heq⟩
    have heq := Option.some.inj heq
    have hdata := congrArg ContractPayload.contract heq
    refine ⟨hreturns.mp ?_, hsheet.mp ?_, ?_⟩
    · rw [hmap, ← congrArg ContractPayload.programs heq]
    · exact congrArg ContractData.googleSheetTarget hdata
    · exact (serialize_created_iff hrows).mp (congrArg ContractData.variantOptions hdata)
  · intro h
    refine ⟨data.programs, hreturns.mpr h.programs, congrArg some ?_⟩
    rw [hsheet.mpr h.sheet, (serialize_created_iff hrows).mpr h.variantOptions]

/-- Programs that are linked are left as they are. -/
theorem linkPrograms_of_mem {ps : List ProgramData} {programs : Dict Text (Option ℤ)}
    (h : ∀ p ∈ ps, p.readableId ∈ programs.keys) : ps.foldl linkProgram programs = programs := by
  induction ps with
  | nil => rfl
  | cons p rest ih =>
    have hlink : linkProgram programs p = programs := if_pos (List.contains_iff_mem.mpr (h p List.mem_cons_self))
    rw [List.foldl_cons, hlink]
    exact ih fun q hq => h q (List.mem_cons_of_mem p hq)

/-- The contract is found by its slug. -/
theorem first_imported (hexported : data.Exported site source) (hlacks : target.Lacks data)
    (himported : Imported site target data inst id) :
    inst.contracts.first (fun _ contract => contract.columns.slug == data.contract.columns.slug) = some id := by
  obtain ⟨contract, rows, hcontract⟩ := himported.contract
  have hcolumns : (inst.contracts.row id).columns = data.contract.columns :=
    congrArg ContractData.columns (contract_imported hexported himported).2.2.2.2
  have hkeys : inst.contracts.keys = target.contracts.keys ++ [id] := by
    rw [hcontract.created, himported.id]
    rfl
  have hold : ∀ k ∈ target.contracts.keys, inst.contracts.row k = target.contracts.row k := by
    intro k hk
    have hne : k ≠ target.contracts.nextKey := by
      rintro rfl
      exact target.contracts.nextKey_not_mem hk
    rw [hcontract.created, Table.set_row_of_ne _ _ hne, Table.create_row_of_ne _ _ hne]
  have hnone : target.contracts.keys.find?
      (fun k => (inst.contracts.row k).columns.slug == data.contract.columns.slug) = none := by
    refine List.find?_eq_none.mpr fun k hk hslug => hlacks.contract k hk ?_
    rw [← hold k hk]
    exact beq_iff_eq.mp hslug
  unfold Table.first
  rw [hkeys, List.find?_append, hnone, Option.none_or]
  refine List.find?_cons_of_pos ?_
  show ((inst.contracts.row id).columns.slug == data.contract.columns.slug) = true
  rw [hcolumns]
  exact beq_self_eq_true _

/-- The requests of an import find everything that it created. -/
theorem served_again (hexported : data.Exported site source) (hlacks : target.Lacks data)
    (himported : Imported site target data inst id) : (programRequests data.programs).Served site inst inst := by
  have hprograms : Consistent (·.readableId) data.programs :=
    fun a ha b hb hab => List.inj_on_of_nodup_map hexported.ids ha hb hab
  have hserved := himported.rows
  constructor
  · exact findsOrCreates_department.run_known
      (findsOrCreates_department.run (fun _ _ _ _ => trivial) consistent_id hserved.departments).2
  · rw [← show _ = inst.enrollmentModes from hserved.enrollmentModes]
    exact OrderedSet.addAll_addAll
  · refine findsOrCreates_course.run_known
      (findsOrCreates_course.run (fun c hc course hget => ?_) (consistent_courses hexported) hserved.courses).2
    exact absurd (Dict.mem_keys_iff.mpr ⟨course, hget⟩) (hlacks.courses c hc)
  · refine findsOrCreates_run.run_known
      (findsOrCreates_run.run (fun request hrequest run hget => ?_) (consistent_runs hexported)
        hserved.courseRuns).2
    exact absurd (Dict.mem_keys_iff.mpr ⟨run, hget⟩) (runs_new hlacks request hrequest)
  · refine findsOrCreates_program.run_known
      (findsOrCreates_program.run (fun p hp program hget => ?_) hprograms hserved.programs).2
    exact absurd (Dict.mem_keys_iff.mpr ⟨program, hget⟩) (hlacks.programs p hp)
  · rfl
  · rfl

/-- The same import finds everything. -/
theorem runImportTransaction_again (hexported : data.Exported site source) (hlacks : target.Lacks data)
    (himported : Imported site target data inst id) :
    inst.runImportTransaction site data [] = .ok (inst, id) := by
  obtain ⟨org, hgetOrg, -⟩ := organization_imported hexported himported
  obtain ⟨-, -, hprograms, hrows, -⟩ := contract_imported hexported himported
  have horganization : inst.importOrganization site data.organization = .ok inst := by
    unfold Instance.importOrganization
    rw [hgetOrg]
  have hcontract : inst.importContract site data.organization.orgKey data.contract.columns.slug data.contract =
      .ok (inst, id) := by
    unfold Instance.importContract
    rw [first_imported hexported hlacks himported]
  obtain ⟨hdifferent, -, hall⟩ := upsertVariantOptions_spec hrows List.nodup_nil
  have hlinked : data.programs.foldl linkProgram (inst.contracts.row id).programs =
      (inst.contracts.row id).programs := by
    refine linkPrograms_of_mem fun p hp => ?_
    unfold Dict.keys
    rw [hprograms, List.map_map]
    exact List.mem_map.mpr ⟨p, hp, rfl⟩
  unfold Instance.runImportTransaction
  simp only [bind_ok_iff]
  refine ⟨inst, horganization, inst, importPrograms_ok_iff.mpr (served_again hexported hlacks himported),
    (inst, id), hcontract, _, upsertVariantOptions_of_mem hdifferent hall, ?_⟩
  dsimp only
  rw [hlinked, Table.set_row_eq]

end Contract

end MitxOnline

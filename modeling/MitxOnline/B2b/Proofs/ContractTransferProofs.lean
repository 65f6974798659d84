import Mathlib.Logic.Equiv.Nat
import MitxOnline.B2b.Proofs.ImportedProofs

/-!
# When an import undoes an export

The import of an exported payload goes through exactly if each table takes its rows, so it undoes the export
exactly if this is so and nothing of the contract is of a kind that the import makes something else of.
-/

namespace MitxOnline

open FixedPoint Upserts

/-! ## What the tables take -/

section Tables

variable {site : Site} {source target : Instance} {data : ContractPayload} {k : ContractId}

/-- Runs of different courses are in different groups. -/
theorem clash_of_course_ne {a b : RunSlot} (h : a.course ≠ b.course) : a.clash b = false := by
  unfold RunSlot.clash
  rw [Bool.or_eq_false_iff, Bool.eq_false_iff, Bool.eq_false_iff, ne_eq, ne_eq, UniqueConstraint.clash_iff,
    UniqueConstraint.clash_iff]
  constructor
  · rintro ⟨-, -, hfields⟩
    exact h (congrArg Prod.fst hfields)
  · rintro ⟨-, -, hfields⟩
    exact h (congrArg Prod.fst hfields)

/-- Each table is served by itself. -/
theorem exists_served_iff {r : TableRequests} : (∃ inst, r.Served site target inst) ↔
    (∃ departments, r.departments.foldlM (getOrCreateDepartment site) target.departments = .ok departments) ∧
      (∃ courses, r.courses.foldlM (serveCourse site) target.courses = .ok courses) ∧
      (∃ runs, r.courseRuns.foldlM (serveRun site) target.courseRuns = .ok runs) ∧
      ∃ programs, r.programs.foldlM (serveProgram site) target.programs = .ok programs := by
  constructor
  · rintro ⟨inst, h⟩
    exact ⟨⟨_, h.departments⟩, ⟨_, h.courses⟩, ⟨_, h.courseRuns⟩, ⟨_, h.programs⟩⟩
  · rintro ⟨⟨departments, hd⟩, ⟨courses, hc⟩, ⟨runs, hr⟩, ⟨programs, hp⟩⟩
    exact ⟨⟨departments, target.enrollmentModes.addAll r.enrollmentModes, courses, runs, programs,
      target.organizations, target.contracts⟩, hd, rfl, hc, hr, hp, rfl, rfl⟩

/-- Nothing of the payload stands beside the runs of the other courses. -/
theorem runs_beside_others (hlacks : target.Lacks data) (hlinked : target.RunsLinked) :
    ∀ request ∈ data.courses.flatMap CourseData.runRequests, ∀ slot ∈ runSlots target.courseRuns,
      slot.clash (runSlot request) = false := by
  intro request hrequest slot hslot
  obtain ⟨c, hc, hrequest⟩ := List.mem_flatMap.mp hrequest
  obtain ⟨rd, -, rfl⟩ := List.mem_map.mp hrequest
  obtain ⟨run, hrun, rfl⟩ := List.mem_map.mp hslot
  obtain ⟨entry, hentry, rfl⟩ := List.mem_map.mp hrun
  refine clash_of_course_ne fun heq => hlacks.courses c hc ?_
  have hlinked := hlinked entry hentry
  rw [show entry.2.course = c.readableId from heq] at hlinked
  exact hlinked

/-- The runs of a payload go together exactly if those of each course do. -/
theorem runs_pairwise_iff (hexported : data.Exported site source) (hlacks : target.Lacks data) :
    (firstsBy (·.2.coursewareId) [] (data.courses.flatMap CourseData.runRequests)).Pairwise
      (fun request request' => (runSlot request).clash (runSlot request') = false) ↔
      ∀ c ∈ data.courses, c.sourceRuns.Pairwise fun rd rd' =>
        RunSlot.clash ⟨c.readableId, rd.columns, none⟩ ⟨c.readableId, rd'.columns, none⟩ = false := by
  have hfirsts : firstsBy (·.2.coursewareId) [] (data.courses.flatMap CourseData.runRequests) =
      firstsBy (·.2.coursewareId) target.courseRuns.keys (data.courses.flatMap CourseData.runRequests) :=
    firstsBy_congr fun request hrequest => iff_of_false List.not_mem_nil (runs_new hlacks request hrequest)
  have hcourse : ∀ c ∈ data.courses, (c.sourceRuns.Pairwise fun rd rd' =>
      RunSlot.clash ⟨c.readableId, rd.columns, none⟩ ⟨c.readableId, rd'.columns, none⟩ = false) ↔
      ((firstsBy (·.2.coursewareId) target.courseRuns.keys
        (data.courses.flatMap CourseData.runRequests)).filter
          fun request => request.1 == c.readableId).Pairwise
            fun request request' => (runSlot request).clash (runSlot request') = false := by
    intro c hc
    rw [firstsBy_runRequests hexported hlacks hc, CourseData.runRequests, List.pairwise_map]
    rfl
  rw [hfirsts]
  constructor
  · intro h c hc
    exact (hcourse c hc).mpr (h.sublist List.filter_sublist)
  · intro h
    refine pairwise_of_filter Prod.fst (fun readableId => ?_) fun request request' hne =>
      clash_of_course_ne hne
    by_cases hid : ∃ c ∈ data.courses, c.readableId = readableId
    · obtain ⟨c, hc, rfl⟩ := hid
      exact (hcourse c hc).mp (h c hc)
    · rw [List.filter_eq_nil_iff.mpr fun request hrequest heq => hid ?_]
      · exact List.Pairwise.nil
      · obtain ⟨c, hc, hmem⟩ := List.mem_flatMap.mp (firstsBy_sublist.subset hrequest)
        obtain ⟨rd, -, rfl⟩ := List.mem_map.mp hmem
        exact ⟨c, hc, beq_iff_eq.mp heq⟩

/-- The runs of a payload are taken exactly if those of each course go together. -/
theorem payloadRuns_ok_iff (hexported : data.Exported site source) (hlacks : target.Lacks data)
    (hlinked : target.RunsLinked) :
    (∃ runs, (data.courses.flatMap CourseData.runRequests).foldlM (serveRun site) target.courseRuns =
      .ok runs) ↔ ∀ c ∈ data.courses, RunsFit site c.readableId c.sourceRuns := by
  have hvalid : (∀ request ∈ data.courses.flatMap CourseData.runRequests, request.2.valid site = true) ↔
      ∀ c ∈ data.courses, ∀ rd ∈ c.sourceRuns,
        cleanLanguage site.languagesLookup (String.ofList rd.columns.options.language) = .ok () := by
    rw [List.forall_mem_flatMap]
    refine forall₂_congr fun c hc => ?_
    unfold CourseData.runRequests
    rw [List.forall_mem_map]
    refine forall₂_congr fun rd hrd => ?_
    obtain ⟨run, -, hfrom⟩ := (exported_course hexported hc).runs rd hrd
    rw [runValid_iff, hfrom.dates, dates_deserialize_serialize]
    exact and_iff_right ⟨_, rfl⟩
  rw [runs_ok_iff (consistent_runs hexported) (runs_new hlacks), hvalid,
    runs_pairwise_iff hexported hlacks, and_iff_right (runs_beside_others hlacks hlinked)]
  constructor
  · rintro ⟨hlanguages, hslots⟩ c hc
    exact ⟨hlanguages c hc, hslots c hc⟩
  · intro h
    exact ⟨fun c hc => (h c hc).languages, fun c hc => (h c hc).slots⟩

/-- An organization that is exported can be read, so it is taken if its page is and its id is its own. -/
theorem organizationFits_iff (hexported : data.Exported site source) :
    (∃ sso, site.uuid.deserializeTruthy data.organization.ssoOrganizationId = .ok sso ∧
      site.addOrganizationPage target.organizations.values (data.organization.record site sso) = true ∧
      ∀ s, sso = some s → some s ∉ target.organizations.values.map (·.ssoOrganizationId)) ↔
      OrganizationFits site target data.organization := by
  obtain ⟨org, hdata⟩ := hexported.organization
  have hread : site.uuid.deserializeTruthy data.organization.ssoOrganizationId = .ok org.ssoOrganizationId := by
    rw [hdata]
    exact deserializeTruthy_serialize org.ssoOrganizationId
  constructor
  · rintro ⟨sso, hsso, hpage, hunique⟩
    constructor
    · intro sso' hsso'
      obtain rfl := Except.ok.inj (hsso.symm.trans hsso')
      exact hpage
    · intro s hs
      exact hunique s (Except.ok.inj (hsso.symm.trans hs))
  · intro h
    exact ⟨_, hread, h.page _ hread, fun s hs => h.sso s (hs ▸ hread)⟩

/-- A program is taken by itself exactly if there is room for its courses. -/
theorem programAllowed_iff {p : ProgramData} (honce : (p.courses.map (·.readableId)).Nodup) :
    p.allowed = true ↔ p.courses.length ≤ maxStep := by
  have hids : p.courseIds = p.courses.map (·.readableId) :=
    firstsBy_eq_self (by rwa [List.map_id]) fun _ _ => List.not_mem_nil
  unfold ProgramData.allowed
  rw [decide_eq_true_iff, hids, List.length_map]

/-- A course is taken by itself exactly if its options go together. -/
theorem courseAllowed_iff {c : CourseData} (hdifferent : (c.variantOptions.map (·.options)).Nodup) :
    c.allowed site = true ↔ VariantsFit site c.variantOptions := by
  rw [allowed_iff]
  simp only [upsertVariantOptions_nil_iff hdifferent, exists_eq_left]

/-- What the tables take of a payload that has nothing twice. -/
theorem payload_served_iff (hexported : data.Exported site source) (hlacks : target.Lacks data)
    (hlinked : target.RunsLinked) (hreturns : data.Returns) :
    (∃ inst, (programRequests data.programs).Served site target inst) ↔
      DepartmentsFit site target.departments data.departments ∧
        ((∀ c ∈ data.courses, CourseFits site c) ∧
          PagesFit site.addCoursePage (coursePages target.courses)
            ((firstsBy (·.readableId) [] data.courses).map fun c =>
              defaultCoursewarePage site c.readableId c.title)) ∧
        (∀ p ∈ data.programs, p.courses.length ≤ maxStep) ∧
          PagesFit site.addProgramPage (programPages target.programs)
            (data.programs.map fun p => defaultCoursewarePage site p.readableId p.title) := by
  have hcourses : (∀ c ∈ data.courses, c.allowed site = true) ↔
      ∀ c ∈ data.courses, VariantsFit site c.variantOptions := by
    refine forall₂_congr fun c hc => courseAllowed_iff ?_
    obtain ⟨p, hp, hc⟩ := List.mem_flatMap.mp hc
    exact (hreturns.programs p hp).2 c hc
  have hprograms : (∀ p ∈ data.programs, p.allowed = true) ↔
      ∀ p ∈ data.programs, p.courses.length ≤ maxStep :=
    forall₂_congr fun p hp => programAllowed_iff (hreturns.programs p hp).1
  have hserved := @exists_served_iff site target (programRequests data.programs)
  have hdepartments := @departments_ok_iff site target.departments data.departments
  have hcourseTable := @courses_ok_iff site _ _ (consistent_courses hexported) hlacks.courses
  have hprogramTable := @programs_ok_iff site _ _ hexported.ids hlacks.programs
  have hruns := payloadRuns_ok_iff hexported hlacks hlinked
  rw [hcourses] at hcourseTable
  rw [hprograms] at hprogramTable
  constructor
  · intro h
    obtain ⟨hd, hc, hr, hp⟩ := hserved.mp h
    obtain ⟨hfit, hpages⟩ := hcourseTable.mp hc
    have hrunsFit := hruns.mp hr
    refine ⟨hdepartments.mp hd, ⟨fun c hc => ?_, hpages⟩, hprogramTable.mp hp⟩
    exact ⟨hfit c hc, hrunsFit c hc⟩
  · rintro ⟨hd, ⟨hfit, hpages⟩, hp⟩
    refine hserved.mpr ⟨hdepartments.mpr hd, hcourseTable.mpr ⟨fun c hc => ?_, hpages⟩, ?_,
      hprogramTable.mpr hp⟩
    · exact (hfit c hc).variantOptions
    · exact hruns.mpr fun c hc => (hfit c hc).sourceRuns

/-- A contract that is exported can be read, so it is taken if its page is and its options go together. -/
theorem contractFits_iff (hexported : data.Exported site source) (hreturns : data.Returns) :
    (∃ contract rows,
      data.contract.create site data.organization.orgKey data.contract.columns.slug = .ok contract ∧
      site.addContractPage (contractsOf target.contracts data.organization.orgKey) contract = true ∧
      upsertVariantOptions site [] data.contract.variantOptions = .ok rows) ↔
      ContractFits site target data := by
  obtain ⟨contract₀, hdata⟩ := hexported.contract
  have hread : ∃ contract,
      data.contract.create site data.organization.orgKey data.contract.columns.slug = .ok contract := by
    rw [hdata]
    exact ⟨_, create_data⟩
  have hvariants : ∀ rows, upsertVariantOptions site [] data.contract.variantOptions = .ok rows ↔
      rows = data.contract.variantOptions.map VariantOption.row ∧
        VariantsFit site data.contract.variantOptions :=
    fun rows => upsertVariantOptions_nil_iff hreturns.variantOptions
  constructor
  · rintro ⟨contract, rows, hcreate, hpage, hrows⟩
    refine ⟨hreturns.sheet, ((hvariants rows).mp hrows).2, fun contract' hcreate' => ?_⟩
    obtain rfl := Except.ok.inj (hcreate.symm.trans hcreate')
    exact hpage
  · intro h
    obtain ⟨contract, hcreate⟩ := hread
    exact ⟨contract, _, hcreate, h.page contract hcreate, (hvariants _).mpr ⟨rfl, h.variantOptions⟩⟩

/-- An import is made of its parts. -/
theorem exists_imported_iff : (∃ inst id, Imported site target data inst id) ↔
    (∃ sso, site.uuid.deserializeTruthy data.organization.ssoOrganizationId = .ok sso ∧
      site.addOrganizationPage target.organizations.values (data.organization.record site sso) = true ∧
      ∀ s, sso = some s → some s ∉ target.organizations.values.map (·.ssoOrganizationId)) ∧
    (∃ inst, (programRequests data.programs).Served site target inst) ∧
    ∃ contract rows,
      data.contract.create site data.organization.orgKey data.contract.columns.slug = .ok contract ∧
      site.addContractPage (contractsOf target.contracts data.organization.orgKey) contract = true ∧
      upsertVariantOptions site [] data.contract.variantOptions = .ok rows := by
  constructor
  · rintro ⟨inst, id, ⟨⟨sso, horg⟩, hserved, ⟨contract, rows, hcontract⟩, -⟩⟩
    exact ⟨⟨sso, horg.read, horg.page, horg.unique⟩, ⟨_, hserved⟩,
      contract, rows, hcontract.create, hcontract.page, hcontract.variantOptions⟩
  · rintro ⟨⟨sso, hread, hpage, hunique⟩, ⟨inst, hserved⟩, contract, rows, hcreate, hcontractPage, hrows⟩
    refine ⟨{ inst with
      organizations := target.organizations.set data.organization.orgKey (data.organization.record site sso)
      contracts := (target.contracts.create contract).set target.contracts.nextKey
        { contract with variantOptions := rows, programs := data.programs.foldl linkProgram .empty } },
      target.contracts.nextKey, ?_⟩
    refine ⟨⟨sso, hread, hpage, hunique, rfl⟩, ?_, ⟨contract, rows, hcreate, hcontractPage, hrows, rfl⟩, rfl⟩
    exact ⟨hserved.departments, hserved.enrollmentModes, hserved.courses, hserved.courseRuns,
      hserved.programs, rfl, rfl⟩

end Tables

/-! ## The round trip -/

section RoundTrip

variable {site : Site} {source target inst : Instance} {data : ContractPayload} {k id : ContractId}

/-- An import that raises nothing undoes the export exactly if the payload comes back and the courses were
required. -/
theorem undone_iff (hexported : data.Exported site source) (hlacks : target.Lacks data)
    (hlinked : target.RunsLinked) : ImportUndoesExport site source target data ↔
      (∃ inst id, Imported site target data inst id) ∧ data.Returns ∧
        ∀ p ∈ data.programs, ∀ course type, source.Classifies p.readableId course type ↔
          course ∈ p.courses.map (·.readableId) ∧ type = .required := by
  have hrun : ∀ {inst : Instance} {id : ContractId},
      target.handleImport site data [] = .ok (inst, id) ↔ Imported site target data inst id := by
    intro inst id
    rw [handleImport_ok_iff, and_iff_right hexported.version, runImportTransaction_ok_iff hlacks]
  constructor
  · rintro ⟨inst, id, himport, hexport, hclasses, -⟩
    have himported := hrun.mp himport
    refine ⟨⟨inst, id, himported⟩, ?_, fun p hp course type => ?_⟩
    · exact (handleExport_imported_iff hexported hlacks hlinked himported).mp hexport
    · rw [← hclasses p hp course type]
      exact classifies_imported_iff hexported hlacks himported hp
  · rintro ⟨⟨inst, id, himported⟩, hreturns, hrequired⟩
    refine ⟨inst, id, hrun.mpr himported, ?_, fun p hp course type => ?_, ?_⟩
    · exact (handleExport_imported_iff hexported hlacks hlinked himported).mpr hreturns
    · rw [hrequired p hp course type]
      exact classifies_imported_iff hexported hlacks himported hp
    · exact handleImport_ok_iff.mpr
        ⟨hexported.version, runImportTransaction_again hexported hlacks himported⟩

/-- What is transferable has nothing twice and has a sheet. -/
theorem Transferable.returns (h : Transferable site source target data) : data.Returns := by
  refine ⟨fun p hp => ⟨(h.programs p hp).once, fun c hc => ?_⟩, h.contract.sheet,
    h.contract.variantOptions.different⟩
  exact (h.courses c (List.mem_flatMap.mpr ⟨p, hp, hc⟩)).variantOptions.different

/-- The import of an exported contract undoes the export exactly if the contract is transferable. -/
theorem importUndoesExport_iff (hexport : source.handleExport site k = some data)
    (hlacks : target.Lacks data) (hlinked : target.RunsLinked) :
    ImportUndoesExport site source target data ↔ Transferable site source target data := by
  have hexported := handleExport_exported hexport
  rw [undone_iff hexported hlacks hlinked, exists_imported_iff, organizationFits_iff hexported]
  constructor
  · rintro ⟨⟨horganization, hserved, hcontract⟩, hreturns, hrequired⟩
    obtain ⟨hdepartments, ⟨hcourses, hcoursePages⟩, hprograms, hprogramPages⟩ :=
      (payload_served_iff hexported hlacks hlinked hreturns).mp hserved
    refine ⟨horganization, (contractFits_iff hexported hreturns).mp hcontract, hdepartments, fun p hp => ?_,
      hcourses, hprogramPages, hcoursePages⟩
    exact ⟨(hreturns.programs p hp).1, hprograms p hp, hrequired p hp⟩
  · intro h
    have hreturns := h.returns
    refine ⟨⟨h.organization, ?_, (contractFits_iff hexported hreturns).mpr h.contract⟩, hreturns,
      fun p hp => (h.programs p hp).required⟩
    refine (payload_served_iff hexported hlacks hlinked hreturns).mpr
      ⟨h.departments, ⟨h.courses, h.coursePages⟩, fun p hp => ?_, h.programPages⟩
    exact (h.programs p hp).room

end RoundTrip

/-! ## A contract with one course

The payload of a program does not say of its courses whether they are electives, so it is the same for an
elective course as for a required one. -/

section Sample

variable {α : Type} {e : α ≃ ℕ}

def readDigitsOf (e : α ≃ ℕ) (text : Text) : Option α :=
  if text = [] then none else some (e.symm (Nat.ofDigitChars 10 text 0))

theorem readDigitsOf_toDigits (a : α) : readDigitsOf e (Nat.toDigits 10 (e a)) = some a := by
  unfold readDigitsOf
  rw [if_neg Nat.toDigits_ne_nil, Nat.ofDigitChars_ten_toDigits, Equiv.symm_apply_apply]

theorem readDigitsOf_nil : readDigitsOf e [] = none := if_pos rfl

/-- Values as decimal numerals. -/
def numeralField (e : α ≃ ℕ) : FieldText α :=
  ⟨fun a => Nat.toDigits 10 (e a), readDigitsOf e, readDigitsOf_toDigits, readDigitsOf_nil⟩

def decimalUnits : Decimal 2 ≃ ℤ where
  toFun d := d.units
  invFun units := ⟨units⟩
  left_inv := congrFun rfl
  right_inv := congrFun rfl

def plainSite : Site where
  slugify text := (text.map Char.toLower).filter fun c => c.isAlphanum || c == '-' || c == '_'
  languagesLookup language := language == "en"
  dateTime := numeralField Equiv.intEquivNat
  date := numeralField Equiv.intEquivNat
  decimal := numeralField (decimalUnits.trans Equiv.intEquivNat)
  uuid := numeralField (Equiv.refl ℕ)
  addCoursePage _ page := some page.slug
  addProgramPage _ page := some page.slug
  addOrganizationPage _ _ := true
  addContractPage _ _ := true

def sampleProgramId : Text := "program-v1:MITx+SDS".toList

def sampleCourseId : Text := "course-v1:MITx+6.00x".toList

def sampleOptions : VariantOptions := ⟨"en".toList, [], []⟩

def sampleRunColumns : RunColumns where
  runTag := "SOURCE".toList
  title := "Source".toList
  isSourceRun := true
  isPrimaryLanguage := true
  options := sampleOptions
  live := true
  isSelfPaced := false
  hasCoursewareUrl := true

def noDates {δ : Type} : DateColumns δ := ⟨none, none, none, none⟩

def sampleContractColumns : ContractColumns where
  name := "Pilot".toList
  slug := "pilot".toList
  description := []
  welcomeMessage := []
  welcomeMessageExtra := []
  membershipType := "managed".toList
  active := true
  maxLearners := some 0
  googleSheetTargetTab := []

/-- The requirements that `add_elective` or `add_requirement` builds. -/
def sampleRequirements (elective : Bool) : NamedRequirements :=
  let operator : NamedFields :=
    if elective = true then ⟨.operator .minNumberOf (some "1"), some "Elective Courses", some true⟩
    else ⟨.operator .allOf none, some "Required Courses", some false⟩
  [.node operator [.node ⟨.course sampleCourseId, some "", some false⟩ []]]

def sampleContract : ContractRecord where
  organization := "UAI_ACME".toList
  columns := sampleContractColumns
  contractStart := none
  contractEnd := none
  enrollmentFixedPrice := none
  googleSheetTarget := some []
  variantOptions := []
  programs := Dict.empty.set sampleProgramId (some 0)

def noContracts : Table ContractRecord := ⟨[], fun _ => sampleContract, Table.sorted_nil⟩

/-- An instance with the contract and everything that it is made from. -/
def sampleSource (elective : Bool) : Instance where
  departments := Dict.empty.set "Math".toList "math".toList
  enrollmentModes := OrderedSet.empty.add "audit".toList
  courses := Dict.empty.set sampleCourseId
    ⟨"Intro".toList, true, OrderedSet.empty.add "Math".toList, none, [⟨⟨sampleOptions, true, true⟩, false⟩]⟩
  courseRuns := Dict.empty.set "course-v1:MITx+6.00x+SOURCE".toList
    ⟨sampleCourseId, sampleRunColumns, noDates, none, OrderedSet.empty.add "audit".toList⟩
  programs := Dict.empty.set sampleProgramId
    ⟨"SDS".toList, true, .empty, none, sampleRequirements elective⟩
  organizations := Dict.empty.set "UAI_ACME".toList ⟨"Acme".toList, "UAI_".toList, none, "org-acme".toList⟩
  contracts := noContracts.create sampleContract

def noObjects : Instance where
  departments := .empty
  enrollmentModes := .empty
  courses := .empty
  courseRuns := .empty
  programs := .empty
  organizations := .empty
  contracts := noContracts

def sampleCourseData : CourseData where
  readableId := sampleCourseId
  title := "Intro".toList
  departments := ["Math".toList]
  variantOptions := [⟨sampleOptions, false, true⟩]
  sourceRuns := [⟨"course-v1:MITx+6.00x+SOURCE".toList, sampleRunColumns, noDates, ["audit".toList]⟩]

def samplePayload : ContractPayload where
  version := 1
  sourceContractSlug := "pilot".toList
  organization := ⟨"Acme".toList, "UAI_ACME".toList, "UAI_".toList, none⟩
  contract := ⟨sampleContractColumns, none, none, none, some [], []⟩
  programs := [⟨sampleProgramId, "SDS".toList, some 0, [], [sampleCourseData]⟩]

/-- The payload does not say whether the course is an elective. -/
theorem sampleSource_handleExport (elective : Bool) :
    (sampleSource elective).handleExport plainSite 1 = some samplePayload := by
  have hitems : sampleContract.programItems = [(sampleProgramId, some 0)] := List.mergeSort_singleton _
  have hprogram : (sampleSource elective).programData plainSite (sampleProgramId, some 0) =
      some ⟨sampleProgramId, "SDS".toList, some 0, [], [sampleCourseData]⟩ := by
    cases elective <;> decide +kernel
  have hprograms : sampleContract.programItems.mapM ((sampleSource elective).programData plainSite) =
      some samplePayload.programs := by
    rw [mapM_eq_some_iff, hitems, List.map_singleton, hprogram]
    rfl
  unfold Instance.handleExport
  rw [if_pos (show 1 ∈ (sampleSource elective).contracts.keys from List.mem_cons_self)]
  dsimp only
  rw [show (sampleSource elective).contracts.row 1 = sampleContract from rfl, hprograms]
  rfl

theorem sampleSource_classifies {elective : Bool} {course : Text} {type : RequirementType} :
    (sampleSource elective).Classifies sampleProgramId course type ↔
      course = sampleCourseId ∧ type = .ofFlag elective := by
  have hclasses : (sampleRequirements elective).courseClasses =
      [(sampleCourseId, RequirementType.ofFlag elective)] := by
    cases elective <;> rfl
  have hget : (sampleSource elective).programs.get sampleProgramId =
      some ⟨"SDS".toList, true, .empty, none, sampleRequirements elective⟩ := Dict.get_set_self
  unfold Instance.Classifies
  rw [hget]
  simp only [Option.some.injEq, exists_eq_left', hclasses, List.mem_singleton, Prod.mk.injEq]

theorem noObjects_lacks : noObjects.Lacks samplePayload where
  organization := List.not_mem_nil
  contract _ hid := absurd hid List.not_mem_nil
  programs _ _ := List.not_mem_nil
  courses _ _ := List.not_mem_nil
  sourceRuns _ _ _ _ := List.not_mem_nil

theorem noObjects_linked : noObjects.RunsLinked := fun _ hrun => absurd hrun List.not_mem_nil

/-- An elective course is required after the import. -/
theorem electiveCourse_not_undone :
    ¬ ∀ (site : Site) (source target : Instance) (k : ContractId) (data : ContractPayload),
      source.handleExport site k = some data → target.Lacks data → target.RunsLinked →
        ImportUndoesExport site source target data := by
  intro h
  have hexport := sampleSource_handleExport true
  have hundone := h plainSite (sampleSource true) noObjects 1 samplePayload hexport noObjects_lacks noObjects_linked
  obtain ⟨-, -, hrequired⟩ :=
    (undone_iff (handleExport_exported hexport) noObjects_lacks noObjects_linked).mp hundone
  have helective : (sampleSource true).Classifies sampleProgramId sampleCourseId .elective :=
    sampleSource_classifies.mpr ⟨rfl, rfl⟩
  have htype := (hrequired _ List.mem_cons_self sampleCourseId .elective).mp helective
  cases htype.2

theorem sampleVariants_fit : VariantsFit plainSite sampleCourseData.variantOptions where
  different := List.nodup_singleton _
  languages vd hvd := by
    obtain rfl := List.mem_singleton.mp hvd
    rfl
  notB2b vd hvd _ := by
    obtain rfl := List.mem_singleton.mp hvd
    rfl
  oneDefault := List.pairwise_singleton _ _

theorem sampleCourse_fits : CourseFits plainSite sampleCourseData where
  variantOptions := sampleVariants_fit
  sourceRuns :=
    { languages := fun rd hrd => by
        obtain rfl := List.mem_singleton.mp hrd
        rfl
      slots := List.pairwise_singleton _ _ }

theorem sampleSource_transferable : Transferable plainSite (sampleSource false) noObjects samplePayload where
  organization := ⟨fun _ _ => rfl, fun _ _ => List.not_mem_nil⟩
  contract :=
    { sheet := Option.some_ne_none []
      variantOptions := ⟨List.nodup_nil, by simp [samplePayload], by simp [samplePayload], List.Pairwise.nil⟩
      page := fun _ _ => rfl }
  departments :=
    { fresh := fun _ _ _ => List.not_mem_nil
      different := fun name hname name' hname' _ _ hne => by
        exact absurd ((List.mem_singleton.mp hname).trans (List.mem_singleton.mp hname').symm) hne }
  programs p hp := by
    obtain rfl := List.mem_singleton.mp hp
    refine ⟨List.nodup_singleton _, Nat.le_of_ble_eq_true rfl, fun course type => ?_⟩
    rw [sampleSource_classifies]
    exact and_congr_left fun _ => List.mem_singleton.symm
  courses c hc := by
    obtain rfl := List.mem_singleton.mp hc
    exact sampleCourse_fits
  programPages := rfl
  coursePages := rfl

/-- A required course is so again. -/
theorem requiredCourse_undone : (sampleSource false).handleExport plainSite 1 = some samplePayload ∧
    ImportUndoesExport plainSite (sampleSource false) noObjects samplePayload :=
  ⟨sampleSource_handleExport false, (importUndoesExport_iff (sampleSource_handleExport false)
    noObjects_lacks noObjects_linked).mpr sampleSource_transferable⟩

end Sample

end MitxOnline

import MitxOnline.B2b.SourceRuns
import MitxOnline.Courses.RequirementEdits
import MitxOnline.Courses.RunDates
import MitxOnline.Lib.Upserts

/-!
# Contracts that move to another instance (`b2b/management/commands/b2b_contract.py`)

A contract is exported with its organization and with the programs, courses and source runs that it is made
from, and imported into another instance, where the rows that are not there yet are created. Rows of
different instances are told apart by what the payload has of them: courses and programs by their readable
ids, runs by their courseware ids, departments by their names. A query without an order lists its rows as
they were created.
-/

namespace MitxOnline

open FixedPoint Nullable Paths Upserts
open Paths.PathMap (nodes)

/-! ## Rows -/

/-- A page of the CMS: the columns that are set when it is created. -/
structure WagtailPage where
  title : Text
  slug : Text
  live : Bool
  deriving DecidableEq

/-- A row of `SupportedVariant`. -/
structure StoredVariant extends SupportedVariant where
  b2bOnly : Bool
  deriving DecidableEq

/-- A row of `Course` with its page, its departments and its `possible_variant_sets`. -/
structure CourseRecord where
  title : Text
  live : Bool
  departments : OrderedSet Text
  page : Option WagtailPage
  variantOptions : List StoredVariant
  deriving DecidableEq

/-- The columns of `CourseRun` that go into the payload as they are. -/
structure RunColumns where
  runTag : Text
  title : Text
  isSourceRun : Bool
  isPrimaryLanguage : Bool
  options : VariantOptions
  live : Bool
  isSelfPaced : Bool
  hasCoursewareUrl : Bool
  deriving DecidableEq

/-- The dates of a run, as instants or as text. -/
structure DateColumns (δ : Type) where
  startDate : Option δ
  endDate : Option δ
  enrollmentStart : Option δ
  enrollmentEnd : Option δ
  deriving DecidableEq

/-- A row of `CourseRun` with its enrollment modes. -/
structure RunRecord where
  course : Text
  columns : RunColumns
  dates : DateColumns Instant
  b2bContract : Option ContractId
  enrollmentModes : OrderedSet Text
  deriving DecidableEq

/-- What a row of `ProgramRequirement` below the root stands for. -/
inductive NamedNode where
  | operator (operator : Operator) (operatorValue : Option String)
  | course (readableId : Text)
  | program (readableId : Text)
  deriving DecidableEq

/-- A row of `ProgramRequirement` below the root. -/
structure NamedFields where
  node : NamedNode
  title : Option String
  electiveFlag : Option Bool
  deriving DecidableEq

/-- The rows below the root of a requirements tree. The steps of siblings are their places. -/
abbrev NamedRequirements := List (PathTree NamedFields)

/-- A row of `Program` with its page, its departments and its requirements. The root of the requirements is
created with the program. -/
structure ProgramRecord where
  title : Text
  live : Bool
  departments : OrderedSet Text
  page : Option WagtailPage
  requirements : NamedRequirements

/-- A row of `OrganizationPage`. -/
structure OrganizationRecord where
  name : Text
  orgKeyPrefix : Text
  ssoOrganizationId : Option ℕ
  slug : Text
  deriving DecidableEq

/-- The columns of `ContractPage` that go into the payload as they are. -/
structure ContractColumns where
  name : Text
  slug : Text
  description : Text
  welcomeMessage : Text
  welcomeMessageExtra : Text
  membershipType : Text
  active : Bool
  maxLearners : Option ℕ
  googleSheetTargetTab : Text
  deriving DecidableEq

/-- A row of `ContractPage` with its variant options and its `contract_programs`, which say for each program
its `sort_order`. -/
structure ContractRecord where
  organization : Text
  columns : ContractColumns
  contractStart : Option Day
  contractEnd : Option Day
  enrollmentFixedPrice : Option (Decimal 2)
  googleSheetTarget : Option Text
  variantOptions : List StoredVariant
  programs : Dict Text (Option ℤ)

/-- An instance. Departments are stored with their slugs. -/
@[ext] structure Instance where
  departments : Dict Text Text
  enrollmentModes : OrderedSet Text
  courses : Dict Text CourseRecord
  courseRuns : Dict Text RunRecord
  programs : Dict Text ProgramRecord
  organizations : Dict Text OrganizationRecord
  contracts : Table ContractRecord

/-! ## The site -/

/-- How a column is written as text and how the text is read; every value is read back. -/
structure FieldText (α : Type) where
  text : α → Text
  read : Text → Option α
  read_text : ∀ a, read (text a) = some a
  read_nil : read [] = none

/-- What the libraries do. `add_child` takes a page or refuses it, by the pages that are there already, and
gives a course page or a program page its slug. -/
structure Site where
  slugify : Text → Text
  languagesLookup : String → Bool
  dateTime : FieldText Instant
  date : FieldText Day
  decimal : FieldText (Decimal 2)
  uuid : FieldText ℕ
  addCoursePage : List WagtailPage → WagtailPage → Option Text
  addProgramPage : List WagtailPage → WagtailPage → Option Text
  addOrganizationPage : List OrganizationRecord → OrganizationRecord → Bool
  addContractPage : List ContractRecord → ContractRecord → Bool

/-! ## The payload -/

structure VariantOption where
  options : VariantOptions
  b2bOnly : Bool
  defaultVariant : Bool
  deriving DecidableEq

structure RunData where
  coursewareId : Text
  columns : RunColumns
  dates : DateColumns Text
  enrollmentModes : List Text
  deriving DecidableEq

structure CourseData where
  readableId : Text
  title : Text
  departments : List Text
  variantOptions : List VariantOption
  sourceRuns : List RunData
  deriving DecidableEq

structure ProgramData where
  readableId : Text
  title : Text
  sortOrder : Option ℤ
  departments : List Text
  courses : List CourseData
  deriving DecidableEq

structure OrganizationData where
  name : Text
  orgKey : Text
  orgKeyPrefix : Text
  ssoOrganizationId : Option Text
  deriving DecidableEq

structure ContractData where
  columns : ContractColumns
  contractStart : Option Text
  contractEnd : Option Text
  enrollmentFixedPrice : Option Text
  googleSheetTarget : Option Text
  variantOptions : List VariantOption
  deriving DecidableEq

/-- The payload, without the keys that say when it was made and from which row. -/
structure ContractPayload where
  version : ℕ
  sourceContractSlug : Text
  organization : OrganizationData
  contract : ContractData
  programs : List ProgramData
  deriving DecidableEq

/-! ## Export (`handle_export`) -/

/-- `_serialize_date` and `str`, for a nullable column. -/
def FieldText.serialize {α : Type} (field : FieldText α) (column : Option α) : Option Text :=
  column.map field.text

def DateColumns.serialize (site : Site) (dates : DateColumns Instant) : DateColumns Text where
  startDate := site.dateTime.serialize dates.startDate
  endDate := site.dateTime.serialize dates.endDate
  enrollmentStart := site.dateTime.serialize dates.enrollmentStart
  enrollmentEnd := site.dateTime.serialize dates.enrollmentEnd

/-- `_serialize_run` -/
def serializeRun (site : Site) (coursewareId : Text) (run : RunRecord) (forceIsSourceRun : Bool)
    (languageOverride : Option Text) : RunData where
  coursewareId := coursewareId
  columns := { run.columns with
    isSourceRun := if forceIsSourceRun = true then true else run.columns.isSourceRun
    options := { run.columns.options with
      language := languageOverride.getD run.columns.options.language } }
  dates := run.dates.serialize site
  enrollmentModes := run.enrollmentModes.elements

/-- `_serialize_variant_options` -/
def serializeVariantOptions (rows : List StoredVariant) : List VariantOption :=
  rows.map fun sv => ⟨sv.options, sv.b2bOnly, sv.defaultVariant⟩

/-- The runs of a course, in the order of their ids. -/
def Instance.runsOf (inst : Instance) (course : Text) : List (Text × RunRecord) :=
  inst.courseRuns.entries.filter fun run => run.2.course == course

/-- `Q(is_source_run=True) | Q(run_tag="SOURCE")` -/
def RunColumns.designated (columns : RunColumns) : Bool :=
  columns.isSourceRun || columns.runTag == "SOURCE".toList

/-- The language that a run is exported with if no run of its course is designated. -/
def effLang (course : CourseRecord) (run : RunRecord) : Text :=
  if run.columns.options.language ≠ [] then run.columns.options.language
  else ((course.variantOptions.find? (·.defaultVariant)).map (·.options.language)).getD []

/-- The key by which the most recent of these runs is chosen. -/
def fallbackKey (course : CourseRecord) (run : Text × RunRecord) : VariantOptions :=
  { run.2.columns.options with language := effLang course run.2 }

/-- `fallback`: the most recent run without a contract for each language and variant. -/
def fallbackRuns (course : CourseRecord) (runs : List (Text × RunRecord)) : List (Text × RunRecord) :=
  firstsBy (fallbackKey course) []
    (runs.filter fun run => run.2.b2bContract.isNone && !run.2.columns.designated).reverse

/-- `source_runs_data` -/
def sourceRunsData (site : Site) (course : CourseRecord) (runs : List (Text × RunRecord)) : List RunData :=
  let designated := runs.filter (·.2.columns.designated)
  if designated ≠ [] then designated.map fun run => serializeRun site run.1 run.2 false none
  else
    (fallbackRuns course runs).map fun run =>
      let effLang := effLang course run.2
      serializeRun site run.1 run.2 true (if effLang ≠ [] then some effLang else none)

/-- The entry of a course. -/
def Instance.courseData (inst : Instance) (site : Site) (readableId : Text) : Option CourseData := do
  let course ← inst.courses.get readableId
  some
    { readableId := readableId
      title := course.title
      departments := course.departments.elements
      variantOptions := serializeVariantOptions course.variantOptions
      sourceRuns := sourceRunsData site course (inst.runsOf readableId) }

def NamedFields.course? (fields : NamedFields) : Option Text :=
  match fields.node with
  | .course readableId => some readableId
  | _ => none

/-- The courses of a program, in the order of the paths. -/
def NamedRequirements.courses (requirements : NamedRequirements) : List Text :=
  (nodes requirements).filterMap NamedFields.course?

/-- The entry of a program. -/
def Instance.programData (inst : Instance) (site : Site) (item : Text × Option ℤ) : Option ProgramData := do
  let program ← inst.programs.get item.1
  let courses ← program.requirements.courses.mapM (inst.courseData site)
  some
    { readableId := item.1
      title := program.title
      sortOrder := item.2
      departments := program.departments.elements
      courses := courses }

/-- `contract_programs.order_by("sort_order")` -/
def ContractRecord.programItems (contract : ContractRecord) : List (Text × Option ℤ) :=
  contract.programs.entries.mergeSort fun a b => decide (NullsLast a.2 b.2)

def ContractRecord.data (contract : ContractRecord) (site : Site) : ContractData where
  columns := contract.columns
  contractStart := site.date.serialize contract.contractStart
  contractEnd := site.date.serialize contract.contractEnd
  enrollmentFixedPrice := site.decimal.serialize contract.enrollmentFixedPrice
  googleSheetTarget := contract.googleSheetTarget
  variantOptions := serializeVariantOptions contract.variantOptions

def OrganizationRecord.data (org : OrganizationRecord) (site : Site) (orgKey : Text) : OrganizationData where
  name := org.name
  orgKey := orgKey
  orgKeyPrefix := org.orgKeyPrefix
  ssoOrganizationId := site.uuid.serialize org.ssoOrganizationId

/-- `handle_export`; there is no payload of a contract that is not found. -/
def Instance.handleExport (inst : Instance) (site : Site) (id : ContractId) : Option ContractPayload :=
  if id ∈ inst.contracts.keys then do
    let contract := inst.contracts.row id
    let org ← inst.organizations.get contract.organization
    let programs ← contract.programItems.mapM (inst.programData site)
    some
      { version := 1
        sourceContractSlug := contract.columns.slug
        organization := org.data site contract.organization
        contract := contract.data site
        programs := programs }
  else none

/-! ## Import: pages, departments and variant options -/

/-- A value of the payload for a nullable column. -/
def FieldText.deserialize {α : Type} (field : FieldText α) : Option Text → Except Error (Option α)
  | none => .ok none
  | some text =>
    match field.read text with
    | some a => .ok (some a)
    | none => .error (.validationError "Enter a valid value.")

/-- A value of the payload that is only read if it is truthy. -/
def FieldText.deserializeTruthy {α : Type} (field : FieldText α) (text : Option Text) :
    Except Error (Option α) :=
  if text = some [] then .ok none else field.deserialize text

/-- The page that `create_default_courseware_page` asks for. -/
def defaultCoursewarePage (site : Site) (readableId title : Text) : WagtailPage :=
  ⟨title, site.slugify readableId, true⟩

/-- `_ensure_courseware_page` with `create_default_courseware_page(courseware, live=True)` -/
def ensureCoursewarePage (site : Site) (addPage : List WagtailPage → WagtailPage → Option Text)
    (siblings : List WagtailPage) (readableId title : Text) (page : Option WagtailPage) :
    Except Error WagtailPage :=
  match page with
  | some page => .ok { page with live := true }
  | none =>
    let page := defaultCoursewarePage site readableId title
    match addPage siblings page with
    | some slug => .ok { page with slug := slug }
    | none => .error (.validationError "The page is not valid.")

/-- `Department.objects.get_or_create` -/
def getOrCreateDepartment (site : Site) (departments : Dict Text Text) (name : Text) :
    Except Error (Dict Text Text) :=
  match departments.get name with
  | some _ => .ok departments
  | none =>
    let slug := site.slugify name
    if departments.values.contains slug = true then .error .integrityError else .ok (departments.set name slug)

/-- `clean_language`, and the constraints of `SupportedVariant` beside the other options of the object. -/
def checkVariant (site : Site) (rows : List StoredVariant) (row : StoredVariant) : Except Error Unit := do
  cleanLanguage site.languagesLookup (String.ofList row.options.language)
  if row.defaultVariant = true ∧ (row.b2bOnly = true ∨ rows.any (·.defaultVariant) = true) then
    .error .integrityError
  else .ok ()

/-- One round of `_upsert_variant_options`. -/
def upsertVariantOption (site : Site) (rows : List StoredVariant) (vd : VariantOption) :
    Except Error (List StoredVariant) :=
  match rows.filter (·.options == vd.options) with
  | [] => do
    let row : StoredVariant := ⟨⟨vd.options, true, vd.defaultVariant⟩, vd.b2bOnly⟩
    checkVariant site rows row
    .ok (rows ++ [row])
  | [_] => .ok rows
  | _ => .error .multipleObjectsReturned

/-- `_upsert_variant_options` -/
def upsertVariantOptions (site : Site) (rows : List StoredVariant) (data : List VariantOption) :
    Except Error (List StoredVariant) := data.foldlM (upsertVariantOption site) rows

/-! ## Import: source runs -/

/-- What the constraints on groups of runs look at. -/
structure RunSlot where
  course : Text
  columns : RunColumns
  b2bContract : Option ContractId

def RunRecord.slot (run : RunRecord) : RunSlot := ⟨run.course, run.columns, run.b2bContract⟩

/-- `unique_primary_language_per_group` -/
def primaryLanguageSlots : UniqueConstraint RunSlot (Text × Text × Bool × Option ContractId) where
  condition slot := slot.columns.isPrimaryLanguage
  fields slot := (slot.course, slot.columns.runTag, slot.columns.isSourceRun, slot.b2bContract)

/-- `unique_language_per_group` -/
def languageSlots : UniqueConstraint RunSlot (Text × Text × VariantOptions × Bool × Option ContractId) where
  condition slot := slot.columns.options.language != []
  fields slot :=
    (slot.course, slot.columns.runTag, slot.columns.options, slot.columns.isSourceRun, slot.b2bContract)

/-- Two runs that the constraints do not let stand beside each other. -/
def RunSlot.clash (a b : RunSlot) : Bool := primaryLanguageSlots.clash a b || languageSlots.clash a b

/-- Save a run: `clean_language`, and the constraints beside the other runs. -/
def saveRun (site : Site) (runs : Dict Text RunRecord) (coursewareId : Text) (run : RunRecord) :
    Except Error (Dict Text RunRecord) := do
  cleanLanguage site.languagesLookup (String.ofList run.columns.options.language)
  if (runs.entries.any fun other => other.1 != coursewareId && other.2.slot.clash run.slot) = true then
    .error .integrityError
  else .ok (runs.set coursewareId run)

def DateColumns.deserialize (site : Site) (dates : DateColumns Text) :
    Except Error (DateColumns Instant) := do
  let startDate ← site.dateTime.deserialize dates.startDate
  let endDate ← site.dateTime.deserialize dates.endDate
  let enrollmentStart ← site.dateTime.deserialize dates.enrollmentStart
  let enrollmentEnd ← site.dateTime.deserialize dates.enrollmentEnd
  .ok ⟨startDate, endDate, enrollmentStart, enrollmentEnd⟩

/-- Find the run, flagging it as a source run where the payload does, or create it. -/
def getOrCreateRun (site : Site) (course : Text) (runs : Dict Text RunRecord) (rd : RunData) :
    Except Error (Dict Text RunRecord) :=
  match runs.get rd.coursewareId with
  | none => do
    let dates ← rd.dates.deserialize site
    saveRun site runs rd.coursewareId ⟨course, rd.columns, dates, none, .empty⟩
  | some run =>
    if rd.columns.isSourceRun = true ∧ run.columns.isSourceRun = false then
      saveRun site runs rd.coursewareId
        { run with columns := { run.columns with isSourceRun := true, options := rd.columns.options } }
    else .ok runs

/-- `run.enrollment_modes.add(mode)` for the modes of the payload. -/
def addEnrollmentModes (runs : Dict Text RunRecord) (rd : RunData) : Dict Text RunRecord :=
  match runs.get rd.coursewareId with
  | none => runs
  | some run =>
    runs.set rd.coursewareId { run with enrollmentModes := run.enrollmentModes.addAll rd.enrollmentModes }

/-- One round of `_import_source_runs`, on the runs. -/
def importSourceRun (site : Site) (course : Text) (runs : Dict Text RunRecord) (rd : RunData) :
    Except Error (Dict Text RunRecord) := do
  let runs ← getOrCreateRun site course runs rd
  .ok (addEnrollmentModes runs rd)

/-! ## Import: courses

The rows that an import writes are read by no other part of it, so a row is written back when the import is
done with it. -/

/-- `Course.objects.get_or_create`: it forces an insert, so that nothing is validated. -/
def getOrCreateCourse (courses : Dict Text CourseRecord) (readableId title : Text) : CourseRecord :=
  (courses.get readableId).getD ⟨title, true, .empty, none, []⟩

/-- The pages below the index page of the courses. -/
def coursePages (courses : Dict Text CourseRecord) : List WagtailPage := courses.values.filterMap (·.page)

/-- `_import_course` -/
def Instance.importCourse (site : Site) (inst : Instance) (data : CourseData) : Except Error Instance := do
  let course := getOrCreateCourse inst.courses data.readableId data.title
  let departments ← data.departments.foldlM (getOrCreateDepartment site) inst.departments
  let page ← ensureCoursewarePage site site.addCoursePage (coursePages inst.courses) data.readableId
    course.title course.page
  let courseRuns ← data.sourceRuns.foldlM (importSourceRun site data.readableId) inst.courseRuns
  let variantOptions ← upsertVariantOptions site course.variantOptions data.variantOptions
  let course := { course with
    departments := course.departments.addAll data.departments
    page := some page
    variantOptions := variantOptions }
  .ok
    { inst with
      departments := departments
      enrollmentModes := inst.enrollmentModes.addAll (data.sourceRuns.flatMap (·.enrollmentModes))
      courses := inst.courses.set data.readableId course
      courseRuns := courseRuns }

/-! ## Import: programs -/

def NamedFields.isAllOf (fields : NamedFields) : Bool :=
  match fields.node with
  | .operator operator _ => operator == .allOf
  | _ => false

/-- `node.add_child(course=requirement, ...)` -/
def addCourseTo (course : Text) : PathTree NamedFields → Except Error (PathTree NamedFields)
  | .node fields children =>
    if children.length < maxStep then
      .ok (.node fields (children ++ [.node ⟨.course course, some "", some false⟩ []]))
    else .error .failure

/-- `_add_course_node(Operator.ALL_OF)` and the course below the node; `before` children of the root come
before these. -/
def addBelowAllOf (course : Text) (before : ℕ) : NamedRequirements → Except Error NamedRequirements
  | [] =>
    if before < maxStep then do
      let node ← addCourseTo course (.node ⟨.operator .allOf none, some "Required Courses", some false⟩ [])
      .ok [node]
    else .error .failure
  | top :: rest =>
    if top.value.isAllOf = true then do
      let top ← addCourseTo course top
      .ok (top :: rest)
    else do
      let rest ← addBelowAllOf course (before + 1) rest
      .ok (top :: rest)

/-- `Program.add_requirement` -/
def NamedRequirements.addRequirement (requirements : NamedRequirements) (course : Text) :
    Except Error NamedRequirements :=
  addBelowAllOf course 0 (requirements.filter fun top => top.value.course? != some course)

/-- `Program.objects.get_or_create`: it forces an insert, too. -/
def getOrCreateProgram (programs : Dict Text ProgramRecord) (readableId title : Text) : ProgramRecord :=
  (programs.get readableId).getD ⟨title, true, .empty, none, []⟩

/-- The pages below the index page of the programs. -/
def programPages (programs : Dict Text ProgramRecord) : List WagtailPage := programs.values.filterMap (·.page)

/-- The requirements of a program and `existing_course_ids`, after a course was imported. -/
def requireCourse (state : NamedRequirements × List Text) (course : Text) :
    Except Error (NamedRequirements × List Text) :=
  if state.2.contains course = true then .ok state
  else do
    let requirements ← state.1.addRequirement course
    .ok (requirements, course :: state.2)

/-- One round of the loop over the courses of a program. -/
def Instance.importRequirement (site : Site) (state : Instance × NamedRequirements × List Text)
    (data : CourseData) : Except Error (Instance × NamedRequirements × List Text) := do
  let inst ← state.1.importCourse site data
  let requirements ← requireCourse state.2 data.readableId
  .ok (inst, requirements)

/-- `_import_program` -/
def Instance.importProgram (site : Site) (inst : Instance) (data : ProgramData) : Except Error Instance := do
  let program := getOrCreateProgram inst.programs data.readableId data.title
  let departments ← data.departments.foldlM (getOrCreateDepartment site) inst.departments
  let page ← ensureCoursewarePage site site.addProgramPage (programPages inst.programs) data.readableId
    program.title program.page
  let (inst, requirements, _) ← data.courses.foldlM (Instance.importRequirement site)
    ({ inst with departments := departments }, program.requirements, program.requirements.courses)
  let program := { program with
    departments := program.departments.addAll data.departments
    page := some page
    requirements := requirements }
  .ok { inst with programs := inst.programs.set data.readableId program }

/-! ## Import: organization and contract -/

/-- `_import_organization` -/
def Instance.importOrganization (site : Site) (inst : Instance) (data : OrganizationData) :
    Except Error Instance :=
  match inst.organizations.get data.orgKey with
  | some _ => .ok inst
  | none => do
    let sso ← site.uuid.deserializeTruthy data.ssoOrganizationId
    let org := ⟨data.name, data.orgKeyPrefix, sso, site.slugify ("org-".toList ++ data.name)⟩
    if site.addOrganizationPage inst.organizations.values org = false then
      .error (.validationError "The page is not valid.")
    else if sso ≠ none ∧ sso ∈ inst.organizations.values.map (·.ssoOrganizationId) then
      .error .integrityError
    else .ok { inst with organizations := inst.organizations.set data.orgKey org }

/-- The contract that `_import_contract` creates. -/
def ContractData.create (site : Site) (orgKey slug : Text) (data : ContractData) :
    Except Error ContractRecord := do
  let price ← site.decimal.deserializeTruthy data.enrollmentFixedPrice
  let contractStart ← site.date.deserialize data.contractStart
  let contractEnd ← site.date.deserialize data.contractEnd
  .ok
    { organization := orgKey
      columns := { data.columns with slug := slug }
      contractStart := contractStart
      contractEnd := contractEnd
      enrollmentFixedPrice := price
      googleSheetTarget := some (data.googleSheetTarget.getD [])
      variantOptions := []
      programs := .empty }

/-- The contracts below an organization. -/
def contractsOf (contracts : Table ContractRecord) (orgKey : Text) : List ContractRecord :=
  (contracts.keys.map contracts.row).filter (·.organization == orgKey)

/-- `_import_contract` -/
def Instance.importContract (site : Site) (inst : Instance) (orgKey slug : Text) (data : ContractData) :
    Except Error (Instance × ContractId) :=
  match inst.contracts.first fun _ contract => contract.columns.slug == slug with
  | some id => .ok (inst, id)
  | none => do
    let contract ← data.create site orgKey slug
    if site.addContractPage (contractsOf inst.contracts orgKey) contract = true then
      .ok ({ inst with contracts := inst.contracts.create contract }, inst.contracts.nextKey)
    else .error (.validationError "The page is not valid.")

/-- One round of `_link_programs_skip_runs`. -/
def linkProgram (programs : Dict Text (Option ℤ)) (data : ProgramData) : Dict Text (Option ℤ) :=
  if programs.keys.contains data.readableId = true then programs
  else programs.set data.readableId data.sortOrder

/-- `_run_import_transaction` with `--skip-runs` -/
def Instance.runImportTransaction (site : Site) (inst : Instance) (data : ContractPayload)
    (slugOverride : Text) : Except Error (Instance × ContractId) := do
  let inst ← inst.importOrganization site data.organization
  let inst ← data.programs.foldlM (Instance.importProgram site) inst
  let slug := if slugOverride ≠ [] then slugOverride else data.contract.columns.slug
  let (inst, id) ← inst.importContract site data.organization.orgKey slug data.contract
  let contract := inst.contracts.row id
  let variantOptions ← upsertVariantOptions site contract.variantOptions data.contract.variantOptions
  let contract := { contract with
    variantOptions := variantOptions
    programs := data.programs.foldl linkProgram contract.programs }
  .ok ({ inst with contracts := inst.contracts.set id contract }, id)

/-- The exceptions of `handle_import`. -/
inductive ImportError where
  | commandError (message : String)
  | raised (e : Error)

/-- `handle_import` with `--commit` and `--skip-runs` -/
def Instance.handleImport (site : Site) (inst : Instance) (data : ContractPayload) (slugOverride : Text) :
    Except ImportError (Instance × ContractId) :=
  if data.version ≠ 1 then
    .error (.commandError
      ("Unsupported export format version " ++ toString data.version ++ ", expected 1."))
  else
    match inst.runImportTransaction site data slugOverride with
    | .ok result => .ok result
    | .error e => .error (.raised e)

/-! ## What an import should do -/

/-- The classes of the courses of a program: a course has the class of the row below the root that it is
below, and none if it is such a row itself. -/
def NamedRequirements.courseClasses (requirements : NamedRequirements) : List (Text × RequirementType) :=
  requirements.flatMap fun top =>
    ((nodes top.children).filterMap NamedFields.course?).map fun course =>
      (course, .ofFlag (top.value.electiveFlag == some true))

/-- A course has a class in a program. -/
def Instance.Classifies (inst : Instance) (program course : Text) (type : RequirementType) : Prop :=
  ∃ record, inst.programs.get program = some record ∧ (course, type) ∈ record.requirements.courseClasses

def ContractPayload.courses (data : ContractPayload) : List CourseData := data.programs.flatMap (·.courses)

/-- The departments that the import asks for, in this order. -/
def ContractPayload.departments (data : ContractPayload) : List Text :=
  data.programs.flatMap fun p => p.departments ++ p.courses.flatMap (·.departments)

/-- Every run belongs to a course. -/
def Instance.RunsLinked (inst : Instance) : Prop :=
  ∀ run ∈ inst.courseRuns.entries, run.2.course ∈ inst.courses.keys

/-- The instance has none of the objects of a payload. -/
structure Instance.Lacks (inst : Instance) (data : ContractPayload) : Prop where
  organization : data.organization.orgKey ∉ inst.organizations.keys
  contract : ∀ id ∈ inst.contracts.keys, (inst.contracts.row id).columns.slug ≠ data.contract.columns.slug
  programs : ∀ p ∈ data.programs, p.readableId ∉ inst.programs.keys
  courses : ∀ c ∈ data.courses, c.readableId ∉ inst.courses.keys
  sourceRuns : ∀ c ∈ data.courses, ∀ rd ∈ c.sourceRuns, rd.coursewareId ∉ inst.courseRuns.keys

/-- Importing the payload of a contract raises nothing and makes a contract with the same payload and its
courses in the same classes, and importing it once more changes nothing. -/
def ImportUndoesExport (site : Site) (source target : Instance) (data : ContractPayload) : Prop :=
  ∃ inst id, target.handleImport site data [] = .ok (inst, id) ∧
    inst.handleExport site id = some data ∧
    (∀ p ∈ data.programs, ∀ course type,
      inst.Classifies p.readableId course type ↔ source.Classifies p.readableId course type) ∧
    inst.handleImport site data [] = .ok (inst, id)

/-! ## When it does -/

/-- The variant options are different, and `SupportedVariant` allows them beside each other. -/
structure VariantsFit (site : Site) (data : List VariantOption) : Prop where
  different : (data.map (·.options)).Nodup
  languages : ∀ vd ∈ data, cleanLanguage site.languagesLookup (String.ofList vd.options.language) = .ok ()
  notB2b : ∀ vd ∈ data, vd.defaultVariant = true → vd.b2bOnly = false
  oneDefault : data.Pairwise fun vd vd' => ¬(vd.defaultVariant = true ∧ vd'.defaultVariant = true)

/-- The source runs of a course go together without their contracts. -/
structure RunsFit (site : Site) (course : Text) (data : List RunData) : Prop where
  languages : ∀ rd ∈ data,
    cleanLanguage site.languagesLookup (String.ofList rd.columns.options.language) = .ok ()
  slots : data.Pairwise fun rd rd' =>
    RunSlot.clash ⟨course, rd.columns, none⟩ ⟨course, rd'.columns, none⟩ = false

/-- The rows of the course go together. -/
structure CourseFits (site : Site) (data : CourseData) : Prop where
  variantOptions : VariantsFit site data.variantOptions
  sourceRuns : RunsFit site data.readableId data.sourceRuns

/-- Each course of the program is in it once and as a required course. -/
structure ProgramFits (source : Instance) (data : ProgramData) : Prop where
  once : (data.courses.map (·.readableId)).Nodup
  room : data.courses.length ≤ maxStep
  required : ∀ course type, source.Classifies data.readableId course type ↔
    course ∈ data.courses.map (·.readableId) ∧ type = .required

/-- The pages after one more was added. -/
def placePage (addPage : List WagtailPage → WagtailPage → Option Text) (siblings : List WagtailPage)
    (page : WagtailPage) : Option (List WagtailPage) :=
  (addPage siblings page).map fun slug => siblings ++ [{ page with slug := slug }]

/-- The pages are taken one after the other. -/
def PagesFit (addPage : List WagtailPage → WagtailPage → Option Text) (siblings pages : List WagtailPage) :
    Prop :=
  (pages.foldlM (placePage addPage) siblings).isSome

/-- The departments that are new have new slugs. -/
structure DepartmentsFit (site : Site) (departments : Dict Text Text) (names : List Text) : Prop where
  fresh : ∀ name ∈ names, name ∉ departments.keys → site.slugify name ∉ departments.values
  different : ∀ name ∈ names, ∀ name' ∈ names, name ∉ departments.keys → name' ∉ departments.keys →
    name ≠ name' → site.slugify name ≠ site.slugify name'

/-- The organization of a payload, as the import creates it. -/
structure OrganizationFits (site : Site) (inst : Instance) (data : OrganizationData) : Prop where
  page : ∀ sso, site.uuid.deserializeTruthy data.ssoOrganizationId = .ok sso →
    site.addOrganizationPage inst.organizations.values
      ⟨data.name, data.orgKeyPrefix, sso, site.slugify ("org-".toList ++ data.name)⟩ = true
  sso : ∀ sso, site.uuid.deserializeTruthy data.ssoOrganizationId = .ok (some sso) →
    some sso ∉ inst.organizations.values.map (·.ssoOrganizationId)

/-- The contract of a payload has a sheet, be it the empty text, and can be created. -/
structure ContractFits (site : Site) (inst : Instance) (data : ContractPayload) : Prop where
  sheet : data.contract.googleSheetTarget ≠ none
  variantOptions : VariantsFit site data.contract.variantOptions
  page : ∀ contract, data.contract.create site data.organization.orgKey data.contract.columns.slug =
    .ok contract → site.addContractPage (contractsOf inst.contracts data.organization.orgKey) contract = true

/-- What there is to say against an import, is not the case. -/
structure Transferable (site : Site) (source target : Instance) (data : ContractPayload) : Prop where
  organization : OrganizationFits site target data.organization
  contract : ContractFits site target data
  departments : DepartmentsFit site target.departments data.departments
  programs : ∀ p ∈ data.programs, ProgramFits source p
  courses : ∀ c ∈ data.courses, CourseFits site c
  programPages : PagesFit site.addProgramPage (programPages target.programs)
    (data.programs.map fun p => defaultCoursewarePage site p.readableId p.title)
  coursePages : PagesFit site.addCoursePage (coursePages target.courses)
    ((firstsBy (·.readableId) [] data.courses).map fun c => defaultCoursewarePage site c.readableId c.title)

end MitxOnline

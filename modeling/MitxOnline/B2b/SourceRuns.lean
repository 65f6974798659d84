import MitxOnline.B2b.ContractProducts

/-!
# Source runs and the contract runs made from them (`b2b/api.py`)

A course has source runs in several languages and variants. For a contract the wanted ones are selected,
and a run and a product are made from each of them, one after the other and outside a transaction.
-/

namespace MitxOnline

open Autocommit FixedPoint

/-- `VariantOptionsModel` -/
structure VariantOptions where
  language : Text
  variantLength : Text
  variantIndustry : Text
  deriving DecidableEq

structure SupportedVariant where
  options : VariantOptions
  active : Bool
  defaultVariant : Bool
  deriving DecidableEq

/-- A course with its `possible_variant_sets` and what it prints as. -/
structure VariantCourse where
  id : CourseId
  text : Text
  variants : List SupportedVariant

/-- `Course.default_variant_options` -/
def VariantCourse.defaultVariantOptions (course : VariantCourse) : Option SupportedVariant :=
  course.variants.find? (·.defaultVariant)

def GroupedRun.options (run : GroupedRun) : VariantOptions :=
  ⟨run.language, run.variantLength, run.variantIndustry⟩

/-- The exceptions of making contract runs. -/
inductive ContractRunError where
  | sourceCourseIncomplete (message : Text)
  | indexError
  | raised (e : Error)
  deriving DecidableEq

/-! ## `_get_source_runs_for_course` -/

/-- The keyword arguments. A text or a list that is not given is empty. -/
structure SourceRunOptions where
  requireDesignated : Bool
  ignoreLangs : Bool
  onlyLang : Text
  filterVariants : List VariantOptions
  noVariants : Bool

/-- `course_variants` after its filters. -/
def courseVariants (course : VariantCourse) (o : SourceRunOptions) : List VariantOptions :=
  let active := (course.variants.filter (·.active)).map (·.options)
  let filtered := if o.filterVariants ≠ [] then active.filter o.filterVariants.contains else active
  if o.onlyLang ≠ [] then filtered.filter (·.language == o.onlyLang) else filtered

/-- The filter of a course without variants. -/
def isLegacySource (run : GroupedRun) : Bool :=
  run.language == [] || run.language == "en".toList || run.isPrimaryLanguage

/-- The filter that is put on the source runs. -/
def sourceRunFilter (course : VariantCourse) (o : SourceRunOptions) :
    Except ContractRunError (GroupedRun → Bool) :=
  match course.defaultVariantOptions with
  | none => .ok isLegacySource
  | some default =>
    if o.ignoreLangs = true then .ok isLegacySource
    else if o.noVariants = true then .ok fun run => run.options == default.options
    else
      match courseVariants course o with
      | [] => .error .indexError
      | first :: rest => .ok fun run => run.options == first || rest.any (run.options == ·)

/-- The runs of a course that are flagged or tagged as source runs. -/
def CourseRuns.sourceRuns (runs : CourseRuns) (c : CourseId) : List RunId :=
  runs.table.keys.filter fun r =>
    (runs.row r).course == c && ((runs.row r).isSourceRun || (runs.row r).runTag == "SOURCE".toList)

/-- The newest run of a course that belongs to no contract. -/
def CourseRuns.fallback (runs : CourseRuns) (c : CourseId) : Option RunId :=
  (runs.table.keys.filter fun r => (runs.row r).course == c && (runs.row r).b2bContract == none).getLast?

/-- The order in which the database lists the rows that a query selects. -/
structure QueryOrder where
  order : List RunId → List RunId
  perm : ∀ rs, (order rs).Perm rs

/-- What is returned: the runs that a query selects, or one run. -/
inductive SourceRuns where
  | collection (runs : List RunId)
  | single (run : RunId)
  deriving DecidableEq

def noCourseRuns (course : VariantCourse) : Text :=
  "No course runs available for ".toList ++ course.text ++ ".".toList

def noSourceRun (course : VariantCourse) : Text :=
  "No source run found for ".toList ++ course.text ++ ".".toList

/-- `_get_source_runs_for_course` -/
def getSourceRunsForCourse (queryOrder : QueryOrder) (course : VariantCourse) (o : SourceRunOptions)
    (runs : CourseRuns) : Except ContractRunError SourceRuns :=
  match sourceRunFilter course o with
  | .error e => .error e
  | .ok wanted =>
    let sourceRuns := (runs.sourceRuns course.id).filter fun r => wanted (runs.row r)
    if sourceRuns.length = 0 then
      if o.requireDesignated = false then
        match runs.fallback course.id with
        | none => .error (.sourceCourseIncomplete (noCourseRuns course))
        | some fallback => .ok (.single fallback)
      else .error (.sourceCourseIncomplete (noSourceRun course))
    else .ok (.collection (queryOrder.order sourceRuns))

/-! ## `create_contract_run` -/

/-- What keys, the database and the language list do: how course keys are read, the order of the column of
course keys, and the languages that `clean_language` lets pass. -/
structure RunEnvironment where
  fromString : Text → Except Error CourseKey
  before : Text → Text → Bool
  validLanguage : Text → Bool
  queryOrder : QueryOrder

/-- The arguments of `create_contract_run` that the loop reads, with the current year. -/
structure ContractRunCall where
  contract : RunKeyContract
  price : Decimal 2
  orgPrefix : Option Text
  noReruns : Bool
  year : ℕ

/-- The runs and products, and the list that is returned so far. -/
structure RunCreation where
  runs : CourseRuns
  products : Products
  results : List (RunId × ProductId)

/-- `CourseRun.save` of a new run: `clean_language`, then the database, which raises `DataError` before it
looks at the constraints. -/
def CourseRuns.save (validLanguage : Text → Bool) (runs : CourseRuns) (run : GroupedRun) :
    Except Error CourseRuns :=
  if run.language ≠ [] ∧ validLanguage run.language = false then
    .error (.validationError "Course language is invalid")
  else if 255 < run.coursewareId.length then .error .failure
  else CourseRuns.write (runs.table.create run)

/-- There is a run of the contract in the language and variant of the source run. -/
def CourseRuns.hasContractRun (runs : CourseRuns) (c : ContractId) (source : GroupedRun) : Bool :=
  runs.table.keys.any fun r =>
    (runs.row r).usable && (runs.row r).course == source.course && (runs.row r).b2bContract == some c &&
      (runs.row r).options == source.options

/-- The contract run for a source run. -/
def contractRun (call : ContractRunCall) (source : GroupedRun) (readableId tag : Text) : GroupedRun where
  coursewareId := readableId
  runTag := tag
  language := source.language
  variantIndustry := source.variantIndustry
  variantLength := source.variantLength
  isSourceRun := false
  course := source.course
  b2bContract := some call.contract.id
  isPrimaryLanguage := source.isPrimaryLanguage

/-- The columns of the runs that keys are made from. -/
def CourseRuns.rows (runs : CourseRuns) : List CourseRunRow :=
  runs.table.keys.map fun r => (runs.row r).toCourseRunRow

/-- One round of the loop. -/
def createRunFor (env : RunEnvironment) (call : ContractRunCall) (source : GroupedRun) :
    Action RunCreation ContractRunError := fun s =>
  match newReadableId env.fromString env.before s.runs.rows source.toCourseRunRow call.contract
      call.orgPrefix call.year with
  | .error e => ⟨s, some (.raised e)⟩
  | .ok (readableId, tag) =>
    if s.runs.hasContractRun call.contract.id source = true ∧ call.noReruns = true then ⟨s, none⟩
    else
      match s.runs.save env.validLanguage (contractRun call source readableId tag) with
      | .error e => ⟨s, some (.raised e)⟩
      | .ok runs =>
        match s.products.create (runProduct call.price s.runs.table.nextKey) with
        | .error e => ⟨{ s with runs }, some (.raised e)⟩
        | .ok products =>
          ⟨⟨runs, products,
            s.results ++ [(s.runs.table.nextKey, s.products.table.nextKey)]⟩, none⟩

/-- `create_contract_run`, which does not pass on `no_variants`. A single run cannot be iterated over. -/
def createContractRunsFor (env : RunEnvironment) (call : ContractRunCall) (course : VariantCourse)
    (o : SourceRunOptions) (runs : CourseRuns) (products : Products) :
    Outcome RunCreation ContractRunError :=
  match getSourceRunsForCourse env.queryOrder course { o with noVariants := false } runs with
  | .error e => ⟨⟨runs, products, []⟩, some e⟩
  | .ok (.single _) =>
    ⟨⟨runs, products, []⟩, some (.raised (.typeError "'CourseRun' object is not iterable"))⟩
  | .ok (.collection sourceRuns) =>
    seq ((sourceRuns.map runs.row).map (createRunFor env call)) ⟨runs, products, []⟩

end MitxOnline

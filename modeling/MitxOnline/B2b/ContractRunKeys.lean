import MitxOnline.Ecommerce.Models
import MitxOnline.Lib.Numerals

/-!
# Keys of contract runs (`b2b/api.py`)

A contract run gets the source run's course key with the organization in the place of the original one and
a run tag with an index, the contract and the year. The index is one more than that of the last run that is
there already, found by its key. How keys are read, and in which order the database lists them, is left
open.
-/

namespace MitxOnline

/-- A string, by its characters. -/
abbrev Text := List Char

/-- A parsed course key, with the string that it prints as. -/
structure CourseKey where
  text : Text
  course : Text
  run : Text
  deriving DecidableEq

/-- A course run: the columns that are filtered on. -/
structure CourseRunRow where
  coursewareId : Text
  runTag : Text
  language : Text
  variantIndustry : Text
  variantLength : Text
  isSourceRun : Bool
  deriving DecidableEq

/-- The rows of `CourseRun.objects`. -/
def CourseRunRow.usable (r : CourseRunRow) : Bool :=
  !r.isSourceRun && r.runTag != "SOURCE".toList

/-- The contract with its organization. -/
structure RunKeyContract where
  id : ContractId
  orgKey : Text
  orgKeyPrefix : Text

/-! ## Numbers as text -/

/-- `str` of an integer. -/
def intText : ℤ → Text
  | .ofNat n => Nat.toDigits 10 n
  | .negSucc n => '-' :: Nat.toDigits 10 (n + 1)

/-- `int` of a string. -/
def parseInt (text : Text) : Except Error ℤ :=
  match readInt (String.ofList text) with
  | some n => .ok n
  | none => .error (.valueError "invalid literal for int() with base 10")

/-! ## `create_contract_run_key` -/

/-- `B2B_RUN_TAG_FORMAT` -/
def runTag (runIdx : Text) (contractId : ContractId) (year : ℕ) : Text :=
  runIdx ++ 'T' :: (Nat.toDigits 10 contractId ++ 'C' :: Nat.toDigits 10 year)

/-- The prefix of the organization: that of the argument, that of the organization, or the default. -/
def keyPrefix (contract : RunKeyContract) (orgPrefix : Option Text) : Text :=
  if orgPrefix.getD [] ≠ [] then orgPrefix.getD []
  else if contract.orgKeyPrefix ≠ [] then contract.orgKeyPrefix
  else "UAI_".toList

/-- `new_course_key` -/
def newCourseKey (contract : RunKeyContract) (orgPrefix : Option Text) (course : Text) : Text :=
  "course-v1:".toList ++ keyPrefix contract orgPrefix ++ contract.orgKey ++ '+' :: course

/-- The runs among which the last one is looked for. -/
def matchingRuns (rows : List CourseRunRow) (source : CourseRunRow) (courseKey mostlyRunTag : Text) :
    List CourseRunRow :=
  rows.filter fun r => r.usable && courseKey.isPrefixOf r.coursewareId &&
    mostlyRunTag.isSuffixOf r.runTag && r.language == source.language &&
      r.variantIndustry == source.variantIndustry && r.variantLength == source.variantLength

/-- `.order_by("-courseware_id").first()`, where `before` is the order of the column. -/
def lastRun (before : Text → Text → Bool) : List CourseRunRow → Option CourseRunRow
  | [] => none
  | r :: rest =>
    match lastRun before rest with
    | none => some r
    | some last => if before last.coursewareId r.coursewareId = true then some r else some last

/-- `run_idx, _ = run.split("T")` and `int(run_idx)`. -/
def runIndex (run : Text) : Except Error ℤ :=
  match run.splitOn 'T' with
  | [runIdx, _] => parseInt runIdx
  | [] => .error (.valueError "not enough values to unpack")
  | [_] => .error (.valueError "not enough values to unpack")
  | _ => .error (.valueError "too many values to unpack")

/-- The index of the new run. -/
def nextIndex (fromString : Text → Except Error CourseKey) : Option CourseRunRow → Except Error ℤ
  | none => .ok 1
  | some last =>
    match fromString last.coursewareId with
    | .error e => .error e
    | .ok key =>
      match runIndex key.run with
      | .error e => .error e
      | .ok i => .ok (i + 1)

/-- `create_contract_run_key` -/
def createContractRunKey (fromString : Text → Except Error CourseKey) (before : Text → Text → Bool)
    (rows : List CourseRunRow) (source : CourseRunRow) (contract : RunKeyContract)
    (orgPrefix : Option Text) (year : ℕ) : Except Error Text :=
  match fromString source.coursewareId with
  | .error e => .error e
  | .ok sourceId =>
    match nextIndex fromString (lastRun before (matchingRuns rows source
      (newCourseKey contract orgPrefix sourceId.course) (runTag [] contract.id year))) with
    | .error e => .error e
    | .ok runIdx =>
      match fromString (newCourseKey contract orgPrefix sourceId.course ++
        '+' :: runTag (intText runIdx) contract.id year) with
      | .error e => .error e
      | .ok key => .ok key.text

/-- A tag of the readable id, if the field is set. -/
def idTag (field : Text) : Text := if field = [] then [] else '_' :: field

/-- The tags for the language, the industry and the length. -/
def variantTags (source : CourseRunRow) : Text :=
  idTag source.language ++ idTag source.variantIndustry ++ idTag source.variantLength

/-- The id and the tag of the run that `create_contract_run` makes for a source run. -/
def newReadableId (fromString : Text → Except Error CourseKey) (before : Text → Text → Bool)
    (rows : List CourseRunRow) (source : CourseRunRow) (contract : RunKeyContract)
    (orgPrefix : Option Text) (year : ℕ) : Except Error (Text × Text) :=
  match createContractRunKey fromString before rows source contract orgPrefix year with
  | .error e => .error e
  | .ok text =>
    match fromString text with
    | .error e => .error e
    | .ok newKey => .ok (newKey.text ++ variantTags source, newKey.run)

/-- The run that `create_contract_run` saves for a source run. No two runs have the same id. -/
def createContractRun (fromString : Text → Except Error CourseKey) (before : Text → Text → Bool)
    (rows : List CourseRunRow) (source : CourseRunRow) (contract : RunKeyContract)
    (orgPrefix : Option Text) (year : ℕ) : Except Error (List CourseRunRow) :=
  match newReadableId fromString before rows source contract orgPrefix year with
  | .error e => .error e
  | .ok (readableId, newRunTag) =>
    if rows.any fun r => r.coursewareId == readableId then .error .integrityError
    else
      .ok (rows ++ [{
        coursewareId := readableId
        runTag := newRunTag
        language := source.language
        variantIndustry := source.variantIndustry
        variantLength := source.variantLength
        isSourceRun := false }])

/-- Runs for one source run and contract in one year, one after the other. -/
def createContractRuns (fromString : Text → Except Error CourseKey) (before : Text → Text → Bool)
    (source : CourseRunRow) (contract : RunKeyContract) (orgPrefix : Option Text) (year : ℕ) :
    ℕ → List CourseRunRow → Except Error (List CourseRunRow)
  | 0, rows => .ok rows
  | n + 1, rows =>
    match createContractRun fromString before rows source contract orgPrefix year with
    | .error e => .error e
    | .ok rows => createContractRuns fromString before source contract orgPrefix year n rows

end MitxOnline

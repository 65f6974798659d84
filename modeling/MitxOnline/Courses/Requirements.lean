import MitxOnline.Catalog
import MitxOnline.Lib.Numerals

/-!
# Program requirements (`courses/models.py`, `courses/forms.py`)

The requirements of a program are a tree of operators, courses and programs. The admin form gets the
tree as JSON, checks its operators and hands it to a serializer, which writes the nodes.
-/

namespace MitxOnline

/-! ## Trees -/

/-- An operator (`ProgramRequirement.Operator`); `other` is any further value of the column. -/
inductive Operator where
  | allOf
  | minNumberOf
  | other (value : String)
  deriving DecidableEq, Repr

/-- The operator that a string of the column stands for. -/
def Operator.ofString (value : String) : Operator :=
  if value = "all_of" then .allOf else if value = "min_number_of" then .minNumberOf else .other value

/-- What a node below the root holds: the alternatives of `courses_programrequirement_node_check`. -/
inductive RequirementNode where
  | operator (operator : Operator) (operatorValue : Option String)
  | course (course : CourseId)
  | program (requiredProgram : ProgramId)
  deriving DecidableEq, Repr

/-- A node below the root of a requirements tree, with its children. -/
inductive ProgramRequirement where
  | node (data : RequirementNode) (children : List ProgramRequirement)

mutual

/-- The courses in a tree. -/
def ProgramRequirement.courses : ProgramRequirement → List CourseId
  | .node (.course c) children => c :: coursesOf children
  | .node _ children => coursesOf children

/-- The courses in a row of trees. -/
def coursesOf : List ProgramRequirement → List CourseId
  | [] => []
  | t :: rest => t.courses ++ coursesOf rest

end

mutual

/-- The required programs in a tree. -/
def ProgramRequirement.programs : ProgramRequirement → List ProgramId
  | .node (.program p) children => p :: programsOf children
  | .node _ children => programsOf children

/-- The required programs in a row of trees. -/
def programsOf : List ProgramRequirement → List ProgramId
  | [] => []
  | t :: rest => t.programs ++ programsOf rest

end

/-! ## The form -/

/-- A JSON number with a fraction or an exponent: what `int` makes of it, and its text, which is not
the text of an integer. -/
structure JsonFloat where
  truncated : ℤ
  text : String
  readInt_text : readInt text = none

/-- The entry `operator_value` of a node; `missing` is an absent key. -/
inductive OperatorValue where
  | missing
  | null
  | bool (b : Bool)
  | int (n : ℤ)
  | float (x : JsonFloat)
  | text (s : String)

/-- `int(operator_value)`; `none` is a `ValueError` or a `TypeError`. -/
def OperatorValue.toInt : OperatorValue → Option ℤ
  | .missing => none
  | .null => none
  | .bool b => some (if b = true then 1 else 0)
  | .int n => some n
  | .float x => some x.truncated
  | .text s => readInt s

inductive NodeType where
  | operator
  | course
  | program
  | other
  deriving DecidableEq, Repr

/-- The `data` of a node of the form. Keys other than `operator_value` that are absent count as null:
where the form reads them it raises, and the serializer takes null for them. -/
structure RequirementData where
  nodeType : NodeType
  title : Option String
  operator : Option String
  operatorValue : OperatorValue
  course : Option CourseId
  requiredProgram : Option ProgramId

inductive FormNode where
  | node (data : RequirementData) (children : List FormNode)

def FormNode.data : FormNode → RequirementData
  | .node data _ => data

def FormNode.children : FormNode → List FormNode
  | .node _ children => children

/-- The exceptions of the form and the serializer. -/
inductive FormError where
  | validationError (msg : String)
  | integrityError
  /-- The value is too long for its column. -/
  | dataError
  deriving DecidableEq, Repr

/-- The node is compared as an operator of minimum number. -/
def RequirementData.isMinNumberOf (d : RequirementData) : Bool := d.operator == some "min_number_of"

/-- `_validate_elective_value_presence`, with the value that it reads. -/
def validateElectiveValuePresence (d : RequirementData) : Except FormError ℤ :=
  match d.operatorValue with
  | .missing => .error (.validationError "\"Minimum # of\" operator must have Value equal to 1 or more.")
  | value =>
    if (match value with | .text s => s == "" | _ => false) = true then
      .error (.validationError "\"Minimum # of\" operator must have Value equal to 1 or more.")
    else
      match value.toInt with
      | none => .error (.validationError
          "\"Minimum # of\" operator must have a valid numeric Value equal to 0 or more.")
      | some k =>
        if k < 0 then .error (.validationError
          "\"Minimum # of\" operator must have Value equal to 0 or more.")
        else .ok k

/-- `_validate_operator_title` -/
def validateOperatorTitle (d : RequirementData) : Except FormError Unit :=
  if d.title = some "" then .error (.validationError "Operator must have a Title.") else .ok ()

/-- `_validate_elective_value_and_child_courses` -/
def validateElectiveValueAndChildCourses (value count : ℤ) : Except FormError Unit :=
  if count < value then .error (.validationError ("\"Minimum # of\" operator must have Value equal " ++
    "to or less than the number of elective courses which can apply towards the program certificate."))
  else .ok ()

/-- What a child of an operator of minimum number adds to the number of courses. -/
def childCourses (child : FormNode) : Except FormError ℤ :=
  if child.data.nodeType = .operator then
    match validateOperatorTitle child.data with
    | .error e => .error e
    | .ok () =>
      if child.data.isMinNumberOf = true then
        match validateElectiveValuePresence child.data with
        | .error e => .error e
        | .ok value =>
          match validateElectiveValueAndChildCourses value child.children.length with
          | .error e => .error e
          | .ok () => .ok value
      else .ok 0
  else .ok 1

/-- `total_child_courses` -/
def totalChildCourses : List FormNode → Except FormError ℤ
  | [] => .ok 0
  | child :: rest =>
    match childCourses child with
    | .error e => .error e
    | .ok count =>
      match totalChildCourses rest with
      | .error e => .error e
      | .ok total => .ok (count + total)

/-- The checks of `clean` on one of the nodes below the root. -/
def cleanOperator (operator : FormNode) : Except FormError Unit :=
  match validateOperatorTitle operator.data with
  | .error e => .error e
  | .ok () =>
    if operator.data.isMinNumberOf = true then
      match validateElectiveValuePresence operator.data with
      | .error e => .error e
      | .ok value =>
        match totalChildCourses operator.children with
        | .error e => .error e
        | .ok total => validateElectiveValueAndChildCourses value total
    else .ok ()

/-- `ProgramAdminForm.clean` -/
def clean : List FormNode → Except FormError Unit
  | [] => .ok ()
  | operator :: rest =>
    match cleanOperator operator with
    | .error e => .error e
    | .ok () => clean rest

/-! ## Saving -/

/-- A `CharField` that may be null: the text is trimmed and must not be blank. -/
def charField (s : String) : Except FormError String :=
  if strip s.toList = [] then .error (.validationError "This field may not be blank.")
  else .ok (String.ofList (strip s.toList))

/-- A `CharField` that may be null or absent. -/
def optionalCharField : Option String → Except FormError (Option String)
  | none => .ok none
  | some s => (charField s).map some

/-- The field `operator_value` of the serializer: numbers are stored as text. -/
def operatorValueField : OperatorValue → Except FormError (Option String)
  | .missing => .ok none
  | .null => .ok none
  | .bool _ => .error (.validationError "Not a valid string.")
  | .int n => .ok (some (toString n))
  | .float x => .ok (some x.text)
  | .text s => (charField s).map some

/-- The text fits into a column of a maximal length. -/
def fitsColumn (maxLength : ℕ) (value : Option String) : Bool :=
  value.all fun s => decide (s.toList.length ≤ maxLength)

/-- The row of a node: the serializer reads its fields, and the constraint
`courses_programrequirement_node_check` says which of them may be set. -/
def RequirementData.toRow (d : RequirementData) : Except FormError RequirementNode :=
  match optionalCharField d.title, optionalCharField d.operator, operatorValueField d.operatorValue with
  | .ok _, .ok operator, .ok operatorValue =>
    if d.nodeType = .other then .error (.validationError "is not a valid choice.")
    else if (fitsColumn 13 operator && fitsColumn 100 operatorValue) = false then .error .dataError
    else
      match d.nodeType, operator, operatorValue, d.course, d.requiredProgram with
      | .operator, some operator, operatorValue, none, none =>
        .ok (.operator (Operator.ofString operator) operatorValue)
      | .course, none, none, some c, none => .ok (.course c)
      | .program, none, none, none, some p => .ok (.program p)
      | _, _, _, _, _ => .error .integrityError
  | .error e, _, _ => .error e
  | _, .error e, _ => .error e
  | _, _, .error e => .error e

mutual

/-- A node as it is saved. -/
def FormNode.save : FormNode → Except FormError ProgramRequirement
  | .node data children =>
    match data.toRow with
    | .error e => .error e
    | .ok row =>
      match saveAll children with
      | .error e => .error e
      | .ok children => .ok (.node row children)

/-- `_save_requirements`: the nodes below the root as they are saved; nothing is saved if one cannot
be. -/
def saveAll : List FormNode → Except FormError (List ProgramRequirement)
  | [] => .ok []
  | t :: rest =>
    match t.save with
    | .error e => .error e
    | .ok t =>
      match saveAll rest with
      | .error e => .error e
      | .ok rest => .ok (t :: rest)

end

end MitxOnline

import MitxOnline.B2b.ContractRunKeys
import MitxOnline.Courses.RequirementClasses
import MitxOnline.Lib.Dict

/-!
# The courses of a program, prefetched or queried (`get_courses_with_requirements_data` in `courses/models.py`)

The requirements of all programs are in one table, with a materialised path each. The courses of a program are found
among its rows if these are loaded already, and by two queries otherwise.
-/

namespace MitxOnline

/-! ## The table -/

/-- The number of characters of a step of a path. -/
def stepLength : ℕ := 4

/-- A row of `ProgramRequirement`, as it is stored. -/
structure StoredRequirement where
  program : ProgramId
  path : Text
  depth : ℕ
  /-- The fields of a node below the root. -/
  fields : Option RequirementFields
  deriving DecidableEq

/-- The course of a course node. -/
def StoredRequirement.course? (req : StoredRequirement) : Option CourseId :=
  req.fields.bind fun fields => fields.node.course?

/-- `node_type == ProgramRequirementNodeType.COURSE` -/
def StoredRequirement.isCourse (req : StoredRequirement) : Bool := req.course?.isSome

def StoredRequirement.elective (req : StoredRequirement) : Bool := req.fields.any fun fields => fields.elective

/-- The rows of all programs. Queries list them by path. The path of a node is the path of its parent and one step
more, and parents and children are of one program. -/
structure RequirementTable where
  rows : List StoredRequirement
  sorted : rows.Pairwise fun req req' => req.path < req'.path
  steps : ∀ req ∈ rows, req.path.length = stepLength * req.depth
  roots : ∀ req ∈ rows, req.fields = none ↔ req.depth = 1
  parents : ∀ req ∈ rows, 1 < req.depth → ∃ parent ∈ rows,
    parent.path <+: req.path ∧ parent.depth + 1 = req.depth ∧ parent.program = req.program

/-- What `all_requirements` of a program prefetches. -/
def RequirementTable.allRequirements (table : RequirementTable) (program : ProgramId) : List StoredRequirement :=
  table.rows.filter fun req => req.program == program

/-! ## Processing -/

/-- `path_to_operator` -/
def pathToOperator (mainOps : List StoredRequirement) : Dict Text StoredRequirement :=
  Dict.empty.setAll (mainOps.map fun op => (op.path, op))

/-- `_find_parent_operator` -/
def findOperatorByPath (req : StoredRequirement) (operators : Dict Text StoredRequirement) :
    Option StoredRequirement :=
  (operators.entries.find? fun entry => entry.1.isPrefixOf req.path && req.path != entry.1).map (·.2)

/-- The round of the loop over the course requirements. -/
def processCourseRequirement (operators : Dict Text StoredRequirement) (data : CoursesWithRequirements)
    (req : StoredRequirement) : CoursesWithRequirements :=
  match req.course?, findOperatorByPath req operators with
  | some course, some op =>
    if op.elective = true then
      { data with
        courses := data.courses ++ [(course, .elective)]
        electiveCourses := data.electiveCourses ++ [course] }
    else
      { data with
        courses := data.courses ++ [(course, .required)]
        requiredCourses := data.requiredCourses ++ [course] }
  | _, _ => data

/-- `_process_course_requirements` -/
def processCourseRequirements (courseReqs : List StoredRequirement) (operators : Dict Text StoredRequirement) :
    Except CertificateError CoursesWithRequirements := do
  let data ← processOperators ⟨"Required Courses", "Elective Courses", none⟩
    (operators.entries.filterMap fun entry => entry.2.fields)
  .ok (courseReqs.foldl (processCourseRequirement operators) ⟨[], [], [], data⟩)

/-- `_empty_course_requirements_data` -/
def emptyCourseRequirementsData : CoursesWithRequirements :=
  ⟨[], [], [], ⟨"Required Courses", "Elective Courses", none⟩⟩

/-! ## The two traversals -/

/-- The requirements are loaded. -/
def coursesOfRequirements (requirements : List StoredRequirement) :
    Except CertificateError CoursesWithRequirements :=
  let mainOps := requirements.filter fun req => req.depth == 2
  if mainOps = [] then .ok emptyCourseRequirementsData
  else
    processCourseRequirements
      (requirements.filter fun req => req.isCourse && mainOps.any fun op => op.path.isPrefixOf req.path)
      (pathToOperator mainOps)

/-- `_get_operator_course_requirements` -/
def RequirementTable.operatorCourseRequirements (table : RequirementTable) (program : ProgramId)
    (mainOps : List StoredRequirement) : List StoredRequirement :=
  if mainOps = [] then []
  else
    (table.rows.filter fun req => req.program == program && req.isCourse).filter fun req =>
      mainOps.any fun op => op.path.isPrefixOf req.path

/-- `_courses_with_requirements_data`, with the requirements that are prefetched, if they are. -/
def RequirementTable.coursesWithRequirementsData (table : RequirementTable) (program : ProgramId)
    (prefetched : Option (List StoredRequirement)) : Except CertificateError CoursesWithRequirements :=
  match prefetched with
  | some requirements => coursesOfRequirements requirements
  | none =>
    let mainOps := table.rows.filter fun req => req.program == program && req.depth == 2
    if mainOps = [] then .ok emptyCourseRequirementsData
    else
      processCourseRequirements (table.operatorCourseRequirements program mainOps) (pathToOperator mainOps)

/-- `get_courses_with_requirements_data` -/
def RequirementTable.getCoursesWithRequirementsData (table : RequirementTable) (program : ProgramId)
    (prefetched requirements : Option (List StoredRequirement)) :
    Except CertificateError CoursesWithRequirements :=
  match requirements with
  | none => table.coursesWithRequirementsData program prefetched
  | some requirements => coursesOfRequirements requirements

end MitxOnline

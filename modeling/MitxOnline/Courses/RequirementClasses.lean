import MitxOnline.Courses.Certificates
import MitxOnline.Lib.Paths
import MitxOnline.Lib.Search

/-!
# Required and elective (`courses/models.py`, `courses/serializers/v2/programs.py`)

The nodes of a requirements tree are rows with materialised paths. Which courses and programs are required
and which are electives is read off the elective flags of the rows, in several places and by different
rules.
-/

namespace MitxOnline

open Paths

/-! ## The stored tree -/

/-- A row of `ProgramRequirement` below the root. -/
structure RequirementFields where
  node : RequirementNode
  title : Option String
  electiveFlag : Option Bool
  deriving DecidableEq, Repr

/-- The requirements of a program. Of the root only its elective flag is read. -/
structure Requirements where
  rootElectiveFlag : Option Bool
  children : List (PathTree RequirementFields)

/-- The path of the root. -/
def Requirements.rootPath : List ℕ := [1]

/-- The rows below the root, in the order of their paths. -/
def Requirements.rows (req : Requirements) : List (Row RequirementFields) :=
  rowsOf Requirements.rootPath 1 req.children

abbrev RequirementRow := Row RequirementFields

def RequirementNode.isOperator : RequirementNode → Bool
  | .operator .. => true
  | _ => false

def RequirementNode.course? : RequirementNode → Option CourseId
  | .course c => some c
  | _ => none

def RequirementNode.requiredProgram? : RequirementNode → Option ProgramId
  | .program p => some p
  | _ => none

/-- The elective flag of a row: null counts as not set. -/
def RequirementFields.elective (f : RequirementFields) : Bool := f.electiveFlag == some true

/-! ## Courses (`get_courses_with_requirements_data`) -/

inductive RequirementType where
  | required
  | elective
  deriving DecidableEq, Repr

/-- The class that an elective flag stands for. -/
def RequirementType.ofFlag (elective : Bool) : RequirementType :=
  if elective = true then .elective else .required

/-- `main_ops`: the rows at depth 2. -/
def mainOps (rows : List RequirementRow) : List RequirementRow := rows.filter fun r => r.depth == 2

/-- `course_requirements` -/
def courseRequirements (rows : List RequirementRow) : List RequirementRow :=
  rows.filter fun r =>
    r.value.node.course?.isSome && (mainOps rows).any fun op => startsWith r.path op.path

/-- `_find_parent_operator`, among the rows at depth 2. -/
def findParentOperator (rows : List RequirementRow) (r : RequirementRow) : Option RequirementRow :=
  (mainOps rows).find? fun op => startsWith r.path op.path && r.path != op.path

/-- The requirement type of a course requirement; one without a parent operator is passed over. -/
def courseType (rows : List RequirementRow) (r : RequirementRow) : Option RequirementType :=
  (findParentOperator rows r).map fun op => .ofFlag op.value.elective

/-- The courses of a type, in the order of the rows. -/
def coursesOfType (rows : List RequirementRow) (type : RequirementType) : List CourseId :=
  (courseRequirements rows).filterMap fun r =>
    if courseType rows r = some type then r.value.node.course? else none

/-- `x or y`, for titles. -/
def titleOr (title : Option String) (other : String) : String :=
  match title with
  | none => other
  | some title => if title = "" then other else title

/-- `int(op.operator_value) if op.operator_value else None`, of an operator of minimum number. -/
def RequirementNode.minimumElective : RequirementNode → Except CertificateError (Option ℤ)
  | .operator .minNumberOf (some value) =>
    if value = "" then .ok none
    else
      match readInt value with
      | none => .error .valueError
      | some k => .ok (some k)
  | _ => .ok none

/-- The titles and the minimum that the loop over the operators of `_process_course_requirements` has
found so far. -/
structure OperatorData where
  requiredTitle : String
  electiveTitle : String
  minimumElectiveRequirement : Option ℤ
  deriving DecidableEq, Repr

/-- One round of that loop. -/
def processOperator (acc : OperatorData) (op : RequirementFields) : Except CertificateError OperatorData :=
  if op.elective = false ∧ acc.requiredTitle = "Required Courses" then
    .ok { acc with requiredTitle := titleOr op.title acc.requiredTitle }
  else if op.elective = true ∧ acc.electiveTitle = "Elective Courses" then
    let acc := { acc with electiveTitle := titleOr op.title acc.electiveTitle }
    if acc.minimumElectiveRequirement = none then do
      let minimum ← op.node.minimumElective
      .ok { acc with minimumElectiveRequirement := minimum }
    else .ok acc
  else .ok acc

/-- The loop over the operators. -/
def processOperators : OperatorData → List RequirementFields → Except CertificateError OperatorData
  | acc, [] => .ok acc
  | acc, op :: rest => do
    let acc ← processOperator acc op
    processOperators acc rest

/-- What `get_courses_with_requirements_data` returns. -/
structure CoursesWithRequirements where
  courses : List (CourseId × RequirementType)
  requiredCourses : List CourseId
  electiveCourses : List CourseId
  operators : OperatorData
  deriving DecidableEq, Repr

/-- `get_courses_with_requirements_data` -/
def getCoursesWithRequirementsData (rows : List RequirementRow) :
    Except CertificateError CoursesWithRequirements := do
  let operators ← processOperators ⟨"Required Courses", "Elective Courses", none⟩
    ((mainOps rows).map (·.value))
  .ok
    { courses := (courseRequirements rows).filterMap fun r => do
        let type ← courseType rows r
        let course ← r.value.node.course?
        some (course, type)
      requiredCourses := coursesOfType rows .required
      electiveCourses := coursesOfType rows .elective
      operators := operators }

/-! ## Programs (`required_programs`, `elective_programs`) -/

/-- `get_parent().elective_flag`, null counting as not set. -/
def Requirements.parentElective (req : Requirements) (r : RequirementRow) : Bool :=
  if r.depth = 2 then req.rootElectiveFlag == some true
  else (req.rows.find? fun parent => parent.path == r.path.dropLast).any fun parent =>
    parent.value.elective

/-- The class of a program requirement in `required_programs` and `elective_programs`. -/
def Requirements.programType (req : Requirements) (r : RequirementRow) : RequirementType :=
  .ofFlag (req.parentElective r)

/-- The required programs that are classified in a given way. -/
def programsOfType (rows : List RequirementRow) (type : RequirementRow → RequirementType)
    (wanted : RequirementType) : List ProgramId :=
  rows.filterMap fun r => if type r = wanted then r.value.node.requiredProgram? else none

/-- `Program.required_programs` -/
def Requirements.requiredPrograms (req : Requirements) : List ProgramId :=
  programsOfType req.rows req.programType .required

/-- `Program.elective_programs` -/
def Requirements.electivePrograms (req : Requirements) : List ProgramId :=
  programsOfType req.rows req.programType .elective

/-! ## The serializer (`ProgramSerializer.get_requirements`) -/

/-- `_get_elective_operator_paths` -/
def getElectiveOperatorPaths (rows : List RequirementRow) : List (List ℕ) :=
  (rows.filter fun r => r.value.node.isOperator && r.value.elective).map (·.path)

/-- `_is_requirement_under_elective_operator` -/
def isRequirementUnderElectiveOperator (r : RequirementRow) (electiveOperatorPaths : List (List ℕ)) :
    Bool :=
  r.value.elective || electiveOperatorPaths.any fun path => startsWith r.path path

/-- The class of a program requirement in `_process_program_requirements_from_all`. -/
def serializedType (rows : List RequirementRow) (r : RequirementRow) : RequirementType :=
  .ofFlag (isRequirementUnderElectiveOperator r (getElectiveOperatorPaths rows))

/-- `_process_program_requirements_from_all`: the required and the elective programs. -/
def processProgramRequirementsFromAll (rows : List RequirementRow) : List ProgramId × List ProgramId :=
  (programsOfType rows (serializedType rows) .required, programsOfType rows (serializedType rows) .elective)

/-!
## Where the classifications agree

A course has the class of its ancestor at depth 2, a program the class of its parent, and the serializer
makes a program elective if it or any operator above it is. These are the same where the flags of a tree
are consistent.
-/

variable {req : Requirements} {r o a c q : RequirementRow}

theorem ofFlag_injective {b b' : Bool} : RequirementType.ofFlag b = RequirementType.ofFlag b' ↔ b = b' := by
  cases b <;> cases b' <;> decide

/-! ## The rows of a tree -/

theorem rows_depth (h : r ∈ req.rows) : 2 ≤ r.path.length := length_lt_of_mem_rowsOf h

theorem rows_eq_of_path_eq (h : r ∈ req.rows) (h' : a ∈ req.rows) (hpath : r.path = a.path) : r = a :=
  eq_of_path_eq h h' hpath

theorem mem_mainOps : o ∈ mainOps req.rows ↔ o ∈ req.rows ∧ o.path.length = 2 := by
  simp [mainOps, Row.depth]

/-- A row below depth 2 has one ancestor at depth 2. -/
theorem exists_findParentOperator (h : r ∈ req.rows) (hdeep : 2 < r.path.length) :
    ∃ op ∈ req.rows, op.path.length = 2 ∧ op.path <+: r.path ∧
      findParentOperator req.rows r = some op := by
  obtain ⟨op, hop, hlength, hprefix⟩ := exists_top h
  have htwo : op.path.length = 2 := hlength
  refine ⟨op, hop, htwo, hprefix, Search.find?_eq_some_of_unique (mem_mainOps.mpr ⟨hop, htwo⟩) ?_ ?_⟩
  · have hne : r.path ≠ op.path := by
      intro heq
      rw [heq] at hdeep
      omega
    simp [startsWith_iff.mpr hprefix, hne]
  · intro op' hop' htest
    obtain ⟨hmem, htwo'⟩ := mem_mainOps.mp hop'
    have hprefix' : op'.path <+: r.path := startsWith_iff.mp (Bool.and_eq_true_iff.mp htest).1
    have hsame := List.prefix_of_prefix_length_le hprefix' hprefix (by omega)
    exact rows_eq_of_path_eq hmem hop (hsame.eq_of_length (by omega))

/-- The flag of the parent, if the parent is a row below the root. -/
theorem parentElective_of_parent (ho : o ∈ req.rows) (hpath : r.path.dropLast = o.path) :
    req.parentElective r = o.value.elective := by
  have hdepth := rows_depth ho
  have hne : r.depth ≠ 2 := by
    intro htwo
    rw [← hpath, List.length_dropLast] at hdepth
    unfold Row.depth at htwo
    omega
  have hfind : (req.rows.find? fun parent => parent.path == r.path.dropLast) = some o := by
    refine Search.find?_eq_some_of_unique ho (by simp [hpath]) fun y hy hytest => ?_
    exact rows_eq_of_path_eq hy ho ((eq_of_beq hytest).trans hpath)
  rw [Requirements.parentElective, if_neg hne, hfind]
  rfl

/-! ## The classes -/

/-- The children of an operator and the operator have one ancestor at depth 2. -/
theorem courseType_of_parent (ho : o ∈ req.rows) (hc : c ∈ req.rows)
    (hpath : c.path.dropLast = o.path) :
    ∃ top ∈ req.rows, top.path.length = 2 ∧ top.path <+: o.path ∧
      courseType req.rows c = some (.ofFlag top.value.elective) := by
  have hdeep : 2 < c.path.length := by
    have hdepth := rows_depth ho
    rw [← hpath, List.length_dropLast] at hdepth
    omega
  obtain ⟨top, htop, htwo, hprefix, hfind⟩ := exists_findParentOperator hc hdeep
  refine ⟨top, htop, htwo, ?_, by rw [courseType, hfind]; rfl⟩
  refine List.prefix_of_prefix_length_le hprefix (hpath ▸ List.dropLast_prefix c.path) ?_
  have := rows_depth ho
  omega

theorem isRequirementUnderElectiveOperator_iff :
    isRequirementUnderElectiveOperator r (getElectiveOperatorPaths req.rows) = true ↔
      r.value.elective = true ∨
        ∃ a ∈ req.rows, a.value.node.isOperator = true ∧ a.value.elective = true ∧ a.path <+: r.path := by
  simp only [isRequirementUnderElectiveOperator, getElectiveOperatorPaths, Bool.or_eq_true,
    List.any_map, List.any_eq_true, List.mem_filter, Bool.and_eq_true, Function.comp, startsWith_iff]
  constructor
  · rintro (h | ⟨a, ⟨hmem, hop, hflag⟩, hprefix⟩)
    · exact Or.inl h
    · exact Or.inr ⟨a, hmem, hop, hflag, hprefix⟩
  · rintro (h | ⟨a, hmem, hop, hflag, hprefix⟩)
    · exact Or.inl h
    · exact Or.inr ⟨a, ⟨hmem, hop, hflag⟩, hprefix⟩

/-! ## Agreement -/

/-- Courses and programs that are children of one operator have one class, a program has the class that
the serializer gives it, and the lists of programs are those of the serializer. -/
structure ClassifiesAlike (req : Requirements) : Prop where
  siblings : ∀ o ∈ req.rows, o.value.node.isOperator = true →
    ∀ c ∈ req.rows, c.value.node.course?.isSome = true → c.path.dropLast = o.path →
    ∀ q ∈ req.rows, q.value.node.requiredProgram?.isSome = true → q.path.dropLast = o.path →
      courseType req.rows c = some (req.programType q)
  serialized : ∀ q ∈ req.rows, q.value.node.requiredProgram?.isSome = true →
    req.programType q = serializedType req.rows q
  requiredPrograms : req.requiredPrograms = (processProgramRequirementsFromAll req.rows).1
  electivePrograms : req.electivePrograms = (processProgramRequirementsFromAll req.rows).2

/-- The flags of a tree are consistent: the parent of a program has the flag exactly where the program
or an operator above it has it, and an operator with courses and programs has the flag exactly where the
row above it at depth 2 has it. -/
structure FlagsConsistent (req : Requirements) : Prop where
  program : ∀ q ∈ req.rows, q.value.node.requiredProgram?.isSome = true →
    (req.parentElective q = true ↔ q.value.elective = true ∨
      ∃ a ∈ req.rows, a.value.node.isOperator = true ∧ a.value.elective = true ∧ a.path <+: q.path)
  operator : ∀ o ∈ req.rows, o.value.node.isOperator = true →
    (∃ c ∈ req.rows, c.value.node.course?.isSome = true ∧ c.path.dropLast = o.path) →
    (∃ q ∈ req.rows, q.value.node.requiredProgram?.isSome = true ∧ q.path.dropLast = o.path) →
    ∀ top ∈ req.rows, top.path.length = 2 → top.path <+: o.path →
      (o.value.elective = true ↔ top.value.elective = true)

theorem programsOfType_congr {rows : List RequirementRow} {type type' : RequirementRow → RequirementType}
    (h : ∀ q ∈ rows, q.value.node.requiredProgram?.isSome = true → type q = type' q)
    (wanted : RequirementType) : programsOfType rows type wanted = programsOfType rows type' wanted := by
  refine List.filterMap_congr fun q hq => ?_
  rcases hprogram : q.value.node.requiredProgram? with _ | p
  · simp
  · rw [h q hq (by rw [hprogram]; rfl)]

/-- A program has one class for the model and the serializer exactly where its flags agree. -/
theorem programType_eq_iff :
    req.programType q = serializedType req.rows q ↔
      (req.parentElective q = true ↔ q.value.elective = true ∨
        ∃ a ∈ req.rows, a.value.node.isOperator = true ∧ a.value.elective = true ∧
          a.path <+: q.path) := by
  rw [Requirements.programType, serializedType, ofFlag_injective, Bool.eq_iff_iff,
    isRequirementUnderElectiveOperator_iff]

/-- All implementations classify a tree alike exactly when its flags are consistent. -/
theorem classifiesAlike_iff (req : Requirements) : ClassifiesAlike req ↔ FlagsConsistent req := by
  constructor
  · intro h
    refine ⟨fun q hq hprogram => programType_eq_iff.mp (h.serialized q hq hprogram), ?_⟩
    rintro o ho hop ⟨c, hc, hcourse, hcpath⟩ ⟨q, hq, hprogram, hqpath⟩ top htop htwo hprefix
    obtain ⟨top', htop', htwo', hprefix', htype⟩ := courseType_of_parent ho hc hcpath
    have hsame : top.path = top'.path :=
      (List.prefix_of_prefix_length_le hprefix hprefix' (by omega)).eq_of_length (by omega)
    obtain rfl := rows_eq_of_path_eq htop htop' hsame
    have hclass := h.siblings o ho hop c hc hcourse hcpath q hq hprogram hqpath
    rw [htype, Requirements.programType, parentElective_of_parent ho hqpath, Option.some.injEq,
      ofFlag_injective] at hclass
    rw [hclass]
  · intro h
    have hserialized : ∀ q ∈ req.rows, q.value.node.requiredProgram?.isSome = true →
        req.programType q = serializedType req.rows q :=
      fun q hq hprogram => programType_eq_iff.mpr (h.program q hq hprogram)
    refine ⟨?_, hserialized, programsOfType_congr hserialized .required,
      programsOfType_congr hserialized .elective⟩
    intro o ho hop c hc hcourse hcpath q hq hprogram hqpath
    obtain ⟨top, htop, htwo, hprefix, htype⟩ := courseType_of_parent ho hc hcpath
    have hflag := h.operator o ho hop ⟨c, hc, hcourse, hcpath⟩ ⟨q, hq, hprogram, hqpath⟩ top htop htwo
      hprefix
    rw [htype, Requirements.programType, parentElective_of_parent ho hqpath, Option.some.injEq,
      ofFlag_injective, Bool.eq_iff_iff, hflag]

/-! ## A group of required programs among the electives -/

/-- An elective group with a nested group that is not elective, which holds a course and a program. -/
def nestedRequirements : Requirements where
  rootElectiveFlag := some false
  children :=
    [.node ⟨.operator .minNumberOf (some "1"), some "Elective Courses", some true⟩
      [.node ⟨.operator .allOf none, some "Track", some false⟩
        [.node ⟨.course 1, none, some false⟩ [], .node ⟨.program 2, none, some false⟩ []]]]

/-- The program is required for the model and elective for the serializer. -/
theorem not_classifiesAlike : ¬ ∀ req : Requirements, ClassifiesAlike req := by
  intro h
  have hlist := (h nestedRequirements).requiredPrograms
  revert hlist
  decide

end MitxOnline

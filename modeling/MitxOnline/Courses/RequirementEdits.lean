import MitxOnline.Courses.RequirementClasses
import MitxOnline.Courses.TreeOperations
import MitxOnline.Lib.PathMaps
import Mathlib.Data.List.Sort

/-!
# Adding requirements (`courses/models.py`)

A program has helpers that make a course or a program required or elective: they take away what there is of
it among the children of the root and add it under an operator, which they add first if it is missing.
-/

namespace MitxOnline

open Paths PathMap

variable {D : Type}

/-! ## The tree library -/

/-- The methods of `MP_Node` that the helpers call. -/
structure MpChildren (D : Type) where
  getRootNodes : TreeRows D → List ℕ
  getChildren : TreeRows D → TreeNode D → List ℕ
  addChild : TreeRows D → TreeNode D → ProgramId → D → Except TreeError (TreeRows D × TreeNode D)
  delete : TreeRows D → List ℕ → TreeRows D

/-- The last step that four characters of the alphabet can write. -/
def maxStep : ℕ := 62 ^ 4 - 1

/-- The number of steps of the longest path that the column holds. -/
def maxDepth : ℕ := 255 / 4

/-- There is a path left for one more child of `q`. -/
def HasRoom (f : PathMap ℕ) (q : ℕ) : Prop :=
  (∀ p, f q = some p → p.length < maxDepth) ∧ ∀ i s, ChildAt f q i s → s < maxStep

/-- A new node was put after the last child of `q`. -/
structure AddedLast (rows rows' : TreeRows D) (q : ℕ) (program : ProgramId) (data : D)
    (child : TreeNode D) : Prop where
  loaded : rows'.load child.id = some child
  program : child.program = program
  data : child.data = data
  grown : Grown rows.paths rows'.paths q child.id
  same : ∀ i, i ≠ child.id → rows'.get i = rows.get i

/-- What the library does, on tables of well-formed trees. -/
structure MpChildren.Documented (ops : MpChildren D) : Prop where
  mem_getRootNodes : ∀ {rows i}, i ∈ ops.getRootNodes rows ↔ ∃ s, rows.paths i = some [s]
  mem_getChildren : ∀ {rows node i}, rows.paths node.id = some node.path →
    (i ∈ ops.getChildren rows node ↔ ∃ s, ChildAt rows.paths node.id i s)
  getChildren_sorted : ∀ {rows node}, rows.paths node.id = some node.path →
    (ops.getChildren rows node).Pairwise fun i j =>
      ∀ s t, ChildAt rows.paths node.id i s → ChildAt rows.paths node.id j t → s ≤ t
  addChild_of_hasRoom : ∀ {rows node}, rows.paths.WellFormed → rows.paths node.id = some node.path →
    HasRoom rows.paths node.id → ∀ program data, ∃ rows' child,
      ops.addChild rows node program data = .ok (rows', child) ∧
        AddedLast rows rows' node.id program data child
  addChild_of_not_hasRoom : ∀ {rows node}, rows.paths.WellFormed →
    rows.paths node.id = some node.path → ¬HasRoom rows.paths node.id →
    ∀ program data, ops.addChild rows node program data = .error .pathOverflow
  get_delete_of_inBranch : ∀ {rows ids i}, InBranch rows.paths (· ∈ ids) i →
    (ops.delete rows ids).get i = none
  get_delete_of_not_inBranch : ∀ {rows ids i}, ¬InBranch rows.paths (· ∈ ids) i →
    (ops.delete rows ids).get i = rows.get i

/-! ## `Program` -/

/-- The rows of `ProgramRequirement`. Of a root no column but the program is read. -/
abbrev RequirementRows := TreeRows (Option RequirementFields)

abbrev RequirementTreeNode := TreeNode (Option RequirementFields)

/-- A course or a program. -/
inductive RequirementItem where
  | course (c : CourseId)
  | program (p : ProgramId)
  deriving DecidableEq, Repr

/-- The columns `node_type`, `course` and `required_program` of a node for the item. -/
def RequirementItem.node : RequirementItem → RequirementNode
  | .course c => .course c
  | .program p => .program p

inductive RequirementEditError where
  | attributeError (msg : String)
  | tree (e : TreeError)
  deriving DecidableEq, Repr

/-- `filter(course=…)` and `filter(required_program=…)` -/
def isFor (rows : RequirementRows) (item : RequirementItem) (i : ℕ) : Bool :=
  (rows.get i).any fun row => row.data.any fun fields => fields.node == item.node

/-- `filter(operator=…)` -/
def isOperatorOf (rows : RequirementRows) (operator : Operator) (i : ℕ) : Bool :=
  (rows.get i).any fun row => row.data.any fun fields =>
    match fields.node with
    | .operator operator' _ => operator' == operator
    | _ => false

/-- Code that edits the rows. What it wrote before it raised stays written. -/
abbrev EditCode := EStateM RequirementEditError RequirementRows

section Helpers

variable (ops : MpChildren (Option RequirementFields)) (program : ProgramId)

/-- `get_requirements_root` -/
def requirementsRoot (rows : RequirementRows) : Option RequirementTreeNode :=
  ((ops.getRootNodes rows).find? fun i =>
    (rows.get i).any fun row => row.program == program).bind rows.load

/-- `get_requirements_root` where a method of the root is called. -/
def getRequirementsRoot : EditCode RequirementTreeNode := do
  match requirementsRoot ops program (← get) with
  | none => throw (.attributeError "'NoneType' object has no attribute 'get_children'")
  | some root => return root

/-- `ProgramRequirement.add_child` -/
def addChild (node : RequirementTreeNode) (fields : RequirementFields) : EditCode RequirementTreeNode := do
  match ops.addChild (← get) node node.program (some fields) with
  | .error e => throw (.tree e)
  | .ok (rows, child) =>
    set rows
    return child

/-- The first child of a node with an operator. -/
def operatorNode (rows : RequirementRows) (node : RequirementTreeNode) (operator : Operator) :
    Option RequirementTreeNode :=
  ((ops.getChildren rows node).find? (isOperatorOf rows operator)).bind rows.load

/-- The columns of the node that `_add_course_node` adds. -/
def operatorFields (operator : Operator) (minCourses : ℕ) : RequirementFields :=
  if operator = .minNumberOf then
    ⟨.operator operator (some (toString minCourses)), some "Elective Courses", some true⟩
  else ⟨.operator operator none, some "Required Courses", some false⟩

/-- `_add_course_node` -/
def addCourseNode (operator : Operator) (minCourses : ℕ) : EditCode RequirementTreeNode := do
  let root ← getRequirementsRoot ops program
  match operatorNode ops (← get) root operator with
  | some node => return node
  | none =>
    let root ← getRequirementsRoot ops program
    addChild ops root (operatorFields operator minCourses)

/-- What the helpers do for an item, under an operator. -/
def addItem (operator : Operator) (item : RequirementItem) : EditCode RequirementTreeNode := do
  let root ← getRequirementsRoot ops program
  modify fun rows => ops.delete rows ((ops.getChildren rows root).filter (isFor rows item))
  let node ← addCourseNode ops program operator 1
  addChild ops node ⟨item.node, some "", some false⟩

/-- `Program.add_requirement` -/
def addRequirement (requirement : RequirementItem) : EditCode RequirementTreeNode :=
  addItem ops program .allOf requirement

/-- `Program.add_elective` -/
def addElective (course : CourseId) : EditCode RequirementTreeNode :=
  addItem ops program .minNumberOf (.course course)

/-- `Program.add_program_requirement` -/
def addProgramRequirement (requiredProgram : ProgramId) : EditCode RequirementTreeNode :=
  addItem ops program .allOf (.program requiredProgram)

/-- `Program.add_program_elective` -/
def addProgramElective (requiredProgram : ProgramId) : EditCode RequirementTreeNode :=
  addItem ops program .minNumberOf (.program requiredProgram)

end Helpers

/-- A call of one of the helpers. -/
inductive HelperCall where
  | addRequirement (requirement : RequirementItem)
  | addElective (course : CourseId)
  | addProgramRequirement (requiredProgram : ProgramId)
  | addProgramElective (requiredProgram : ProgramId)
  deriving DecidableEq, Repr

/-- The code of a call. -/
def HelperCall.code (ops : MpChildren (Option RequirementFields)) (program : ProgramId) :
    HelperCall → EditCode RequirementTreeNode
  | .addRequirement requirement => MitxOnline.addRequirement ops program requirement
  | .addElective course => MitxOnline.addElective ops program course
  | .addProgramRequirement requiredProgram => MitxOnline.addProgramRequirement ops program requiredProgram
  | .addProgramElective requiredProgram => MitxOnline.addProgramElective ops program requiredProgram

/-- The rows after a call. -/
def callHelper (ops : MpChildren (Option RequirementFields)) (program : ProgramId)
    (rows : RequirementRows) (call : HelperCall) : RequirementRows :=
  match call.code ops program rows with
  | .ok _ rows' => rows'
  | .error _ rows' => rows'

/-! ## Operations on materialised paths -/

namespace TreeOperations

def childStep (rows : TreeRows D) (i : ℕ) : ℕ := (rows.row i).path.getLastD 0

def children (rows : TreeRows D) (node : TreeNode D) : List ℕ :=
  (rows.keys.filter (isChild rows node)).insertionSort fun i j => childStep rows i ≤ childStep rows j

/-- The step of the last child; without children it is zero. -/
def lastStep (rows : TreeRows D) (node : TreeNode D) : ℕ :=
  Table.maxKey ((children rows node).map (childStep rows))

def addLastChild (rows : TreeRows D) (node : TreeNode D) (program : ProgramId) (data : D) :
    Except TreeError (TreeRows D × TreeNode D) :=
  if node.path.length < maxDepth ∧ lastStep rows node < maxStep then
    let row : TreeRow D := ⟨node.path ++ [lastStep rows node + 1], program, data⟩
    .ok (rows.create row, { row with id := rows.nextKey })
  else .error .pathOverflow

end TreeOperations

/-- A tree library that can be run. -/
def mpChildren : MpChildren D where
  getRootNodes rows := rows.keys.filter fun i => (rows.row i).path.length == 1
  getChildren := TreeOperations.children
  addChild := TreeOperations.addLastChild
  delete := TreeOperations.delete

end MitxOnline

import MitxOnline.Courses.Certificates

/-!
# Program records (`lib/courseApi.js`)

The page with the record of a learner gets the requirements tree of the program and its courses, with a grade
and a certificate for those that are completed, and evaluates the tree itself. A node without children has no
`children` in the dump of the tree.
-/

namespace MitxOnline

/-- A course of the record, and whether it has a grade and a certificate. -/
structure RecordCourse where
  id : CourseId
  grade : Bool
  certificate : Bool
  deriving DecidableEq, Repr

/-- `learnerRecord.program`. Every root is given by its children. -/
structure RecordProgram where
  courses : List RecordCourse
  requirements : List (List ProgramRequirement)

/-- `Program.courses`: the courses of the nodes below the groups. -/
def recordCourses (groups : List ProgramRequirement) : List CourseId :=
  groups.flatMap fun
    | .node _ children => coursesOf children

/-- What `LearnerRecordSerializer` makes of a program whose root has the given children. -/
def learnerRecord (grade certificate : CourseId → Bool) (groups : List ProgramRequirement) : RecordProgram where
  courses := (recordCourses groups).map fun c => ⟨c, grade c, certificate c⟩
  requirements := [groups]

/-! ## `parseInt` -/

/-- White space and line terminators of JavaScript. -/
def isJsSpace (c : Char) : Bool :=
  let n := c.toNat
  (9 ≤ n && n ≤ 13) || n == 32 || n == 0xA0 || n == 0x1680 || (0x2000 ≤ n && n ≤ 0x200A) || n == 0x2028 ||
    n == 0x2029 || n == 0x202F || n == 0x205F || n == 0x3000 || n == 0xFEFF

/-- The value of a hexadecimal digit. -/
def hexDigitValue (c : Char) : Option ℕ :=
  if c.isDigit then some (c.toNat - '0'.toNat)
  else if 'a' ≤ c ∧ c ≤ 'f' then some (c.toNat - 'a'.toNat + 10)
  else if 'A' ≤ c ∧ c ≤ 'F' then some (c.toNat - 'A'.toNat + 10)
  else none

/-- The value of the digits that a text starts with, as far as they are digits of the base. -/
def leadingDigits (base : ℕ) : Option ℕ → List Char → Option ℕ
  | value, [] => value
  | value, c :: rest =>
    match hexDigitValue c with
    | some d => if d < base then leadingDigits base (some (base * value.getD 0 + d)) rest else value
    | none => value

/-- `parseInt` without its sign. -/
def parseMagnitude : List Char → Option ℕ
  | '0' :: 'x' :: rest => leadingDigits 16 none rest
  | '0' :: 'X' :: rest => leadingDigits 16 none rest
  | digits => leadingDigits 10 none digits

/-- `parseInt`; `none` is `NaN`. -/
def jsParseInt (s : String) : Option ℤ :=
  match s.toList.dropWhile isJsSpace with
  | '-' :: rest => (parseMagnitude rest).map fun n => -(n : ℤ)
  | '+' :: rest => (parseMagnitude rest).map Int.ofNat
  | digits => (parseMagnitude digits).map Int.ofNat

/-! ## The evaluation -/

/-- `isNodeCompleted`, of a course. -/
def isNodeCompleted (courses : List RecordCourse) (c : CourseId) : Bool :=
  match courses.find? fun course => course.id == c with
  | some course => course.grade && course.certificate
  | none => false

mutual

/-- `walkNodes`: whether it returns 1. Both 0 and `false` add nothing to a count. -/
def walkNodes (courses : List RecordCourse) : ProgramRequirement → Bool
  | .node (.operator operator value) children =>
    if children.isEmpty then false
    else
      match operator with
      | .allOf => completedCount courses children == children.length
      | _ =>
        match value.bind jsParseInt with
        | some k => decide (k ≤ (completedCount courses children : ℤ))
        | none => false
  | .node (.course c) _ => isNodeCompleted courses c
  | .node (.program _) _ => false

/-- `completedCount`, after the loop over the children. -/
def completedCount (courses : List RecordCourse) : List ProgramRequirement → ℕ
  | [] => 0
  | t :: rest => (if walkNodes courses t = true then 1 else 0) + completedCount courses rest

end

/-- `learnerProgramIsCompleted`: whether it returns something that counts as true. -/
def learnerProgramIsCompleted (program : RecordProgram) : Except Error Bool :=
  match program.requirements with
  | [] => .ok false
  | [] :: _ => .error (.typeError "Cannot read properties of undefined (reading '0')")
  | (requiredCourses :: []) :: _ => .ok (walkNodes program.courses requiredCourses)
  | (requiredCourses :: electiveCourses :: _) :: _ =>
    .ok (walkNodes program.courses requiredCourses && walkNodes program.courses electiveCourses)

end MitxOnline

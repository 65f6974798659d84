import MitxOnline.Courses.Certificates
import MitxOnline.Lib.Thresholds

/-!
# Evaluating program requirements

The requirements of all programs are a forest of threshold trees: a required program that requires a
payment is an atom, as is a course, and any other required program is a reference. The evaluation of
a program is the evaluation of its name in the forest.
-/

namespace MitxOnline

open Threshold

/-! ## The forest of a curriculum -/

/-- What a requirement asks for below its operators: a course, or a certificate for a program. -/
abbrev Leaf := CourseId ⊕ ProgramId

mutual

/-- The threshold tree of a requirement. -/
def ProgramRequirement.toTree (cur : Curriculum) :
    ProgramRequirement → Tree Leaf ProgramId CertificateError
  | .node (.operator .allOf _) children => .all (toTrees cur children)
  | .node (.operator .minNumberOf value) children => .atLeast (minimum value) (toTrees cur children)
  | .node (.operator (.other _) _) _ => .never
  | .node (.course c) _ => .atom (.inl c)
  | .node (.program q) _ => if cur.requiresPayment q = true then .atom (.inr q) else .ref q

/-- The threshold trees of a row of requirements. -/
def toTrees (cur : Curriculum) : List ProgramRequirement → List (Tree Leaf ProgramId CertificateError)
  | [] => []
  | t :: rest => t.toTree cur :: toTrees cur rest

end

theorem toTrees_eq_map (cur : Curriculum) (ts : List ProgramRequirement) :
    toTrees cur ts = ts.map (·.toTree cur) := by
  induction ts with
  | nil => rfl
  | cons t rest ih => rw [toTrees, List.map_cons, ih]

/-- The requirements of the programs, under their keys. -/
def Curriculum.forest (cur : Curriculum) : Forest Leaf ProgramId CertificateError := fun p =>
  match cur.requirements p with
  | none => .error .doesNotExist
  | some children => .ok (toTrees cur children)

/-- The user is enrolled in the run, and the run counts towards a program. -/
def countsTowards (cur : Curriculum) (s : CertificateStore) (user : UserId) (r : RunId) : Bool :=
  ((s.enrollments user r).any fun e => e.active && e.changeStatus.isNone) && nonvariant cur r

/-- The user has what a requirement asks for. -/
def hasLeaf (cur : Curriculum) (s : CertificateStore) (user : UserId) : Leaf → Bool
  | .inl c => cur.runIds.any fun r => countsTowards cur s user r && (cur.courseRun r).course == c &&
      (holdsCertificate s user r || passedWithoutMode cur s user r)
  | .inr q => holdsProgramCertificate s user q

/-- A user can have what the requirement asks for: a course needs a run that counts. -/
def Certifiable (cur : Curriculum) : Leaf → Prop
  | .inl c => ∃ r ∈ cur.runIds, nonvariant cur r = true ∧ (cur.courseRun r).course = c
  | .inr _ => True

theorem certifiable_of_hasLeaf {cur : Curriculum} {s : CertificateStore} {user : UserId} (a : Leaf)
    (h : hasLeaf cur s user a = true) : Certifiable cur a := by
  cases a with
  | inl c =>
    obtain ⟨r, hr, hcounts⟩ := List.any_eq_true.mp h
    simp only [countsTowards, Bool.and_eq_true, beq_iff_eq] at hcounts
    exact ⟨r, hr, hcounts.1.1.2, hcounts.1.2⟩
  | inr q => trivial

/-! ## The evaluation is the evaluation of the forest -/

/-- Induction over a requirement, with the hypothesis for every child. -/
theorem ProgramRequirement.inductionOn {motive : ProgramRequirement → Prop} (t : ProgramRequirement)
    (node : ∀ data children, (∀ u ∈ children, motive u) → motive (.node data children)) : motive t :=
  match t with
  | .node data children => node data children fun u _ => u.inductionOn node

section Evaluation

variable {cur : Curriculum} {s : CertificateStore} {user : UserId} {p : ProgramId}
  {course : CourseId → Bool} {program : ProgramId → Except CertificateError Bool}
  {atom : Leaf → Bool} {ref : ProgramId → Except CertificateError Bool}

theorem allEarned_eq_evalAll (ts : List ProgramRequirement)
    (h : ∀ t ∈ ts, hasEarned course program t = (t.toTree cur).eval atom ref) :
    allEarned course program ts = evalAll atom ref (toTrees cur ts) := by
  induction ts with
  | nil => rfl
  | cons t rest ih =>
    have hrest := ih fun u hu => h u (List.mem_cons_of_mem t hu)
    rw [allEarned, toTrees, evalAll, h t List.mem_cons_self, hrest]
    cases (t.toTree cur).eval atom ref with
    | error e => rfl
    | ok b => cases b <;> rfl

theorem countEarned_eq_countReached (ts : List ProgramRequirement)
    (h : ∀ t ∈ ts, hasEarned course program t = (t.toTree cur).eval atom ref) :
    countEarned course program ts = countReached atom ref (toTrees cur ts) := by
  induction ts with
  | nil => rfl
  | cons t rest ih =>
    have hrest := ih fun u hu => h u (List.mem_cons_of_mem t hu)
    rw [countEarned, toTrees, countReached, h t List.mem_cons_self, hrest]
    cases (t.toTree cur).eval atom ref with
    | error e => rfl
    | ok b => cases countReached atom ref (toTrees cur rest) <;> rfl

theorem courses_subset_coursesOf {ts : List ProgramRequirement} {t : ProgramRequirement} {c : CourseId}
    (ht : t ∈ ts) (hc : c ∈ t.courses) : c ∈ coursesOf ts := by
  induction ts with
  | nil => cases ht
  | cons u rest ih =>
    rw [coursesOf, List.mem_append]
    rcases List.mem_cons.mp ht with rfl | ht
    · exact .inl hc
    · exact .inr (ih ht)

theorem coursesOf_subset_courses {data : RequirementNode} {children : List ProgramRequirement}
    {c : CourseId} (hc : c ∈ coursesOf children) :
    c ∈ (ProgramRequirement.node data children).courses := by
  cases data with
  | course c' => exact List.mem_cons_of_mem c' hc
  | operator o v => exact hc
  | program q => exact hc

/-- Below the root the evaluation is that of the threshold tree, where courses and required programs
are evaluated alike. -/
theorem hasEarned_eq_eval (t : ProgramRequirement)
    (hcourse : ∀ c ∈ t.courses, course c = atom (.inl c))
    (hprogram : ∀ q, program q = if cur.requiresPayment q = true then .ok (atom (.inr q)) else ref q) :
    hasEarned course program t = (t.toTree cur).eval atom ref := by
  induction t using ProgramRequirement.inductionOn with
  | node data children ih =>
    have hchildren : ∀ u ∈ children, hasEarned course program u = (u.toTree cur).eval atom ref :=
      fun u hu => ih u hu fun c hc =>
        hcourse c (coursesOf_subset_courses (courses_subset_coursesOf hu hc))
    cases data with
    | course c =>
      have hc : c ∈ (ProgramRequirement.node (.course c) children).courses := List.mem_cons_self
      rw [hasEarned, ProgramRequirement.toTree, Tree.eval, hcourse c hc]
    | program q =>
      rw [hasEarned, ProgramRequirement.toTree, hprogram q]
      by_cases hq : cur.requiresPayment q = true
      · rw [if_pos hq, if_pos hq, Tree.eval]
      · rw [if_neg hq, if_neg hq, Tree.eval]
    | operator o value =>
      cases o with
      | allOf => rw [hasEarned, ProgramRequirement.toTree, Tree.eval, allEarned_eq_evalAll _ hchildren]
      | minNumberOf =>
        rw [hasEarned, ProgramRequirement.toTree, Tree.eval, countEarned_eq_countReached _ hchildren]
        cases countReached atom ref (toTrees cur children) with
        | error e => rfl
        | ok count => cases minimum value <;> rfl
      | other v => rw [hasEarned, ProgramRequirement.toTree, Tree.eval]

/-- A course of the program counts through any run of the user that counts. -/
theorem contains_courses_iff {c : CourseId} (hc : c ∈ coursesQset cur p) :
    (certCourses cur s user p ++ gradeCourses cur s user p).contains c =
      hasLeaf cur s user (.inl c) := by
  rw [Bool.eq_iff_iff]
  simp only [List.contains_eq_mem, decide_eq_true_eq, List.mem_append, certCourses, gradeCourses,
    userCourseruns, hasLeaf, countsTowards, List.mem_map, List.mem_filter, List.any_eq_true,
    Bool.and_eq_true, Bool.or_eq_true, beq_iff_eq]
  constructor
  · rintro (⟨r, ⟨⟨hr, ⟨⟨henrolled, hvariant⟩, _⟩⟩, hcert⟩, rfl⟩ |
      ⟨r, ⟨⟨hr, ⟨⟨henrolled, hvariant⟩, _⟩⟩, hgrade⟩, rfl⟩)
    · exact ⟨r, hr, ⟨⟨⟨henrolled, hvariant⟩, rfl⟩, .inl hcert⟩⟩
    · exact ⟨r, hr, ⟨⟨⟨henrolled, hvariant⟩, rfl⟩, .inr hgrade⟩⟩
  · rintro ⟨r, hr, ⟨⟨⟨henrolled, hvariant⟩, rfl⟩, hcert | hgrade⟩⟩
    · exact .inl ⟨r, ⟨⟨hr, ⟨⟨henrolled, hvariant⟩, hc⟩⟩, hcert⟩, rfl⟩
    · exact .inr ⟨r, ⟨⟨hr, ⟨⟨henrolled, hvariant⟩, hc⟩⟩, hgrade⟩, rfl⟩

/-- Evaluating a program is evaluating its name in the forest. -/
theorem hasEarnedProgramCert_eq_eval (limit : ℕ) (p : ProgramId) :
    hasEarnedProgramCert cur s user limit p =
      cur.forest.eval .recursionError (hasLeaf cur s user) limit p := by
  induction limit generalizing p with
  | zero => rfl
  | succ limit ih =>
    rw [hasEarnedProgramCert, Forest.eval, Curriculum.forest]
    cases hp : cur.requirements p with
    | none => rfl
    | some children =>
      refine allEarned_eq_evalAll children fun t ht => hasEarned_eq_eval t (fun c hc => ?_) fun q => ?_
      · refine contains_courses_iff ?_
        rw [coursesQset, hp]
        exact courses_subset_coursesOf ht hc
      · by_cases hq : cur.requiresPayment q = true
        · rw [if_pos hq, if_pos hq]
          rfl
        · rw [if_neg hq, if_neg hq, ih q]

/-- The requirements of a program are met by what the user has. -/
def Meets (cur : Curriculum) (P : Leaf → Prop) (p : ProgramId) : Prop := Holds cur.forest P (.ref p)

/-- An evaluation that returns says whether the requirements are met. -/
theorem hasEarnedProgramCert_iff {limit : ℕ} {b : Bool}
    (h : hasEarnedProgramCert cur s user limit p = .ok b) :
    b = true ↔ Meets cur (hasLeaf cur s user · = true) p := by
  rw [hasEarnedProgramCert_eq_eval] at h
  exact forest_eval_iff h

/-- The evaluation returns exactly where the requirements are well-formed. -/
theorem hasEarnedProgramCert_returns_iff :
    (∃ limit b, hasEarnedProgramCert cur s user limit p = .ok b) ↔
      WellFormed cur.forest (hasLeaf cur s user · = true) p := by
  simp only [hasEarnedProgramCert_eq_eval]
  exact forest_returns_iff

/-- The user has earned the certificate: with some limit the evaluation returns `True`. -/
theorem hasEarnedProgramCert_true_iff :
    (∃ limit, hasEarnedProgramCert cur s user limit p = .ok true) ↔
      Meets cur (hasLeaf cur s user · = true) p ∧
        WellFormed cur.forest (hasLeaf cur s user · = true) p := by
  constructor
  · rintro ⟨limit, h⟩
    exact ⟨(hasEarnedProgramCert_iff h).mp rfl, hasEarnedProgramCert_returns_iff.mp ⟨limit, true, h⟩⟩
  · rintro ⟨hmeets, hwell⟩
    obtain ⟨limit, b, h⟩ := hasEarnedProgramCert_returns_iff.mpr hwell
    obtain rfl := (hasEarnedProgramCert_iff h).mpr hmeets
    exact ⟨limit, h⟩

end Evaluation

/-! ## Evaluation is total -/

/-- The learner who is enrolled in every run and has every certificate. -/
def fullStore : CertificateStore :=
  { CertificateStore.empty with
    enrollments := fun _ _ => some ⟨true, none, true, .verified⟩
    courseRunCertificates := fun _ _ => [⟨false, 0⟩]
    programCertificates := fun _ _ => [⟨false, 0⟩] }

theorem hasLeaf_fullStore {cur : Curriculum} {user : UserId} (a : Leaf) (h : Certifiable cur a) :
    hasLeaf cur fullStore user a = true := by
  cases a with
  | inl c =>
    obtain ⟨r, hr, hvariant, hcourse⟩ := h
    refine List.any_eq_true.mpr ⟨r, hr, ?_⟩
    simp [countsTowards, fullStore, hvariant, hcourse, holdsCertificate]
  | inr q => simp [hasLeaf, holdsProgramCertificate, fullStore]

/-- The evaluation of a program returns for every learner exactly where the requirements that it can
get to are well-formed: there is a tree for every program, minimums are numbers, and programs without
a mode that requires a payment do not require each other in a circle. -/
theorem hasEarned_total_iff (cur : Curriculum) (p : ProgramId) :
    (∀ s user, ∃ limit b, hasEarnedProgramCert cur s user limit p = .ok b) ↔
      WellFormed cur.forest (Certifiable cur) p := by
  constructor
  · intro h
    have hfull := hasEarnedProgramCert_returns_iff.mp (h fullStore 0)
    exact hfull.anti hasLeaf_fullStore
  · intro h s user
    exact hasEarnedProgramCert_returns_iff.mpr (h.anti certifiable_of_hasLeaf)

/-! ### Forms that raise -/

/-- An operator as the form sends it. -/
def FormNode.operator (operator : String) (operatorValue : OperatorValue) (children : List FormNode) :
    FormNode :=
  .node ⟨.operator, some "Courses", some operator, operatorValue, none, none⟩ children

/-- A course as the form sends it. -/
def FormNode.course (c : CourseId) : FormNode := .node ⟨.course, none, none, .missing, some c, none⟩ []

/-- A required program as the form sends it. -/
def FormNode.program (q : ProgramId) : FormNode := .node ⟨.program, none, none, .missing, none, some q⟩ []

/-- The requirements of programs 1 and 2 as the forms save them. -/
def Curriculum.ofForms (forms : ProgramId → List FormNode) : Curriculum :=
  Curriculum.ofRequirements fun p =>
    if p = 1 ∨ p = 2 then (saveAll (forms p)).toOption else none

/-- Two programs that require each other are never evaluated to an end. -/
theorem circular_programs_raise {cur : Curriculum} {p q : ProgramId}
    (hpay : cur.requiresPayment p = false ∧ cur.requiresPayment q = false)
    (hp : cur.requirements p = some [.node (.operator .allOf none) [.node (.program q) []]])
    (hq : cur.requirements q = some [.node (.operator .allOf none) [.node (.program p) []]])
    (s : CertificateStore) (user : UserId) (limit : ℕ) :
    hasEarnedProgramCert cur s user limit p = .error .recursionError ∧
      hasEarnedProgramCert cur s user limit q = .error .recursionError := by
  induction limit with
  | zero => exact ⟨rfl, rfl⟩
  | succ limit ih =>
    have hstep : ∀ p q, cur.requiresPayment q = false →
        cur.requirements p = some [.node (.operator .allOf none) [.node (.program q) []]] →
        hasEarnedProgramCert cur s user limit q = .error .recursionError →
        hasEarnedProgramCert cur s user (limit + 1) p = .error .recursionError := by
      intro p q hpay hp hq
      simp [hasEarnedProgramCert, hp, allEarned, hasEarned, hpay, hq]
    exact ⟨hstep p q hpay.2 hp ih.2, hstep q p hpay.1 hq ih.1⟩

/-- A minimum without a value, below an operator of the first level. -/
def formWithoutValue : List FormNode :=
  [.operator "all_of" .missing [.operator "min_number_of" .missing [.course 1, .course 2]]]

/-- The form of a program that requires program `q`. -/
def formRequiring (q : ProgramId) : List FormNode := [.operator "all_of" .missing [.program q]]

/-- The form accepts a nested minimum without a value, and two programs that require each other; no
evaluation of these comes to an end. -/
theorem accepted_requirements_raise :
    (clean formWithoutValue = .ok () ∧ (∃ children, saveAll formWithoutValue = .ok children) ∧
        ∀ s user limit b,
          hasEarnedProgramCert (.ofForms fun _ => formWithoutValue) s user limit 1 ≠ .ok b) ∧
      (∀ p, clean (formRequiring p) = .ok () ∧ ∃ children, saveAll (formRequiring p) = .ok children) ∧
        ∀ s user limit b,
          hasEarnedProgramCert (.ofForms fun p => formRequiring (3 - p)) s user limit 1 ≠ .ok b := by
  refine ⟨⟨by decide, ⟨_, rfl⟩, fun s user limit b h => ?_⟩, fun p => ⟨rfl, _, rfl⟩,
    fun s user limit b h => ?_⟩
  · have hwell := hasEarnedProgramCert_returns_iff.mp ⟨limit, b, h⟩
    have hroot : Consulted (Curriculum.ofForms fun _ => formWithoutValue).forest
        (hasLeaf (.ofForms fun _ => formWithoutValue) s user · = true) 1
        (.all ([] ++ .atLeast (.error .typeError) [.atom (.inl 1), .atom (.inl 2)] :: [])) :=
      @Consulted.root _ _ _ _ _ _ [] [] _ rfl (by simp)
    exact hwell.readable 1 .typeError _ .refl (hroot.all (by simp))
  · have hcircle : hasEarnedProgramCert (.ofForms fun p => formRequiring (3 - p)) s user limit 1 =
        .error .recursionError ∧ _ :=
      circular_programs_raise ⟨rfl, rfl⟩ rfl rfl s user limit
    rw [hcircle.1] at h
    cases h

end MitxOnline

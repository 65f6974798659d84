import Mathlib.Data.Finset.Powerset
import MitxOnline.Courses.ProgramUpgrades
import MitxOnline.Courses.Proofs.RequirementsProofs
import MitxOnline.Lib.Quotas

/-!
# Upgrades and the requirements tree

A program enrollment is upgraded by a quota: the required courses and a number of electives, which the
rows of the program fix. The evaluation of the tree is a monotone test of the verified courses, so the
two agree for all run enrollments exactly if they agree at the border of the quota.
-/

namespace MitxOnline

open Threshold Quotas

variable {cur : StoredCurriculum} {s : CertificateStore} {user : UserId} {now : Instant} {i limit : ℕ}
  {p : ProgramId} {c : CourseId} {data : CoursesWithRequirements}

/-! ## The evaluation is monotone -/

theorem hasEarnedWith_eq_eval (cur : Curriculum) (course : CourseId → Bool) (limit : ℕ) (p : ProgramId) :
    hasEarnedWith cur s user course limit p = cur.forest.eval .recursionError
      (Sum.elim course (holdsProgramCertificate s user)) limit p := by
  induction limit generalizing p with
  | zero => rfl
  | succ limit ih =>
    rw [hasEarnedWith, Forest.eval, Curriculum.forest]
    cases hp : cur.requirements p with
    | none => rfl
    | some children =>
      refine allEarned_eq_evalAll children fun t _ => hasEarned_eq_eval t (fun c _ => rfl) fun q => ?_
      by_cases hq : cur.requiresPayment q = true
      · rw [if_pos hq, if_pos hq]
        rfl
      · rw [if_neg hq, if_neg hq, ih q]

/-- The learner earns the program with verified enrollments in the chosen courses. -/
def EarnedBy (cur : Curriculum) (s : CertificateStore) (user : UserId) (limit : ℕ) (p : ProgramId)
    (chosen : Finset CourseId) : Prop :=
  hasEarnedWith cur s user (fun c => decide (c ∈ chosen)) limit p = .ok true

/-- Where the evaluation returns for more courses, it is monotone below these. -/
theorem EarnedBy.mono {cur : Curriculum} {all chosen more : Finset CourseId}
    (hall : EarnedBy cur s user limit p all) (hchosen : EarnedBy cur s user limit p chosen)
    (hsub : chosen ⊆ more) (hmore : more ⊆ all) : EarnedBy cur s user limit p more := by
  have hatom : ∀ {chosen more : Finset CourseId}, chosen ⊆ more → ∀ a : Leaf,
      Sum.elim (fun c => decide (c ∈ chosen)) (holdsProgramCertificate s user) a = true →
      Sum.elim (fun c => decide (c ∈ more)) (holdsProgramCertificate s user) a = true := by
    intro chosen more hsub a ha
    cases a with
    | inl c => exact decide_eq_true (hsub (of_decide_eq_true ha))
    | inr q => exact ha
  unfold EarnedBy at *
  rw [hasEarnedWith_eq_eval] at *
  obtain ⟨b, hb, -⟩ := forest_eval_anti (hatom hmore) limit p true hall
  obtain ⟨b', hb', himp⟩ := forest_eval_anti (hatom hsub) limit p b hb
  rw [hchosen] at hb'
  obtain rfl := Except.ok.inj hb'
  rw [hb, himp rfl]

/-! ## The quota of a program -/

/-- The courses that have a run. -/
def coursesWithRuns (cur : Curriculum) : Finset CourseId :=
  (cur.runIds.map fun r => (cur.courseRun r).course).toFinset

/-- The courses in which the user has a verified enrollment. -/
def verifiedSet (cur : Curriculum) (s : CertificateStore) (user : UserId) : Finset CourseId :=
  (coursesWithRuns cur).filter fun c => hasVerifiedRun cur s user c = true

theorem mem_verifiedSet {cur : Curriculum} :
    c ∈ verifiedSet cur s user ↔ hasVerifiedRun cur s user c = true := by
  refine ⟨fun h => (Finset.mem_filter.mp h).2, fun h => Finset.mem_filter.mpr ⟨?_, h⟩⟩
  obtain ⟨r, hr, hrun⟩ := List.any_eq_true.mp h
  rw [Bool.and_eq_true, beq_iff_eq] at hrun
  exact List.mem_toFinset.mpr (List.mem_map.mpr ⟨r, hr, hrun.1⟩)

theorem verifiedSet_subset {cur : Curriculum} : verifiedSet cur s user ⊆ coursesWithRuns cur :=
  Finset.filter_subset _ _

/-- What an upgrade asks for; nothing is enough where there is a certificate, or where the minimum cannot
be read. -/
def upgradeQuota (cur : StoredCurriculum) (now : Instant) (i : ℕ) (s : CertificateStore) :
    Option (Quota CourseId) :=
  let row := s.programEnrollments.table.row i
  if ((s.programCertificates row.user row.program).any fun c => c.isActive now) = true then none
  else
    match getCoursesWithRequirementsData (cur.rows row.program) with
    | .error _ => none
    | .ok data => some
        { required := data.requiredCourses.toFinset
          electives := data.electiveCourses.toFinset
          minimum := (data.operators.minimumElectiveRequirement.getD 0).toNat }

/-- A required or elective course is one of the courses. -/
theorem mem_courses_of_type {rows : List RequirementRow} {type : RequirementType}
    (hdata : getCoursesWithRequirementsData rows = .ok data) (hc : c ∈ coursesOfType rows type) :
    c ∈ data.courses.map Prod.fst := by
  obtain ⟨r, hr, hcourse⟩ := List.mem_filterMap.mp hc
  unfold getCoursesWithRequirementsData at hdata
  rcases hops : processOperators ⟨"Required Courses", "Elective Courses", none⟩
    ((mainOps rows).map (·.value)) with e | operators
  · rw [hops] at hdata
    cases hdata
  · rw [hops] at hdata
    cases hdata
    by_cases htype : courseType rows r = some type
    · rw [if_pos htype] at hcourse
      refine List.mem_map.mpr ⟨(c, type), List.mem_filterMap.mpr ⟨r, hr, ?_⟩, rfl⟩
      simp [htype, hcourse]
    · rw [if_neg htype] at hcourse
      cases hcourse

theorem coursesOfType_eq {rows : List RequirementRow}
    (hdata : getCoursesWithRequirementsData rows = .ok data) :
    data.requiredCourses = coursesOfType rows .required ∧
      data.electiveCourses = coursesOfType rows .elective := by
  unfold getCoursesWithRequirementsData at hdata
  rcases hops : processOperators ⟨"Required Courses", "Elective Courses", none⟩
    ((mainOps rows).map (·.value)) with e | operators
  · rw [hops] at hdata
    cases hdata
  · rw [hops] at hdata
    cases hdata
    exact ⟨rfl, rfl⟩

theorem mem_verifiedCourses {cur : Curriculum} {ids : List CourseId} :
    c ∈ verifiedCourses cur s user ids ↔ c ∈ ids ∧ c ∈ verifiedSet cur s user := by
  rw [verifiedCourses, List.mem_filter, List.mem_dedup, mem_verifiedSet]

/-- The courses are counted once each. -/
theorem verifiedElectiveCount_eq {cur : Curriculum} {ids electives : List CourseId}
    (h : ∀ c ∈ electives, c ∈ ids) :
    ((verifiedCourses cur s user ids).filter fun c => electives.contains c).length =
      (electives.toFinset ∩ verifiedSet cur s user).card := by
  have hnodup : ((verifiedCourses cur s user ids).filter fun c => electives.contains c).Nodup :=
    ((List.nodup_dedup ids).filter _).filter _
  rw [← List.toFinset_card_of_nodup hnodup]
  congr 1
  ext c
  simp only [List.mem_toFinset, List.mem_filter, List.contains_eq_mem, decide_eq_true_eq,
    Finset.mem_inter, mem_verifiedCourses]
  constructor
  · rintro ⟨⟨-, hverified⟩, helective⟩
    exact ⟨helective, hverified⟩
  · rintro ⟨helective, hverified⟩
    exact ⟨⟨h c helective, hverified⟩, helective⟩

theorem requiredCourses_iff {cur : Curriculum} {rows : List RequirementRow}
    (hdata : getCoursesWithRequirementsData rows = .ok data) :
    (data.requiredCourses.all fun c =>
        (verifiedCourses cur s user (data.courses.map Prod.fst)).contains c) = true ↔
      data.requiredCourses.toFinset ⊆ verifiedSet cur s user := by
  have hrequired := (coursesOfType_eq hdata).1
  simp only [List.all_eq_true, List.contains_eq_mem, decide_eq_true_eq, mem_verifiedCourses]
  constructor
  · intro h c hc
    exact (h c (List.mem_toFinset.mp hc)).2
  · intro h c hc
    exact ⟨mem_courses_of_type hdata (hrequired ▸ hc), h (List.mem_toFinset.mpr hc)⟩

/-- The comparison with the minimum, where nothing is compared if there is none. -/
theorem minimum_met_iff {count : ℕ} {minimum : Option ℤ} :
    (minimum.any fun k => decide ((count : ℤ) < k)) = false ↔ (minimum.getD 0).toNat ≤ count := by
  cases minimum with
  | none => simp
  | some k =>
    rw [Option.any_some, decide_eq_false_iff_not, Option.getD_some]
    omega

@[simp] theorem setMode_row_self (es : ProgramEnrollments) (mode : EnrollmentMode) :
    ((es.setMode i mode).table.row i).enrollment.enrollmentMode = mode := by
  rw [ProgramEnrollments.setMode, Table.set_row_self]
  rfl

/-- An audit enrollment is upgraded exactly where the verified courses meet the quota. -/
theorem upgraded_iff (haudit : (s.programEnrollments.table.row i).enrollment.enrollmentMode = .audit) :
    ((upgradeProgramEnrollmentIfEligible cur now i s).1.programEnrollments.table.row
        i).enrollment.enrollmentMode = .verified ↔
      ∃ q, upgradeQuota cur now i s = some q ∧
        q.Met (verifiedSet cur.toCurriculum s (s.programEnrollments.table.row i).user) := by
  have hnot : ¬(s.programEnrollments.table.row i).enrollment.enrollmentMode = .verified := by
    rw [haudit]
    decide
  unfold upgradeProgramEnrollmentIfEligible upgradeQuota
  dsimp only
  generalize (s.programEnrollments.table.row i).user = user
  generalize (s.programEnrollments.table.row i).program = program
  by_cases hcertificate : ((s.programCertificates user program).any fun c => c.isActive now) = true
  · rw [if_pos hcertificate, if_pos hcertificate]
    simpa using hnot
  rw [if_neg hcertificate, if_neg hcertificate]
  rcases hdata : getCoursesWithRequirementsData (cur.rows program) with e | data
  · simpa using hnot
  have hcount : ((verifiedCourses cur.toCurriculum s user (data.courses.map Prod.fst)).filter
        fun c => data.electiveCourses.contains c).length =
      (data.electiveCourses.toFinset ∩ verifiedSet cur.toCurriculum s user).card :=
    verifiedElectiveCount_eq fun c hc => mem_courses_of_type hdata ((coursesOfType_eq hdata).2 ▸ hc)
  dsimp only
  simp only [Option.some.injEq, exists_eq_left', Quota.Met]
  rw [hcount, ← minimum_met_iff, ← requiredCourses_iff hdata]
  rcases hall : data.requiredCourses.all fun c =>
    (verifiedCourses cur.toCurriculum s user (data.courses.map Prod.fst)).contains c
  · simpa using hnot
  · rcases hfew : data.operators.minimumElectiveRequirement.any fun k =>
      decide (((data.electiveCourses.toFinset ∩ verifiedSet cur.toCurriculum s user).card : ℤ) < k)
    · simp
    · simpa using hnot

/-! ## Agreement -/

/-- A verified enrollment in every run of the chosen courses. -/
def enrolledIn (cur : Curriculum) (chosen : Finset CourseId) (r : RunId) : Option CourseRunEnrollment :=
  if (cur.courseRun r).course ∈ chosen then some ⟨true, none, true, .verified⟩ else none

theorem verifiedSet_enrolledIn {cur : Curriculum} {chosen : Finset CourseId}
    (h : chosen ⊆ coursesWithRuns cur) :
    verifiedSet cur (s.withEnrollments user (enrolledIn cur chosen)) user = chosen := by
  have henrolled : ∀ r, (((s.withEnrollments user (enrolledIn cur chosen)).enrollments user r).any
      fun e => e.active && e.enrollmentMode == .verified) = true ↔ (cur.courseRun r).course ∈ chosen := by
    intro r
    by_cases hr : (cur.courseRun r).course ∈ chosen <;>
      simp [CertificateStore.withEnrollments, enrolledIn, hr]
  ext c
  rw [mem_verifiedSet, hasVerifiedRun, List.any_eq_true]
  simp only [Bool.and_eq_true, beq_iff_eq, henrolled]
  constructor
  · rintro ⟨r, -, rfl, hr⟩
    exact hr
  · intro hc
    obtain ⟨r, hr, rfl⟩ := List.mem_map.mp (List.mem_toFinset.mp (h hc))
    exact ⟨r, hr, rfl, hc⟩

/-- The evaluation reads the run enrollments as the set of verified courses. -/
theorem hasEarnedWith_hasVerifiedRun {cur : Curriculum} {enrollments : RunId → Option CourseRunEnrollment} :
    hasEarnedWith cur (s.withEnrollments user enrollments) user
        (hasVerifiedRun cur (s.withEnrollments user enrollments) user) limit p = .ok true ↔
      EarnedBy cur s user limit p (verifiedSet cur (s.withEnrollments user enrollments) user) := by
  have hcourse : hasVerifiedRun cur (s.withEnrollments user enrollments) user =
      fun c => decide (c ∈ verifiedSet cur (s.withEnrollments user enrollments) user) := by
    funext c
    rw [Bool.eq_iff_iff, decide_eq_true_iff, mem_verifiedSet]
  rw [EarnedBy, hcourse, hasEarnedWith_eq_eval, hasEarnedWith_eq_eval]
  rfl

/-- The enrollment is upgraded exactly where the evaluation of the tree gives true, whatever runs the
learner is enrolled in. -/
def UpgradesByTree (cur : StoredCurriculum) (limit : ℕ) (now : Instant) (i : ℕ) (s : CertificateStore) :
    Prop :=
  let row := s.programEnrollments.table.row i
  ∀ enrollments : RunId → Option CourseRunEnrollment,
    let s' := s.withEnrollments row.user enrollments
    ((upgradeProgramEnrollmentIfEligible cur now i s').1.programEnrollments.table.row
        i).enrollment.enrollmentMode = .verified ↔
      hasEarnedWith cur.toCurriculum s' row.user (hasVerifiedRun cur.toCurriculum s' row.user) limit
        row.program = .ok true

/-- The tree is the quota that is compared. Either the learner can be upgraded at all: then all courses
with runs are enough for the tree, as are the required courses with any smallest number of electives, and
neither the courses without a required one nor those with too few electives are. Or nothing is enough for
an upgrade, and nothing is enough for the tree. -/
def TreeIsQuota (cur : StoredCurriculum) (limit : ℕ) (now : Instant) (i : ℕ) (s : CertificateStore) :
    Prop :=
  let row := s.programEnrollments.table.row i
  let courses := coursesWithRuns cur.toCurriculum
  let earned := EarnedBy cur.toCurriculum s row.user limit row.program
  (∃ q, upgradeQuota cur now i s = some q ∧ q.Met courses ∧ q.BorderOf courses earned) ∨
    (∀ q, upgradeQuota cur now i s = some q → ¬q.Met courses) ∧ ∀ chosen ⊆ courses, ¬earned chosen

/-- Run enrollments matter as the set of verified courses, which can be any set of courses with runs. -/
theorem upgradesByTree_iff_sets
    (haudit : (s.programEnrollments.table.row i).enrollment.enrollmentMode = .audit) :
    UpgradesByTree cur limit now i s ↔
      ∀ chosen ⊆ coursesWithRuns cur.toCurriculum,
        (∃ q, upgradeQuota cur now i s = some q ∧ q.Met chosen) ↔
          EarnedBy cur.toCurriculum s (s.programEnrollments.table.row i).user limit
            (s.programEnrollments.table.row i).program chosen := by
  have hstep : ∀ enrollments : RunId → Option CourseRunEnrollment,
      ((upgradeProgramEnrollmentIfEligible cur now i (s.withEnrollments
          (s.programEnrollments.table.row i).user enrollments)).1.programEnrollments.table.row
            i).enrollment.enrollmentMode = .verified ↔
        ∃ q, upgradeQuota cur now i s = some q ∧ q.Met (verifiedSet cur.toCurriculum
          (s.withEnrollments (s.programEnrollments.table.row i).user enrollments)
            (s.programEnrollments.table.row i).user) := fun enrollments => upgraded_iff haudit
  constructor
  · intro h chosen hchosen
    have hset := h (enrolledIn cur.toCurriculum chosen)
    dsimp only at hset
    rw [hstep, hasEarnedWith_hasVerifiedRun, verifiedSet_enrolledIn hchosen] at hset
    exact hset
  · intro h enrollments
    dsimp only
    rw [hstep, hasEarnedWith_hasVerifiedRun]
    exact h _ verifiedSet_subset

/-- The enrollment is upgraded by the tree exactly if the tree is the quota. -/
theorem upgradesByTree_iff
    (haudit : (s.programEnrollments.table.row i).enrollment.enrollmentMode = .audit) :
    UpgradesByTree cur limit now i s ↔ TreeIsQuota cur limit now i s := by
  rw [upgradesByTree_iff_sets haudit, TreeIsQuota]
  generalize (s.programEnrollments.table.row i).user = user
  generalize (s.programEnrollments.table.row i).program = p
  cases hquota : upgradeQuota cur now i s with
  | none => simp
  | some q =>
    simp only [Option.some.injEq, exists_eq_left', forall_eq']
    exact q.met_iff_test_iff fun hall chosen more hsub hmore hchosen => hall.mono hchosen hsub hmore

/-! ### Programs with two courses -/

/-- The curriculum in which program 1 has the given requirements. -/
def StoredCurriculum.ofStored (req : Requirements) : StoredCurriculum :=
  { Curriculum.ofRequirements fun p =>
      (if p = 1 then some req else none : Option Requirements).map fun req => toRequirements req.children with
    stored := fun p => if p = 1 then some req else none
    requirements_eq := fun _ => rfl }

/-- A group of courses. -/
def courseGroup (operator : RequirementNode) (elective : Bool) (courses : List CourseId) :
    Paths.PathTree RequirementFields :=
  .node ⟨operator, some "Courses", some elective⟩
    (courses.map fun c => .node ⟨.course c, none, some false⟩ [])

/-- Course 1 is required, and course 2 is an elective of which one is needed. -/
def requiredAndElective : Requirements where
  rootElectiveFlag := none
  children :=
    [courseGroup (.operator .allOf none) false [1], courseGroup (.operator .minNumberOf (some "1")) true [2]]

/-- Two groups of electives with one course each, of which each is needed. -/
def twoElectiveGroups : Requirements where
  rootElectiveFlag := none
  children :=
    [courseGroup (.operator .minNumberOf (some "1")) true [1],
      courseGroup (.operator .minNumberOf (some "1")) true [2]]

/-- A learner with an audit enrollment in program 1. -/
def auditLearner : CertificateStore :=
  { CertificateStore.empty with
    programEnrollments :=
      { table := Table.single 1 ⟨1, 1, ⟨true, none, .audit⟩⟩
        pos := by decide
        unique_together := by decide } }

theorem upgradesByTree_requiredAndElective :
    UpgradesByTree (.ofStored requiredAndElective) 2 0 1 auditLearner := by
  have hquota : upgradeQuota (.ofStored requiredAndElective) 0 1 auditLearner = some ⟨{1}, {2}, 1⟩ := by
    decide
  have henough : ∀ chosen ∈ ({2} : Finset CourseId).powerset, chosen.card = 1 →
      hasEarnedWith (StoredCurriculum.ofStored requiredAndElective).toCurriculum auditLearner 1
        (fun c => decide (c ∈ {1} ∪ chosen)) 2 1 = .ok true := by decide
  have htooFew : ∀ chosen ∈ ({2} : Finset CourseId).powerset, chosen.card < 1 →
      hasEarnedWith (StoredCurriculum.ofStored requiredAndElective).toCurriculum auditLearner 1
        (fun c => decide (c ∈ {1, 2} \ {2} ∪ chosen)) 2 1 ≠ .ok true := by decide
  refine (upgradesByTree_iff rfl).mpr (Or.inl ⟨_, hquota, ⟨by decide, by decide⟩, ?_⟩)
  refine ⟨by unfold EarnedBy; decide, fun chosen hchosen => ?_, by unfold EarnedBy; decide,
    fun chosen hchosen => ?_⟩
  · exact henough chosen (Finset.mem_powerset.mpr (hchosen.trans Finset.inter_subset_left))
  · exact htooFew chosen (Finset.mem_powerset.mpr (hchosen.trans Finset.inter_subset_left))

/-- One of the courses is enough for an upgrade, and the tree asks for both. -/
theorem not_upgradesByTree : ¬ ∀ (cur : StoredCurriculum) (limit : ℕ) (now : Instant) (i : ℕ)
    (s : CertificateStore), (s.programEnrollments.table.row i).enrollment.enrollmentMode = .audit →
      UpgradesByTree cur limit now i s := by
  intro h
  have hboth := h (.ofStored twoElectiveGroups) 2 0 1 auditLearner rfl
    fun r => if r = 1 then some ⟨true, none, true, .verified⟩ else none
  revert hboth
  decide

end MitxOnline

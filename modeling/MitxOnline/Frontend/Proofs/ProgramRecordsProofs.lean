import MitxOnline.Courses.Proofs.RequirementsProofs
import MitxOnline.Frontend.ProgramRecords

/-!
# Whether the page and the certificates agree

The page reads every group as a threshold tree of its own: an operator without children is never met, and a
minimum is what its text starts with. What it shows is the first two of these trees.
-/

namespace MitxOnline

open Threshold

variable {grade certificate completed listed : CourseId → Bool} {groups children : List ProgramRequirement}
  {program : ProgramId → Except CertificateError Bool} {courses : List RecordCourse} {t : ProgramRequirement}

mutual

/-- The threshold tree that the page reads a requirement as. -/
def ProgramRequirement.asRead : ProgramRequirement → Tree CourseId Empty Empty
  | .node (.operator operator value) children =>
    if children.isEmpty then .never
    else
      match operator with
      | .allOf => .all (allAsRead children)
      | _ =>
        match value.bind jsParseInt with
        | some k => .atLeast (.ok k) (allAsRead children)
        | none => .never
  | .node (.course c) _ => .atom c
  | .node (.program _) _ => .never

/-- The trees that the page reads requirements as. -/
def allAsRead : List ProgramRequirement → List (Tree CourseId Empty Empty)
  | [] => []
  | t :: rest => t.asRead :: allAsRead rest

end

/-- The requirement is met as the page reads it. -/
def MetAsRead (completed : CourseId → Bool) (t : ProgramRequirement) : Prop :=
  Holds (fun r : Empty => r.elim) (completed · = true) t.asRead

/-- The course is completed and stands below a group. -/
def completedBelow (grade certificate : CourseId → Bool) (groups : List ProgramRequirement) (c : CourseId) :
    Bool := (recordCourses groups).contains c && (grade c && certificate c)

/-- The page shows that the program is completed exactly if the tree walk for the certificate says so. -/
def AgreesOnCompletion (grade certificate : CourseId → Bool)
    (program : ProgramId → Except CertificateError Bool) (groups : List ProgramRequirement) : Prop :=
  learnerProgramIsCompleted (learnerRecord grade certificate groups) = .ok true ↔
    allEarned (fun c => grade c && certificate c) program groups = .ok true

/-- There is a group; where the first two groups are met as the page reads them, all groups are met; and where
all groups are met, the first two are met as the page reads them. -/
structure ReadRight (grade certificate : CourseId → Bool)
    (program : ProgramId → Except CertificateError Bool) (groups : List ProgramRequirement) : Prop where
  nonempty : groups ≠ []
  noneOverlooked : (∀ t ∈ groups.take 2, MetAsRead (completedBelow grade certificate groups) t) →
    ∀ t ∈ groups, hasEarned (fun c => grade c && certificate c) program t = .ok true
  noneMissed : (∀ t ∈ groups, hasEarned (fun c => grade c && certificate c) program t = .ok true) →
    ∀ t ∈ groups.take 2, MetAsRead (completedBelow grade certificate groups) t

/-- Every operator has children and is one of the two that there are, and `parseInt` and `int` read the same
from its minimum. -/
inductive Plain : ProgramRequirement → Prop where
  | course (c : CourseId) (children : List ProgramRequirement) : Plain (.node (.course c) children)
  | allOf {value : Option String} {children : List ProgramRequirement} (hne : children ≠ [])
      (hall : ∀ t ∈ children, Plain t) : Plain (.node (.operator .allOf value) children)
  | minNumberOf {value : String} {k : ℤ} {children : List ProgramRequirement} (hne : children ≠ [])
      (hint : readInt value = some k) (hparse : jsParseInt value = some k)
      (hall : ∀ t ∈ children, Plain t) : Plain (.node (.operator .minNumberOf (some value)) children)

/-- One or two groups, each a plain operator. -/
structure PlainGroups (groups : List ProgramRequirement) : Prop where
  nonempty : groups ≠ []
  atMostTwo : groups.length ≤ 2
  operators : ∀ t ∈ groups, ∃ operator value children, t = .node (.operator operator value) children
  plain : ∀ t ∈ groups, Plain t

/-! ## Courses of the record -/

theorem isNodeCompleted_learnerRecord (c : CourseId) :
    isNodeCompleted (learnerRecord grade certificate groups).courses c =
      completedBelow grade certificate groups c := by
  unfold isNodeCompleted learnerRecord completedBelow
  dsimp only
  rw [List.find?_map]
  have hid : ((fun course : RecordCourse => course.id == c) ∘ fun c => ⟨c, grade c, certificate c⟩) =
      fun d : CourseId => d == c := rfl
  rw [hid]
  cases hfind : (recordCourses groups).find? fun d => d == c with
  | none =>
    have hnot : c ∉ recordCourses groups := fun hmem => by
      have h := List.find?_eq_none.mp hfind c hmem
      simp at h
    simp [hnot]
  | some d =>
    obtain rfl : d = c := by simpa using List.find?_some hfind
    have hmem : d ∈ recordCourses groups := List.mem_of_find?_eq_some hfind
    simp [hmem]

/-! ## The walk evaluates the tree that is read -/

theorem completedCount_eq_length_iff (ts : List ProgramRequirement) :
    completedCount courses ts = ts.length ↔ ∀ t ∈ ts, walkNodes courses t = true := by
  have hle : ∀ ts : List ProgramRequirement, completedCount courses ts ≤ ts.length := by
    intro ts
    induction ts with
    | nil => exact le_rfl
    | cons t rest ih =>
      rw [completedCount, List.length_cons]
      split_ifs <;> omega
  induction ts with
  | nil => simp [completedCount]
  | cons t rest ih =>
    have hrest := hle rest
    rw [completedCount, List.length_cons, List.forall_mem_cons]
    refine Iff.trans ?_ (and_congr_right' ih)
    split_ifs with ht
    · constructor
      · intro h
        exact ⟨ht, by omega⟩
      · rintro ⟨-, h⟩
        omega
    · constructor
      · intro h
        omega
      · rintro ⟨h, -⟩
        exact absurd h ht

theorem completedCount_cons_beq (t : ProgramRequirement) (rest : List ProgramRequirement) :
    (completedCount courses (t :: rest) == (t :: rest).length) =
      (walkNodes courses t && (completedCount courses rest == rest.length)) := by
  rw [Bool.eq_iff_iff, Bool.and_eq_true, beq_iff_eq, beq_iff_eq, completedCount_eq_length_iff,
    List.forall_mem_cons, completedCount_eq_length_iff]

theorem allAsRead_isEvaluated {atom : CourseId → Bool} {ref : Empty → Except Empty Bool}
    (ts : List ProgramRequirement)
    (h : ∀ t ∈ ts, t.asRead.eval atom ref = .ok (walkNodes courses t)) :
    evalAll atom ref (allAsRead ts) = .ok (completedCount courses ts == ts.length) ∧
      countReached atom ref (allAsRead ts) = .ok (completedCount courses ts) := by
  induction ts with
  | nil => exact ⟨rfl, rfl⟩
  | cons t rest ih =>
    obtain ⟨hall, hcount⟩ := ih fun u hu => h u (List.mem_cons_of_mem t hu)
    have ht := h t List.mem_cons_self
    rw [allAsRead, evalAll, countReached, ht, hall, hcount, completedCount_cons_beq, completedCount]
    cases walkNodes courses t with
    | false => exact ⟨rfl, by simp⟩
    | true => exact ⟨rfl, by simp [Nat.add_comm]⟩

theorem asRead_eval {atom : CourseId → Bool} {ref : Empty → Except Empty Bool} (t : ProgramRequirement)
    (hcourse : ∀ c, isNodeCompleted courses c = atom c) :
    t.asRead.eval atom ref = .ok (walkNodes courses t) := by
  induction t using ProgramRequirement.inductionOn with
  | node data children ih =>
    obtain ⟨hall, hcount⟩ := allAsRead_isEvaluated children ih
    cases data with
    | course c => rw [ProgramRequirement.asRead, walkNodes, Tree.eval, hcourse]
    | program q => rw [ProgramRequirement.asRead, walkNodes, Tree.eval]
    | operator o value =>
      unfold ProgramRequirement.asRead walkNodes
      by_cases hempty : children.isEmpty = true
      · rw [if_pos hempty, if_pos hempty, Tree.eval]
      · rw [if_neg hempty, if_neg hempty]
        cases o with
        | allOf => exact hall
        | minNumberOf =>
          dsimp only
          cases value.bind jsParseInt with
          | none => rfl
          | some k =>
            dsimp only
            rw [Tree.eval, hcount]
        | other v =>
          dsimp only
          cases value.bind jsParseInt with
          | none => rfl
          | some k =>
            dsimp only
            rw [Tree.eval, hcount]

/-- What the walk returns is whether the requirement is met as it is read. -/
theorem walkNodes_iff (t : ProgramRequirement) :
    walkNodes (learnerRecord grade certificate groups).courses t = true ↔
      MetAsRead (completedBelow grade certificate groups) t := by
  have heval : t.asRead.eval (completedBelow grade certificate groups) (fun r => r.elim) =
      .ok (walkNodes (learnerRecord grade certificate groups).courses t) :=
    asRead_eval t isNodeCompleted_learnerRecord
  constructor
  · intro h
    rw [h] at heval
    exact holds_of_eval (fun r => r.elim) heval
  · intro h
    exact eval_of_holds (fun r => r.elim) h heval

theorem learnerProgramIsCompleted_iff :
    learnerProgramIsCompleted (learnerRecord grade certificate groups) = .ok true ↔
      groups ≠ [] ∧ ∀ t ∈ groups.take 2, MetAsRead (completedBelow grade certificate groups) t := by
  have hwalk : (∀ t ∈ groups.take 2, MetAsRead (completedBelow grade certificate groups) t) ↔
      ∀ t ∈ groups.take 2, walkNodes (learnerRecord grade certificate groups).courses t = true :=
    forall₂_congr fun t _ => (walkNodes_iff t).symm
  rw [hwalk]
  unfold learnerProgramIsCompleted
  cases groups with
  | nil => simp [learnerRecord]
  | cons first rest =>
    cases rest with
    | nil => simp [learnerRecord]
    | cons second rest => simp [learnerRecord]

theorem allEarned_iff (ts : List ProgramRequirement) : allEarned completed program ts = .ok true ↔
    ∀ t ∈ ts, hasEarned completed program t = .ok true := by
  induction ts with
  | nil => simp [allEarned]
  | cons t rest ih =>
    rw [allEarned, List.forall_mem_cons, ← ih]
    cases hasEarned completed program t with
    | error e => simp
    | ok b => cases b <;> simp

/-! ## Plain trees are read as they are -/

theorem allEarned_of_walk (ts : List ProgramRequirement)
    (h : ∀ t ∈ ts, hasEarned completed program t = .ok (walkNodes courses t)) :
    allEarned completed program ts = .ok (completedCount courses ts == ts.length) ∧
      countEarned completed program ts = .ok (completedCount courses ts) := by
  induction ts with
  | nil => exact ⟨rfl, rfl⟩
  | cons t rest ih =>
    obtain ⟨hall, hcount⟩ := ih fun u hu => h u (List.mem_cons_of_mem t hu)
    have ht := h t List.mem_cons_self
    rw [allEarned, countEarned, ht, hall, hcount, completedCount_cons_beq, completedCount]
    cases walkNodes courses t with
    | false => exact ⟨rfl, by simp⟩
    | true => exact ⟨rfl, by simp [Nat.add_comm]⟩

theorem Plain.hasEarned_eq (h : Plain t)
    (hcourse : ∀ c ∈ t.courses, isNodeCompleted courses c = completed c) :
    hasEarned completed program t = .ok (walkNodes courses t) := by
  induction h with
  | course c children =>
    have hc : c ∈ (ProgramRequirement.node (.course c) children).courses := List.mem_cons_self
    rw [hasEarned, walkNodes, hcourse c hc]
  | allOf hne _ ih =>
    rename_i value children _
    obtain ⟨hall, -⟩ := allEarned_of_walk children fun u hu =>
      ih u hu fun c hc => hcourse c (courses_subset_coursesOf hu hc)
    have hempty : children.isEmpty = false := by simpa using hne
    unfold walkNodes
    rw [hasEarned, hall, hempty]
    rfl
  | minNumberOf hne hint hparse _ ih =>
    rename_i value k children _
    obtain ⟨-, hcount⟩ := allEarned_of_walk children fun u hu =>
      ih u hu fun c hc => hcourse c (courses_subset_coursesOf hu hc)
    have hempty : children.isEmpty = false := by simpa using hne
    unfold walkNodes
    rw [hasEarned, hcount, hempty]
    simp [minimum, hint, hparse]

theorem mem_recordCourses {data : RequirementNode} {c : CourseId}
    (ht : ProgramRequirement.node data children ∈ groups) (hc : c ∈ coursesOf children) :
    c ∈ recordCourses groups := List.mem_flatMap.mpr ⟨_, ht, hc⟩

theorem PlainGroups.hasEarned_iff (h : PlainGroups groups) (ht : t ∈ groups) :
    hasEarned (fun c => grade c && certificate c) program t = .ok true ↔
      MetAsRead (completedBelow grade certificate groups) t := by
  obtain ⟨operator, value, children, rfl⟩ := h.operators t ht
  have heq : hasEarned (fun c => grade c && certificate c) program
      (.node (.operator operator value) children) =
      .ok (walkNodes (learnerRecord grade certificate groups).courses
        (.node (.operator operator value) children)) := by
    refine (h.plain _ ht).hasEarned_eq fun c hc => ?_
    have hmem : c ∈ recordCourses groups := mem_recordCourses ht hc
    rw [isNodeCompleted_learnerRecord]
    simp [completedBelow, hmem]
  rw [heq, Except.ok.injEq, walkNodes_iff]

theorem PlainGroups.readRight (h : PlainGroups groups) : ReadRight grade certificate program groups := by
  have htake : groups.take 2 = groups := List.take_of_length_le h.atMostTwo
  refine ⟨h.nonempty, ?_, ?_⟩
  · rw [htake]
    exact fun hmet t ht => (h.hasEarned_iff ht).mpr (hmet t ht)
  · rw [htake]
    exact fun hmet t ht => (h.hasEarned_iff ht).mp (hmet t ht)

/-! ## When they agree -/

/-- Of a tree of one or two plain groups the page and the evaluation for the certificate say the same, whatever
is completed; of any tree they do exactly if its groups are read right. -/
theorem agreesOnCompletion_iff (grade certificate : CourseId → Bool)
    (program : ProgramId → Except CertificateError Bool) (groups : List ProgramRequirement) :
    (PlainGroups groups → AgreesOnCompletion grade certificate program groups) ∧
      (AgreesOnCompletion grade certificate program groups ↔ ReadRight grade certificate program groups) := by
  have hread : AgreesOnCompletion grade certificate program groups ↔
      ReadRight grade certificate program groups := by
    unfold AgreesOnCompletion
    rw [learnerProgramIsCompleted_iff, allEarned_iff]
    constructor
    · intro h
      have hne : groups ≠ [] := by
        rintro rfl
        exact (h.mpr fun t ht => absurd ht List.not_mem_nil).1 rfl
      exact ⟨hne, fun hmet => h.mp ⟨hne, hmet⟩, fun hmet => (h.mpr hmet).2⟩
    · intro h
      exact ⟨fun hmet => h.noneOverlooked hmet.2, fun hmet => ⟨h.nonempty, h.noneMissed hmet⟩⟩
  exact ⟨fun hplain => hread.mpr hplain.readRight, hread⟩

/-- Three groups of one course each. -/
def formOfThreeGroups : List FormNode :=
  [.operator "all_of" .missing [.course 1], .operator "min_number_of" (.int 1) [.course 2],
    .operator "all_of" .missing [.course 3]]

/-- The page does not look at the third group. -/
theorem not_agreesOnCompletion :
    ¬∀ (form : List FormNode) (groups : List ProgramRequirement) (grade certificate : CourseId → Bool)
      (program : ProgramId → Except CertificateError Bool), clean form = .ok () → saveAll form = .ok groups →
      programsOf groups = [] → AgreesOnCompletion grade certificate program groups := by
  intro h
  have hagrees := h formOfThreeGroups
    [.node (.operator .allOf none) [.node (.course 1) []],
      .node (.operator .minNumberOf (some "1")) [.node (.course 2) []],
      .node (.operator .allOf none) [.node (.course 3) []]]
    (fun c => c != 3) (fun c => c != 3) (fun _ => .ok false) (by decide) rfl rfl
  have hshown := hagrees.mp rfl
  cases hshown

end MitxOnline

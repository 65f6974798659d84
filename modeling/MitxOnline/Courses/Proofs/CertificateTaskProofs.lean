import MitxOnline.Courses.CertificateTask
import MitxOnline.Courses.Proofs.CertificatesProofs

/-!
# Learners apart in the certificate task

What the task does to the grade and the certificates of a learner in a run depends on what edX says of this
learner in this run and on nothing else. So it can be read off the grades one after the other.
-/

namespace MitxOnline

open Autocommit

variable {cur : Curriculum} {limit : ℕ} {source : GradeSource} {task : CertificateTask}
  {s s' : CertificateStore} {user user' : UserId} {r r' : RunId} {now : Instant} {edxGrade : EdxGrade}
  {g : CourseRunGrade}

/-! ## One learner in one run -/

/-- The grade and the certificates of a learner in a run. -/
structure LearnerRecord where
  grade : Option CourseRunGrade
  certificates : List Certificate

def CertificateStore.record (s : CertificateStore) (key : UserId × RunId) : LearnerRecord :=
  ⟨s.grades key.1 key.2, s.courseRunCertificates key.1 key.2⟩

/-- The grade after edX reported one: a new grade is inserted, the one of an admin is kept. -/
def gradeFrom (edxGrade : EdxGrade) : Option CourseRunGrade → Except CertificateError CourseRunGrade
  | none =>
    let g : CourseRunGrade := ⟨edxGrade.percent, edxGrade.letterGrade, edxGrade.passed, false⟩
    if g.insertable = true then .ok g else .error .dataError
  | some g =>
    let updated : CourseRunGrade :=
      { g with grade := edxGrade.percent, passed := edxGrade.passed, letterGrade := edxGrade.letterGrade }
    if g.setByAdmin = false ∧ updated ≠ g then updated.fullClean.map fun _ => updated else .ok g

/-- The certificates after a grade was written. -/
def certificatesFrom (clock : Instant) (verified : Bool) (g : CourseRunGrade) (rows : List Certificate) :
    List Certificate :=
  if g.grade = 0 then rows.filter fun c => !c.isActive clock
  else if g.passed = true ∧ verified = true ∧ rows = [] then [⟨false, clock⟩]
  else rows

/-- The record after edX reported a grade. -/
def LearnerRecord.step (verified due : Bool) (clock : Instant) (record : LearnerRecord) (edxGrade : EdxGrade) :
    LearnerRecord :=
  match gradeFrom edxGrade record.grade with
  | .error _ => record
  | .ok g => ⟨some g, if due = true then certificatesFrom clock verified g record.certificates
      else record.certificates⟩

/-- The user is enrolled in the run with a verified mode. -/
def CertificateStore.isVerified (s : CertificateStore) (key : UserId × RunId) : Bool :=
  (s.enrollments key.1 key.2).any fun e => e.active && e.enrollmentMode == .verified

/-- Nothing but the record of the key and certificates for programs has changed. -/
structure CertificateStore.Touches (key : UserId × RunId) (s s' : CertificateStore) : Prop where
  enrollments : s'.enrollments = s.enrollments
  others : ∀ k, k ≠ key → s'.record k = s.record k

variable {key : UserId × RunId}

theorem touches_refl (key : UserId × RunId) (s : CertificateStore) : s.Touches key s :=
  ⟨rfl, fun _ _ => rfl⟩

theorem CertificateStore.Touches.trans {t : CertificateStore} (h : s.Touches key s') (h' : s'.Touches key t) :
    s.Touches key t :=
  ⟨h'.enrollments.trans h.enrollments, fun k hk => (h'.others k hk).trans (h.others k hk)⟩

theorem CertificateStore.Touches.isVerified (h : s.Touches key s') (k : UserId × RunId) :
    s'.isVerified k = s.isVerified k := by
  unfold CertificateStore.isVerified
  rw [h.enrollments]

theorem touches_setGrade (user : UserId) (r : RunId) (g : CourseRunGrade) (s : CertificateStore) :
    s.Touches (user, r) (s.setGrade user r g) := by
  refine ⟨rfl, fun k hk => ?_⟩
  have hne : ¬(k.1 = user ∧ k.2 = r) := fun h => hk (Prod.ext h.1 h.2)
  have hgrade : setPair s.grades user r (some g) k.1 k.2 = s.grades k.1 k.2 := setPair_of_ne hne
  exact congrArg (LearnerRecord.mk · _) hgrade

theorem touches_setCourseRunCertificates (user : UserId) (r : RunId) (rows : List Certificate)
    (s : CertificateStore) : s.Touches (user, r) (s.setCourseRunCertificates user r rows) := by
  refine ⟨rfl, fun k hk => ?_⟩
  have hne : ¬(k.1 = user ∧ k.2 = r) := fun h => hk (Prod.ext h.1 h.2)
  have hrows : setPair s.courseRunCertificates user r rows k.1 k.2 = s.courseRunCertificates k.1 k.2 :=
    setPair_of_ne hne
  exact congrArg (LearnerRecord.mk _) hrows

theorem record_setGrade (user : UserId) (r : RunId) (g : CourseRunGrade) (s : CertificateStore) :
    (s.setGrade user r g).record (user, r) = ⟨some g, s.courseRunCertificates user r⟩ :=
  congrArg (LearnerRecord.mk · _) (setPair_self s.grades user r (some g))

theorem record_setCourseRunCertificates (user : UserId) (r : RunId) (rows : List Certificate)
    (s : CertificateStore) :
    (s.setCourseRunCertificates user r rows).record (user, r) = ⟨s.grades user r, rows⟩ :=
  congrArg (LearnerRecord.mk _) (setPair_self s.courseRunCertificates user r rows)

/-! ## The two functions, for one learner -/

theorem ensureCourseRunGrade_spec (user : UserId) (r : RunId) (edxGrade : EdxGrade) (s : CertificateStore) :
    (∃ e, gradeFrom edxGrade (s.grades user r) = .error e ∧
      ensureCourseRunGrade user r edxGrade true s = (s, .error e)) ∨
    ∃ s' g flags, gradeFrom edxGrade (s.grades user r) = .ok g ∧
      ensureCourseRunGrade user r edxGrade true s = (s', .ok (g, flags)) ∧ s.Touches (user, r) s' ∧
      s'.record (user, r) = ⟨some g, s.courseRunCertificates user r⟩ := by
  unfold ensureCourseRunGrade gradeFrom
  cases hgrade : s.grades user r with
  | none =>
    dsimp only
    split_ifs
    · exact Or.inr ⟨_, _, _, rfl, rfl, touches_setGrade user r _ s, record_setGrade user r _ s⟩
    · exact Or.inl ⟨_, rfl, rfl⟩
  | some g =>
    have hkept : s.record (user, r) = ⟨some g, s.courseRunCertificates user r⟩ :=
      congrArg (LearnerRecord.mk · _) hgrade
    by_cases hupdate : g.setByAdmin = false ∧ ({ g with
        grade := edxGrade.percent, passed := edxGrade.passed, letterGrade := edxGrade.letterGrade } :
          CourseRunGrade) ≠ g
    · dsimp only
      rw [if_pos hupdate, if_pos ⟨rfl, hupdate⟩]
      cases hclean : ({ g with grade := edxGrade.percent, passed := edxGrade.passed
                               letterGrade := edxGrade.letterGrade } : CourseRunGrade).fullClean with
      | error e => exact Or.inl ⟨e, rfl, rfl⟩
      | ok _ => exact Or.inr ⟨_, _, _, rfl, rfl, touches_setGrade user r _ s, record_setGrade user r _ s⟩
    · have hupdate' : ¬(true = true ∧ g.setByAdmin = false ∧ ({ g with
          grade := edxGrade.percent, passed := edxGrade.passed, letterGrade := edxGrade.letterGrade } :
            CourseRunGrade) ≠ g) := fun h => hupdate h.2
      dsimp only
      rw [if_neg hupdate, if_neg hupdate']
      exact Or.inr ⟨s, g, _, rfl, rfl, touches_refl _ s, hkept⟩

theorem generateProgramCertificate_enrollments (cur : Curriculum) (limit : ℕ) (now : Instant) (user : UserId)
    (p : ProgramId) (s : CertificateStore) :
    (generateProgramCertificate cur limit now user p false s).1.enrollments = s.enrollments := by
  rcases generateProgramCertificate_cases cur limit now user p false s with hsame | ⟨-, hset⟩
  · rw [hsame]
  · rw [hset]
    rfl

theorem generateMultiple_enrollments (cur : Curriculum) (limit : ℕ) (now : Instant) (user : UserId)
    (programs : List ProgramId) (s : CertificateStore) :
    (generateMultipleProgramsCertificate cur limit now user programs s).1.enrollments = s.enrollments := by
  induction programs generalizing s with
  | nil => rfl
  | cons p rest ih =>
    have hfirst := generateProgramCertificate_enrollments cur limit now user p s
    rw [generateMultipleProgramsCertificate]
    rcases hstep : generateProgramCertificate cur limit now user p false s with ⟨s1, e | created⟩
    · rw [hstep] at hfirst
      exact hfirst
    · rw [hstep] at hfirst
      exact (ih s1).trans hfirst

/-- The certificates for programs that follow on a new certificate touch no learner's record. -/
theorem generateMultiple_record (cur : Curriculum) (limit : ℕ) (now : Instant) (user : UserId)
    (programs : List ProgramId) (s : CertificateStore) (key k : UserId × RunId) :
    s.Touches key (generateMultipleProgramsCertificate cur limit now user programs s).1 ∧
      (generateMultipleProgramsCertificate cur limit now user programs s).1.record k = s.record k := by
  have hissues := generateMultiple_issues cur limit now user programs s
  have hsame (k : UserId × RunId) :
      (generateMultipleProgramsCertificate cur limit now user programs s).1.record k = s.record k := by
    unfold CertificateStore.record
    rw [hissues.grades, hissues.courseRunCertificates]
  exact ⟨⟨generateMultiple_enrollments cur limit now user programs s, fun k _ => hsame k⟩, hsame k⟩

theorem isCertificateEligible_eq (s : CertificateStore) (user : UserId) (r : RunId) (g : CourseRunGrade) :
    isCertificateEligible s user r g = (g.passed && s.isVerified (user, r)) := rfl

/-- A verified learner who passed and holds no certificate gets one; a failure of the certificates for programs
leaves it. -/
theorem processCourseRunGradeCertificate_new (cur : Curriculum) (limit : ℕ) (clock : Instant)
    {user : UserId} {r : RunId} {g : CourseRunGrade} {s : CertificateStore} (hgrade : g.grade ≠ 0)
    (hpassed : g.passed = true) (hverified : s.isVerified (user, r) = true)
    (hrows : s.courseRunCertificates user r = []) :
    s.Touches (user, r) (processCourseRunGradeCertificate cur limit clock user r g false s).1 ∧
      (processCourseRunGradeCertificate cur limit clock user r g false s).1.record (user, r) =
        ⟨s.grades user r, [⟨false, clock⟩]⟩ := by
  have hcreate : isCertificateEligible s user r g = true ∨ false = true := by
    rw [isCertificateEligible_eq, hpassed, hverified]
    exact Or.inl rfl
  unfold processCourseRunGradeCertificate
  dsimp only
  rw [if_neg hgrade, if_pos hcreate, hrows]
  dsimp only
  have hnew := touches_setCourseRunCertificates user r [⟨false, clock⟩] s
  have hrecord := record_setCourseRunCertificates user r [⟨false, clock⟩] s
  obtain ⟨htouches, hsame⟩ := generateMultiple_record cur limit clock user
    (programsWithCourse cur (cur.courseRun r).course)
    (s.setCourseRunCertificates user r [⟨false, clock⟩]) (user, r) (user, r)
  have hboth := And.intro (hnew.trans htouches) (hsame.trans hrecord)
  rcases hstep : generateMultipleProgramsCertificate cur limit clock user
      (programsWithCourse cur (cur.courseRun r).course)
      (s.setCourseRunCertificates user r [⟨false, clock⟩]) with ⟨s1, e | _⟩
  · rw [hstep] at hboth
    cases e <;> exact hboth
  · rw [hstep] at hboth
    exact hboth

/-- Any other grade that is not zero leaves the certificates. -/
theorem processCourseRunGradeCertificate_kept (cur : Curriculum) (limit : ℕ) (clock : Instant)
    {user : UserId} {r : RunId} {g : CourseRunGrade} {s : CertificateStore} (hgrade : g.grade ≠ 0)
    (hnot : ¬(g.passed = true ∧ s.isVerified (user, r) = true ∧ s.courseRunCertificates user r = [])) :
    (processCourseRunGradeCertificate cur limit clock user r g false s).1 = s := by
  unfold processCourseRunGradeCertificate
  dsimp only
  rw [if_neg hgrade]
  split
  · rename_i hcreate
    have hpass : g.passed = true ∧ s.isVerified (user, r) = true := by
      rw [isCertificateEligible_eq, Bool.and_eq_true] at hcreate
      exact hcreate.resolve_right Bool.false_ne_true
    cases hrows : s.courseRunCertificates user r with
    | nil => exact absurd ⟨hpass.1, hpass.2, hrows⟩ hnot
    | cons c rest =>
      rcases (c :: rest).filter (Certificate.isActive clock) with _ | ⟨c1, _ | ⟨c2, more⟩⟩
      · rfl
      · rfl
      · rfl
  · rfl

theorem processCourseRunGradeCertificate_spec (cur : Curriculum) (limit : ℕ) (clock : Instant)
    (user : UserId) (r : RunId) (g : CourseRunGrade) (s : CertificateStore) :
    s.Touches (user, r) (processCourseRunGradeCertificate cur limit clock user r g false s).1 ∧
      (processCourseRunGradeCertificate cur limit clock user r g false s).1.record (user, r) =
        ⟨s.grades user r,
          certificatesFrom clock (s.isVerified (user, r)) g (s.courseRunCertificates user r)⟩ := by
  unfold certificatesFrom
  by_cases hzero : g.grade = 0
  · unfold processCourseRunGradeCertificate
    dsimp only
    rw [if_pos hzero, if_pos hzero]
    exact ⟨touches_setCourseRunCertificates .., record_setCourseRunCertificates ..⟩
  · rw [if_neg hzero]
    by_cases hnew : g.passed = true ∧ s.isVerified (user, r) = true ∧ s.courseRunCertificates user r = []
    · rw [if_pos hnew]
      exact processCourseRunGradeCertificate_new cur limit clock hzero hnew.1 hnew.2.1 hnew.2.2
    · rw [if_neg hnew, processCourseRunGradeCertificate_kept cur limit clock hzero hnew]
      exact ⟨touches_refl _ s, rfl⟩

/-- Only a new grade with a letter that does not fit raises what the task does not catch. -/
theorem gradeFrom_error {e : CertificateError} {prior : Option CourseRunGrade}
    (h : gradeFrom edxGrade prior = .error e) :
    (∃ msg, e = .validationError msg) ∨ (e = .dataError ∧ prior = none ∧
      ∃ letter, edxGrade.letterGrade = some letter ∧ 10 < letter.toList.length) := by
  unfold gradeFrom at h
  cases prior with
  | none =>
    dsimp only at h
    split_ifs at h with hfits
    obtain rfl := Except.error.inj h
    refine Or.inr ⟨rfl, rfl, ?_⟩
    unfold CourseRunGrade.insertable at hfits
    cases hletter : edxGrade.letterGrade with
    | none =>
      rw [hletter] at hfits
      exact absurd rfl hfits
    | some letter =>
      rw [hletter, Option.all_some, decide_eq_true_eq] at hfits
      exact ⟨letter, rfl, not_le.mp hfits⟩
  | some g =>
    dsimp only at h
    split_ifs at h
    left
    cases hclean : ({ g with grade := edxGrade.percent, passed := edxGrade.passed
                             letterGrade := edxGrade.letterGrade } : CourseRunGrade).fullClean with
    | ok _ =>
      rw [hclean] at h
      cases h
    | error e' =>
      rw [hclean] at h
      obtain rfl := Except.error.inj h
      unfold CourseRunGrade.fullClean at hclean
      split_ifs at hclean
      exact ⟨_, (Except.error.inj hclean).symm⟩

/-! ## The grades of the task -/

/-- A grade that the task takes: the run, the grade with its learner, and its place in the answer. -/
abbrev TakenGrade := RunId × ((EdxGrade × UserId) × ℕ)

/-- The learner and the run of a grade. -/
def learnerOf (taken : TakenGrade) : UserId × RunId := (taken.2.1.2, taken.1)

/-- The grades that the task would take, in order. -/
def CertificateTask.grades (task : CertificateTask) (cur : Curriculum) (source : GradeSource) :
    List TakenGrade :=
  (task.runs cur source).flatMap fun r =>
    (getEdxGradesWithUsers source r task.user).zipIdx.map fun item => (r, item)

/-- What a grade does to the record of its learner. -/
def CertificateTask.learnerStep (task : CertificateTask) (source : GradeSource) (verified : Bool)
    (record : LearnerRecord) (taken : TakenGrade) : LearnerRecord :=
  record.step verified ((source.schedule taken.1).due task.force task.now)
    (task.clock taken.1 taken.2.2) taken.2.1.1

/-- The letter of the grade does not fit into its column. -/
def letterTooLong (taken : TakenGrade) : Prop :=
  ∃ letter, taken.2.1.1.letterGrade = some letter ∧ 10 < letter.toList.length

theorem processGrade_spec (taken : TakenGrade) (s : CertificateStore) :
    s.Touches (learnerOf taken) (processGrade cur limit source task taken.1 taken.2 s).state ∧
      (processGrade cur limit source task taken.1 taken.2 s).state.record (learnerOf taken) =
        task.learnerStep source (s.isVerified (learnerOf taken)) (s.record (learnerOf taken)) taken ∧
      ∀ e, (processGrade cur limit source task taken.1 taken.2 s).error = some e →
        e = .dataError ∧ (s.record (learnerOf taken)).grade = none ∧ letterTooLong taken := by
  obtain ⟨r, ⟨edxGrade, user⟩, i⟩ := taken
  unfold processGrade CertificateTask.learnerStep LearnerRecord.step learnerOf letterTooLong
  dsimp only
  rcases ensureCourseRunGrade_spec user r edxGrade s with
    ⟨e, hgrade, hensure⟩ | ⟨s', g, flags, hgrade, hensure, htouches, hrecord⟩
  · have hgrade' : gradeFrom edxGrade (s.record (user, r)).grade = .error e := hgrade
    have hself := touches_refl (user, r) s
    rw [hensure, hgrade']
    rcases gradeFrom_error hgrade with ⟨msg, rfl⟩ | ⟨rfl, hnone, hletter⟩
    · exact ⟨hself, rfl, fun e he => by cases he⟩
    · refine ⟨hself, rfl, fun e he => ?_⟩
      exact ⟨(Option.some.inj he).symm, hnone, hletter⟩
  · have hgrade' : gradeFrom edxGrade (s.record (user, r)).grade = .ok g := hgrade
    rw [hensure, hgrade']
    dsimp only
    have hgrades : s'.grades user r = some g := congrArg LearnerRecord.grade hrecord
    have hrows : s'.courseRunCertificates user r = s.courseRunCertificates user r :=
      congrArg LearnerRecord.certificates hrecord
    by_cases hdue : (source.schedule r).due task.force task.now = true
    · obtain ⟨htouches', hrecord'⟩ :=
        processCourseRunGradeCertificate_spec cur limit (task.clock r i) user r g s'
      rw [if_pos hdue, if_pos hdue]
      refine ⟨htouches.trans htouches', ?_, fun e he => by cases he⟩
      dsimp only
      rw [hrecord', hgrades, hrows, htouches.isVerified]
      rfl
    · rw [if_neg hdue, if_neg hdue]
      refine ⟨htouches, ?_, fun e he => by cases he⟩
      dsimp only
      rw [hrecord]
      rfl

/-- The task goes through its grades in one loop. -/
theorem generateCourseRunCertificates_eq (cur : Curriculum) (limit : ℕ) (source : GradeSource)
    (task : CertificateTask) (s : CertificateStore) :
    generateCourseRunCertificates cur limit source task s =
      seq ((task.grades cur source).map fun taken =>
        processGrade cur limit source task taken.1 taken.2) s :=
  seq_map_seq (task.runs cur source) (fun r => (getEdxGradesWithUsers source r task.user).zipIdx)
    (processGrade cur limit source task) s

/-- The grades that the task came to, and what it made of the records of their learners. -/
theorem generateCourseRunCertificates_cases (cur : Curriculum) (limit : ℕ) (source : GradeSource)
    (task : CertificateTask) (s : CertificateStore) :
    ∃ done rest, task.grades cur source = done ++ rest ∧
      (∀ key, (generateCourseRunCertificates cur limit source task s).state.record key =
        (done.filter fun taken => learnerOf taken = key).foldl
          (task.learnerStep source (s.isVerified key)) (s.record key)) ∧
      ((generateCourseRunCertificates cur limit source task s).error = none ∧ rest = [] ∨
        ∃ before taken, done = before ++ [taken] ∧ letterTooLong taken ∧
          (generateCourseRunCertificates cur limit source task s).error = some .dataError) := by
  rw [generateCourseRunCertificates_eq]
  obtain ⟨done, rest, hgrades, hstate, hend⟩ := seq_map_cases
    (fun taken : TakenGrade => processGrade cur limit source task taken.1 taken.2) (task.grades cur source) s
  refine ⟨done, rest, hgrades, fun key => ?_, ?_⟩
  · rw [hstate]
    let step : CertificateStore → TakenGrade → CertificateStore := fun s taken =>
      (processGrade cur limit source task taken.1 taken.2 s).state
    let Inv : CertificateStore → Prop := fun s' => s'.enrollments = s.enrollments
    have hverified : ∀ s' k, Inv s' → s'.isVerified k = s.isVerified k := by
      intro s' k hs'
      unfold CertificateStore.isVerified
      rw [hs']
    have hInv : ∀ s' taken, Inv s' → Inv (step s' taken) := fun s' taken hs' =>
      (processGrade_spec taken s').1.enrollments.trans hs'
    have hself : ∀ s' taken, Inv s' → (step s' taken).record (learnerOf taken) =
        task.learnerStep source (s.isVerified (learnerOf taken)) (s'.record (learnerOf taken)) taken := by
      intro s' taken hs'
      rw [← hverified s' (learnerOf taken) hs']
      exact (processGrade_spec taken s').2.1
    have hother : ∀ s' taken k, Inv s' → k ≠ learnerOf taken → (step s' taken).record k = s'.record k :=
      fun s' taken k _ hk => (processGrade_spec taken s').1.others k hk
    exact Trace.run_cell (fun key => task.learnerStep source (s.isVerified key)) Inv hInv hself hother
      rfl done key
  · rcases hend with hall | ⟨before, taken, e, rfl, herror, hraise⟩
    · exact Or.inl hall
    · obtain ⟨rfl, -, hletter⟩ := (processGrade_spec taken _).2.2 e hraise
      exact Or.inr ⟨before, taken, rfl, hletter, herror⟩

/-- What a task that returns made of the record of a learner. -/
theorem record_of_returns (key : UserId × RunId)
    (h : (generateCourseRunCertificates cur limit source task s).error = none) :
    (generateCourseRunCertificates cur limit source task s).state.record key =
      ((task.grades cur source).filter fun taken => learnerOf taken = key).foldl
        (task.learnerStep source (s.isVerified key)) (s.record key) := by
  obtain ⟨done, rest, hgrades, hrecord, ⟨-, rfl⟩ | ⟨-, -, -, -, herror⟩⟩ :=
    generateCourseRunCertificates_cases cur limit source task s
  · rw [hrecord, hgrades, List.append_nil]
  · rw [h] at herror
    cases herror

/-! ## Learners apart -/

/-- The grades that edX has of a learner in a run, each with the time at which the task comes to it. -/
def CertificateTask.ownGrades (task : CertificateTask) (cur : Curriculum) (source : GradeSource)
    (key : UserId × RunId) : List (EdxGrade × Instant) :=
  ((task.grades cur source).filter fun taken => learnerOf taken = key).map fun taken =>
    (taken.2.1.1, task.clock taken.1 taken.2.2)

/-- The task reads nothing else of the grades of a learner. -/
theorem foldl_learnerStep (source : GradeSource) (task : CertificateTask) (verified : Bool)
    (key : UserId × RunId) (record : LearnerRecord) {taken : List TakenGrade}
    (hkey : ∀ own ∈ taken, learnerOf own = key) :
    taken.foldl (task.learnerStep source verified) record =
      (taken.map fun own => (own.2.1.1, task.clock own.1 own.2.2)).foldl
        (fun record own => record.step verified ((source.schedule key.2).due task.force task.now) own.2 own.1)
        record := by
  induction taken generalizing record with
  | nil => rfl
  | cons own taken ih =>
    have hrun : own.1 = key.2 := congrArg Prod.snd (hkey own List.mem_cons_self)
    have hfirst : task.learnerStep source verified record own =
        record.step verified ((source.schedule key.2).due task.force task.now)
          (task.clock own.1 own.2.2) own.2.1.1 := by
      unfold CertificateTask.learnerStep
      rw [hrun]
    rw [List.foldl_cons, hfirst, List.map_cons, List.foldl_cons]
    exact ih _ fun other hother => hkey other (List.mem_cons_of_mem own hother)

theorem record_of_ownGrades (key : UserId × RunId)
    (h : (generateCourseRunCertificates cur limit source task s).error = none) :
    (generateCourseRunCertificates cur limit source task s).state.record key =
      (task.ownGrades cur source key).foldl
        (fun record own => record.step (s.isVerified key) ((source.schedule key.2).due task.force task.now)
          own.2 own.1) (s.record key) := by
  rw [record_of_returns key h]
  refine foldl_learnerStep source task (s.isVerified key) key (s.record key) fun own hown => ?_
  exact of_decide_eq_true (List.mem_filter.mp hown).2

/-- The learners are apart: two tasks that return, in whatever databases and with whatever other grades,
other learners and other runs, make the same of a learner in a run if edX says the same of this learner
there at the same times, the certificates of the run are due in both or in none, and the learner begins with
the same grade, the same certificates and the same right to one. -/
theorem learners_apart (cur cur' : Curriculum) (limit limit' : ℕ) (source source' : GradeSource)
    (task task' : CertificateTask) (s s' : CertificateStore) (key : UserId × RunId)
    (hreturns : (generateCourseRunCertificates cur limit source task s).error = none)
    (hreturns' : (generateCourseRunCertificates cur' limit' source' task' s').error = none)
    (hgrades : task.ownGrades cur source key = task'.ownGrades cur' source' key)
    (hdue : (source.schedule key.2).due task.force task.now =
      (source'.schedule key.2).due task'.force task'.now)
    (hrecord : s.record key = s'.record key) (hverified : s.isVerified key = s'.isVerified key) :
    (generateCourseRunCertificates cur limit source task s).state.record key =
      (generateCourseRunCertificates cur' limit' source' task' s').state.record key := by
  rw [record_of_ownGrades key hreturns, record_of_ownGrades key hreturns', hgrades, hdue, hrecord, hverified]

/-- A self-paced run in which edX has a grade of each of the named learners; `b` has one of zero. -/
def gradesOf (names : List String) : GradeSource where
  schedule _ := ⟨true, none⟩
  courseCurrentGrades r :=
    if r = 1 then some (names.map fun name => ⟨name, if name = "b" then ⟨0, false, none⟩ else ⟨1, true, none⟩⟩)
    else none
  studentCurrentGrade _ _ := none
  usersNamed name := if name = "a" then [1] else if name = "b" then [2] else []

/-- The task as it is run from time to time. -/
def periodicTask : CertificateTask where
  user := none
  courseRun := none
  force := false
  now := 100
  window := 31
  clock _ _ := 100

/-- With learner `b` or without, the task makes the same of learner `a`. -/
theorem learners_apart_twoLearners :
    (generateCourseRunCertificates (Curriculum.ofRequirements fun _ => none) 1 (gradesOf ["b", "a"])
      periodicTask CertificateStore.empty).state.record (1, 1) =
    (generateCourseRunCertificates (Curriculum.ofRequirements fun _ => none) 1 (gradesOf ["a"])
      periodicTask CertificateStore.empty).state.record (1, 1) :=
  learners_apart _ _ _ _ _ _ _ _ _ _ (1, 1) rfl rfl rfl rfl rfl rfl

/-! ## What a learner has afterwards -/

variable {verified due : Bool} {clock : Instant} {record : LearnerRecord} {c : Certificate}

/-- The grade passes the checks of its columns and validators. -/
def EdxGrade.Valid (edxGrade : EdxGrade) : Prop :=
  0 ≤ edxGrade.percent ∧ edxGrade.percent ≤ 2 ∧
    (edxGrade.letterGrade.all fun letter => decide (letter.toList.length ≤ 10)) = true

/-- The grade as edX has it. -/
def EdxGrade.asGrade (edxGrade : EdxGrade) : CourseRunGrade :=
  ⟨edxGrade.percent, edxGrade.letterGrade, edxGrade.passed, false⟩

/-- The grade of an admin is kept whatever edX reports. -/
theorem gradeFrom_admin (h : g.setByAdmin = true) (edxGrade : EdxGrade) :
    gradeFrom edxGrade (some g) = .ok g := by
  refine if_neg fun hupdate => ?_
  rw [h] at hupdate
  cases hupdate.1

/-- Any other grade becomes that of edX. -/
theorem gradeFrom_valid {prior : Option CourseRunGrade} (hvalid : edxGrade.Valid)
    (h : ∀ g, prior = some g → g.setByAdmin = false) : gradeFrom edxGrade prior = .ok edxGrade.asGrade := by
  cases prior with
  | none => exact if_pos hvalid.2.2
  | some g =>
    have hadmin := h g rfl
    have hupdated : ({ g with grade := edxGrade.percent, passed := edxGrade.passed
                              letterGrade := edxGrade.letterGrade } : CourseRunGrade) = edxGrade.asGrade := by
      unfold EdxGrade.asGrade
      rw [hadmin]
    unfold gradeFrom
    dsimp only
    rw [hupdated]
    by_cases hsame : edxGrade.asGrade = g
    · rw [if_neg fun hupdate => hupdate.2 hsame, hsame]
    · have hclean : edxGrade.asGrade.fullClean = .ok () := if_pos hvalid
      rw [if_pos ⟨hadmin, hsame⟩, hclean]
      rfl

theorem step_of_ok (h : gradeFrom edxGrade record.grade = .ok g) :
    record.step verified due clock edxGrade = ⟨some g,
      if due = true then certificatesFrom clock verified g record.certificates else record.certificates⟩ := by
  unfold LearnerRecord.step
  rw [h]

theorem step_admin (hgrade : record.grade = some g) (hadmin : g.setByAdmin = true) (edxGrade : EdxGrade) :
    (record.step verified due clock edxGrade).grade = some g := by
  have hkept : gradeFrom edxGrade record.grade = .ok g := by
    rw [hgrade]
    exact gradeFrom_admin hadmin edxGrade
  rw [step_of_ok hkept]

/-- edX makes no grade one of an admin. -/
theorem gradeFrom_setByAdmin {prior : Option CourseRunGrade} (h : ∀ g, prior = some g → g.setByAdmin = false)
    (hok : gradeFrom edxGrade prior = .ok g) : g.setByAdmin = false := by
  cases prior with
  | none =>
    unfold gradeFrom at hok
    dsimp only at hok
    split_ifs at hok
    rw [← Except.ok.inj hok]
  | some g0 =>
    have hadmin := h g0 rfl
    unfold gradeFrom at hok
    dsimp only at hok
    split_ifs at hok
    · cases hclean : ({ g0 with grade := edxGrade.percent, passed := edxGrade.passed
                                letterGrade := edxGrade.letterGrade } : CourseRunGrade).fullClean with
      | error e =>
        rw [hclean] at hok
        cases hok
      | ok _ =>
        rw [hclean] at hok
        rw [← Except.ok.inj hok]
        exact hadmin
    · rw [← Except.ok.inj hok]
      exact hadmin

theorem step_notAdmin (h : ∀ g, record.grade = some g → g.setByAdmin = false) (edxGrade : EdxGrade) :
    ∀ g, (record.step verified due clock edxGrade).grade = some g → g.setByAdmin = false := by
  intro g hg
  cases hgrade : gradeFrom edxGrade record.grade with
  | error e =>
    unfold LearnerRecord.step at hg
    rw [hgrade] at hg
    exact h g hg
  | ok g' =>
    rw [step_of_ok hgrade] at hg
    rw [← Option.some.inj hg]
    exact gradeFrom_setByAdmin h hgrade

/-- Certificates that are not due are left. -/
theorem step_not_due (record : LearnerRecord) (verified : Bool) (clock : Instant) (edxGrade : EdxGrade) :
    (record.step verified false clock edxGrade).certificates = record.certificates := by
  unfold LearnerRecord.step
  cases gradeFrom edxGrade record.grade with
  | error e => rfl
  | ok g => rfl

theorem step_certificates_of_ne_nil (h : record.certificates ≠ []) (edxGrade : EdxGrade) :
    ∀ c ∈ (record.step verified due clock edxGrade).certificates, c ∈ record.certificates := by
  unfold LearnerRecord.step
  cases gradeFrom edxGrade record.grade with
  | error e => exact fun c hc => hc
  | ok g =>
    dsimp only
    unfold certificatesFrom
    split_ifs with hdue hzero hnew
    · exact fun c hc => (List.mem_filter.mp hc).1
    · exact absurd hnew.2.2 h
    · exact fun c hc => hc
    · exact fun c hc => hc

theorem step_revoked (hrevoked : c.isRevoked = true) (hc : c ∈ record.certificates) (edxGrade : EdxGrade) :
    c ∈ (record.step verified due clock edxGrade).certificates := by
  have hinactive : c.isActive clock = false := by
    unfold Certificate.isActive
    rw [hrevoked]
    rfl
  unfold LearnerRecord.step
  cases gradeFrom edxGrade record.grade with
  | error e => exact hc
  | ok g =>
    dsimp only
    unfold certificatesFrom
    split_ifs with hdue hzero hnew
    · exact List.mem_filter.mpr ⟨hc, by rw [hinactive]; rfl⟩
    · rw [hnew.2.2] at hc
      cases hc
    · exact hc
    · exact hc

/-- What every grade keeps of a record, all grades keep. -/
theorem foldl_step_keeps (verified due : Bool) (K : LearnerRecord → Prop)
    (hK : ∀ record clock edxGrade, K record → K (record.step verified due clock edxGrade))
    (own : List (EdxGrade × Instant)) (h : K record) :
    K (own.foldl (fun record own => record.step verified due own.2 own.1) record) := by
  induction own generalizing record with
  | nil => exact h
  | cons first own ih => exact ih (hK record first.2 first.1 h)

/-- Where certificates are due a grade of zero leaves none that is active, and a passed grade of a verified
learner leaves one row at least. -/
theorem step_certificates (hgrade : gradeFrom edxGrade record.grade = .ok g) :
    (g.grade = 0 → ∀ c ∈ (record.step verified true clock edxGrade).certificates, c.isActive clock = false) ∧
      (g.grade ≠ 0 → g.passed = true → verified = true →
        (record.step verified true clock edxGrade).certificates ≠ []) := by
  rw [step_of_ok hgrade, if_pos rfl]
  unfold certificatesFrom
  constructor
  · intro hzero c hc
    dsimp only at hc
    rw [if_pos hzero] at hc
    have hnot := (List.mem_filter.mp hc).2
    rwa [Bool.not_eq_true'] at hnot
  · intro hzero hpassed hverified
    dsimp only
    rw [if_neg hzero]
    by_cases hrows : record.certificates = []
    · rw [if_pos ⟨hpassed, hverified, hrows⟩]
      exact List.cons_ne_nil _ _
    · rw [if_neg fun h => hrows h.2.2]
      exact hrows

/-- Where the task returns, the grade of an admin is kept, and any other learner has the last grade that edX
has of them, if it is valid. Certificates that are not due are left. Where they are due, a learner whose
grade is zero has none that is active, and a verified learner who passed has one; but a revoked certificate
stays, and beside it there is no new one. -/
theorem grades_follow_edx (cur : Curriculum) (limit : ℕ) (source : GradeSource) (task : CertificateTask)
    (s : CertificateStore) (key : UserId × RunId)
    (hreturns : (generateCourseRunCertificates cur limit source task s).error = none) :
    let after := (generateCourseRunCertificates cur limit source task s).state.record key
    let due := (source.schedule key.2).due task.force task.now
    (∀ g, (s.record key).grade = some g → g.setByAdmin = true → after.grade = some g) ∧
    (task.ownGrades cur source key = [] → after = s.record key) ∧
    (due = false → after.certificates = (s.record key).certificates) ∧
    (∀ c ∈ (s.record key).certificates, c.isRevoked = true →
      c ∈ after.certificates ∧ ∀ c' ∈ after.certificates, c' ∈ (s.record key).certificates) ∧
    ∀ before last, task.ownGrades cur source key = before ++ [last] → last.1.Valid →
      (∀ g, (s.record key).grade = some g → g.setByAdmin = false) →
        after.grade = some last.1.asGrade ∧
        (due = true →
          (last.1.percent = 0 → ∀ c ∈ after.certificates, c.isActive last.2 = false) ∧
          (last.1.percent ≠ 0 → last.1.passed = true → s.isVerified key = true → after.certificates ≠ [])) := by
  intro after due
  have hafter : after = (task.ownGrades cur source key).foldl
      (fun record own => record.step (s.isVerified key) due own.2 own.1) (s.record key) :=
    record_of_ownGrades key hreturns
  refine ⟨fun g hgrade hadmin => ?_, fun hnone => ?_, fun hdue => ?_, fun c hc hrevoked => ?_,
    fun before last hown hvalid hnotAdmin => ?_⟩
  · rw [hafter]
    exact foldl_step_keeps _ _ (fun record => record.grade = some g)
      (fun record clock edxGrade h => step_admin h hadmin edxGrade) _ hgrade
  · rw [hafter, hnone]
    rfl
  · rw [hafter]
    refine foldl_step_keeps _ _ (fun record => record.certificates = (s.record key).certificates)
      (fun record clock edxGrade h => ?_) _ rfl
    rw [hdue, step_not_due]
    exact h
  · rw [hafter]
    refine foldl_step_keeps _ _ (fun record => c ∈ record.certificates ∧
      ∀ c' ∈ record.certificates, c' ∈ (s.record key).certificates)
      (fun record clock edxGrade h => ?_) _ ⟨hc, fun _ hc' => hc'⟩
    have hrows : record.certificates ≠ [] := List.ne_nil_of_mem h.1
    exact ⟨step_revoked hrevoked h.1 edxGrade,
      fun c' hc' => h.2 c' (step_certificates_of_ne_nil hrows edxGrade c' hc')⟩
  · have hlast : after = (before.foldl (fun record own => record.step (s.isVerified key) due own.2 own.1)
        (s.record key)).step (s.isVerified key) due last.2 last.1 := by
      rw [hafter, hown, List.foldl_append]
      rfl
    have hprior := foldl_step_keeps (s.isVerified key) due
      (fun record => ∀ g, record.grade = some g → g.setByAdmin = false)
      (fun record clock edxGrade h => step_notAdmin h edxGrade) before hnotAdmin
    have hgrade := gradeFrom_valid hvalid hprior
    refine ⟨?_, fun hdue => ?_⟩
    · rw [hlast, step_of_ok hgrade]
    · rw [hlast, hdue]
      rw [hdue] at hgrade
      exact step_certificates hgrade

theorem grades_follow_edx_twoLearners :
    ((generateCourseRunCertificates (Curriculum.ofRequirements fun _ => none) 1 (gradesOf ["b", "a"])
      periodicTask CertificateStore.empty).state.record (1, 1)).grade = some ⟨1, none, true, false⟩ := by
  obtain ⟨-, -, -, -, hlast⟩ := grades_follow_edx (Curriculum.ofRequirements fun _ => none) 1
    (gradesOf ["b", "a"]) periodicTask CertificateStore.empty (1, 1) rfl
  exact (hlast [] (⟨1, true, none⟩, 100) rfl ⟨by norm_num, by norm_num, rfl⟩ fun g hg => by cases hg).1

end MitxOnline

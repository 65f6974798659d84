import MitxOnline.Courses.ProgramCourseEnrollments
import MitxOnline.Courses.Proofs.DeferralsProofs
import MitxOnline.Courses.Proofs.ProgramUpgradesProofs
import MitxOnline.Ecommerce.Proofs.FreeCheckoutsProofs

/-!
# What a program gives

A verified enrollment in a run is made only for learners who paid for the program. The enrollment is made
by the checkout of an order, and an audit one is written without a look at the mode that it replaces.
-/

namespace MitxOnline

open Autocommit

variable {cat : ProgramCatalog} {req : ProgramRequest} {user : UserId} {r : RunId} {p : ProgramId}
  {mode : EnrollmentMode} {programIds : List ProgramId} {data : CoursesWithRequirements} {s s1 : Store}

/-! ## The program that is used -/

/-- The user has an enrollment in the program, active or not, in the given mode. -/
def HasProgramMode (user : UserId) (p : ProgramId) (mode : EnrollmentMode) (s : Store) : Prop :=
  ∃ e, s.programEnrollments user p = some e ∧ e.enrollmentMode = mode

theorem setProgramEnrollment_self (e : ProgramEnrollment) (s : Store) :
    (setProgramEnrollment user p e s).programEnrollments user p = some e := by
  simp [setProgramEnrollment]

theorem setProgramEnrollment_of_ne {p' : ProgramId} (e : ProgramEnrollment) (s : Store) (h : p' ≠ p) :
    (setProgramEnrollment user p e s).programEnrollments user p' = s.programEnrollments user p' := by
  simp [setProgramEnrollment, h]

theorem recordProgramEnrollment_self (user : UserId) (mode : EnrollmentMode) (p : ProgramId) (s : Store) :
    HasProgramMode user p mode (recordProgramEnrollment Faults.none user mode p s).state := by
  unfold recordProgramEnrollment
  rcases s.programEnrollments user p with _ | e
  · exact ⟨_, setProgramEnrollment_self _ s, rfl⟩
  · exact ⟨_, setProgramEnrollment_self _ _, rfl⟩

theorem recordProgramEnrollment_of_ne {p' : ProgramId} (mode : EnrollmentMode) (s : Store) (h : p' ≠ p) :
    (recordProgramEnrollment Faults.none user mode p s).state.programEnrollments user p' =
      s.programEnrollments user p' := by
  unfold recordProgramEnrollment
  rcases s.programEnrollments user p with _ | e
  · exact setProgramEnrollment_of_ne _ s h
  · exact (setProgramEnrollment_of_ne _ _ h).trans (setProgramEnrollment_of_ne _ s h)

theorem recordProgramEnrollment_keeps (p' : ProgramId) :
    Keeps (fun s s' => HasProgramMode user p mode s → HasProgramMode user p mode s')
      (recordProgramEnrollment Faults.none user mode p') := by
  intro s hmode
  by_cases hp : p = p'
  · rw [hp]
    exact recordProgramEnrollment_self user mode p' s
  · unfold HasProgramMode
    rw [recordProgramEnrollment_of_ne mode s hp]
    exact hmode

/-- Enrolling in programs leaves enrollments in the given mode. -/
theorem createProgramEnrollments_noFaults {programs : List ProgramId} (hp : p ∈ programs) (s : Store) :
    HasProgramMode user p mode (createProgramEnrollments Faults.none user programs mode s).state := by
  unfold createProgramEnrollments
  induction programs generalizing s with
  | nil => exact absurd hp List.not_mem_nil
  | cons p' programs ih =>
    have herror : (recordProgramEnrollment Faults.none user mode p' s).error = none := by
      unfold recordProgramEnrollment
      split <;> rfl
    rw [List.map_cons, seq_cons, andThen_of_ok herror]
    rcases List.mem_cons.mp hp with rfl | hp
    · refine keeps_seq (isFrame_preserves _) (fun a ha => ?_) _ (recordProgramEnrollment_self user mode p s)
      obtain ⟨p', -, rfl⟩ := List.mem_map.mp ha
      exact recordProgramEnrollment_keeps p'
    · exact ih hp _

theorem activeProgramEnrollment_mode (h : HasProgramMode user p mode s) {e : ProgramEnrollment}
    (he : s.activeProgramEnrollment user p = some e) : e.enrollmentMode = mode := by
  obtain ⟨row, hrow, hmode⟩ := h
  unfold Store.activeProgramEnrollment at he
  rw [hrow] at he
  obtain ⟨rfl, -⟩ := Option.filter_eq_some_iff.mp he |>.imp_left Option.some.inj
  exact hmode

theorem verifiedInProgram_of_mode {e : ProgramEnrollment} (he : s.activeProgramEnrollment user p = some e)
    (hmode : e.enrollmentMode = .verified) : s.verifiedInProgram user p = true := by
  unfold Store.verifiedInProgram
  rw [he]
  simp [hmode]

/-- The program contains another one of the list that does not contain it. -/
def ProgramCatalog.isRoot (cat : ProgramCatalog) (programIds : List ProgramId) (p : ProgramId) : Prop :=
  ∃ q ∈ programIds, q ∈ cat.programNodes p ∧ p ∉ cat.programNodes q

/-- The user paid for the program that is used, or for the root of the programs. -/
def PaidFor (cat : ProgramCatalog) (s : Store) (user : UserId) (programIds : List ProgramId)
    (p : ProgramId) : Prop :=
  s.verifiedInProgram user p = true ∨
    ∃ root ∈ programIds, s.verifiedInProgram user root = true ∧ cat.isRoot programIds root

/-- Of two programs, one of which contains the other, the root is the one that is not contained. -/
theorem isRoot_of_pair {first second : ProgramId}
    (h : (cat.programNodes second).contains first ≠ (cat.programNodes first).contains second) :
    cat.isRoot [first, second]
      (if (cat.programNodes second).contains first = false then first else second) := by
  rcases hfirst : (cat.programNodes second).contains first with _ | _
  · rw [hfirst] at h
    have hsecond : (cat.programNodes first).contains second = true := by simpa using h.symm
    rw [if_pos rfl]
    exact ⟨second, by simp, by simpa using hsecond, by simpa using hfirst⟩
  · rw [hfirst] at h
    have hsecond : (cat.programNodes first).contains second = false := by simpa using h.symm
    rw [if_neg (by simp)]
    exact ⟨first, by simp, by simpa using hfirst, by simpa using hsecond⟩

/-- The enrollment that is looked up last, of the program among the two that has the course of the run. -/
def useCourseProgram (cat : ProgramCatalog) (user : UserId) (r : RunId) (first second : ProgramId)
    (s : Store) : Store × Except ProgramCourseError ProgramSelection :=
  let courseProgram :=
    if (cat.programCourses first).contains (cat.courseRun r).course = true then first else second
  match s.activeProgramEnrollment user courseProgram with
  | none => (s, .error .enrollmentCreationFailed)
  | some e => (s, .ok (.program courseProgram e.enrollmentMode))

theorem useCourseProgram_spec {first second : ProgramId} {t : Store}
    (h : useCourseProgram cat user r first second t = (s1, .ok (.program p mode))) :
    s1 = t ∧ (p = first ∨ p = second) ∧
      ∃ e, t.activeProgramEnrollment user p = some e ∧ e.enrollmentMode = mode := by
  unfold useCourseProgram at h
  dsimp only at h
  have hmem : (if (cat.programCourses first).contains (cat.courseRun r).course = true then first
      else second) = first ∨ (if (cat.programCourses first).contains (cat.courseRun r).course = true
      then first else second) = second := by
    split_ifs
    · exact Or.inl rfl
    · exact Or.inr rfl
  generalize (if (cat.programCourses first).contains (cat.courseRun r).course = true then first
    else second) = q at h hmem
  rcases he : t.activeProgramEnrollment user q with _ | e
  · rw [he] at h
    cases h
  · rw [he] at h
    cases h
    exact ⟨rfl, hmem, e, he, rfl⟩

theorem selectFromPair_paidFor {first second : ProgramId}
    (h : selectFromPair cat user r first second s = (s1, .ok (.program p .verified))) :
    (p = first ∨ p = second) ∧ PaidFor cat s user [first, second] p := by
  have huse : ∀ t, useCourseProgram cat user r first second t = (s1, .ok (.program p .verified)) →
      (p = first ∨ p = second) ∧
        ∃ e, t.activeProgramEnrollment user p = some e ∧ e.enrollmentMode = .verified :=
    fun t ht => (useCourseProgram_spec ht).2
  unfold selectFromPair at h
  dsimp only at h
  by_cases hsame : (cat.programNodes second).contains first = (cat.programNodes first).contains second
  · rw [if_pos hsame] at h
    cases h
  · rw [if_neg hsame] at h
    have hroot := isRoot_of_pair hsame
    generalize (if (cat.programNodes second).contains first = false then first else second) = root
      at h hroot
    split at h
    · -- no program is paid for: both enrollments are audit ones
      obtain ⟨hmem, e, he, hmode⟩ := huse _ h
      have haudit : HasProgramMode user p .audit
          (createProgramEnrollments Faults.none user [first, second] .audit s).state :=
        createProgramEnrollments_noFaults (by simpa using hmem) s
      rw [activeProgramEnrollment_mode haudit he] at hmode
      cases hmode
    · rename_i paid hpaid
      have hfilter : paid ∈ [first, second].filter (s.verifiedInProgram user) := by simp [hpaid]
      obtain ⟨hlisted, hverified⟩ := List.mem_filter.mp hfilter
      by_cases hpaidroot : paid = root
      · rw [if_pos hpaidroot] at h
        exact ⟨(huse _ h).1, Or.inr ⟨paid, hlisted, hverified, hpaidroot ▸ hroot⟩⟩
      · rw [if_neg hpaidroot] at h
        cases h
    · obtain ⟨hmem, e, he, hmode⟩ := huse _ h
      exact ⟨hmem, Or.inl (verifiedInProgram_of_mode he hmode)⟩

theorem selectFromPair_enrollments (cat : ProgramCatalog) (user : UserId) (r : RunId)
    (first second : ProgramId) (s : Store) :
    (selectFromPair cat user r first second s).1.enrollments = s.enrollments := by
  have huse : ∀ t, (useCourseProgram cat user r first second t).1 = t := by
    intro t
    unfold useCourseProgram
    dsimp only
    split <;> rfl
  have hcreate : ∀ mode, (useCourseProgram cat user r first second
      (createProgramEnrollments Faults.none user [first, second] mode s).state).1.enrollments =
      s.enrollments := by
    intro mode
    rw [huse]
    exact createProgramEnrollments_enrollments Faults.none user [first, second] mode s
  unfold selectFromPair
  dsimp only
  generalize (if (cat.programNodes second).contains first = false then first else second) = root
  split
  · rfl
  · split
    · exact hcreate .audit
    · split
      · exact hcreate .verified
      · rfl
    · exact congrArg Store.enrollments (huse s)

theorem selectProgram_enrollments (cat : ProgramCatalog) (user : UserId) (r : RunId)
    (programIds : List ProgramId) (s : Store) :
    (selectProgram cat user r programIds s).1.enrollments = s.enrollments := by
  unfold selectProgram
  split
  · rfl
  · dsimp only
    split
    · rfl
    · split
      · split <;> rfl
      · exact selectFromPair_enrollments cat user r _ _ s
      · rfl

/-- The program that is used is the only one, in which the user is enrolled, or one of a pair. -/
theorem selectProgram_cases
    (h : selectProgram cat user r programIds s = (s1, .ok (.program p mode))) :
    (p ∈ programIds ∧ s1 = s ∧
      ∃ e, s.activeProgramEnrollment user p = some e ∧ e.enrollmentMode = mode) ∨
    ∃ first second, (∀ q ∈ [first, second], q ∈ programIds) ∧
      selectFromPair cat user r first second s = (s1, .ok (.program p mode)) := by
  unfold selectProgram at h
  split at h
  · cases h
  · dsimp only at h
    split at h
    · cases h
    · have hlisted : ∀ q ∈ cat.programIds.filter fun p => programIds.contains p, q ∈ programIds :=
        fun q hq => by simpa using (List.mem_filter.mp hq).2
      split at h
      · rename_i q hprograms
        rcases he : s.activeProgramEnrollment user q with _ | e
        · rw [he] at h
          cases h
        · rw [he] at h
          obtain ⟨rfl, rfl, hmode⟩ : s = s1 ∧ q = p ∧ e.enrollmentMode = mode := by simpa using h
          rw [hprograms] at hlisted
          exact Or.inl ⟨hlisted q List.mem_cons_self, rfl, e, he, hmode⟩
      · rename_i first second hprograms
        rw [hprograms] at hlisted
        exact Or.inr ⟨first, second, hlisted, h⟩
      · cases h

/-- A verified enrollment in the program that is used stands for a payment. -/
theorem selectProgram_paidFor
    (h : selectProgram cat user r programIds s = (s1, .ok (.program p .verified))) :
    p ∈ programIds ∧ PaidFor cat s user programIds p := by
  rcases selectProgram_cases h with ⟨hlisted, -, e, he, hmode⟩ | ⟨first, second, hlisted, hpair⟩
  · exact ⟨hlisted, Or.inl (verifiedInProgram_of_mode he hmode)⟩
  · obtain ⟨hmem, hpaid⟩ := selectFromPair_paidFor hpair
    refine ⟨hlisted p (by simpa using hmem), hpaid.imp_right ?_⟩
    rintro ⟨root, hroot, hverified, q, hq, hnodes⟩
    exact ⟨root, hlisted root hroot, hverified, q, hlisted q hq, hnodes⟩

theorem selectFromPair_mode {first second : ProgramId}
    (h : selectFromPair cat user r first second s = (s1, .ok (.program p mode))) :
    ∃ e, s1.activeProgramEnrollment user p = some e ∧ e.enrollmentMode = mode := by
  have huse : ∀ t, useCourseProgram cat user r first second t = (s1, .ok (.program p mode)) →
      ∃ e, s1.activeProgramEnrollment user p = some e ∧ e.enrollmentMode = mode := by
    intro t ht
    obtain ⟨rfl, -, hmode⟩ := useCourseProgram_spec ht
    exact hmode
  unfold selectFromPair at h
  dsimp only at h
  generalize (if (cat.programNodes second).contains first = false then first else second) = root at h
  split at h
  · cases h
  · split at h
    · exact huse _ h
    · split at h
      · exact huse _ h
      · cases h
    · exact huse _ h

/-- The mode is that of the enrollment in the program that is used. -/
theorem selectProgram_mode
    (h : selectProgram cat user r programIds s = (s1, .ok (.program p mode))) :
    ∃ e, s1.activeProgramEnrollment user p = some e ∧ e.enrollmentMode = mode := by
  rcases selectProgram_cases h with ⟨-, rfl, hmode⟩ | ⟨first, second, -, hpair⟩
  · exact hmode
  · exact selectFromPair_mode hpair

/-! ## The courses of the program -/

theorem listsCourse_programCourses
    (hdata : getCoursesWithRequirementsData (cat.requirements p).rows = .ok data)
    (h : listsCourse cat r data = true) : (cat.courseRun r).course ∈ cat.programCourses p := by
  have hcourses : ∀ type, (cat.courseRun r).course ∈ coursesOfType (cat.requirements p).rows type →
      (cat.courseRun r).course ∈ cat.programCourses p := by
    intro type hc
    obtain ⟨row, hrow, hcourse⟩ := List.mem_filterMap.mp hc
    refine (cat.programCourses_iff p _).mpr ⟨row, (List.mem_filter.mp hrow).1, ?_⟩
    split_ifs at hcourse
    exact hcourse
  obtain ⟨hrequired, helective⟩ := coursesOfType_eq hdata
  unfold listsCourse at h
  rw [hrequired, helective, List.contains_eq_mem, decide_eq_true_eq, List.mem_append] at h
  exact h.elim (hcourses _) (hcourses _)

/-! ## The basket -/

theorem productFor_spec {q : ProductId} {contentType : ContentType} {objectId : ℕ}
    (h : cat.productFor contentType objectId = some q) :
    (cat.product q).contentType = contentType ∧ (cat.product q).objectId = objectId := by
  have hq := List.find?_some h
  simp only [Bool.and_eq_true, beq_iff_eq] at hq
  exact ⟨hq.1.2, hq.2⟩

theorem setBasket_basketOf (user : UserId) (basket : Basket) (s : Store) :
    (setBasket user basket s).basketOf user = basket := by
  simp [Store.basketOf, setBasket]

theorem addProgramDiscount_enrollments (cat : ProgramCatalog) (user : UserId) (d : DiscountId)
    (basket : Basket) (s : Store) :
    (addProgramDiscount cat user d basket s).1.enrollments = s.enrollments := by
  unfold addProgramDiscount
  split_ifs <;> rfl

theorem fillProgramBasket_enrollments (cat : ProgramCatalog) (now : Instant) (user : UserId) (r : RunId)
    (p : ProgramId) (s : Store) : (fillProgramBasket cat now user r p s).1.enrollments = s.enrollments := by
  unfold fillProgramBasket
  split
  · rfl
  · split
    · rfl
    · rfl
    · exact addProgramDiscount_enrollments ..

theorem withRunProduct_products (basket : Basket) (q : ProductId) :
    (basket.withRunProduct q).getProducts = [q] := by
  unfold Basket.withRunProduct
  split_ifs with hitems
  · rfl
  · have hempty : basket.basketItems = [] :=
      List.length_eq_zero_iff.mp (Nat.eq_zero_of_not_pos hitems)
    simp [Basket.getProducts, hempty]

theorem addProgramDiscount_products {d : DiscountId} {basket : Basket} {t : Store}
    (h : addProgramDiscount cat user d basket s = (t, .ok ())) :
    (t.basketOf user).getProducts = basket.getProducts := by
  unfold addProgramDiscount at h
  split at h
  · cases h
  · split at h
    · cases h
    · cases h
      rw [setBasket_basketOf]
      rfl

/-- The basket that goes to the checkout has the product of the run and nothing else. -/
theorem fillProgramBasket_products {now : Instant} {t : Store}
    (h : fillProgramBasket cat now user r p s = (t, .ok ())) :
    ∃ q, cat.productFor .courseRun r = some q ∧ (t.basketOf user).getProducts = [q] := by
  unfold fillProgramBasket at h
  split at h
  · cases h
  · split at h
    · cases h
    · cases h
    · rename_i d q _ hq
      exact ⟨q, hq, (addProgramDiscount_products h).trans (withRunProduct_products ..)⟩

/-! ## The enrollment -/

theorem any_mode_iff : (((s.enrollments user r).filter (·.active)).any
    fun e => e.enrollmentMode == mode) = true ↔ s.activeMode user r = some mode := by
  unfold Store.activeMode
  generalize (s.enrollments user r).filter (·.active) = active
  cases active <;> simp

/-- The run can be enrolled in, or the user has an active enrollment in it, and the courses of the program
can be listed. -/
structure Admits (cat : ProgramCatalog) (now : Instant) (user : UserId) (r : RunId) (p : ProgramId)
    (s : Store) (data : CoursesWithRequirements) : Prop where
  run : r ∈ cat.usableRunIds
  enrollable : (cat.schedule r).isEnrollable now = true ∨ s.activeMode user r ≠ none
  data : getCoursesWithRequirementsData (cat.requirements p).rows = .ok data

/-- An audit enrollment is written. -/
def WritesAudit (cat : ProgramCatalog) (now : Instant) (user : UserId) (r : RunId) (p : ProgramId)
    (mode : EnrollmentMode) (s : Store) : Prop :=
  ∃ data, Admits cat now user r p s data ∧ shouldCreateAuditEnrollment cat now r data mode = true ∧
    s.activeMode user r ≠ some .audit

/-- A verified enrollment is bought. -/
def BuysVerified (cat : ProgramCatalog) (now : Instant) (user : UserId) (r : RunId) (p : ProgramId)
    (mode : EnrollmentMode) (s : Store) : Prop :=
  ∃ data, Admits cat now user r p s data ∧ shouldCreateAuditEnrollment cat now r data mode = false ∧
    s.activeMode user r ≠ some mode

theorem not_admits_of_closed {now : Instant} (h : (cat.schedule r).isEnrollable now = false ∧
    ((s.enrollments user r).filter (·.active)).isNone = true) : ¬Admits cat now user r p s data := by
  intro hadmits
  have hnone : s.activeMode user r = none := by
    unfold Store.activeMode
    rw [Option.isNone_iff_eq_none.mp h.2]
    rfl
  rcases hadmits.enrollable with henrollable | hactive
  · rw [h.1] at henrollable
    cases henrollable
  · exact hactive hnone

theorem admits_of_open {now : Instant} (hrun : r ∈ cat.usableRunIds)
    (h : ¬((cat.schedule r).isEnrollable now = false ∧
      ((s.enrollments user r).filter (·.active)).isNone = true))
    (hdata : getCoursesWithRequirementsData (cat.requirements p).rows = .ok data) :
    Admits cat now user r p s data := by
  refine ⟨hrun, ?_, hdata⟩
  rw [not_and_or] at h
  refine h.imp (fun hopen => by simpa using hopen) fun hactive hnone => hactive ?_
  unfold Store.activeMode at hnone
  rwa [Option.map_eq_none_iff, ← Option.isNone_iff_eq_none] at hnone

/-- The courses of the program are listed in one way. -/
theorem Admits.exists_iff {now : Instant} {listing : CoursesWithRequirements → Prop}
    (h : Admits cat now user r p s data) :
    (∃ data, Admits cat now user r p s data ∧ listing data) ↔ listing data := by
  constructor
  · rintro ⟨data', hadmits, hlisting⟩
    rwa [Except.ok.inj (hadmits.data.symm.trans h.data)] at hlisting
  · intro hlisting
    exact ⟨data, h, hlisting⟩

/-- A request that is not admitted leaves what it found. -/
theorem createCourseEnrollmentFromProgram_refused {req : ProgramRequest}
    (h : ∀ data, ¬Admits cat req.now user r p s data) :
    (createCourseEnrollmentFromProgram cat req user r p mode s).1 = s := by
  unfold createCourseEnrollmentFromProgram
  dsimp only
  by_cases hrun : r ∈ cat.usableRunIds
  · rw [if_neg (not_not.mpr hrun)]
    by_cases hclosed : (cat.schedule r).isEnrollable req.now = false ∧
        ((s.enrollments user r).filter (·.active)).isNone = true
    · rw [if_pos hclosed]
    · rw [if_neg hclosed]
      rcases hdata : getCoursesWithRequirementsData (cat.requirements p).rows with e | data
      · rfl
      · exact absurd (admits_of_open hrun hclosed hdata) (h data)
  · rw [if_pos hrun]

/-- A request that is admitted goes by the mode of the active enrollment. -/
theorem Admits.create_eq {req : ProgramRequest} (h : Admits cat req.now user r p s data) :
    (createCourseEnrollmentFromProgram cat req user r p mode s).1 =
      if shouldCreateAuditEnrollment cat req.now r data mode = true then
        if s.activeMode user r = some .audit then s
        else (createRunEnrollments Faults.none cat.toCatalog req.now user [r] none true .audit s).state
      else if s.activeMode user r = some mode then s
      else (createVerifiedProgramCourseRunEnrollment cat req user r p s).1 := by
  have hopen := fun hclosed => not_admits_of_closed hclosed h
  unfold createCourseEnrollmentFromProgram
  dsimp only
  rw [if_neg (not_not.mpr h.run), if_neg hopen, h.data]
  dsimp only
  simp only [any_mode_iff]
  split
  · split
    · rfl
    · split <;> rfl
  · split
    · rfl
    · split <;> simp [*]

/-- The request leaves what it found, writes an audit enrollment, or buys a verified one. -/
theorem createCourseEnrollmentFromProgram_cases (cat : ProgramCatalog) (req : ProgramRequest)
    (user : UserId) (r : RunId) (p : ProgramId) (mode : EnrollmentMode) (s : Store) :
    (¬WritesAudit cat req.now user r p mode s ∧ ¬BuysVerified cat req.now user r p mode s ∧
      (createCourseEnrollmentFromProgram cat req user r p mode s).1 = s) ∨
    (WritesAudit cat req.now user r p mode s ∧ ¬BuysVerified cat req.now user r p mode s ∧
      SetsMode user [r] .audit s (createCourseEnrollmentFromProgram cat req user r p mode s).1) ∨
    (¬WritesAudit cat req.now user r p mode s ∧ BuysVerified cat req.now user r p mode s ∧
      (createCourseEnrollmentFromProgram cat req user r p mode s).1 =
        (createVerifiedProgramCourseRunEnrollment cat req user r p s).1) := by
  by_cases hadmitted : ∃ data, Admits cat req.now user r p s data
  · obtain ⟨data, hadmits⟩ := hadmitted
    have haudit : WritesAudit cat req.now user r p mode s ↔
        shouldCreateAuditEnrollment cat req.now r data mode = true ∧
          s.activeMode user r ≠ some .audit := hadmits.exists_iff
    have hbuys : BuysVerified cat req.now user r p mode s ↔
        shouldCreateAuditEnrollment cat req.now r data mode = false ∧
          s.activeMode user r ≠ some mode := hadmits.exists_iff
    rw [haudit, hbuys, hadmits.create_eq]
    cases hshould : shouldCreateAuditEnrollment cat req.now r data mode with
    | true =>
      rw [if_pos rfl]
      by_cases hmode : s.activeMode user r = some .audit
      · rw [if_pos hmode]
        exact Or.inl ⟨fun h => h.2 hmode, by simp, rfl⟩
      · rw [if_neg hmode]
        have hsets := (createRunEnrollments_noFaults cat.toCatalog req.now user (List.cons_ne_nil r [])
          none true .audit s).2
        exact Or.inr (Or.inl ⟨⟨rfl, hmode⟩, by simp, hsets⟩)
    | false =>
      rw [if_neg (by simp)]
      by_cases hmode : s.activeMode user r = some mode
      · rw [if_pos hmode]
        exact Or.inl ⟨by simp, fun h => h.2 hmode, rfl⟩
      · rw [if_neg hmode]
        exact Or.inr (Or.inr ⟨by simp, ⟨rfl, hmode⟩, rfl⟩)
  · have hno : ∀ data, ¬Admits cat req.now user r p s data := not_exists.mp hadmitted
    exact Or.inl ⟨fun ⟨data, h, _⟩ => hno data h, fun ⟨data, h, _⟩ => hno data h,
      createCourseEnrollmentFromProgram_refused hno⟩

/-! ## The order -/

theorem createVerified_of_filled {t : Store} (h : fillProgramBasket cat req.now user r p s = (t, .ok ())) :
    (createVerifiedProgramCourseRunEnrollment cat req user r p s).1 =
      (generateCheckoutPayload cat.toCatalog user req.checkout t).1 := by
  unfold createVerifiedProgramCourseRunEnrollment
  rw [h]
  dsimp only
  rcases generateCheckoutPayload cat.toCatalog user req.checkout t with ⟨u, e | payload⟩
  · rfl
  · cases payload with
    | noCheckout o =>
      dsimp only
      split <;> rfl
    | refused e => rfl
    | payment session => rfl

/-- The basket of the run is filled, and its checkout makes order `o`, which is free, and leaves `u`. -/
def ChecksOutFreely (cat : ProgramCatalog) (req : ProgramRequest) (user : UserId) (r : RunId)
    (p : ProgramId) (s : Store) (t : Store) (o : OrderId) (u : Store) : Prop :=
  fillProgramBasket cat req.now user r p s = (t, .ok ()) ∧
    MakesFreeOrder cat.toCatalog user req.checkout t o u

theorem ChecksOutFreely.unique {t t' u u' : Store} {o o' : OrderId}
    (h : ChecksOutFreely cat req user r p s t o u) (h' : ChecksOutFreely cat req user r p s t' o' u') :
    t = t' ∧ o = o' ∧ u = u' := by
  obtain ⟨hfill, hmakes⟩ := h
  obtain ⟨hfill', hmakes'⟩ := h'
  obtain rfl : t = t' := congrArg Prod.fst (hfill.symm.trans hfill')
  have hmade := Except.ok.inj (hmakes.made.symm.trans hmakes'.made)
  exact ⟨rfl, congrArg Prod.fst hmade, congrArg Prod.snd hmade⟩

/-- Buying a verified enrollment grants the lines of a free order, or it enrolls in nothing. -/
theorem createVerified_modes (cat : ProgramCatalog) (req : ProgramRequest) (user : UserId) (r : RunId)
    (p : ProgramId) (s : Store) :
    (∃ t o u, ChecksOutFreely cat req user r p s t o u ∧
      GrantsModes cat.toCatalog req.now user (u.order o).lines.rows s
        (createVerifiedProgramCourseRunEnrollment cat req user r p s).1) ∨
    ((∀ t o u, ¬ChecksOutFreely cat req user r p s t o u) ∧
      (createVerifiedProgramCourseRunEnrollment cat req user r p s).1.enrollments = s.enrollments) := by
  have hfilled := fillProgramBasket_enrollments cat req.now user r p s
  rcases hfill : fillProgramBasket cat req.now user r p s with ⟨t, e | ⟨⟩⟩
  · rw [hfill] at hfilled
    refine Or.inr ⟨fun t' o u h => ?_, ?_⟩
    · have herror := h.1
      rw [hfill] at herror
      cases herror
    · unfold createVerifiedProgramCourseRunEnrollment
      rw [hfill]
      exact hfilled
  · rw [hfill] at hfilled
    rw [createVerified_of_filled hfill]
    by_cases hfree : ∃ o u, MakesFreeOrder cat.toCatalog user req.checkout t o u
    · obtain ⟨o, u, hmakes⟩ := hfree
      have hgrants := generateCheckoutPayload_of_free rfl hmakes
      exact Or.inl ⟨t, o, u, ⟨hfill, hmakes⟩, hgrants.congr hfilled.symm rfl⟩
    · have hkept : (generateCheckoutPayload cat.toCatalog user req.checkout t).1.enrollments =
          t.enrollments :=
        generateCheckoutPayload_of_not_free rfl fun o u hmakes => hfree ⟨o, u, hmakes⟩
      refine Or.inr ⟨fun t' o u h => ?_, hkept.trans hfilled⟩
      obtain rfl : t = t' := congrArg Prod.fst (hfill.symm.trans h.1)
      exact hfree ⟨o, u, h.2⟩

/-- The order of the checkout is a pending one that is reused, and it has a line that grants another run, in
which the user is not verified. -/
def ReusesOrderOfOthers (cat : ProgramCatalog) (req : ProgramRequest) (user : UserId) (r : RunId)
    (s t : Store) (o : OrderId) : Prop :=
  reusedOrder cat.toCatalog t (t.basketOf user).getProducts user req.gatewayType = some o ∧
    ∃ l ∈ (t.order o).lines.rows, ∃ r', r' ≠ r ∧ l.grantsRun cat.toCatalog req.now s user r' ∧
      s.activeMode user r' ≠ some .verified

/-- The runs that the order grants besides the one that is asked for are those of a reused order. -/
theorem reusesOrderOfOthers_iff {t u : Store} {o : OrderId}
    (h : ChecksOutFreely cat req user r p s t o u) :
    ReusesOrderOfOthers cat req user r s t o ↔
      ∃ l ∈ (u.order o).lines.rows, ∃ r', r' ≠ r ∧ l.grantsRun cat.toCatalog req.now s user r' ∧
        s.activeMode user r' ≠ some .verified := by
  have hout := createFromBasket_spec h.2.made
  obtain ⟨q, hq, hproducts⟩ := fillProgramBasket_products h.1
  constructor
  · rintro ⟨hreused, l, hl, hgrants⟩
    have hreused' : reusedOrder cat.toCatalog (setBasket user (t.basketOf user) t)
        (t.basketOf user).getProducts user req.checkout.gatewayType = some o := hreused
    refine ⟨l, (hout.mem_rows l).mpr (Or.inl ?_), hgrants⟩
    rw [startingOrder, hreused']
    exact hl
  · rintro ⟨l, hl, r', hr', hgrants, hmode⟩
    have hother : l.isRequested cat.toCatalog (t.basketOf user).getProducts = false := by
      rw [Bool.eq_false_iff]
      intro hreq
      obtain ⟨q', hq', hfor⟩ := isRequested_iff.mp hreq
      rw [hproducts, List.mem_singleton] at hq'
      rw [hq'] at hfor
      obtain ⟨htype, hid⟩ := productFor_spec hq
      unfold Line.isFor at hfor
      rw [htype, hid] at hfor
      exact hr' ((grantsRun_of_run hfor).mp hgrants)
    obtain ⟨hreused, hmem⟩ := hout.reused_of_mem hl hother
    exact ⟨hreused, l, hmem, r', hr', hgrants, hmode⟩

/-! ## What is given -/

/-- The learner paid for a listed program that has the course of the run, or for the root of the
programs. -/
def Entitled (cat : ProgramCatalog) (s : Store) (user : UserId) (r : RunId)
    (programIds : List ProgramId) : Prop :=
  ∃ p ∈ programIds, s.verifiedInProgram user p = true ∧
    ((cat.courseRun r).course ∈ cat.programCourses p ∨ cat.isRoot programIds p)

/-- A verified enrollment is made only in the requested run and only for a learner who paid for it, a
verified one is not lowered, and the enrollments in other runs are as they were. -/
structure GivesWhatWasPaid (cat : ProgramCatalog) (user : UserId) (r : RunId)
    (programIds : List ProgramId) (s s' : Store) : Prop where
  created : s'.activeMode user r = some .verified →
    s.activeMode user r = some .verified ∨ Entitled cat s user r programIds
  kept : s.activeMode user r = some .verified → s'.activeMode user r ≠ some .audit
  others : ∀ r', r' ≠ r → s'.activeMode user r' = s.activeMode user r'

/-- An audit enrollment is written over a verified one. -/
def LowersSeat (cat : ProgramCatalog) (now : Instant) (user : UserId) (r : RunId) (p : ProgramId)
    (mode : EnrollmentMode) (s : Store) : Prop :=
  s.activeMode user r = some .verified ∧ WritesAudit cat now user r p mode s

/-- A verified enrollment is bought by an order that grants another run as well. -/
def GrantsOthers (cat : ProgramCatalog) (req : ProgramRequest) (user : UserId) (r : RunId) (p : ProgramId)
    (mode : EnrollmentMode) (s : Store) : Prop :=
  BuysVerified cat req.now user r p mode s ∧
    ∃ t o u, ChecksOutFreely cat req user r p s t o u ∧ ReusesOrderOfOthers cat req user r s t o

theorem givesWhatWasPaid_of_kept (h : s1.enrollments = s.enrollments) :
    GivesWhatWasPaid cat user r programIds s s1 := by
  have hmodes : ∀ r', s1.activeMode user r' = s.activeMode user r' := activeMode_of_enrollments h
  refine ⟨fun hverified => Or.inl ?_, fun hverified => ?_, fun r' _ => hmodes r'⟩
  · rwa [← hmodes]
  · rw [hmodes, hverified]
    simp

/-- Buying a verified enrollment changes other runs exactly if the order grants them. -/
theorem createVerified_others_iff :
    (∀ r', r' ≠ r → (createVerifiedProgramCourseRunEnrollment cat req user r p s).1.activeMode user r' =
      s.activeMode user r') ↔
      ¬∃ t o u, ChecksOutFreely cat req user r p s t o u ∧ ReusesOrderOfOthers cat req user r s t o := by
  rcases createVerified_modes cat req user r p s with ⟨t, o, u, hfree, hgrants⟩ | ⟨hnone, hkept⟩
  · constructor
    · rintro hothers ⟨t', o', u', hfree', hreuses⟩
      obtain ⟨rfl, rfl, rfl⟩ := hfree.unique hfree'
      obtain ⟨l, hl, r', hr', hg, hmode⟩ := (reusesOrderOfOthers_iff hfree).mp hreuses
      rw [← hothers r' hr', hgrants.granted r' ⟨l, hl, hg⟩] at hmode
      exact hmode rfl
    · intro hnot r' hr'
      by_cases hline : ∃ l ∈ (u.order o).lines.rows, l.grantsRun cat.toCatalog req.now s user r'
      · obtain ⟨l, hl, hg⟩ := hline
        rw [hgrants.granted r' ⟨l, hl, hg⟩]
        by_contra hmode
        exact hnot ⟨t, o, u, hfree, (reusesOrderOfOthers_iff hfree).mpr
          ⟨l, hl, r', hr', hg, Ne.symm hmode⟩⟩
      · exact hgrants.others r' fun l hl hg => hline ⟨l, hl, hg⟩
  · refine iff_of_true (fun r' _ => activeMode_of_enrollments hkept r') ?_
    rintro ⟨t, o, u, hfree, -⟩
    exact hnone t o u hfree

theorem shouldCreateAudit_false {now : Instant}
    (h : shouldCreateAuditEnrollment cat now r data mode = false) : listsCourse cat r data = true := by
  unfold shouldCreateAuditEnrollment at h
  simp only [Bool.or_eq_false_iff, Bool.not_eq_false'] at h
  exact h.1.2

/-- Without a verified enrollment in the program nothing is bought. -/
theorem createVerified_of_unverified (h : s.verifiedInProgram user p = false) :
    (createVerifiedProgramCourseRunEnrollment cat req user r p s).1 = s ∧
      ∀ t o u, ¬ChecksOutFreely cat req user r p s t o u := by
  have hfill : fillProgramBasket cat req.now user r p s = (s, .error .verifiedProgramNoEnrollment) := by
    unfold fillProgramBasket
    rw [if_pos h]
  constructor
  · unfold createVerifiedProgramCourseRunEnrollment
    rw [hfill]
  · intro t o u hfree
    have herror := hfree.1
    rw [hfill] at herror
    cases herror

theorem entitled_of_paidFor (hp : p ∈ programIds) (hpaid : PaidFor cat s user programIds p)
    (hcourse : (cat.courseRun r).course ∈ cat.programCourses p) : Entitled cat s user r programIds := by
  rcases hpaid with hverified | ⟨root, hroot, hverified, hcontains⟩
  · exact ⟨p, hp, hverified, Or.inl hcourse⟩
  · exact ⟨root, hroot, hverified, Or.inr hcontains⟩

/-- With the program that is used fixed, the request gives what was paid for unless it lowers the seat of
the learner or grants other runs. -/
theorem createCourseEnrollment_gives_iff
    (hsel : selectProgram cat user r programIds s = (s1, .ok (.program p mode))) :
    GivesWhatWasPaid cat user r programIds s
        (createCourseEnrollmentFromProgram cat req user r p mode s1).1 ↔
      ¬LowersSeat cat req.now user r p mode s1 ∧ ¬GrantsOthers cat req user r p mode s1 := by
  have hkept : s1.enrollments = s.enrollments := by
    have hfirst := selectProgram_enrollments cat user r programIds s
    rwa [hsel] at hfirst
  have hmodes : ∀ r', s1.activeMode user r' = s.activeMode user r' := activeMode_of_enrollments hkept
  rcases createCourseEnrollmentFromProgram_cases cat req user r p mode s1 with
    ⟨haudit, hbuys, heq⟩ | ⟨haudit, hbuys, hsets⟩ | ⟨haudit, hbuys, heq⟩
  · rw [heq]
    exact iff_of_true (givesWhatWasPaid_of_kept hkept) ⟨fun h => haudit h.2, fun h => hbuys h.1⟩
  · have hself := hsets r
    rw [if_pos List.mem_cons_self] at hself
    constructor
    · intro hgives
      refine ⟨fun hlowers => hgives.kept ?_ hself, fun h => hbuys h.1⟩
      rw [← hmodes]
      exact hlowers.1
    · rintro ⟨hnot, -⟩
      refine ⟨fun hverified => ?_, fun hverified => ?_, fun r' hr' => ?_⟩
      · rw [hself] at hverified
        cases hverified
      · rw [← hmodes] at hverified
        exact absurd ⟨hverified, haudit⟩ hnot
      · rw [hsets r', if_neg (by simpa using hr'), hmodes]
  · obtain ⟨data, hadmits, hshould, hmode⟩ := hbuys
    have hlists := shouldCreateAudit_false hshould
    obtain ⟨e, he, hemode⟩ := selectProgram_mode hsel
    rw [heq]
    by_cases hverified : mode = .verified
    · subst hverified
      obtain ⟨hp, hpaid⟩ := selectProgram_paidFor hsel
      have hentitled : Entitled cat s user r programIds :=
        entitled_of_paidFor hp hpaid (listsCourse_programCourses hadmits.data hlists)
      constructor
      · intro hgives
        refine ⟨fun hlowers => haudit hlowers.2, fun hgrants => ?_⟩
        refine createVerified_others_iff.mp (fun r' hr' => ?_) hgrants.2
        rw [hgives.others r' hr', hmodes]
      · rintro ⟨-, hnot⟩
        refine ⟨fun _ => Or.inr hentitled, fun hverified => ?_, fun r' hr' => ?_⟩
        · rw [← hmodes] at hverified
          exact absurd hverified hmode
        · rw [← hmodes]
          exact createVerified_others_iff.mpr
            (fun hfree => hnot ⟨⟨data, hadmits, hshould, hmode⟩, hfree⟩) r' hr'
    · -- with an enrollment in another mode nothing is bought
      have hunverified : s1.verifiedInProgram user p = false := by
        unfold Store.verifiedInProgram
        rw [he]
        simp [hemode, hverified]
      obtain ⟨hsame, hnone⟩ := createVerified_of_unverified hunverified
      rw [hsame]
      exact iff_of_true (givesWhatWasPaid_of_kept hkept)
        ⟨fun hlowers => haudit hlowers.2, fun ⟨_, t, o, u, hfree, _⟩ => hnone t o u hfree⟩

/-- The request gives what was paid for exactly if the program that is used makes it neither lower the
verified enrollment of the learner nor buy with an order that grants other runs. -/
theorem givesWhatWasPaid_iff (cat : ProgramCatalog) (req : ProgramRequest) (user : UserId) (r : RunId)
    (programIds : List ProgramId) (s : Store) :
    GivesWhatWasPaid cat user r programIds s
        (addVerifiedProgramCourseEnrollment cat req user r programIds s).1 ↔
      ∀ s1 p mode, selectProgram cat user r programIds s = (s1, .ok (.program p mode)) →
        ¬LowersSeat cat req.now user r p mode s1 ∧ ¬GrantsOthers cat req user r p mode s1 := by
  have hkept := selectProgram_enrollments cat user r programIds s
  unfold addVerifiedProgramCourseEnrollment
  rcases hsel : selectProgram cat user r programIds s with ⟨s1, e | (response | ⟨p, mode⟩)⟩
  · rw [hsel] at hkept
    exact iff_of_true (givesWhatWasPaid_of_kept hkept) nofun
  · rw [hsel] at hkept
    exact iff_of_true (givesWhatWasPaid_of_kept hkept) nofun
  · dsimp only
    rw [createCourseEnrollment_gives_iff hsel]
    constructor
    · rintro h s2 p' mode' ⟨⟩
      exact h
    · intro h
      exact h s1 p mode rfl

/-! ## A bought run and an audited program -/

/-- Course 1 is required. -/
def oneCourseRequirements : Requirements where
  rootElectiveFlag := some false
  children :=
    [.node ⟨.operator .allOf none, some "Required Courses", some false⟩
      [.node ⟨.course 1, none, some false⟩ []]]

theorem oneCourse_iff (c : CourseId) :
    c ∈ [1] ↔ ∃ row ∈ oneCourseRequirements.rows, row.value.node.course? = some c := by
  simp [Requirements.rows, oneCourseRequirements, Paths.rowsOf, Paths.PathTree.rows,
    RequirementNode.course?, eq_comm]

/-- Programs with the open runs of course 1; nothing is sold. -/
def openProgram : ProgramCatalog :=
  { openRuns with
    programCourses := fun _ => [1]
    programIds := [1]
    requirements := fun _ => oneCourseRequirements
    programCourses_iff := fun _ => oneCourse_iff
    discountIds := []
    isProgramDiscount := fun _ => false
    newProgramDiscount := fun _ => 0
    newProgramDiscount_row := fun _ _ h => absurd h nofun }

/-- Learner 7, who is verified in run 1, audits program 1. -/
def auditsProgramOne : Store := setProgramEnrollment 7 1 ⟨true, none, .audit⟩ verifiedInRunOne

/-- The audited program takes the verified enrollment away. -/
theorem not_givesWhatWasPaid :
    ¬ ∀ (cat : ProgramCatalog) (req : ProgramRequest) (user : UserId) (r : RunId)
      (programIds : List ProgramId) (s : Store), GivesWhatWasPaid cat user r programIds s
        (addVerifiedProgramCourseEnrollment cat req user r programIds s).1 := by
  intro h
  have hkept := (h openProgram ⟨5, .stripe, .error .gatewayError⟩ 7 1 [1] auditsProgramOne).kept
    (by decide)
  revert hkept
  decide

end MitxOnline

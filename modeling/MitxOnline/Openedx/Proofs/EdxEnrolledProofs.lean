import MitxOnline.Courses.Proofs.EnrollmentNotificationsProofs
import MitxOnline.Openedx.RunEnrollments

/-!
# When the flag `edx_enrolled` is true

All enrollments of a call get one flag, and whether edX is asked at all depends on the first run.
-/

namespace MitxOnline

open Autocommit EnrollmentLoop

variable {settings : EdxSettings} {edxUser : UserAnswers} {answers : ℕ → RunAnswers} {cat : Catalog}
  {now : Instant} {user : UserId} {changeStatus : Option String} {keep edx : Bool}
  {mode : EnrollmentMode} {s : Store} {loop : EnrollmentLoop} {round : ℕ} {r first : RunId} {rest runs : List RunId}

/-! ## What edX was asked and answered -/

/-- The repaired user is in edX, so the runs are asked for. -/
def UserReady (settings : EdxSettings) (edxUser : UserAnswers) : Prop :=
  settings.hasServiceWorkerApiToken = true ∧ ∃ repaired,
    repairFaultyEdxUser settings edxUser = .ok repaired ∧ openedxUserExists edxUser repaired.1 = true

/-- edX reports or creates an active enrollment in the mode. -/
def RunAnswers.Confirms (mode : EnrollmentMode) (answers : RunAnswers) : Prop :=
  answers.enrollment mode = .ok ⟨some mode, true⟩

/-- edX raises nothing. -/
def RunAnswers.Returns (mode : EnrollmentMode) (answers : RunAnswers) : Prop :=
  ∃ e, answers.enrollment mode = .ok e

/-- edX was asked about the run and confirmed the enrollment: no run is asked for if the first one is fake,
and none after a round that raises. -/
def Confirmed (settings : EdxSettings) (edxUser : UserAnswers) (answers : ℕ → RunAnswers) (cat : Catalog)
    (mode : EnrollmentMode) (runs : List RunId) (r : RunId) : Prop :=
  (∃ first ∈ runs.head?, (cat.courseRun first).isFakeCourseRun = false) ∧ UserReady settings edxUser ∧
    ∃ k, runs[k]? = some r ∧ (∀ j < k, (answers j).Returns mode) ∧ (answers k).Confirms mode

/-- Every enrollment that is returned with the flag is one in a fake run or one that edX has. -/
def EdxEnrolledIsTrue (cat : Catalog) (user : UserId) (confirmed : RunId → Prop)
    (returned : Except Error (EnrollmentLoop × Bool)) : Prop :=
  ∀ loop edxRequestSuccess, returned = .ok (loop, edxRequestSuccess) →
    ∀ r ∈ loop.successfulEnrollments, ∀ e, loop.store.enrollments user r = some e →
      e.edxEnrolled = true → (cat.courseRun r).isFakeCourseRun = true ∨ confirmed r

/-! ## The call to edX -/

theorem enrollEach_returns : (∃ results, enrollEach mode answers round runs = .ok results) ↔
    ∀ k < runs.length, (answers (round + k)).Returns mode := by
  induction runs generalizing round with
  | nil => simp [enrollEach]
  | cons r rest ih =>
    have hrest : (∃ results, enrollEach mode answers (round + 1) rest = .ok results) ↔
        ∀ k < rest.length, (answers (round + 1 + k)).Returns mode := ih
    constructor
    · rintro ⟨results, hresults⟩ k hk
      unfold enrollEach at hresults
      rcases hround : (answers round).enrollment mode with failure | e
      · simp [hround] at hresults
      rw [hround] at hresults
      rcases hafter : enrollEach mode answers (round + 1) rest with exc | results'
      · simp [hafter] at hresults
      have hreturns := hrest.mp ⟨results', hafter⟩
      cases k with
      | zero => exact ⟨e, hround⟩
      | succ k =>
        have hk' : k < rest.length := by simpa using hk
        have hsum : round + (k + 1) = round + 1 + k := by omega
        rw [hsum]
        exact hreturns k hk'
    · intro hreturns
      obtain ⟨e, he⟩ := hreturns 0 (by simp)
      obtain ⟨results, hresults⟩ := hrest.mpr fun k hk => by
        have hsum : round + 1 + k = round + (k + 1) := by omega
        rw [hsum]
        exact hreturns (k + 1) (by simpa using hk)
      rw [Nat.add_zero] at he
      exact ⟨e :: results, by simp [enrollEach, he, hresults]⟩

/-- edX raises nothing if the user is there and no round raises anything. -/
theorem enrollInEdxCourseRuns_returns :
    (∃ results, enrollInEdxCourseRuns settings edxUser mode answers runs = .ok results) ↔
      UserReady settings edxUser ∧ ∀ k < runs.length, (answers k).Returns mode := by
  have heach : (∃ results, enrollEach mode answers 0 runs = .ok results) ↔
      ∀ k < runs.length, (answers k).Returns mode := by
    rw [enrollEach_returns]
    simp
  unfold enrollInEdxCourseRuns UserReady
  by_cases htoken : settings.hasServiceWorkerApiToken = true
  · rcases hrepair : repairFaultyEdxUser settings edxUser with failure | ⟨createdUser, createdToken⟩
    · simp [htoken]
    · by_cases hexists : openedxUserExists edxUser createdUser = true
      · simpa [htoken, hexists] using heach
      · simp [htoken, hexists]
  · simp [htoken]

/-! ## The loop -/

theorem run_edxFaults : EnrollmentLoop.run (edxFaults settings edxUser mode answers) cat now user
    changeStatus mode edx runs s = EnrollmentLoop.run Faults.none cat now user changeStatus mode edx runs s :=
  rfl

theorem step_successfulEnrollments :
    (step Faults.none cat now user changeStatus mode edx loop r).successfulEnrollments =
      loop.successfulEnrollments ++ [r] := by
  have hjoin := joinContract_noFaults cat now user r
  unfold step
  dsimp only [Faults.none]
  cases hrow : loop.store.enrollments user r with
  | none =>
    dsimp only
    rw [tryIn_of_ok (by simp [seq, andThen, mayFail, fallible, skip, hjoin, Faults.none])]
    rfl
  | some e =>
    dsimp only
    rw [tryIn_of_ok (by simp [seq, andThen, fallible, update, skip, hjoin, Faults.none])]
    split
    · rw [changeMode, tryIn_of_ok rfl]
      rfl
    · split
      · rw [reactivate, tryIn_of_ok rfl]
        rfl
      · rfl

/-- Every run of the call is returned, and has the flag of the call. -/
structure FlagsSoFar (user : UserId) (edx : Bool) (runs : List RunId) (loop : EnrollmentLoop) : Prop where
  successfulEnrollments : loop.successfulEnrollments = runs
  edxEnrolled : ∀ r ∈ runs, ∃ e, loop.store.enrollments user r = some e ∧ e.edxEnrolled = edx

theorem FlagsSoFar.step (h : FlagsSoFar user edx runs loop) : FlagsSoFar user edx (runs ++ [r])
    (EnrollmentLoop.step Faults.none cat now user changeStatus mode edx loop r) := by
  constructor
  · rw [step_successfulEnrollments, h.successfulEnrollments]
  · intro r' hr'
    rw [step_enrollments]
    by_cases hsame : r' = r
    · exact ⟨_, if_pos hsame, recordedRow_edxEnrolled ..⟩
    · rw [if_neg hsame]
      exact h.edxEnrolled r' ((List.mem_append.mp hr').resolve_right (by simpa using hsame))

variable (cat now user changeStatus mode edx s runs) in
theorem run_flagsSoFar : FlagsSoFar user edx runs
    (EnrollmentLoop.run Faults.none cat now user changeStatus mode edx runs s) := by
  induction runs using List.reverseRecOn with
  | nil => exact ⟨rfl, by simp⟩
  | append_singleton runs r ih =>
    rw [run_concat]
    exact ih.step

/-- A call that flags its enrollments is right if every run of it is. -/
theorem edxEnrolledIsTrue_loop {confirmed : RunId → Prop} :
    EdxEnrolledIsTrue cat user confirmed
      (.ok (EnrollmentLoop.run Faults.none cat now user changeStatus mode edx runs s, edx)) ↔
      (edx = true → ∀ r ∈ runs, (cat.courseRun r).isFakeCourseRun = true ∨ confirmed r) := by
  have hflags := run_flagsSoFar cat now user changeStatus edx mode s runs
  constructor
  · intro h hedx r hr
    obtain ⟨e, hrow, henrolled⟩ := hflags.edxEnrolled r hr
    have hreturned : r ∈ (EnrollmentLoop.run Faults.none cat now user changeStatus mode edx runs
        s).successfulEnrollments := by
      rw [hflags.successfulEnrollments]
      exact hr
    exact h _ _ rfl r hreturned e hrow (henrolled.trans hedx)
  · intro h loop' edx' hreturned r hr e hrow henrolled
    cases hreturned
    rw [hflags.successfulEnrollments] at hr
    obtain ⟨e', hrow', henrolled'⟩ := hflags.edxEnrolled r hr
    cases hrow.symm.trans hrow'
    exact h (henrolled'.symm.trans henrolled) r hr

/-! ## The call -/

/-- A call that edX refuses flags nothing. -/
theorem edxEnrolledIsTrue_refused {confirmed : RunId → Prop} {exc : EnrollException}
    (hreal : (cat.courseRun first).isFakeCourseRun = false)
    (hexc : enrollInEdxCourseRuns settings edxUser mode answers (first :: rest) = .error exc) :
    EdxEnrolledIsTrue cat user confirmed
      (runEnrollmentsReturned (edxFaults settings edxUser mode answers) cat now user (first :: rest)
        changeStatus keep mode s) := by
  have hedx : edxFaults settings edxUser mode answers (.edxEnroll (first :: rest)) =
      some exc.toError := by
    simp [edxFaults, Faults.edx, hexc]
  unfold runEnrollmentsReturned
  dsimp only
  rw [if_neg (by simp [hreal]), hedx, run_edxFaults]
  cases exc with
  | improperlyConfigured =>
    intro loop' edx' hreturned
    cases hreturned
  | _ =>
    dsimp only [EnrollException.toError]
    by_cases hkeep : keep = true
    · rw [if_pos hkeep]
      refine edxEnrolledIsTrue_loop.mpr fun hflag => ?_
      cases hflag
    · rw [if_neg hkeep]
      intro loop' edx' hreturned r hr
      cases hreturned
      cases hr

/-- After a fake first run edX is not asked, and the flag is set. -/
theorem edxEnrolledIsTrue_fake (hfake : (cat.courseRun first).isFakeCourseRun = true) :
    EdxEnrolledIsTrue cat user (Confirmed settings edxUser answers cat mode (first :: rest))
      (runEnrollmentsReturned (edxFaults settings edxUser mode answers) cat now user (first :: rest)
        changeStatus keep mode s) ↔
      ∀ r ∈ first :: rest, (cat.courseRun r).isFakeCourseRun = true := by
  have hnot : ∀ r, ¬Confirmed settings edxUser answers cat mode (first :: rest) r := by
    rintro r ⟨⟨first', hfirst, hreal⟩, -⟩
    cases hfirst
    cases hfake.symm.trans hreal
  unfold runEnrollmentsReturned
  dsimp only
  rw [if_pos hfake, run_edxFaults, edxEnrolledIsTrue_loop]
  simp [hnot]

/-- Where edX answers about a real first run, the flag is set. -/
theorem edxEnrolledIsTrue_answered {results : List EdxEnrollment}
    (hreal : (cat.courseRun first).isFakeCourseRun = false)
    (hcall : enrollInEdxCourseRuns settings edxUser mode answers (first :: rest) = .ok results) :
    EdxEnrolledIsTrue cat user (Confirmed settings edxUser answers cat mode (first :: rest))
      (runEnrollmentsReturned (edxFaults settings edxUser mode answers) cat now user (first :: rest)
        changeStatus keep mode s) ↔
      ∀ r ∈ first :: rest, (cat.courseRun r).isFakeCourseRun = false →
        ∃ k, (first :: rest)[k]? = some r ∧ (answers k).Confirms mode := by
  have hedx : edxFaults settings edxUser mode answers (.edxEnroll (first :: rest)) = none := by
    simp [edxFaults, Faults.edx, hcall]
  obtain ⟨hready, hreturns⟩ := enrollInEdxCourseRuns_returns.mp ⟨results, hcall⟩
  unfold runEnrollmentsReturned
  dsimp only
  rw [if_neg (by simp [hreal]), hedx, run_edxFaults, edxEnrolledIsTrue_loop]
  constructor
  · intro h r hr hreal'
    obtain ⟨-, -, k, hk, -, hconfirms⟩ := (h rfl r hr).resolve_left (by simp [hreal'])
    exact ⟨k, hk, hconfirms⟩
  · intro h _ r hr
    by_cases hfake' : (cat.courseRun r).isFakeCourseRun = true
    · exact Or.inl hfake'
    · obtain ⟨k, hk, hconfirms⟩ := h r hr (by simpa using hfake')
      have hlt : k < (first :: rest).length := (List.getElem?_eq_some_iff.mp hk).1
      exact Or.inr ⟨⟨first, rfl, hreal⟩, hready, k, hk, fun j hj => hreturns j (hj.trans hlt),
        hconfirms⟩

/-- The flag is true exactly if a fake first run has only fake runs after it, and where edX raises nothing
about a real first run, it has an active enrollment in the mode for every real run. -/
theorem edxEnrolledIsTrue_iff (settings : EdxSettings) (edxUser : UserAnswers) (answers : ℕ → RunAnswers)
    (cat : Catalog) (now : Instant) (user : UserId) (runs : List RunId) (changeStatus : Option String)
    (keep : Bool) (mode : EnrollmentMode) (s : Store) :
    EdxEnrolledIsTrue cat user (Confirmed settings edxUser answers cat mode runs)
      (runEnrollmentsReturned (edxFaults settings edxUser mode answers) cat now user runs changeStatus keep
        mode s) ↔
      ∀ first ∈ runs.head?,
        if (cat.courseRun first).isFakeCourseRun = true then
          ∀ r ∈ runs, (cat.courseRun r).isFakeCourseRun = true
        else
          UserReady settings edxUser → (∀ k < runs.length, (answers k).Returns mode) →
            ∀ r ∈ runs, (cat.courseRun r).isFakeCourseRun = false →
              ∃ k, runs[k]? = some r ∧ (answers k).Confirms mode := by
  rcases runs with _ | ⟨first, rest⟩
  · refine iff_of_true (fun loop' edx' hreturned => ?_) (by simp)
    cases hreturned
  rw [List.head?_cons]
  simp only [Option.mem_some_iff, forall_eq']
  by_cases hfake : (cat.courseRun first).isFakeCourseRun = true
  · rw [if_pos hfake]
    exact edxEnrolledIsTrue_fake hfake
  have hreal : (cat.courseRun first).isFakeCourseRun = false := by simpa using hfake
  rw [if_neg hfake]
  rcases hcall : enrollInEdxCourseRuns settings edxUser mode answers (first :: rest) with exc | results
  · refine iff_of_true (edxEnrolledIsTrue_refused hreal hcall) fun hready hreturns => ?_
    obtain ⟨results, hresults⟩ := enrollInEdxCourseRuns_returns.mpr ⟨hready, hreturns⟩
    cases hcall.symm.trans hresults
  · obtain ⟨hready, hreturns⟩ := enrollInEdxCourseRuns_returns.mp ⟨results, hcall⟩
    rw [edxEnrolledIsTrue_answered hreal hcall]
    exact ⟨fun h _ _ => h, fun h => h hready hreturns⟩

/-- A catalog in which run 1 is fake. -/
def fakeFirst : Catalog :=
  { Catalog.ofPrices fun _ => ⟨0⟩ with
    courseRun := fun r => ⟨r, true, none, true, r == 1, false, none⟩ }

/-- A user with an account and a token. -/
def healthyUser : UserAnswers := ⟨true, none, true, true, true, .ok (some true), false, true, .ok ()⟩

/-- edX would create every enrollment that it is asked for. -/
def acceptAll (mode : EnrollmentMode) : ℕ → RunAnswers :=
  fun _ => ⟨.ok [], .ok ⟨some mode, true⟩, .ok ⟨some mode, true⟩⟩

/-- Run 2 is not fake, and edX is not asked about it, because run 1 is fake. -/
theorem not_edxEnrolledIsTrue :
    ¬EdxEnrolledIsTrue fakeFirst 9
      (Confirmed ⟨true, false⟩ healthyUser (acceptAll .audit) fakeFirst .audit [1, 2])
      (runEnrollmentsReturned (edxFaults ⟨true, false⟩ healthyUser .audit (acceptAll .audit)) fakeFirst 0 9
        [1, 2] none false .audit Store.empty) := by
  intro h
  have hcall : runEnrollmentsReturned (edxFaults ⟨true, false⟩ healthyUser .audit (acceptAll .audit))
      fakeFirst 0 9 [1, 2] none false .audit Store.empty =
        .ok (EnrollmentLoop.run Faults.none fakeFirst 0 9 none .audit true [1, 2] Store.empty, true) := rfl
  rw [hcall, edxEnrolledIsTrue_loop] at h
  rcases h rfl 2 (by simp) with hfake | ⟨⟨first, hfirst, hreal⟩, -⟩
  · cases hfake
  · cases hfirst
    cases hreal

end MitxOnline

import MitxOnline.Openedx.CourseRunClones

/-!
# A run is cloned once, by the delivery that sets it up

A delivery touches a run in edX only after edX has accepted its clone. So a run that is there already is
left as it is, whatever fails and however the deliveries are interleaved.
-/

namespace MitxOnline

open Dialogues

/-! ## What a delivery may ask -/

/-- How far a delivery has come with its target. -/
inductive CloneStage where
  | waiting
  | cloned
  | detailed
  /-- The modes that the new run had, and those that it got since. -/
  | pushing (copied pushed : List EdxCourseMode)
  | failed
  deriving DecidableEq, Repr

/-- The modes of the target that are not among those of the run in edX. -/
def CloneTarget.missingModes (target : CloneTarget) (copied : List EdxCourseMode) : List EdxCourseMode :=
  (target.enrollmentModes.filter fun mode => mode.modeSlug ∉ copied.map (·.modeSlug)).map
    EnrollmentModeRow.toEdx

def cloneMay (target : CloneTarget) (stage : CloneStage) : EdxRequest → Prop
  | .cloneCourseRun _ newCourseId => newCourseId = target.readableId ∧ stage = .waiting
  | .updateCourseRun params => params = target.courseParams ∧ stage = .cloned
  | .createCourseMode courseId _ =>
    courseId = target.readableId ∧ ∃ copied pushed, stage = .pushing copied pushed
  | .getCourseModes courseId => courseId = target.readableId ∧ stage = .detailed
  | _ => True

def cloneNext (stage : CloneStage) : (q : EdxRequest) → Except CloneError q.Answer → CloneStage
  | .cloneCourseRun .., .ok true => .cloned
  | .updateCourseRun _, .ok _ => .detailed
  | .updateCourseRun _, .error _ => .failed
  | .getCourseModes _, .ok modes => .pushing modes []
  | .createCourseMode _ mode, .ok _ =>
    match stage with
    | .pushing copied pushed => .pushing copied (pushed ++ [mode])
    | stage => stage
  | .createCourseMode .., .error _ => .failed
  | _, _ => stage

/-- One clone, then the details, then the modes. -/
def cloneProtocol (target : CloneTarget) : Protocol EdxRequest EdxRequest.Answer CloneError CloneStage :=
  ⟨cloneMay target, cloneNext⟩

/-- A delivery that returns has sent all modes that were missing. -/
def CloneEnds (target : CloneTarget) (stage : CloneStage) (outcome : Except CloneError Unit) : Prop :=
  outcome = .ok () → ∃ copied, stage = .pushing copied (target.missingModes copied)

/-! ## The code follows the protocol -/

variable {target : CloneTarget} {stage : CloneStage}

/-- Requests that leave the delivery where it is. -/
theorem follows_client {post : CloneStage → Except CloneError Unit → Prop} (h : ∀ answer, post stage answer) :
    Follows (cloneProtocol target) stage (askEdx .client) post :=
  follows_request (q := EdxRequest.client) trivial h

theorem follows_getEdxCourse {post : CloneStage → Except CloneError Unit → Prop}
    (h : ∀ answer, post stage answer) (courseId : String) :
    Follows (cloneProtocol target) stage (getEdxCourse courseId) post :=
  follows_request (q := EdxRequest.getCourseRun courseId) trivial h

/-- After what stays at its stage. -/
theorem follows_after {α β : Type} {program : EdxProgram α} {f : α → EdxProgram β}
    {post : CloneStage → Except CloneError β → Prop}
    (h : Follows (cloneProtocol target) stage program fun g _ => g = stage)
    (hok : ∀ a, Follows (cloneProtocol target) stage (f a) post)
    (herror : ∀ e, post stage (.error e)) : Follows (cloneProtocol target) stage (program >>= f) post := by
  refine follows_bind _ h (fun g a hg => ?_) (fun g e hg => ?_)
  · rw [hg]
    exact hok a
  · rw [hg]
    exact herror e

theorem follows_ensureTargetMissing :
    Follows (cloneProtocol target) stage (ensureTargetMissing target) fun g _ => g = stage := by
  refine follows_tryCatch (fun g _ => g = stage) ?_ (fun g a hg => hg) (fun g e hg => ?_)
  · exact follows_after (follows_getEdxCourse (fun _ => rfl) _) (fun _ => follows_throw rfl) fun _ => rfl
  · cases e with
    | courseRunAPIError => exact follows_pure hg
    | _ => exact follows_throw hg

theorem follows_cloneEdxCourse (base : String) :
    Follows (cloneProtocol target) .waiting (cloneEdxCourse base target.readableId) fun g outcome =>
      outcome = .ok true → g = .cloned := by
  refine follows_bind (fun g outcome => outcome = .ok true → g = .cloned) ?_ ?_ ?_
  · refine follows_request (q := EdxRequest.cloneCourseRun base target.readableId) ⟨rfl, rfl⟩ ?_
    rintro answer rfl
    rfl
  · intro g ok hok
    cases ok with
    | false => exact follows_pure fun h => by simp at h
    | true =>
      rw [hok rfl]
      refine follows_after (follows_client fun _ => rfl) (fun _ => ?_) (fun e he => by simp at he)
      exact follows_after (follows_getEdxCourse (fun _ => rfl) _) (fun _ => follows_pure fun _ => rfl)
        (fun e he => by simp at he)
  · exact fun g e _ he => by simp at he

theorem follows_fixClonedRunData :
    Follows (cloneProtocol target) .cloned (fixClonedRunData target) fun g outcome =>
      outcome = .ok () → g = .detailed := by
  refine follows_after (follows_client fun _ => rfl) (fun _ => ?_) (fun e he => by simp at he)
  refine follows_request (q := EdxRequest.updateCourseRun target.courseParams) ⟨rfl, rfl⟩ ?_
  rintro answer rfl
  rfl

/-- The loop sends the modes of its list that are missing, in their order. -/
theorem follows_pushModes (copied pushed : List EdxCourseMode) (modes : List EnrollmentModeRow) :
    Follows (cloneProtocol target) (.pushing copied pushed)
      (pushModes target.readableId (copied.map (·.modeSlug)) modes) fun g outcome =>
        ∀ count, outcome = .ok count → g = .pushing copied (pushed ++
          (modes.filter fun mode => mode.modeSlug ∉ copied.map (·.modeSlug)).map
            EnrollmentModeRow.toEdx) := by
  induction modes generalizing pushed with
  | nil =>
    refine follows_pure fun count _ => ?_
    simp
  | cons mode modes ih =>
    simp only [pushModes]
    split
    next hmem =>
      rw [List.filter_cons_of_neg (by simpa using hmem)]
      exact ih pushed
    next hmem =>
      rw [List.filter_cons_of_pos (by simpa using hmem)]
      refine follows_bind
        (fun g outcome => outcome = .ok () → g = .pushing copied (pushed ++ [mode.toEdx])) ?_
        (fun g a hg => ?_) (fun g e _ count he => by simp at he)
      · refine follows_after (follows_client fun _ => rfl) (fun _ => ?_) (fun e he => by simp at he)
        refine follows_request (q := EdxRequest.createCourseMode target.readableId mode.toEdx)
          ⟨rfl, copied, pushed, rfl⟩ ?_
        rintro answer rfl
        rfl
      · rw [hg rfl]
        refine follows_bind _ (ih (pushed ++ [mode.toEdx])) (fun g count hcount => ?_)
          (fun g e _ count he => by simp at he)
        refine follows_pure fun _ _ => ?_
        rw [hcount count rfl]
        simp

theorem follows_pushEdxModesFromRun :
    Follows (cloneProtocol target) .detailed (pushEdxModesFromRun target) fun g outcome =>
      ∀ count, outcome = .ok count → ∃ copied, g = .pushing copied (target.missingModes copied) := by
  refine follows_bind (fun g outcome => ∀ modes, outcome = .ok modes → g = .pushing modes []) ?_
    (fun g modes hg => ?_) (fun g e _ count he => by simp at he)
  · refine follows_after (follows_client fun _ => rfl) (fun _ => ?_) (fun e modes he => by simp at he)
    refine follows_request (q := EdxRequest.getCourseModes target.readableId) ⟨rfl, rfl⟩ ?_
    rintro answer modes rfl
    rfl
  · rw [hg modes rfl]
    refine follows_mono (follows_pushModes modes [] target.enrollmentModes) fun g outcome h count hcount => ?_
    exact ⟨modes, h count hcount⟩

theorem follows_processCourseRunClone (base : String) :
    Follows (cloneProtocol target) .waiting (processCourseRunClone target base) (CloneEnds target) := by
  have herror : ∀ (g : CloneStage) e, CloneEnds target g (.error e) := fun g e he => by simp at he
  refine follows_after (follows_client fun _ => rfl) (fun _ => ?_) (herror _)
  refine follows_after (follows_getEdxCourse (fun _ => rfl) _) (fun _ => ?_) (herror _)
  refine follows_after follows_ensureTargetMissing (fun _ => ?_) (herror _)
  refine follows_bind _ (follows_cloneEdxCourse base) (fun g resp hresp => ?_) (fun g e _ => herror g e)
  cases resp with
  | false => exact follows_throw (herror g _)
  | true =>
    rw [hresp rfl]
    refine follows_bind _ follows_fixClonedRunData (fun g _ hg => ?_) (fun g e _ => herror g e)
    rw [hg rfl]
    refine follows_bind _ follows_pushEdxModesFromRun (fun g count hg => ?_) (fun g e _ => herror g e)
    exact follows_pure fun _ => hg count rfl

/-- A retry is an exception of the delivery. -/
theorem follows_cloneCourserun (settings : CloneSettings) (job : CloneJob) :
    Follows (cloneProtocol job.target) .waiting (cloneCourserun settings job) (CloneEnds job.target) := by
  refine follows_tryCatch _ (follows_processCourseRunClone job.baseKey) (fun g a h => h) (fun g e _ => ?_)
  have herror : ∀ e, CloneEnds job.target g (.error e) := fun e he => by simp at he
  split
  · split
    · exact follows_throw (herror _)
    · exact follows_throw (herror _)
  · exact follows_throw (herror _)

/-! ## A run of edX is a resource of the deliveries -/

/-- What edX holds of the target at a stage. -/
def StageMatches (target : CloneTarget) : CloneStage → Option EdxCourseRun → Prop
  | .waiting, _ => False
  | .cloned, run => run ≠ none
  | .detailed, run => ∃ r, run = some r ∧ r.details = some target.courseParams
  | .pushing copied pushed, run =>
    ∃ r, run = some r ∧ r.details = some target.courseParams ∧ r.modes = copied ++ pushed
  | .failed, run => run ≠ none

abbrev EdxResource (β : Type) :=
  Resource EdxCourseRuns CloneJob EdxRequest EdxRequest.Answer CloneError Unit β

/-- The run with the key: who has not cloned it leaves it. -/
def cloneResource (key : String) : EdxResource (Option EdxCourseRun) where
  view runs := runs key
  Free run := run = none
  Idle job program := ∃ stage, Follows (cloneProtocol job.target) stage program (CloneEnds job.target) ∧
    (job.target.readableId = key → stage = .waiting)
  Owns job program run := job.target.readableId = key ∧
    ∃ stage, Follows (cloneProtocol job.target) stage program (CloneEnds job.target) ∧
      StageMatches job.target stage run

variable {work : EdxWork} {runs : EdxCourseRuns}

theorem StageMatches.exists {run : Option EdxCourseRun} (h : StageMatches target stage run) :
    ∃ r, run = some r := by
  cases stage with
  | waiting => exact h.elim
  | cloned => exact Option.ne_none_iff_exists'.mp h
  | detailed =>
    obtain ⟨r, hr, -⟩ := h
    exact ⟨r, hr⟩
  | pushing copied pushed =>
    obtain ⟨r, hr, -⟩ := h
    exact ⟨r, hr⟩
  | failed => exact Option.ne_none_iff_exists'.mp h

theorem courseParams_courseId (target : CloneTarget) : target.courseParams.courseId = target.readableId := by
  simp only [CloneTarget.courseParams]
  split
  · split
    · rfl
    · rfl
  · rfl

/-- A delivery leaves the runs that are not its target. -/
theorem work_other (hedx : EdxLaws work) {q : EdxRequest} (hmay : cloneMay target stage q) {key : String}
    (hne : key ≠ target.readableId) : (work q runs).1 key = runs key := by
  cases q with
  | client => rw [hedx.client]
  | getCourseRun courseId => rw [hedx.getCourseRun]
  | cloneCourseRun base new => exact hedx.clone_other base new runs key (hmay.1 ▸ hne)
  | updateCourseRun params =>
    have hparams : params.courseId = target.readableId := by rw [hmay.1, courseParams_courseId]
    exact hedx.update_other params runs key (hparams ▸ hne)
  | getCourseModes courseId => rw [hedx.getCourseModes]
  | createCourseMode courseId mode => exact hedx.create_other courseId mode runs key (hmay.1 ▸ hne)

theorem apply_other (hedx : EdxLaws work) {q : EdxRequest} (hmay : cloneMay target stage q) {key : String}
    (hne : key ≠ target.readableId) (sent : Transmission CloneError) :
    (sent.apply (work q runs) runs).1 key = runs key := by
  rcases sent.apply_fst (work q runs) runs with h | h
  · rw [h]
    exact work_other hedx hmay hne
  · rw [h]

/-- A clone that is accepted makes the run; one that is not leaves a run that is there. -/
theorem clone_step (runs : EdxCourseRuns) (hedx : EdxLaws work) (base key : String)
    (sent : Transmission CloneError) :
    (sent.apply (work (.cloneCourseRun base key) runs) runs).2 = .ok true ∧ runs key = none ∧
        (∃ r, (sent.apply (work (.cloneCourseRun base key) runs) runs).1 key = some r) ∨
      (sent.apply (work (.cloneCourseRun base key) runs) runs).2 ≠ .ok true ∧
        ((sent.apply (work (.cloneCourseRun base key) runs) runs).1 key = runs key ∨
          runs key = none) := by
  by_cases hok : (sent.apply (work (.cloneCourseRun base key) runs) runs).2 = .ok true
  · have hwork := Transmission.apply_of_ok hok
    refine Or.inl ⟨hok, ?_, ?_⟩
    · cases hrun : runs key with
      | none => rfl
      | some r =>
        rw [hwork] at hok
        exact absurd hok (hedx.clone_taken base key runs r hrun).2
    · rw [hwork] at hok ⊢
      exact hedx.clone_ok base key runs hok
  · refine Or.inr ⟨hok, ?_⟩
    cases hrun : runs key with
    | none => exact Or.inr rfl
    | some r =>
      refine Or.inl ?_
      rcases sent.apply_fst (work (.cloneCourseRun base key) runs) runs with h | h
      · rw [h]
        exact (hedx.clone_taken base key runs r hrun).1
      · rw [h, hrun]

/-- A delivery that waits asks for the clone of its target or reads. -/
theorem waiting_step (runs : EdxCourseRuns) (hedx : EdxLaws work) {q : EdxRequest}
    (hmay : cloneMay target .waiting q) (sent : Transmission CloneError) :
    cloneNext .waiting q (sent.apply (work q runs) runs).2 = .waiting ∧
        ((sent.apply (work q runs) runs).1 target.readableId = runs target.readableId ∨
          runs target.readableId = none) ∨
      runs target.readableId = none ∧
        cloneNext .waiting q (sent.apply (work q runs) runs).2 = .cloned ∧
          (sent.apply (work q runs) runs).1 target.readableId ≠ none := by
  have hfst := sent.apply_fst (work q runs) runs
  cases q with
  | client =>
    rw [hedx.client, or_self] at hfst
    exact Or.inl ⟨rfl, Or.inl (by rw [hfst])⟩
  | getCourseRun courseId =>
    rw [hedx.getCourseRun, or_self] at hfst
    exact Or.inl ⟨rfl, Or.inl (by rw [hfst])⟩
  | cloneCourseRun base new =>
    obtain ⟨rfl, -⟩ := hmay
    rcases clone_step runs hedx base target.readableId sent with
      ⟨hok, hnone, r, hr⟩ | ⟨hnot, hview⟩
    · refine Or.inr ⟨hnone, ?_, ?_⟩
      · rw [hok]
        rfl
      · rw [hr]
        simp
    · refine Or.inl ⟨?_, hview⟩
      rcases hanswer : (sent.apply (work (.cloneCourseRun base target.readableId) runs) runs).2 with
        e | ok
      · rfl
      · cases ok with
        | false => rfl
        | true => exact absurd hanswer hnot
  | updateCourseRun params => exact absurd hmay.2 (by simp)
  | getCourseModes courseId => exact absurd hmay.2 (by simp)
  | createCourseMode courseId mode =>
    obtain ⟨-, copied, pushed, hstage⟩ := hmay
    exact absurd hstage (by simp)

/-- A run stays there where the service keeps it. -/
theorem apply_ne_none {q : EdxRequest} {key : String} {r : EdxCourseRun} (hrun : runs key = some r)
    (hwork : ∃ r', (work q runs).1 key = some r') (sent : Transmission CloneError) :
    (sent.apply (work q runs) runs).1 key ≠ none := by
  obtain ⟨r', hr'⟩ := hwork
  rcases sent.apply_fst (work q runs) runs with h | h
  · rw [h, hr']
    simp
  · rw [h, hrun]
    simp

theorem details_step (hedx : EdxLaws work) {r : EdxCourseRun} (hrun : runs target.readableId = some r)
    (sent : Transmission CloneError) :
    StageMatches target
      (cloneNext .cloned (.updateCourseRun target.courseParams)
        (sent.apply (work (.updateCourseRun target.courseParams) runs) runs).2)
      ((sent.apply (work (.updateCourseRun target.courseParams) runs) runs).1 target.readableId) := by
  have hupdate := hedx.update target.courseParams runs r
  rw [courseParams_courseId] at hupdate
  obtain ⟨r', hr', hdetails⟩ := hupdate hrun
  rcases hanswer : (sent.apply (work (.updateCourseRun target.courseParams) runs) runs).2 with e | _
  · exact apply_ne_none hrun ⟨r', hr'⟩ sent
  · have hwork := Transmission.apply_of_ok hanswer
    rw [hwork] at hanswer ⊢
    refine ⟨r', hr', ?_⟩
    rw [hdetails hanswer]

theorem getModes_step (hedx : EdxLaws work) {r : EdxCourseRun} (hrun : runs target.readableId = some r)
    (hdetails : r.details = some target.courseParams) (sent : Transmission CloneError) :
    StageMatches target
      (cloneNext .detailed (.getCourseModes target.readableId)
        (sent.apply (work (.getCourseModes target.readableId) runs) runs).2)
      ((sent.apply (work (.getCourseModes target.readableId) runs) runs).1 target.readableId) := by
  have hfst := sent.apply_fst (work (.getCourseModes target.readableId) runs) runs
  rw [hedx.getCourseModes, or_self] at hfst
  rw [hfst]
  rcases hanswer : (sent.apply (work (.getCourseModes target.readableId) runs) runs).2 with e | modes
  · exact ⟨r, hrun, hdetails⟩
  · have hwork := Transmission.apply_of_ok hanswer
    rw [hwork] at hanswer
    have hmodes : modes = r.modes := hedx.getCourseModes_ok target.readableId runs r modes hrun hanswer
    exact ⟨r, hrun, hdetails, by simp [hmodes]⟩

theorem createMode_step (hedx : EdxLaws work) {r : EdxCourseRun} (hrun : runs target.readableId = some r)
    (hdetails : r.details = some target.courseParams) {copied pushed : List EdxCourseMode}
    (hmodes : r.modes = copied ++ pushed) (mode : EdxCourseMode) (sent : Transmission CloneError) :
    StageMatches target
      (cloneNext (.pushing copied pushed) (.createCourseMode target.readableId mode)
        (sent.apply (work (.createCourseMode target.readableId mode) runs) runs).2)
      ((sent.apply (work (.createCourseMode target.readableId mode) runs) runs).1 target.readableId) := by
  obtain ⟨r', hr', hcreated⟩ := hedx.create target.readableId mode runs r hrun
  rcases hanswer : (sent.apply (work (.createCourseMode target.readableId mode) runs) runs).2 with e | _
  · exact apply_ne_none hrun ⟨r', hr'⟩ sent
  · have hwork := Transmission.apply_of_ok hanswer
    rw [hwork] at hanswer ⊢
    refine ⟨r', hr', ?_, ?_⟩
    · rw [hcreated hanswer]
      exact hdetails
    · rw [hcreated hanswer]
      simp [hmodes]

/-- A delivery that has cloned its target takes it from stage to stage. -/
theorem owner_step (hedx : EdxLaws work) {q : EdxRequest} (hmay : cloneMay target stage q)
    (hmatches : StageMatches target stage (runs target.readableId)) (sent : Transmission CloneError) :
    StageMatches target (cloneNext stage q (sent.apply (work q runs) runs).2)
      ((sent.apply (work q runs) runs).1 target.readableId) := by
  have hfst := sent.apply_fst (work q runs) runs
  cases q with
  | client =>
    rw [hedx.client, or_self] at hfst
    rw [hfst]
    exact hmatches
  | getCourseRun courseId =>
    rw [hedx.getCourseRun, or_self] at hfst
    rw [hfst]
    exact hmatches
  | cloneCourseRun base new =>
    rw [hmay.2] at hmatches
    exact hmatches.elim
  | updateCourseRun params =>
    obtain ⟨rfl, rfl⟩ := hmay
    obtain ⟨r, hrun⟩ := hmatches.exists
    exact details_step hedx hrun sent
  | getCourseModes courseId =>
    obtain ⟨rfl, rfl⟩ := hmay
    obtain ⟨r, hrun, hdetails⟩ := hmatches
    exact getModes_step hedx hrun hdetails sent
  | createCourseMode courseId mode =>
    obtain ⟨rfl, copied, pushed, rfl⟩ := hmay
    obtain ⟨r, hrun, hdetails, hmodes⟩ := hmatches
    exact createMode_step hedx hrun hdetails hmodes mode sent

theorem cloneResource_sound (hedx : EdxLaws work) (settings : CloneSettings) (key : String) :
    (cloneResource key).Sound (cloneCourserun settings) work where
  start job := ⟨.waiting, follows_cloneCourserun settings job, fun _ => rfl⟩
  taken job program run howns hfree := by
    obtain ⟨-, stage, -, hmatches⟩ := howns
    obtain ⟨r, hr⟩ := hmatches.exists
    rw [show run = none from hfree] at hr
    exact absurd hr (by simp)
  idle job q next runs sent hidle := by
    obtain ⟨stage, ⟨hmay, hnext⟩, hwaits⟩ := hidle
    by_cases hkey : job.target.readableId = key
    · rw [hwaits hkey] at hmay hnext
      subst hkey
      rcases waiting_step runs hedx hmay sent with ⟨hstage, hview⟩ | ⟨hfree, hstage, hrun⟩
      · exact Or.inl ⟨⟨_, hnext _, fun _ => hstage⟩, hview⟩
      · refine Or.inr ⟨hfree, rfl, _, hnext _, ?_⟩
        show StageMatches job.target (cloneNext .waiting q _) _
        rw [hstage]
        exact hrun
    · exact Or.inl ⟨⟨_, hnext _, fun h => absurd h hkey⟩,
        Or.inl (apply_other hedx hmay (Ne.symm hkey) sent)⟩
  owner job q next runs sent howns := by
    obtain ⟨rfl, stage, ⟨hmay, hnext⟩, hmatches⟩ := howns
    exact ⟨rfl, _, hnext _, owner_step hedx hmay hmatches sent⟩

/-! ## Every delivery follows its protocol, whatever others do in edX -/

/-- The protocols do not speak of what edX holds. -/
def followingResource : EdxResource Unit where
  view _ := ()
  Free _ := False
  Idle job program := ∃ stage, Follows (cloneProtocol job.target) stage program (CloneEnds job.target)
  Owns _ _ _ := False

theorem followingResource_sound (settings : CloneSettings) (work : EdxWork) :
    followingResource.Sound (cloneCourserun settings) work where
  start job := ⟨.waiting, follows_cloneCourserun settings job⟩
  taken _ _ _ howns := howns.elim
  idle job q next runs sent hidle := by
    obtain ⟨stage, -, hnext⟩ := hidle
    exact Or.inl ⟨⟨_, hnext _⟩, Or.inl rfl⟩
  owner _ _ _ _ _ howns := howns.elim

theorem cloneRun_follows (settings : CloneSettings) (work : EdxWork) (runs : EdxCourseRuns)
    (events : List CloneEvent) {w : ℕ} {job : CloneJob} {program : EdxProgram Unit}
    (hw : (cloneRun settings work runs events).programs w = some (job, program)) :
    ∃ stage, Follows (cloneProtocol job.target) stage program (CloneEnds job.target) := by
  have hleaves : ∀ event ∈ events, followingResource.Leaves EdxStaffEdit.apply event := by
    intro event _
    cases event with
    | outside edit => exact fun _ => rfl
    | _ => trivial
  have hstart : followingResource.Exclusive (⟨runs, fun _ => none⟩ : CloneSystem) :=
    Or.inl fun w entry hentry => absurd hentry (by simp)
  rcases exclusive_run (followingResource_sound settings work) hstart hleaves with hidle | ⟨w', howned⟩
  · exact hidle w (job, program) hw
  · obtain ⟨⟨_, _, -, howns⟩, -⟩ := howned
    exact howns.elim

/-! ## Runs -/

/-- The event is no edit of the run by staff. -/
def LeavesRun (key : String) : CloneEvent → Prop
  | .outside edit => edit.courseId ≠ key
  | _ => True

theorem LeavesRun.leaves {key : String} {event : CloneEvent} (h : LeavesRun key event) :
    (cloneResource key).Leaves EdxStaffEdit.apply event := by
  cases event with
  | outside edit => exact fun runs => Function.update_of_ne (Ne.symm h) _ _
  | _ => trivial

/-- The delivery that worker `w` took has returned. -/
def Returned (s : CloneSystem) (w : ℕ) (job : CloneJob) : Prop :=
  s.programs w = some (job, .done (.ok ()))

/-- A delivery that has returned owns its target. -/
theorem not_idle_of_returned {job : CloneJob} {key : String} (hkey : job.target.readableId = key) :
    ¬(cloneResource key).Idle job (.done (.ok ())) := by
  rintro ⟨stage, hends, hwaits⟩
  obtain ⟨copied, hstage⟩ := hends rfl
  rw [hwaits hkey] at hstage
  exact absurd hstage (by simp)

/-- The run has the details of the target, and its modes after those that the clone brought along. -/
def SetUp (target : CloneTarget) (run : EdxCourseRun) : Prop :=
  run.details = some target.courseParams ∧ ∃ copied, run.modes = copied ++ target.missingModes copied

theorem setUp_of_owns {job : CloneJob} {key : String} {run : Option EdxCourseRun}
    (h : (cloneResource key).Owns job (.done (.ok ())) run) : ∃ r, run = some r ∧ SetUp job.target r := by
  obtain ⟨-, stage, hends, hmatches⟩ := h
  obtain ⟨copied, rfl⟩ := hends rfl
  obtain ⟨r, hr, hdetails, hmodes⟩ := hmatches
  exact ⟨r, hr, hdetails, copied, hmodes⟩

/-- However deliveries are interleaved, retried and repeated, one delivery of a target returns at most, and
then the target is set up in edX. -/
theorem returned_delivery_set_up (settings : CloneSettings) {work : EdxWork} (hedx : EdxLaws work)
    (runs : EdxCourseRuns) (events : List CloneEvent) (key : String)
    (hstaff : ∀ event ∈ events, LeavesRun key event) :
    (∀ w job, Returned (cloneRun settings work runs events) w job → job.target.readableId = key →
      ∃ r, (cloneRun settings work runs events).service key = some r ∧ SetUp job.target r) ∧
    ∀ w w' job job', Returned (cloneRun settings work runs events) w job → job.target.readableId = key →
      Returned (cloneRun settings work runs events) w' job' → job'.target.readableId = key → w = w' := by
  have hstart : (cloneResource key).Exclusive (⟨runs, fun _ => none⟩ : CloneSystem) :=
    Or.inl fun w entry hentry => absurd hentry (by simp)
  have hexclusive : (cloneResource key).Exclusive (cloneRun settings work runs events) :=
    exclusive_run (cloneResource_sound hedx settings key) hstart fun event hevent =>
      (hstaff event hevent).leaves
  -- a delivery that has returned is the owner
  have howner : ∀ w job, Returned (cloneRun settings work runs events) w job →
      job.target.readableId = key → (cloneResource key).OwnedBy (cloneRun settings work runs events) w := by
    intro w job hreturned hkey
    rcases hexclusive with hidle | ⟨w', howned⟩
    · exact absurd (hidle w _ hreturned) (not_idle_of_returned hkey)
    · by_cases heq : w = w'
      · rw [heq]
        exact howned
      · exact absurd (howned.2 w _ heq hreturned) (not_idle_of_returned hkey)
  constructor
  · intro w job hreturned hkey
    obtain ⟨⟨job', program, hw, howns⟩, -⟩ := howner w job hreturned hkey
    obtain ⟨rfl, rfl⟩ := Prod.mk.inj (Option.some.inj (hw.symm.trans hreturned))
    exact setUp_of_owns howns
  · intro w w' job job' hreturned hkey hreturned' hkey'
    by_contra hne
    exact not_idle_of_returned hkey' ((howner w job hreturned hkey).2 w' _ (Ne.symm hne) hreturned')

/-! ### An edX that does whatever it can -/

/-- A rerun takes over the modes of its base. -/
def plainEdx : EdxWork
  | .client, runs => (runs, .ok ())
  | .getCourseRun courseId, runs =>
    match runs courseId with
    | none => (runs, .error .courseRunAPIError)
    | some _ => (runs, .ok ())
  | .cloneCourseRun existingCourseId newCourseId, runs =>
    match runs existingCourseId, runs newCourseId with
    | some base, none => (Function.update runs newCourseId (some ⟨none, base.modes⟩), .ok true)
    | _, _ => (runs, .ok false)
  | .updateCourseRun params, runs =>
    match runs params.courseId with
    | none => (runs, .error .courseRunAPIError)
    | some run => (Function.update runs params.courseId (some { run with details := some params }), .ok ())
  | .getCourseModes courseId, runs =>
    match runs courseId with
    | none => (runs, .error .httpError)
    | some run => (runs, .ok run.modes)
  | .createCourseMode courseId mode, runs =>
    match runs courseId with
    | none => (runs, .error .httpError)
    | some run => (Function.update runs courseId (some { run with modes := run.modes ++ [mode] }), .ok ())

theorem plainEdx_laws : EdxLaws plainEdx where
  client runs := rfl
  getCourseRun courseId runs := by
    cases h : runs courseId with
    | none => simp [plainEdx, h]
    | some r => simp [plainEdx, h]
  getCourseModes courseId runs := by
    cases h : runs courseId with
    | none => simp [plainEdx, h]
    | some r => simp [plainEdx, h]
  getCourseModes_ok courseId runs run modes hrun hmodes := by
    simp only [plainEdx, hrun] at hmodes
    exact (Except.ok.inj hmodes).symm
  clone_other base new runs courseId hne := by
    simp only [plainEdx]
    split
    · exact Function.update_of_ne hne _ _
    · rfl
  clone_taken base new runs run hrun := by
    cases h : runs base with
    | none => simp [plainEdx, h, hrun]
    | some r => simp [plainEdx, h, hrun]
  clone_ok base new runs hok := by
    simp only [plainEdx] at hok ⊢
    split at hok
    next r hbase hnew => exact ⟨⟨none, r.modes⟩, Function.update_self _ _ _⟩
    next => simp at hok
  update_other params runs courseId hne := by
    simp only [plainEdx]
    split
    · rfl
    · exact Function.update_of_ne hne _ _
  update params runs run hrun := by
    simp [plainEdx, hrun]
  create_other courseId mode runs courseId' hne := by
    simp only [plainEdx]
    split
    · rfl
    · exact Function.update_of_ne hne _ _
  create courseId mode runs run hrun := by
    simp [plainEdx, hrun]

/-- A course in edX that can be audited. -/
def auditedBase : EdxCourseRuns := fun courseId =>
  if courseId = "base" then some ⟨none, [⟨"audit", "Audit", 0⟩]⟩ else none

def rerunJob : CloneJob where
  target :=
    { readableId := "rerun"
      title := "Rerun"
      isSelfPaced := true
      startDate := some 10
      endDate := none
      enrollmentStart := none
      enrollmentEnd := none
      enrollmentModes := [⟨"audit", "Audit", false⟩, ⟨"verified", "Verified", true⟩] }
  baseKey := "base"
  retries := 0
  jitter := 0

/-- One worker, and as many answers as the delivery needs. -/
def plainDelivery : List CloneEvent := .start 0 rerunJob :: List.replicate 12 (.step 0 .answered)

theorem plainDelivery_returned :
    Returned (cloneRun ⟨5, 300⟩ plainEdx auditedBase plainDelivery) 0 rerunJob := rfl

theorem returned_delivery_set_up_plain :
    ∃ r, (cloneRun ⟨5, 300⟩ plainEdx auditedBase plainDelivery).service "rerun" = some r ∧
      SetUp rerunJob.target r :=
  (returned_delivery_set_up ⟨5, 300⟩ plainEdx_laws auditedBase plainDelivery "rerun" (by
    intro event hevent
    rcases List.mem_cons.mp hevent with rfl | hevent
    · trivial
    · rw [List.eq_of_mem_replicate hevent]
      trivial)).1 0 rerunJob plainDelivery_returned rfl

/-- Once edX has a run and the deliveries for it have ended, later deliveries leave it, and none of them
returns. -/
theorem existing_run_kept (settings : CloneSettings) {work : EdxWork} (hedx : EdxLaws work)
    (runs : EdxCourseRuns) (before after : List CloneEvent) (key : String) {r : EdxCourseRun}
    (hrun : (cloneRun settings work runs before).service key = some r)
    (hended : ∀ w job program, (cloneRun settings work runs before).programs w = some (job, program) →
      job.target.readableId = key → ∃ outcome, program = .done outcome)
    (hstaff : ∀ event ∈ after, LeavesRun key event) :
    (cloneRun settings work runs (before ++ after)).service key = some r ∧
      ∀ w job, Returned (cloneRun settings work runs (before ++ after)) w job →
        job.target.readableId = key → Returned (cloneRun settings work runs before) w job := by
  have hstart : (cloneResource key).Settled (cloneRun settings work runs before)
      (cloneRun settings work runs before) := by
    refine ⟨rfl, fun w entry hentry => ?_⟩
    by_cases hkey : entry.1.target.readableId = key
    · exact Or.inr ⟨hended w entry.1 entry.2 hentry hkey, hentry⟩
    · obtain ⟨stage, hfollows⟩ := cloneRun_follows settings work runs before hentry
      exact Or.inl ⟨stage, hfollows, fun h => absurd h hkey⟩
  have htaken : ¬(cloneResource key).Free
      ((cloneResource key).view (cloneRun settings work runs before).service) := by
    show (cloneRun settings work runs before).service key ≠ none
    rw [hrun]
    simp
  have hsplit : cloneRun settings work runs (before ++ after) =
      Trace.run (cloneStep settings work) (cloneRun settings work runs before) after := by
    simp [cloneRun, Trace.run]
  have hsettled := settled_run (cloneResource_sound hedx settings key) htaken hstart
    fun event hevent => (hstaff event hevent).leaves
  rw [hsplit]
  refine ⟨hsettled.view.trans hrun, fun w job hreturned hkey => ?_⟩
  rcases hsettled.programs w _ hreturned with hidle | ⟨-, hbefore⟩
  · exact absurd hidle (not_idle_of_returned hkey)
  · exact hbefore

/-- The rerun is there, and the task is delivered once more. -/
theorem existing_run_kept_plain :
    (cloneRun ⟨5, 300⟩ plainEdx auditedBase (plainDelivery ++
        .start 1 rerunJob :: List.replicate 3 (.step 1 .answered))).service "rerun" =
      (cloneRun ⟨5, 300⟩ plainEdx auditedBase plainDelivery).service "rerun" := by
  have hrun : (cloneRun ⟨5, 300⟩ plainEdx auditedBase plainDelivery).service "rerun" = some
      ⟨some rerunJob.target.courseParams, [⟨"audit", "Audit", 0⟩, ⟨"verified", "Verified", 1⟩]⟩ := rfl
  rw [hrun]
  refine (existing_run_kept ⟨5, 300⟩ plainEdx_laws auditedBase plainDelivery
    (.start 1 rerunJob :: List.replicate 3 (.step 1 .answered)) "rerun" hrun ?_ ?_).1
  · intro w job program hw _
    cases w with
    | zero =>
      obtain ⟨-, rfl⟩ := Prod.mk.inj (Option.some.inj (plainDelivery_returned.symm.trans hw))
      exact ⟨.ok (), rfl⟩
    | succ w =>
      have hnone : (cloneRun ⟨5, 300⟩ plainEdx auditedBase plainDelivery).programs (w + 1) = none := rfl
      rw [hnone] at hw
      exact absurd hw (by simp)
  · intro event hevent
    rcases List.mem_cons.mp hevent with rfl | hevent
    · trivial
    · rw [List.eq_of_mem_replicate hevent]
      trivial

end MitxOnline

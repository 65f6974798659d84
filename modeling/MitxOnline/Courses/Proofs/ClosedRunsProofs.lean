import MitxOnline.Courses.Proofs.RunSyncProofs

/-!
# What was closed stays closed

A retirement moves the dates of a run into the past in edX too. A sync that comes later brings back the
dates of edX, so it closes again what it finds and opens nothing.
-/

namespace MitxOnline

open Trace

variable {lookup isCourseKey : String → Bool} {s s' : SyncedCourseware lookup} {obj : RunInstance}
  {detail : CourseDetail} {r r' : RunId} {now T : Instant} {edxAnswer : Except Error Unit}
  {kept deactivateProducts skipEdx : Bool} {update : EdxUpdate} {coursewareId : String}

/-- The date is set and before `T`. -/
def IsOver (T : Instant) (date : Option Instant) : Prop := ∃ t, date = some t ∧ t < T

/-! ## A retirement in the database -/

/-- Between two states products are switched off at most. -/
structure CoursewareStore.SwitchedOff (db db' : CoursewareStore lookup) : Prop where
  keys : db'.products.keys = db.products.keys
  row : ∀ p, ∃ off, db'.products.row p =
    { db.products.row p with isActive := (db.products.row p).isActive && !off }

theorem switchedOff_of_products {db db' : CoursewareStore lookup} (h : db'.products = db.products) :
    db.SwitchedOff db' := by
  refine ⟨congrArg Table.keys h, fun p => ⟨false, ?_⟩⟩
  rw [h, Bool.not_false, Bool.and_true]

theorem deactivateRunProducts_switchedOff (db : CoursewareStore lookup) (r : RunId) :
    db.SwitchedOff (deactivateRunProducts db r).1 := by
  obtain ⟨-, -, hkeys⟩ := foldl_deactivateProduct_frame (db.getRunProducts r) (db, [])
  refine ⟨hkeys, fun p => ⟨(db.getRunProducts r).contains p, ?_⟩⟩
  unfold deactivateRunProducts
  rw [foldl_deactivateProduct_row]

theorem CoursewareStore.SwitchedOff.trans {db db' db'' : CoursewareStore lookup} (h : db.SwitchedOff db')
    (h' : db'.SwitchedOff db'') : db.SwitchedOff db'' := by
  refine ⟨h'.keys.trans h.keys, fun p => ?_⟩
  obtain ⟨off, hrow⟩ := h.row p
  obtain ⟨off', hrow'⟩ := h'.row p
  refine ⟨off || off', ?_⟩
  rw [hrow', hrow, Bool.not_or, Bool.and_assoc]

/-- A run has the products it had. -/
theorem CoursewareStore.SwitchedOff.getRunProducts_eq {db db' : CoursewareStore lookup}
    (h : db.SwitchedOff db') (r : RunId) : db'.getRunProducts r = db.getRunProducts r := by
  unfold CoursewareStore.getRunProducts
  rw [h.keys]
  refine List.filter_congr fun p _ => ?_
  obtain ⟨off, hrow⟩ := h.row p
  rw [hrow]

theorem CoursewareStore.SwitchedOff.isActive_eq_false {db db' : CoursewareStore lookup}
    (h : db.SwitchedOff db') {p : ProductId} (hoff : (db.products.row p).isActive = false) :
    (db'.products.row p).isActive = false := by
  obtain ⟨off, hrow⟩ := h.row p
  rw [hrow]
  show ((db.products.row p).isActive && !off) = false
  rw [hoff, Bool.false_and]

/-- The database in which a retirement writes the run: edX was asked before, or not at all. -/
def CoursewareStore.pushed (db : CoursewareStore lookup) (skipEdx : Bool) (now : Instant) (r : RunId) :
    CoursewareStore lookup :=
  if skipEdx = true then db
  else db.updateEdxCourse (db.courseRun r).coursewareId
    ((db.courseRun r).edxPayload (db.retirementDates r now))

theorem pushed_courseRun (db : CoursewareStore lookup) (skipEdx : Bool) (now : Instant) (r : RunId) :
    (db.pushed skipEdx now r).courseRun = db.courseRun := by
  unfold CoursewareStore.pushed
  split_ifs <;> rfl

theorem pushed_products (db : CoursewareStore lookup) (skipEdx : Bool) (now : Instant) (r : RunId) :
    (db.pushed skipEdx now r).products = db.products := by
  unfold CoursewareStore.pushed
  split_ifs <;> rfl

/-- The database with the run as a retirement writes it. -/
def CoursewareStore.withRetired (db : CoursewareStore lookup) (skipEdx : Bool) (now : Instant) (r : RunId) :
    CoursewareStore lookup :=
  (db.pushed skipEdx now r).setRun r ((db.courseRun r).retired (db.retirementDates r now))
    (retired_clean (db.clean_language r))

/-- What a retirement leaves in the database. Where edX is asked and refuses, it is what was sent to edX. -/
theorem retireCourseRun_fst (edxAnswer : Except Error Unit) (deactivateProducts skipEdx : Bool) (now : Instant)
    (r : RunId) (db : CoursewareStore lookup) :
    (retireCourseRun edxAnswer deactivateProducts skipEdx now r db).1 =
      if skipEdx = false ∧ edxAnswer.isOk = false then db.pushed skipEdx now r
      else if deactivateProducts = true then (deactivateRunProducts (db.withRetired skipEdx now r) r).1
      else db.withRetired skipEdx now r := by
  have hclean : ((db.courseRun r).retired (computeRetirementDates (db.courseRun r) now)).clean lookup =
      .ok () := retired_clean (db.clean_language r)
  unfold retireCourseRun CoursewareStore.withRetired CoursewareStore.pushed CoursewareStore.retirementDates
  cases skipEdx with
  | true =>
    simp only [if_true, saveRun_eq_ok hclean, Bool.true_eq_false, false_and, if_false]
    cases deactivateProducts with
    | true => rfl
    | false => rfl
  | false =>
    cases edxAnswer with
    | error e => rfl
    | ok _ =>
      simp only [Bool.false_eq_true, if_false, pushRunDatesToEdx, Except.map, saveRun_eq_ok hclean,
        Except.isOk, Except.toBool, Bool.true_eq_false, and_false]
      cases deactivateProducts with
      | true => rfl
      | false => rfl

/-- A retirement leaves the runs or writes the retired run. -/
theorem retireCourseRun_courseRun (edxAnswer : Except Error Unit) (deactivateProducts skipEdx : Bool)
    (now : Instant) (r : RunId) (db : CoursewareStore lookup) :
    (retireCourseRun edxAnswer deactivateProducts skipEdx now r db).1.courseRun =
      if skipEdx = false ∧ edxAnswer.isOk = false then db.courseRun
      else Function.update db.courseRun r ((db.courseRun r).retired (db.retirementDates r now)) := by
  have hwritten : (db.withRetired skipEdx now r).courseRun =
      Function.update db.courseRun r ((db.courseRun r).retired (db.retirementDates r now)) := by
    show Function.update (db.pushed skipEdx now r).courseRun r _ = _
    rw [pushed_courseRun]
  rw [retireCourseRun_fst]
  split_ifs
  · exact pushed_courseRun db skipEdx now r
  · rw [deactivateRunProducts_courseRun, hwritten]
  · exact hwritten

theorem retireCourseRun_switchedOff (edxAnswer : Except Error Unit) (deactivateProducts skipEdx : Bool)
    (now : Instant) (r : RunId) (db : CoursewareStore lookup) :
    db.SwitchedOff (retireCourseRun edxAnswer deactivateProducts skipEdx now r db).1 := by
  have hwritten : (db.withRetired skipEdx now r).products = db.products :=
    pushed_products db skipEdx now r
  rw [retireCourseRun_fst]
  split_ifs
  · exact switchedOff_of_products (pushed_products db skipEdx now r)
  · obtain ⟨hkeys, hrows⟩ := deactivateRunProducts_switchedOff (db.withRetired skipEdx now r) r
    rw [hwritten] at hkeys hrows
    exact ⟨hkeys, hrows⟩
  · exact switchedOff_of_products hwritten

/-! ## Closed runs -/

/-- The dates of an instance are over. -/
structure RunInstance.Over (T : Instant) (obj : RunInstance) : Prop where
  ended : IsOver T obj.run.endDate
  closed : IsOver T obj.run.enrollmentEnd

/-- edX has the course as over. -/
structure CourseDetail.Over (T : Instant) (detail : CourseDetail) : Prop where
  ended : IsOver T detail.fin
  closed : IsOver T detail.enrollmentEnd

theorem synced_over (obj : RunInstance) (hdetail : detail.Over T) : (obj.synced detail).Over T :=
  ⟨hdetail.ended, hdetail.closed⟩

/-- A run is over in edX. -/
structure SyncedCourseware.EdxOver (T : Instant) (r : RunId) (coursewareId : String)
    (s : SyncedCourseware lookup) : Prop where
  hasId : (s.db.courseRun r).coursewareId = coursewareId
  edx : ∀ detail, s.edx coursewareId = some detail → detail.Over T

/-- A run is over in edX and in the database. -/
structure SyncedCourseware.Over (T : Instant) (r : RunId) (coursewareId : String)
    (s : SyncedCourseware lookup) : Prop extends s.EdxOver T r coursewareId where
  instance_over : (s.instance r).Over T

/-- A run is over in both, it is not live, and nothing of it is for sale. -/
structure SyncedCourseware.Closed (T : Instant) (r : RunId) (coursewareId : String)
    (s : SyncedCourseware lookup) : Prop extends s.Over T r coursewareId where
  live : (s.db.courseRun r).live = false
  products : ∀ p ∈ s.db.getRunProducts r, (s.db.products.row p).isActive = false

theorem cutoff_over (hnow : now ≤ T) : IsOver T (some (now - retirementDateOffset)) := by
  have hlt := sub_retirementDateOffset_lt now
  exact ⟨_, rfl, lt_of_lt_of_le hlt hnow⟩

/-- What a retirement sends to edX closes the course there. -/
theorem update_over (hedx : update.Documented) (hnow : now ≤ T) {run : ScheduledRun} {courses : EdxCourses}
    (h : update coursewareId (run.edxPayload (computeRetirementDates run now)) courses coursewareId =
      some detail) : detail.Over T := by
  have hfin : detail.fin = some (now - retirementDateOffset) := hedx.fin _ _ _ _ _ rfl h
  have hend : detail.enrollmentEnd = some (now - retirementDateOffset) :=
    hedx.enrollmentEnd _ _ _ _ _ rfl h
  constructor
  · rw [hfin]
    exact cutoff_over hnow
  · rw [hend]
    exact cutoff_over hnow

theorem retired_over (hnow : now ≤ T) (run : ScheduledRun) (certificateAvailableDate : Option Instant) :
    RunInstance.Over T ⟨run.retired (computeRetirementDates run now), certificateAvailableDate⟩ :=
  ⟨cutoff_over hnow, cutoff_over hnow⟩

/-! ## One event -/

/-- Retirements come before `T`, and nobody edits the course of the id in edX. -/
def CoursewareEvent.Spares (T : Instant) (coursewareId : String) : CoursewareEvent → Prop
  | .retire _ _ _ _ now _ => now ≤ T
  | .sync _ _ => True
  | .edit coursewareId' _ => coursewareId' ≠ coursewareId

/-- A retirement leaves what edX has of a course, or closes the course there. -/
theorem retire_edx_cases (hedx : update.Documented) (edxAnswer : Except Error Unit)
    (kept deactivateProducts skipEdx : Bool) (r : RunId) (s : SyncedCourseware lookup) (hnow : now ≤ T)
    (coursewareId : String) :
    (s.retire update edxAnswer kept deactivateProducts skipEdx now r).edx coursewareId = s.edx coursewareId ∨
      ∀ detail, (s.retire update edxAnswer kept deactivateProducts skipEdx now r).edx coursewareId =
        some detail → detail.Over T := by
  unfold SyncedCourseware.retire
  dsimp only
  split_ifs
  · by_cases hid : coursewareId = (s.db.courseRun r).coursewareId
    · right
      intro detail hdetail
      subst hid
      exact update_over hedx hnow hdetail
    · exact Or.inl (hedx.others _ _ _ _ hid)
  · exact Or.inl rfl

/-- A retirement leaves a run or retires it. -/
theorem retire_courseRun_cases (update : EdxUpdate) (edxAnswer : Except Error Unit)
    (kept deactivateProducts skipEdx : Bool) (now : Instant) (r' : RunId) (s : SyncedCourseware lookup)
    (r : RunId) :
    (s.retire update edxAnswer kept deactivateProducts skipEdx now r').db.courseRun r = s.db.courseRun r ∨
      (s.retire update edxAnswer kept deactivateProducts skipEdx now r').db.courseRun r =
        (s.db.courseRun r).retired (computeRetirementDates (s.db.courseRun r) now) := by
  unfold SyncedCourseware.retire
  dsimp only
  rw [retireCourseRun_courseRun]
  split_ifs
  · exact Or.inl rfl
  · by_cases heq : r = r'
    · subst heq
      exact Or.inr (Function.update_self ..)
    · exact Or.inl (Function.update_of_ne heq _ _)

/-- No event writes a courseware id. -/
theorem coursewareStep_coursewareId (update : EdxUpdate) (isCourseKey : String → Bool)
    (s : SyncedCourseware lookup) (e : CoursewareEvent) (r : RunId) :
    ((coursewareStep update isCourseKey s e).db.courseRun r).coursewareId =
      (s.db.courseRun r).coursewareId := by
  cases e with
  | retire edxAnswer kept deactivateProducts skipEdx now r' =>
    rcases retire_courseRun_cases update edxAnswer kept deactivateProducts skipEdx now r' s r with
      hsame | hretired
    · exact congrArg ScheduledRun.coursewareId hsame
    · exact (congrArg ScheduledRun.coursewareId hretired).trans retired_coursewareId
  | sync runs answer => exact sync_coursewareId isCourseKey runs answer s r
  | edit coursewareId detail => rfl

/-- What an event writes was checked. -/
theorem coursewareStep_cleanExpirationDate (update : EdxUpdate) (isCourseKey : String → Bool)
    (e : CoursewareEvent) (h : (s.db.courseRun r).cleanExpirationDate = .ok ()) :
    ((coursewareStep update isCourseKey s e).db.courseRun r).cleanExpirationDate = .ok () := by
  cases e with
  | retire edxAnswer kept deactivateProducts skipEdx now r' =>
    rcases retire_courseRun_cases update edxAnswer kept deactivateProducts skipEdx now r' s r with
      hsame | hretired
    · exact (congrArg ScheduledRun.cleanExpirationDate hsame).trans h
    · exact (congrArg ScheduledRun.cleanExpirationDate hretired).trans retired_cleanExpirationDate
  | sync runs answer => exact sync_cleanExpirationDate h
  | edit coursewareId detail => exact h

/-- What is over in edX is over there after an event that spares it. -/
theorem coursewareStep_edxOver (hedx : update.Documented) (e : CoursewareEvent)
    (h : s.EdxOver T r coursewareId) (hspares : e.Spares T coursewareId) :
    (coursewareStep update isCourseKey s e).EdxOver T r coursewareId := by
  refine ⟨(coursewareStep_coursewareId update isCourseKey s e r).trans h.hasId, ?_⟩
  cases e with
  | retire edxAnswer kept deactivateProducts skipEdx now r' =>
    intro detail hdetail
    rcases retire_edx_cases hedx edxAnswer kept deactivateProducts skipEdx r' s hspares coursewareId with
      hsame | hover
    · exact h.edx detail (hsame.symm.trans hdetail)
    · exact hover detail hdetail
  | sync runs answer =>
    have hedx := (sync_frame isCourseKey runs answer s).2
    show ∀ detail, (syncCourseRuns isCourseKey runs answer s).1.edx coursewareId = some detail → _
    rw [hedx]
    exact h.edx
  | edit coursewareId' detail =>
    have hsame : Function.update s.edx coursewareId' detail coursewareId = s.edx coursewareId :=
      Function.update_of_ne (Ne.symm hspares) _ _
    show ∀ detail', Function.update s.edx coursewareId' detail coursewareId = some detail' → detail'.Over T
    rw [hsame]
    exact h.edx

/-- No event switches a product on. -/
theorem coursewareStep_switchedOff (update : EdxUpdate) (isCourseKey : String → Bool)
    (s : SyncedCourseware lookup) (e : CoursewareEvent) :
    s.db.SwitchedOff (coursewareStep update isCourseKey s e).db := by
  cases e with
  | retire edxAnswer kept deactivateProducts skipEdx now r' => exact retireCourseRun_switchedOff _ _ _ _ _ _
  | sync runs answer => exact switchedOff_of_products (sync_frame isCourseKey runs answer s).1
  | edit coursewareId detail => exact switchedOff_of_products rfl

/-- No event makes a run live. -/
theorem coursewareStep_live (update : EdxUpdate) (isCourseKey : String → Bool) (e : CoursewareEvent)
    (h : (s.db.courseRun r).live = false) :
    ((coursewareStep update isCourseKey s e).db.courseRun r).live = false := by
  cases e with
  | retire edxAnswer kept deactivateProducts skipEdx now r' =>
    rcases retire_courseRun_cases update edxAnswer kept deactivateProducts skipEdx now r' s r with
      hsame | hretired
    · exact (congrArg (fun run => run.live) hsame).trans h
    · exact congrArg (fun run => run.live) hretired
  | sync runs answer =>
    have hkept := sync_keeps isCourseKey runs answer (s := s) (r := r) (K := fun obj => obj.run.live = false)
      (fun _ _ _ hobj => hobj) h
    exact hkept
  | edit coursewareId detail => exact h

/-- What is over is over after an event that spares it. A sync can only copy the dates of edX. -/
theorem coursewareStep_over (hedx : update.Documented) (e : CoursewareEvent) (h : s.Over T r coursewareId)
    (hspares : e.Spares T coursewareId) : (coursewareStep update isCourseKey s e).Over T r coursewareId := by
  refine ⟨coursewareStep_edxOver hedx e h.toEdxOver hspares, ?_⟩
  cases e with
  | retire edxAnswer kept deactivateProducts skipEdx now r' =>
    show RunInstance.Over T ⟨(s.retire update edxAnswer kept deactivateProducts skipEdx now r').db.courseRun r,
      s.certificateAvailableDate r⟩
    rcases retire_courseRun_cases update edxAnswer kept deactivateProducts skipEdx now r' s r with
      hsame | hretired
    · rw [hsame]
      exact h.instance_over
    · rw [hretired]
      exact retired_over hspares _ _
  | sync runs answer =>
    have hedxDetail : s.edxDetail r = s.edx coursewareId := congrArg s.edx h.hasId
    refine sync_keeps isCourseKey runs answer (fun detail hdetail obj _ => synced_over obj ?_) h.instance_over
    exact h.edx detail (hedxDetail.symm.trans hdetail)
  | edit coursewareId' detail => exact h.instance_over

/-- What is closed is closed after an event that spares it. -/
theorem coursewareStep_closed (hedx : update.Documented) (e : CoursewareEvent)
    (h : s.Closed T r coursewareId) (hspares : e.Spares T coursewareId) :
    (coursewareStep update isCourseKey s e).Closed T r coursewareId := by
  refine ⟨coursewareStep_over hedx e h.toOver hspares, coursewareStep_live update isCourseKey e h.live, ?_⟩
  have hswitched := coursewareStep_switchedOff update isCourseKey s e
  rw [hswitched.getRunProducts_eq r]
  exact fun p hp => hswitched.isActive_eq_false (h.products p hp)

/-! ## Runs -/

/-- What edX kept of a retirement closes the course there, whatever it answered. -/
theorem retire_edxOver (hedx : update.Documented) (s : SyncedCourseware lookup) (r : RunId) (hnow : now ≤ T)
    (hkept : edxAnswer.isOk = true ∨ kept = true) :
    (s.retire update edxAnswer kept deactivateProducts false now r).EdxOver T r
      (s.db.courseRun r).coursewareId := by
  refine ⟨coursewareStep_coursewareId update (fun _ => true) s
    (.retire edxAnswer kept deactivateProducts false now r) r, fun detail hdetail => ?_⟩
  unfold SyncedCourseware.retire at hdetail
  dsimp only at hdetail
  rw [if_pos ⟨rfl, hkept⟩] at hdetail
  exact update_over hedx hnow hdetail

/-- A retirement for which edX answers closes the run. -/
theorem retire_closes (hedx : update.Documented) (s : SyncedCourseware lookup) (r : RunId) (hnow : now ≤ T) :
    (s.retire update (.ok ()) kept true false now r).Closed T r (s.db.courseRun r).coursewareId := by
  have hok : ¬(false = false ∧ (Except.ok () : Except Error Unit).isOk = false) := fun h => by
    cases h.2
  have hrun : (s.retire update (.ok ()) kept true false now r).db.courseRun r =
      (s.db.courseRun r).retired (computeRetirementDates (s.db.courseRun r) now) := by
    show (retireCourseRun (.ok ()) true false now r s.db).1.courseRun r = _
    rw [retireCourseRun_courseRun, if_neg hok]
    exact Function.update_self ..
  refine ⟨⟨retire_edxOver hedx s r hnow (Or.inl rfl), ?_⟩, ?_, ?_⟩
  · unfold SyncedCourseware.instance
    rw [hrun]
    exact retired_over hnow _ _
  · rw [hrun]
    rfl
  · show ∀ p ∈ (retireCourseRun (.ok ()) true false now r s.db).1.getRunProducts r,
      ((retireCourseRun (.ok ()) true false now r s.db).1.products.row p).isActive = false
    rw [retireCourseRun_fst, if_neg hok, if_pos rfl]
    exact fun p hp => deactivateRunProducts_isActive hp

theorem isPast_of_over {run : ScheduledRun} (h : IsOver T run.endDate) {t : Instant} (ht : T ≤ t) :
    run.isPast t = true := by
  obtain ⟨fin, hfin, hlt⟩ := h
  unfold ScheduledRun.isPast
  rw [hfin]
  exact decide_eq_true (lt_of_lt_of_le hlt ht)

theorem isEnrollable_of_closed {run : ScheduledRun} (h : IsOver T run.enrollmentEnd) {t : Instant}
    (ht : T ≤ t) :
    run.isEnrollable t = false := by
  obtain ⟨closing, hclosing, hlt⟩ := h
  have hafter : ¬t < closing := not_lt.mpr (hlt.le.trans ht)
  unfold ScheduledRun.isEnrollable
  rw [hclosing]
  simp [hafter]

/-- An update where edX keeps what it is sent, and what it is not sent stays as it was. -/
def CourseDetail.updated (detail : CourseDetail) (payload : EdxPayload) : CourseDetail :=
  { detail with
    name := payload.title
    isSelfPaced := payload.pacingType == "self_paced"
    start := payload.dates.start.or detail.start
    fin := payload.dates.fin.or detail.fin
    enrollmentStart := payload.dates.enrollmentStart.or detail.enrollmentStart
    enrollmentEnd := payload.dates.enrollmentEnd.or detail.enrollmentEnd }

/-- Such an edX. -/
def keepingEdx : EdxUpdate := fun coursewareId payload courses =>
  Function.update courses coursewareId ((courses coursewareId).map (·.updated payload))

theorem keepingEdx_self {payload : EdxPayload} {courses : EdxCourses}
    (h : keepingEdx coursewareId payload courses coursewareId = some detail) :
    ∃ before, detail = CourseDetail.updated before payload := by
  have hupdate : (courses coursewareId).map (·.updated payload) = some detail :=
    (Function.update_self coursewareId _ courses).symm.trans h
  obtain ⟨before, -, rfl⟩ := Option.map_eq_some_iff.mp hupdate
  exact ⟨before, rfl⟩

theorem keepingEdx_documented : keepingEdx.Documented := by
  constructor
  · intro coursewareId payload courses t detail hsent h
    obtain ⟨before, rfl⟩ := keepingEdx_self h
    exact congrArg (fun date => date.or before.fin) hsent
  · intro coursewareId payload courses t detail hsent h
    obtain ⟨before, rfl⟩ := keepingEdx_self h
    exact congrArg (fun date => date.or before.enrollmentEnd) hsent
  · intro coursewareId payload courses other hne
    exact Function.update_of_ne hne _ _

/-- A retired run is over for good: after any syncs, whatever they are asked for and whatever fails in them,
any retirements and any edits of other courses it is past, takes no learners and has nothing to sell. -/
theorem retired_stays_past (update : EdxUpdate) (hedx : update.Documented) (isCourseKey : String → Bool)
    (s : SyncedCourseware lookup) (r : RunId) (kept : Bool) (now T : Instant) (hnow : now ≤ T)
    (events : List CoursewareEvent)
    (hspares : ∀ e ∈ events, e.Spares T (s.db.courseRun r).coursewareId) (t : Instant) (ht : T ≤ t) :
    let s' := run (coursewareStep update isCourseKey) (s.retire update (.ok ()) kept true false now r) events
    (s'.db.courseRun r).isPast t = true ∧ (s'.db.courseRun r).isEnrollable t = false ∧
      (∀ hasProduct, (s'.db.courseRun r).isUpgradable hasProduct t = false) ∧
      (∀ p ∈ s'.db.getRunProducts r, (s'.db.products.row p).isActive = false) ∧
      ∀ detail, s'.edxDetail r = some detail → IsOver T detail.fin ∧ IsOver T detail.enrollmentEnd := by
  intro s'
  have hclosed : s'.Closed T r (s.db.courseRun r).coursewareId := by
    refine run_of_along (C := fun _ e => e.Spares T (s.db.courseRun r).coursewareId) _
      (fun s'' e h he => coursewareStep_closed hedx e h he) (retire_closes hedx s r hnow) ?_
    exact along_of_forall hspares
  refine ⟨isPast_of_over hclosed.instance_over.ended ht, isEnrollable_of_closed hclosed.instance_over.closed ht,
    fun hasProduct => ?_, hclosed.products, fun detail hdetail => ?_⟩
  · unfold ScheduledRun.isUpgradable
    rw [hclosed.live]
    rfl
  · have hover := hclosed.edx detail ((congrArg s'.edx hclosed.hasId).symm.trans hdetail)
    exact ⟨hover.ended, hover.closed⟩

theorem retired_stays_past_laterEnd :
    ((run (coursewareStep keepingEdx fun _ => true) (laterEnd.retire keepingEdx (.ok ()) true true false 50 1)
      [.sync [1] oneAnswer]).db.courseRun 1).isPast 60 = true :=
  (retired_stays_past keepingEdx keepingEdx_documented (fun _ => true) laterEnd 1 true 50 60 (by decide)
    [.sync [1] oneAnswer] (fun e he => by rw [List.mem_singleton.mp he]; trivial) 60 le_rfl).1

/-- A retirement whose answer was lost, so that the database knows nothing of it, is made up for: whatever
happens in between, a sync that is answered for the run and saves it leaves it over, and it is over after
whatever happens then. -/
theorem lost_retirement_heals (update : EdxUpdate) (hedx : update.Documented) (isCourseKey : String → Bool)
    (s : SyncedCourseware lookup) (r : RunId) (e : Error) (deactivateProducts : Bool) (now T : Instant)
    (hnow : now ≤ T) (before after : List CoursewareEvent)
    (hbefore : ∀ e ∈ before, e.Spares T (s.db.courseRun r).coursewareId)
    (hafter : ∀ e ∈ after, e.Spares T (s.db.courseRun r).coursewareId) (runs : List RunId)
    (answer : SyncAnswer) (hunique : s.Unique runs) (hclean : s.Clean runs) (hr : r ∈ runs)
    (hsave : answer.saveFails r = false) :
    let s1 := run (coursewareStep update isCourseKey)
      (s.retire update (.error e) true deactivateProducts false now r) before
    let s2 := run (coursewareStep update isCourseKey) (syncCourseRuns isCourseKey runs answer s1).1 after
    s1.answered isCourseKey answer r = true → ∀ t, T ≤ t →
      (s2.db.courseRun r).isPast t = true ∧ (s2.db.courseRun r).isEnrollable t = false := by
  intro s1 s2 hanswered t ht
  have hedxOver : s1.EdxOver T r (s.db.courseRun r).coursewareId := by
    refine run_of_along (C := fun _ e => e.Spares T (s.db.courseRun r).coursewareId) _
      (fun s' e h he => coursewareStep_edxOver hedx e h he) (retire_edxOver hedx s r hnow (Or.inr rfl)) ?_
    exact along_of_forall hbefore
  -- what the constraints of the database say of the runs holds still
  have hids (r' : RunId) : (s1.db.courseRun r').coursewareId = (s.db.courseRun r').coursewareId := by
    let Inv : SyncedCourseware lookup → Prop := fun s' =>
      (s'.db.courseRun r').coursewareId = (s.db.courseRun r').coursewareId
    have hstep : ∀ s' e, Inv s' → Inv (coursewareStep update isCourseKey s' e) := fun s' e h =>
      (coursewareStep_coursewareId update isCourseKey s' e r').trans h
    refine run_of_invariant Inv hstep ?_ before
    exact coursewareStep_coursewareId update isCourseKey s
      (.retire (.error e) true deactivateProducts false now r) r'
  have hunique' : s1.Unique runs := by
    intro r' hr' r'' hr'' heq
    rw [hids r', hids r''] at heq
    exact hunique r' hr' r'' hr'' heq
  have hclean' : s1.Clean runs := by
    intro r' hr'
    let Inv : SyncedCourseware lookup → Prop := fun s' =>
      (s'.db.courseRun r').cleanExpirationDate = .ok ()
    have hstep : ∀ s' e, Inv s' → Inv (coursewareStep update isCourseKey s' e) := fun _ e h =>
      coursewareStep_cleanExpirationDate update isCourseKey e h
    refine run_of_invariant Inv hstep ?_ before
    exact coursewareStep_cleanExpirationDate update isCourseKey
      (.retire (.error e) true deactivateProducts false now r) (hclean r' hr')
  -- the sync copies what edX has
  have hover : (syncCourseRuns isCourseKey runs answer s1).1.Over T r (s.db.courseRun r).coursewareId := by
    refine ⟨coursewareStep_edxOver hedx (.sync runs answer) hedxOver trivial, ?_⟩
    obtain ⟨detail, hdetail⟩ := Option.isSome_iff_exists.mp (Bool.and_eq_true_iff.mp hanswered).2
    rw [sync_instance_of_saved hunique' hclean' hr hanswered hdetail hsave]
    exact synced_over _ (hedxOver.edx detail ((congrArg s1.edx hedxOver.hasId).symm.trans hdetail))
  have hlast : s2.Over T r (s.db.courseRun r).coursewareId := by
    refine run_of_along (C := fun _ e => e.Spares T (s.db.courseRun r).coursewareId) _
      (fun s' e h he => coursewareStep_over hedx e h he) hover ?_
    exact along_of_forall hafter
  exact ⟨isPast_of_over hlast.instance_over.ended ht, isEnrollable_of_closed hlast.instance_over.closed ht⟩

theorem lost_retirement_heals_laterEnd :
    ((run (coursewareStep keepingEdx fun _ => true) (syncCourseRuns (fun _ => true) [1] oneAnswer
      (run (coursewareStep keepingEdx fun _ => true)
        (laterEnd.retire keepingEdx (.error .failure) true true false 50 1)
        [.edit "course-v1:MITx+1+R2" none])).1 [.sync [1] oneAnswer]).db.courseRun 1).isPast 50 = true :=
  (lost_retirement_heals keepingEdx keepingEdx_documented (fun _ => true) laterEnd 1 .failure true 50 50 le_rfl
    [.edit "course-v1:MITx+1+R2" none] [.sync [1] oneAnswer]
    (fun e he => by
      rw [List.mem_singleton.mp he]
      exact show "course-v1:MITx+1+R2" ≠ "course-v1:MITx+1+R1" by decide)
    (fun e he => by rw [List.mem_singleton.mp he]; trivial) [1] oneAnswer (laterEnd_unique laterEnd)
    laterEnd_clean (List.mem_singleton.mpr rfl) rfl (by decide) 50 le_rfl).1

end MitxOnline

import MitxOnline.Courses.Proofs.RetirementProofs
import MitxOnline.Courses.RunSync
import MitxOnline.Lib.Trace

/-!
# The database follows edX, and what is closed stays closed

The loop of a sync meets every run in the state in which it was read, or as edX has it. So each run ends as
edX has it or as it was, whatever happens to the others, and a run that was closed on both sides is never
opened by a sync.
-/

namespace MitxOnline

open Trace

variable {lookup isCourseKey : String → Bool} {s s0 : SyncedCourseware lookup} {obj : RunInstance}
  {detail : CourseDetail} {r r' : RunId} {runs : List RunId} {answer : SyncAnswer}
  {saveFails : RunId → Bool} {runOf : String → Option RunId} {pass : SyncPass lookup}
  {done : List (String × CourseDetail)} {a : String × CourseDetail}

/-! ## One run -/

theorem matchesEdx_iff : obj.matchesEdx detail = true ↔ obj.run.title = detail.name ∧
    obj.run.startDate = detail.start ∧ obj.run.endDate = detail.fin ∧
    obj.run.enrollmentStart = detail.enrollmentStart ∧ obj.run.enrollmentEnd = detail.enrollmentEnd ∧
    obj.run.isSelfPaced = detail.isSelfPaced ∧
    obj.certificateAvailableDate = detail.certificateDate := by
  unfold RunInstance.matchesEdx
  simp only [Bool.and_eq_true, beq_iff_eq, and_assoc]

/-- A run that matches is left by the assignments. -/
theorem synced_of_matchesEdx (h : obj.matchesEdx detail = true) : obj.synced detail = obj := by
  obtain ⟨htitle, hstart, hfin, henrollmentStart, henrollmentEnd, hpaced, hcertificate⟩ :=
    matchesEdx_iff.mp h
  have hdates : ¬(obj.run.startDate ≠ detail.start ∨ obj.run.endDate ≠ detail.fin) := by
    simp [hstart, hfin]
  unfold RunInstance.synced
  rw [if_neg hdates, ← htitle, ← hstart, ← hfin, ← henrollmentStart, ← henrollmentEnd, ← hpaced,
    ← hcertificate]

theorem synced_matchesEdx (obj : RunInstance) (detail : CourseDetail) :
    (obj.synced detail).matchesEdx detail = true :=
  matchesEdx_iff.mpr ⟨rfl, rfl, rfl, rfl, rfl, rfl, rfl⟩

/-- The expiration date is kept only with the dates that it was checked against. -/
theorem synced_cleanExpirationDate (hexpiration : obj.run.cleanExpirationDate = .ok ()) :
    (obj.synced detail).run.cleanExpirationDate = .ok () := by
  by_cases hdates : obj.run.startDate ≠ detail.start ∨ obj.run.endDate ≠ detail.fin
  · have hnone : (obj.synced detail).run.expirationDate = none := if_pos hdates
    unfold ScheduledRun.cleanExpirationDate
    rw [hnone]
  · have hkept : (obj.synced detail).run.expirationDate = obj.run.expirationDate := if_neg hdates
    have hstart : (obj.synced detail).run.startDate = obj.run.startDate :=
      (not_not.mp (not_or.mp hdates).1).symm
    have hfin : (obj.synced detail).run.endDate = obj.run.endDate :=
      (not_not.mp (not_or.mp hdates).2).symm
    unfold ScheduledRun.cleanExpirationDate at hexpiration ⊢
    rw [hkept, hstart, hfin]
    exact hexpiration

/-- `clean` accepts what the assignments make of a run that it accepted. -/
theorem synced_clean (hlanguage : cleanLanguage lookup obj.run.language = .ok ())
    (hexpiration : obj.run.cleanExpirationDate = .ok ()) : (obj.synced detail).run.clean lookup = .ok () := by
  have hlang : cleanLanguage lookup (obj.synced detail).run.language = .ok () := hlanguage
  unfold ScheduledRun.clean
  rw [hlang, synced_cleanExpirationDate hexpiration]
  rfl

/-! ## Saving -/

/-- The database with a run as it is in memory. -/
def SyncedCourseware.withRun (s : SyncedCourseware lookup) (r : RunId) (obj : RunInstance)
    (h : obj.run.clean lookup = .ok ()) : SyncedCourseware lookup :=
  { s with
    db := s.db.setRun r obj.run h
    certificateAvailableDate := Function.update s.certificateAvailableDate r obj.certificateAvailableDate }

theorem withRun_instance_self (h : obj.run.clean lookup = .ok ()) : (s.withRun r obj h).instance r = obj := by
  show (⟨Function.update s.db.courseRun r obj.run r,
    Function.update s.certificateAvailableDate r obj.certificateAvailableDate r⟩ : RunInstance) = obj
  rw [Function.update_self, Function.update_self]

theorem withRun_instance_of_ne (h : obj.run.clean lookup = .ok ()) (hne : r' ≠ r) :
    (s.withRun r obj h).instance r' = s.instance r' := by
  show (⟨Function.update s.db.courseRun r obj.run r',
    Function.update s.certificateAvailableDate r obj.certificateAvailableDate r'⟩ : RunInstance) = _
  rw [Function.update_of_ne hne, Function.update_of_ne hne]
  rfl

/-- A save either leaves the database or writes the run. -/
theorem save_cases (s : SyncedCourseware lookup) (saveFails : RunId → Bool) (r : RunId) (obj : RunInstance) :
    (∃ e, s.save saveFails r obj = .error e) ∨
      ∃ h, s.save saveFails r obj = .ok (s.withRun r obj h) ∧ saveFails r = false := by
  unfold SyncedCourseware.save
  by_cases hclean : obj.run.clean lookup = .ok ()
  · rw [saveRun_eq_ok hclean]
    cases hfails : saveFails r with
    | true => exact Or.inl ⟨_, rfl⟩
    | false => exact Or.inr ⟨hclean, rfl, rfl⟩
  · left
    cases hsave : s.db.saveRun r obj.run with
    | error e => exact ⟨e, rfl⟩
    | ok db =>
      unfold CoursewareStore.saveRun at hsave
      split at hsave
      · rename_i h
        exact absurd h hclean
      · cases hsave

theorem save_of_clean (h : obj.run.clean lookup = .ok ()) :
    s.save saveFails r obj = if saveFails r = true then .error .failure else .ok (s.withRun r obj h) := by
  unfold SyncedCourseware.save
  rw [saveRun_eq_ok h]
  cases saveFails r with
  | true => rfl
  | false => rfl

/-! ## One round -/

/-- What a round does to a run that edX answers for: nothing if it matches, else the assignments are made in
memory and saved. -/
theorem syncDetail_cases (saveFails : RunId → Bool) (pass : SyncPass lookup) (hrun : runOf a.1 = some r) :
    ((pass.instances r).matchesEdx a.2 = true ∧ syncDetail saveFails runOf pass a = pass) ∨
    ((syncDetail saveFails runOf pass a).s = pass.s ∧ (syncDetail saveFails runOf pass a).instances =
      Function.update pass.instances r ((pass.instances r).synced a.2)) ∨
    ∃ h, (syncDetail saveFails runOf pass a).s = pass.s.withRun r ((pass.instances r).synced a.2) h ∧
      (syncDetail saveFails runOf pass a).instances =
        Function.update pass.instances r ((pass.instances r).synced a.2) := by
  unfold syncDetail
  rw [hrun]
  dsimp only
  by_cases hmatches : (pass.instances r).matchesEdx a.2 = true
  · rw [if_pos hmatches]
    exact Or.inl ⟨hmatches, rfl⟩
  · rw [if_neg hmatches]
    rcases save_cases pass.s saveFails r ((pass.instances r).synced a.2) with ⟨e, hsave⟩ | ⟨h, hsave, -⟩
    · rw [hsave]
      exact Or.inr (Or.inl ⟨rfl, rfl⟩)
    · rw [hsave]
      exact Or.inr (Or.inr ⟨h, rfl, rfl⟩)

/-- A round leaves the products, edX and the other runs. -/
theorem syncDetail_frame (saveFails : RunId → Bool) (runOf : String → Option RunId) (pass : SyncPass lookup)
    (a : String × CourseDetail) :
    (syncDetail saveFails runOf pass a).s.db.products = pass.s.db.products ∧
      (syncDetail saveFails runOf pass a).s.edx = pass.s.edx ∧
      ∀ r, runOf a.1 ≠ some r → (syncDetail saveFails runOf pass a).instances r = pass.instances r ∧
        (syncDetail saveFails runOf pass a).s.instance r = pass.s.instance r := by
  cases hrun : runOf a.1 with
  | none =>
    have hsame : syncDetail saveFails runOf pass a = pass := by
      unfold syncDetail
      rw [hrun]
    rw [hsame]
    exact ⟨rfl, rfl, fun _ _ => ⟨rfl, rfl⟩⟩
  | some r =>
    rcases syncDetail_cases saveFails pass hrun with
      ⟨-, hsame⟩ | ⟨hs, hinstances⟩ | ⟨h, hs, hinstances⟩
    · rw [hsame]
      exact ⟨rfl, rfl, fun _ _ => ⟨rfl, rfl⟩⟩
    · rw [hs, hinstances]
      refine ⟨rfl, rfl, fun r' hne => ⟨?_, rfl⟩⟩
      have hne' : r' ≠ r := fun heq => hne (heq ▸ rfl)
      exact Function.update_of_ne hne' _ _
    · rw [hs, hinstances]
      refine ⟨rfl, rfl, fun r' hne => ?_⟩
      have hne' : r' ≠ r := fun heq => hne (heq ▸ rfl)
      exact ⟨Function.update_of_ne hne' _ _, withRun_instance_of_ne h hne'⟩

/-! ## Any sync -/

theorem syncDetails_frame (details : List (String × CourseDetail)) (pass : SyncPass lookup) :
    (details.foldl (syncDetail saveFails runOf) pass).s.db.products = pass.s.db.products ∧
      (details.foldl (syncDetail saveFails runOf) pass).s.edx = pass.s.edx := by
  induction details generalizing pass with
  | nil => exact ⟨rfl, rfl⟩
  | cons a details ih =>
    obtain ⟨hproducts, hedx⟩ := ih (syncDetail saveFails runOf pass a)
    obtain ⟨hproducts', hedx', -⟩ := syncDetail_frame saveFails runOf pass a
    exact ⟨hproducts.trans hproducts', hedx.trans hedx'⟩

theorem syncCourseRuns_fst (isCourseKey : String → Bool) (runs : List RunId) (answer : SyncAnswer)
    (s : SyncedCourseware lookup) :
    (syncCourseRuns isCourseKey runs answer s).1 =
      if (runs.any fun r => isCourseKey (s.db.courseRun r).coursewareId) = false then s
      else ((s.details answer.reported).foldl
        (syncDetail answer.saveFails (runsByCourseId isCourseKey s runs)) ⟨s, s.instance, 0, 0⟩).s := by
  by_cases hkey : (runs.any fun r => isCourseKey (s.db.courseRun r).coursewareId) = false
  · rw [if_pos hkey, syncCourseRuns, if_pos hkey]
  · rw [if_neg hkey, syncCourseRuns, if_neg hkey]

/-- A sync writes neither products nor edX. -/
theorem sync_frame (isCourseKey : String → Bool) (runs : List RunId) (answer : SyncAnswer)
    (s : SyncedCourseware lookup) :
    (syncCourseRuns isCourseKey runs answer s).1.db.products = s.db.products ∧
      (syncCourseRuns isCourseKey runs answer s).1.edx = s.edx := by
  rw [syncCourseRuns_fst]
  split_ifs
  · exact ⟨rfl, rfl⟩
  · exact syncDetails_frame _ _

/-- What the assignments keep of a run, the loop keeps of it in memory and in the database. -/
theorem syncDetails_keeps {K : RunInstance → Prop} {details : List (String × CourseDetail)}
    (hK : ∀ a ∈ details, runOf a.1 = some r → ∀ obj, K obj → K (obj.synced a.2))
    (hmemory : K (pass.instances r)) (hstored : K (pass.s.instance r)) :
    K ((details.foldl (syncDetail saveFails runOf) pass).s.instance r) := by
  induction details generalizing pass with
  | nil => exact hstored
  | cons a details ih =>
    have hrest := fun b hb => hK b (List.mem_cons_of_mem a hb)
    rw [List.foldl_cons]
    by_cases hrun : runOf a.1 = some r
    · have hsynced := hK a List.mem_cons_self hrun _ hmemory
      rcases syncDetail_cases saveFails pass hrun with
        ⟨-, hsame⟩ | ⟨hs, hinstances⟩ | ⟨h, hs, hinstances⟩
      · rw [hsame]
        exact ih hrest hmemory hstored
      · refine ih hrest ?_ ?_
        · rw [hinstances, Function.update_self]
          exact hsynced
        · rw [hs]
          exact hstored
      · refine ih hrest ?_ ?_
        · rw [hinstances, Function.update_self]
          exact hsynced
        · rw [hs, withRun_instance_self]
          exact hsynced
    · obtain ⟨hinstances, hs⟩ := (syncDetail_frame saveFails runOf pass a).2.2 r hrun
      refine ih hrest ?_ ?_
      · rw [hinstances]
        exact hmemory
      · rw [hs]
        exact hstored

theorem runsByCourseId_cases {coursewareId : String}
    (h : runsByCourseId isCourseKey s runs coursewareId = some r) :
    r ∈ runs ∧ (s.db.courseRun r).coursewareId = coursewareId ∧ isCourseKey coursewareId = true := by
  have hmem := List.mem_of_getLast? h
  obtain ⟨hr, hcond⟩ := List.mem_filter.mp hmem
  obtain ⟨hid, hkey⟩ := Bool.and_eq_true_iff.mp hcond
  have hid' : (s.db.courseRun r).coursewareId = coursewareId := beq_iff_eq.mp hid
  exact ⟨hr, hid', hid' ▸ hkey⟩

theorem mem_details {reported : List String} :
    a ∈ s.details reported ↔ a.1 ∈ reported ∧ s.edx a.1 = some a.2 := by
  obtain ⟨coursewareId, detail⟩ := a
  unfold SyncedCourseware.details
  rw [List.mem_filterMap]
  constructor
  · rintro ⟨coursewareId', hmem, hmap⟩
    obtain ⟨detail', hdetail, hpair⟩ := Option.map_eq_some_iff.mp hmap
    obtain ⟨rfl, rfl⟩ := Prod.mk.inj hpair
    exact ⟨hmem, hdetail⟩
  · rintro ⟨hmem, hdetail⟩
    exact ⟨coursewareId, hmem, Option.map_eq_some_iff.mpr ⟨detail, hdetail, rfl⟩⟩

/-- The detail that edX has of a run. -/
def SyncedCourseware.edxDetail (s : SyncedCourseware lookup) (r : RunId) : Option CourseDetail :=
  s.edx (s.db.courseRun r).coursewareId

/-- What the detail of a run keeps of the run, a sync keeps of it. -/
theorem sync_keeps (isCourseKey : String → Bool) (runs : List RunId) (answer : SyncAnswer)
    {K : RunInstance → Prop}
    (hK : ∀ detail, s.edxDetail r = some detail → ∀ obj, K obj → K (obj.synced detail))
    (hs : K (s.instance r)) : K ((syncCourseRuns isCourseKey runs answer s).1.instance r) := by
  rw [syncCourseRuns_fst]
  split_ifs
  · exact hs
  · refine syncDetails_keeps (fun a ha hrun => hK a.2 ?_) hs hs
    obtain ⟨-, hid, -⟩ := runsByCourseId_cases hrun
    unfold SyncedCourseware.edxDetail
    rw [hid]
    exact (mem_details.mp ha).2

/-- A sync writes no courseware id. -/
theorem sync_coursewareId (isCourseKey : String → Bool) (runs : List RunId) (answer : SyncAnswer)
    (s : SyncedCourseware lookup) (r : RunId) :
    ((syncCourseRuns isCourseKey runs answer s).1.db.courseRun r).coursewareId =
      (s.db.courseRun r).coursewareId := by
  have hkept := sync_keeps isCourseKey runs answer (s := s) (r := r)
    (K := fun obj => obj.run.coursewareId = (s.db.courseRun r).coursewareId) (fun _ _ _ h => h) rfl
  exact hkept

/-- What a sync saves was checked. -/
theorem sync_cleanExpirationDate (h : (s.db.courseRun r).cleanExpirationDate = .ok ()) :
    ((syncCourseRuns isCourseKey runs answer s).1.db.courseRun r).cleanExpirationDate = .ok () := by
  have hkept := sync_keeps isCourseKey runs answer (s := s) (r := r)
    (K := fun obj => obj.run.cleanExpirationDate = .ok ()) (fun _ _ _ => synced_cleanExpirationDate) h
  exact hkept

/-! ## The whole loop -/

/-- No two of the runs have one courseware id. -/
def SyncedCourseware.Unique (s : SyncedCourseware lookup) (runs : List RunId) : Prop :=
  ∀ r ∈ runs, ∀ r' ∈ runs, (s.db.courseRun r).coursewareId = (s.db.courseRun r').coursewareId → r = r'

theorem runsByCourseId_of_mem (hunique : s.Unique runs) (hr : r ∈ runs)
    (hkey : isCourseKey (s.db.courseRun r).coursewareId = true) :
    runsByCourseId isCourseKey s runs (s.db.courseRun r).coursewareId = some r := by
  have hmem : r ∈ runs.filter fun r' => (s.db.courseRun r').coursewareId ==
      (s.db.courseRun r).coursewareId && isCourseKey (s.db.courseRun r').coursewareId :=
    List.mem_filter.mpr ⟨hr, by simp [hkey]⟩
  cases hlast : runsByCourseId isCourseKey s runs (s.db.courseRun r).coursewareId with
  | none =>
    have hnil := List.getLast?_eq_none_iff.mp hlast
    rw [hnil] at hmem
    cases hmem
  | some r' =>
    obtain ⟨hr', hid, -⟩ := runsByCourseId_cases hlast
    rw [hunique r' hr' r hr hid]

/-- edX has the run otherwise than the database. -/
def SyncedCourseware.differs (s : SyncedCourseware lookup) (r : RunId) : Bool :=
  (s.edxDetail r).any fun detail => !(s.instance r).matchesEdx detail

/-- What the rounds so far have made of the runs, of which they have met `met`. -/
structure SyncPass.Follows (s0 : SyncedCourseware lookup) (saveFails : RunId → Bool) (met : Finset RunId)
    (pass : SyncPass lookup) : Prop where
  of_unmet : ∀ r ∉ met, pass.instances r = s0.instance r ∧ pass.s.instance r = s0.instance r
  of_met : ∀ r ∈ met, ∀ detail, s0.edxDetail r = some detail →
    pass.instances r = (s0.instance r).synced detail ∧
      pass.s.instance r = if saveFails r = true then s0.instance r else (s0.instance r).synced detail
  successCount : pass.successCount = (met.filter fun r => s0.differs r = true ∧ saveFails r = false).card
  failureCount : pass.failureCount = (met.filter fun r => s0.differs r = true ∧ saveFails r = true).card

/-- The database as it was read satisfies its checks. -/
def SyncedCourseware.Clean (s : SyncedCourseware lookup) (runs : List RunId) : Prop :=
  ∀ r ∈ runs, (s.db.courseRun r).cleanExpirationDate = .ok ()

/-- A round about a run as it was read: in memory it is as edX has it, in the database unless its save fails,
and the counts say what became of it. -/
theorem syncDetail_self (hinstance : pass.instances r = s0.instance r)
    (hdb : pass.s.instance r = s0.instance r) (hrun : runOf a.1 = some r) (hdetail : s0.edxDetail r = some a.2)
    (hclean : (s0.db.courseRun r).cleanExpirationDate = .ok ()) :
    ((syncDetail saveFails runOf pass a).instances r = (s0.instance r).synced a.2 ∧
        (syncDetail saveFails runOf pass a).s.instance r =
          if saveFails r = true then s0.instance r else (s0.instance r).synced a.2) ∧
      (syncDetail saveFails runOf pass a).successCount = pass.successCount +
        (if s0.differs r = true ∧ saveFails r = false then 1 else 0) ∧
      (syncDetail saveFails runOf pass a).failureCount = pass.failureCount +
        (if s0.differs r = true ∧ saveFails r = true then 1 else 0) := by
  have hdiffers : s0.differs r = !(s0.instance r).matchesEdx a.2 := by
    unfold SyncedCourseware.differs
    rw [hdetail]
    rfl
  unfold syncDetail
  rw [hrun]
  dsimp only
  rw [hinstance]
  by_cases hmatches : (s0.instance r).matchesEdx a.2 = true
  · rw [if_pos hmatches, synced_of_matchesEdx hmatches, hdiffers, hmatches]
    simp [hinstance, hdb]
  · rw [if_neg hmatches]
    have hok : ((s0.instance r).synced a.2).run.clean lookup = .ok () :=
      synced_clean (s0.db.clean_language r) hclean
    rw [save_of_clean hok, hdiffers, Bool.eq_false_iff.mpr hmatches]
    cases hfails : saveFails r with
    | true => simp [hdb]
    | false => simp [withRun_instance_self hok]

/-- A run is met for the first time. -/
theorem syncDetail_first {met : Finset RunId} (h : pass.Follows s0 saveFails met) (hnew : r ∉ met)
    (hrun : runOf a.1 = some r) (hdetail : s0.edxDetail r = some a.2)
    (hclean : (s0.db.courseRun r).cleanExpirationDate = .ok ()) :
    (syncDetail saveFails runOf pass a).Follows s0 saveFails (insert r met) := by
  obtain ⟨hinstance, hdb⟩ := h.of_unmet r hnew
  have hframe := syncDetail_frame saveFails runOf pass a
  have hother : ∀ r', r' ≠ r → (syncDetail saveFails runOf pass a).instances r' = pass.instances r' ∧
      (syncDetail saveFails runOf pass a).s.instance r' = pass.s.instance r' := by
    intro r' hne
    refine hframe.2.2 r' ?_
    rw [hrun]
    exact fun heq => hne (Option.some.inj heq).symm
  have hrest : ∀ r' ∈ insert r met, r' ≠ r → r' ∈ met := fun r' hmem hne =>
    (Finset.mem_insert.mp hmem).resolve_left hne
  obtain ⟨⟨hmemory, hstored⟩, hsuccess, hfailure⟩ := syncDetail_self hinstance hdb hrun hdetail hclean
  constructor
  · intro r' hr'
    obtain ⟨hne, hunmet⟩ := not_or.mp (mt Finset.mem_insert.mpr hr')
    rw [(hother r' hne).1, (hother r' hne).2]
    exact h.of_unmet r' hunmet
  · intro r' hr' detail hdetail'
    by_cases heq : r' = r
    · rw [heq] at hdetail' ⊢
      obtain rfl : a.2 = detail := Option.some.inj (hdetail.symm.trans hdetail')
      exact ⟨hmemory, hstored⟩
    · rw [(hother r' heq).1, (hother r' heq).2]
      exact h.of_met r' (hrest r' hr' heq) detail hdetail'
  · rw [hsuccess, h.successCount, Finset.filter_insert]
    split_ifs
    · rw [Finset.card_insert_of_notMem fun hmem => hnew (Finset.mem_filter.mp hmem).1]
    · rfl
  · rw [hfailure, h.failureCount, Finset.filter_insert]
    split_ifs
    · rw [Finset.card_insert_of_notMem fun hmem => hnew (Finset.mem_filter.mp hmem).1]
    · rfl

/-- A run that was met is as edX has it in memory, whether or not its save failed: it is passed over. -/
theorem syncDetail_again {met : Finset RunId} (h : pass.Follows s0 saveFails met) (hmet : r ∈ met)
    (hrun : runOf a.1 = some r) (hdetail : s0.edxDetail r = some a.2) :
    syncDetail saveFails runOf pass a = pass := by
  have hmatches : (pass.instances r).matchesEdx a.2 = true := by
    rw [(h.of_met r hmet a.2 hdetail).1]
    exact synced_matchesEdx _ _
  unfold syncDetail
  rw [hrun]
  exact if_pos hmatches

/-- The runs that the details are of. -/
def metRuns (runOf : String → Option RunId) (details : List (String × CourseDetail)) : Finset RunId :=
  (details.filterMap fun a => runOf a.1).toFinset

theorem mem_metRuns {details : List (String × CourseDetail)} :
    r ∈ metRuns runOf details ↔ ∃ a ∈ details, runOf a.1 = some r := by
  unfold metRuns
  rw [List.mem_toFinset, List.mem_filterMap]

theorem syncDetails_follows {details : List (String × CourseDetail)}
    (hdetails : ∀ a ∈ details, ∀ r, runOf a.1 = some r →
      s0.edxDetail r = some a.2 ∧ (s0.db.courseRun r).cleanExpirationDate = .ok ())
    {met : Finset RunId} (h : pass.Follows s0 saveFails met) :
    (details.foldl (syncDetail saveFails runOf) pass).Follows s0 saveFails
      (met ∪ metRuns runOf details) := by
  induction details generalizing pass met with
  | nil => simpa [metRuns] using h
  | cons a details ih =>
    have hrest := fun b hb => hdetails b (List.mem_cons_of_mem a hb)
    rw [List.foldl_cons]
    cases hrun : runOf a.1 with
    | none =>
      have hsame : syncDetail saveFails runOf pass a = pass := by
        unfold syncDetail
        rw [hrun]
      have hmet : metRuns runOf (a :: details) = metRuns runOf details := by
        simp [metRuns, hrun]
      rw [hsame, hmet]
      exact ih hrest h
    | some r =>
      obtain ⟨hdetail, hclean⟩ := hdetails a List.mem_cons_self r hrun
      have hmet : met ∪ metRuns runOf (a :: details) = insert r met ∪ metRuns runOf details := by
        simp [metRuns, hrun]
      rw [hmet]
      by_cases hknown : r ∈ met
      · rw [syncDetail_again h hknown hrun hdetail, Finset.insert_eq_of_mem hknown]
        exact ih hrest h
      · exact ih hrest (syncDetail_first h hknown hrun hdetail hclean)

/-! ## A sync -/

/-- edX answers for the run. -/
def SyncedCourseware.answered (s : SyncedCourseware lookup) (isCourseKey : String → Bool)
    (answer : SyncAnswer) (r : RunId) : Bool :=
  isCourseKey (s.db.courseRun r).coursewareId &&
    answer.reported.contains (s.db.courseRun r).coursewareId && (s.edxDetail r).isSome

/-- The sync has a run to save. -/
def SyncedCourseware.due (s : SyncedCourseware lookup) (isCourseKey : String → Bool) (answer : SyncAnswer)
    (r : RunId) : Bool :=
  s.answered isCourseKey answer r && s.differs r

/-- The runs that the sync meets are those asked for that edX answers for. -/
theorem mem_metRuns_details (hunique : s.Unique runs) :
    r ∈ metRuns (runsByCourseId isCourseKey s runs) (s.details answer.reported) ↔
      r ∈ runs ∧ s.answered isCourseKey answer r = true := by
  unfold SyncedCourseware.answered SyncedCourseware.edxDetail
  rw [mem_metRuns]
  constructor
  · rintro ⟨a, ha, hrun⟩
    obtain ⟨hreported, hdetail⟩ := mem_details.mp ha
    obtain ⟨hr, hid, hkey⟩ := runsByCourseId_cases hrun
    refine ⟨hr, ?_⟩
    rw [hid, hkey, hdetail, List.contains_iff_mem.mpr hreported]
    rfl
  · rintro ⟨hr, hanswered⟩
    obtain ⟨hboth, hsome⟩ := Bool.and_eq_true_iff.mp hanswered
    obtain ⟨hkey, hreported⟩ := Bool.and_eq_true_iff.mp hboth
    obtain ⟨detail, hdetail⟩ := Option.isSome_iff_exists.mp hsome
    exact ⟨((s.db.courseRun r).coursewareId, detail),
      mem_details.mpr ⟨List.contains_iff_mem.mp hreported, hdetail⟩,
      runsByCourseId_of_mem hunique hr hkey⟩

/-- The loop of a sync, from the database as it was read. -/
theorem syncLoop_follows (isCourseKey : String → Bool) (answer : SyncAnswer) (hclean : s.Clean runs) :
    ((s.details answer.reported).foldl
      (syncDetail answer.saveFails (runsByCourseId isCourseKey s runs)) ⟨s, s.instance, 0, 0⟩).Follows s
        answer.saveFails (metRuns (runsByCourseId isCourseKey s runs) (s.details answer.reported)) := by
  have hstart : SyncPass.Follows s answer.saveFails ∅ ⟨s, s.instance, 0, 0⟩ :=
    { of_unmet := fun _ _ => ⟨rfl, rfl⟩
      of_met := fun r hr => absurd hr (Finset.notMem_empty r)
      successCount := rfl
      failureCount := rfl }
  have hdetails : ∀ a ∈ s.details answer.reported, ∀ r, runsByCourseId isCourseKey s runs a.1 = some r →
      s.edxDetail r = some a.2 ∧ (s.db.courseRun r).cleanExpirationDate = .ok () := by
    intro a ha r hrun
    obtain ⟨hr, hid, -⟩ := runsByCourseId_cases hrun
    refine ⟨?_, hclean r hr⟩
    unfold SyncedCourseware.edxDetail
    rw [hid]
    exact (mem_details.mp ha).2
  simpa using syncDetails_follows hdetails hstart

/-- The runs asked for that differ and whose save goes as `fails` says. -/
def SyncedCourseware.dueRuns (s : SyncedCourseware lookup) (isCourseKey : String → Bool) (runs : List RunId)
    (answer : SyncAnswer) (fails : Bool) : Finset RunId :=
  runs.toFinset.filter fun r => s.due isCourseKey answer r = true ∧ answer.saveFails r = fails

theorem metRuns_filter (hunique : s.Unique runs) (fails : Bool) :
    ((metRuns (runsByCourseId isCourseKey s runs) (s.details answer.reported)).filter
      fun r => s.differs r = true ∧ answer.saveFails r = fails) =
        s.dueRuns isCourseKey runs answer fails := by
  ext r
  unfold SyncedCourseware.dueRuns SyncedCourseware.due
  rw [Finset.mem_filter, Finset.mem_filter, mem_metRuns_details hunique, List.mem_toFinset,
    Bool.and_eq_true_iff]
  tauto

theorem syncCourseRuns_of_noKey (h : (runs.any fun r => isCourseKey (s.db.courseRun r).coursewareId) = false) :
    syncCourseRuns isCourseKey runs answer s = (s, 0, runs.length) :=
  if_pos h

/-- Without a valid id edX answers for none of the runs. -/
theorem not_answered_of_noKey (answer : SyncAnswer)
    (h : (runs.any fun r => isCourseKey (s.db.courseRun r).coursewareId) = false) (hr : r ∈ runs) :
    s.answered isCourseKey answer r = false := by
  have hkey : isCourseKey (s.db.courseRun r).coursewareId = false := by
    have hnot := List.any_eq_false.mp h r hr
    exact Bool.eq_false_iff.mpr hnot
  unfold SyncedCourseware.answered
  rw [hkey]
  rfl

/-- A run that edX answers for is as edX has it, if its save succeeds. -/
theorem sync_instance_of_saved (hunique : s.Unique runs) (hclean : s.Clean runs) (hr : r ∈ runs)
    (hanswered : s.answered isCourseKey answer r = true) (hdetail : s.edxDetail r = some detail)
    (hsave : answer.saveFails r = false) :
    (syncCourseRuns isCourseKey runs answer s).1.instance r = (s.instance r).synced detail := by
  have hloop := syncLoop_follows isCourseKey answer hclean
  have hmet := (mem_metRuns_details hunique).mpr ⟨hr, hanswered⟩
  rw [syncCourseRuns_fst]
  split_ifs with hkey
  · rw [not_answered_of_noKey answer hkey hr] at hanswered
    cases hanswered
  · rw [(hloop.of_met r hmet detail hdetail).2, hsave]
    rfl

/-- The other runs are as they were. -/
theorem sync_instance_of_not (hunique : s.Unique runs) (hclean : s.Clean runs)
    (hout : r ∉ runs ∨ s.answered isCourseKey answer r = false ∨ answer.saveFails r = true) :
    (syncCourseRuns isCourseKey runs answer s).1.instance r = s.instance r := by
  have hloop := syncLoop_follows isCourseKey answer hclean
  rw [syncCourseRuns_fst]
  split_ifs
  · rfl
  · by_cases hmet : r ∈ metRuns (runsByCourseId isCourseKey s runs) (s.details answer.reported)
    · obtain ⟨hr, hanswered⟩ := (mem_metRuns_details hunique).mp hmet
      have hsave : answer.saveFails r = true := by
        rcases hout with hnot | hnot | hfails
        · exact absurd hr hnot
        · rw [hanswered] at hnot
          cases hnot
        · exact hfails
      obtain ⟨detail, hdetail⟩ := Option.isSome_iff_exists.mp (Bool.and_eq_true_iff.mp hanswered).2
      rw [(hloop.of_met r hmet detail hdetail).2, if_pos hsave]
    · exact (hloop.of_unmet r hmet).2

/-- A run after a sync is as it was or as edX has it. -/
theorem sync_instance_cases (isCourseKey : String → Bool) (answer : SyncAnswer)
    (hunique : s.Unique runs) (hclean : s.Clean runs) (r : RunId) :
    (syncCourseRuns isCourseKey runs answer s).1.instance r = s.instance r ∨
      (r ∈ runs ∧ ∃ detail, s.edxDetail r = some detail ∧
        (syncCourseRuns isCourseKey runs answer s).1.instance r = (s.instance r).synced detail) := by
  by_cases hr : r ∈ runs
  · cases hanswered : s.answered isCourseKey answer r with
    | false => exact Or.inl (sync_instance_of_not hunique hclean (Or.inr (Or.inl hanswered)))
    | true =>
      cases hsave : answer.saveFails r with
      | true => exact Or.inl (sync_instance_of_not hunique hclean (Or.inr (Or.inr hsave)))
      | false =>
        have hsome := (Bool.and_eq_true_iff.mp hanswered).2
        obtain ⟨detail, hdetail⟩ := Option.isSome_iff_exists.mp hsome
        exact Or.inr ⟨hr, detail, hdetail,
          sync_instance_of_saved hunique hclean hr hanswered hdetail hsave⟩
  · exact Or.inl (sync_instance_of_not hunique hclean (Or.inl hr))

/-- The successes are the runs that were saved. -/
theorem sync_successCount (hunique : s.Unique runs) (hclean : s.Clean runs) :
    (syncCourseRuns isCourseKey runs answer s).2.1 = (s.dueRuns isCourseKey runs answer false).card := by
  by_cases hkey : (runs.any fun r => isCourseKey (s.db.courseRun r).coursewareId) = false
  · have hnone : s.dueRuns isCourseKey runs answer false = ∅ := by
      refine Finset.filter_eq_empty_iff.mpr fun r hr hdue => ?_
      have hnot := not_answered_of_noKey answer hkey (List.mem_toFinset.mp hr)
      unfold SyncedCourseware.due at hdue
      rw [hnot] at hdue
      cases hdue.1
    rw [syncCourseRuns_of_noKey hkey, hnone]
    rfl
  · unfold syncCourseRuns
    rw [if_neg hkey]
    dsimp only
    rw [(syncLoop_follows isCourseKey answer hclean).successCount, metRuns_filter hunique]

/-- The failures are the runs whose save failed, and the answer if it failed; without a valid id they are
all. -/
theorem sync_failureCount (hunique : s.Unique runs) (hclean : s.Clean runs) :
    (syncCourseRuns isCourseKey runs answer s).2.2 =
      if (runs.any fun r => isCourseKey (s.db.courseRun r).coursewareId) = false then runs.length
      else (s.dueRuns isCourseKey runs answer true).card + if answer.apiFails = true then 1 else 0 := by
  by_cases hkey : (runs.any fun r => isCourseKey (s.db.courseRun r).coursewareId) = false
  · rw [syncCourseRuns_of_noKey hkey, if_pos hkey]
  · unfold syncCourseRuns
    rw [if_neg hkey, if_neg hkey]
    dsimp only
    rw [(syncLoop_follows isCourseKey answer hclean).failureCount, metRuns_filter hunique]

/-- A sync leaves each run that edX answers for as edX has it, unless its save fails, and the other runs, the
products and edX as they were; it counts the runs that it saved and the saves and the answers that failed. -/
theorem sync_mirrors_edx (isCourseKey : String → Bool) (runs : List RunId) (answer : SyncAnswer)
    (s : SyncedCourseware lookup) (hunique : s.Unique runs) (hclean : s.Clean runs) :
    (∀ r ∈ runs, ∀ detail, s.answered isCourseKey answer r = true → s.edxDetail r = some detail →
      answer.saveFails r = false →
        (syncCourseRuns isCourseKey runs answer s).1.instance r = (s.instance r).synced detail) ∧
    (∀ r, (r ∉ runs ∨ s.answered isCourseKey answer r = false ∨ answer.saveFails r = true) →
      (syncCourseRuns isCourseKey runs answer s).1.instance r = s.instance r) ∧
    (syncCourseRuns isCourseKey runs answer s).1.db.products = s.db.products ∧
    (syncCourseRuns isCourseKey runs answer s).1.edx = s.edx ∧
    (syncCourseRuns isCourseKey runs answer s).2.1 = (s.dueRuns isCourseKey runs answer false).card ∧
    (syncCourseRuns isCourseKey runs answer s).2.2 =
      if (runs.any fun r => isCourseKey (s.db.courseRun r).coursewareId) = false then runs.length
      else (s.dueRuns isCourseKey runs answer true).card + if answer.apiFails = true then 1 else 0 := by
  obtain ⟨hproducts, hedx⟩ := sync_frame isCourseKey runs answer s
  refine ⟨fun r hr detail hanswered hdetail hsave => ?_, fun r hout => ?_, hproducts, hedx,
    sync_successCount hunique hclean, sync_failureCount hunique hclean⟩
  · exact sync_instance_of_saved hunique hclean hr hanswered hdetail hsave
  · exact sync_instance_of_not hunique hclean hout

/-- One live run, which edX has with a later end. -/
def laterEnd : SyncedCourseware (fun _ => true) where
  db :=
    { courseRun := fun _ =>
        { course := 1, live := true, upgradeDeadline := none, verifiedMode := true, isFakeCourseRun := false
          isUai := false, b2bContract := none, coursewareId := "course-v1:MITx+1+R1", title := "One"
          language := "", isSelfPaced := false, startDate := some 10, endDate := some 100
          enrollmentStart := some 0, enrollmentEnd := some 90, expirationDate := some 150 }
      products := Table.single 1 ⟨.courseRun, 1, ⟨100⟩, true⟩
      edx := fun _ => none
      clean_language := fun _ => rfl }
  certificateAvailableDate := fun _ => none
  edx := fun _ => some ⟨"One", some 10, some 200, some 0, some 190, false, none⟩

/-- edX answers for the run, and the save succeeds. -/
def oneAnswer : SyncAnswer := ⟨["course-v1:MITx+1+R1"], false, fun _ => false⟩

theorem laterEnd_unique (s : SyncedCourseware lookup) : s.Unique [1] := by
  intro r hr r' hr' _
  rw [List.mem_singleton.mp hr, List.mem_singleton.mp hr']

theorem laterEnd_clean : laterEnd.Clean [1] := fun _ _ => rfl

theorem sync_mirrors_edx_laterEnd :
    (syncCourseRuns (fun _ => true) [1] oneAnswer laterEnd).1.instance 1 =
      (laterEnd.instance 1).synced ⟨"One", some 10, some 200, some 0, some 190, false, none⟩ :=
  (sync_mirrors_edx (fun _ => true) [1] oneAnswer laterEnd (laterEnd_unique laterEnd) laterEnd_clean).1 1
    (List.mem_singleton.mpr rfl) _ (by decide) rfl rfl

/-- Every run that is asked for and answered for is as edX has it. -/
def SyncedCourseware.UpToDate (s : SyncedCourseware lookup) (isCourseKey : String → Bool) (runs : List RunId)
    (answer : SyncAnswer) : Prop :=
  ∀ r ∈ runs, ∀ detail, s.answered isCourseKey answer r = true → s.edxDetail r = some detail →
    (s.instance r).matchesEdx detail = true

theorem SyncedCourseware.UpToDate.dueRuns (h : s.UpToDate isCourseKey runs answer) (fails : Bool) :
    s.dueRuns isCourseKey runs answer fails = ∅ := by
  refine Finset.filter_eq_empty_iff.mpr fun r hr hdue => ?_
  obtain ⟨hanswered, hdiffers⟩ := Bool.and_eq_true_iff.mp hdue.1
  have hsome := (Bool.and_eq_true_iff.mp hanswered).2
  obtain ⟨detail, hdetail⟩ := Option.isSome_iff_exists.mp hsome
  have hmatch := h r (List.mem_toFinset.mp hr) detail hanswered hdetail
  unfold SyncedCourseware.differs at hdiffers
  rw [hdetail, Option.any_some, hmatch] at hdiffers
  cases hdiffers

/-- A sync of runs that are up to date saves nothing. -/
theorem sync_of_upToDate (hunique : s.Unique runs) (hclean : s.Clean runs)
    (h : s.UpToDate isCourseKey runs answer) :
    (∀ r, (syncCourseRuns isCourseKey runs answer s).1.instance r = s.instance r) ∧
    (syncCourseRuns isCourseKey runs answer s).2.1 = 0 ∧
    ∀ r ∈ runs, isCourseKey (s.db.courseRun r).coursewareId = true →
      (syncCourseRuns isCourseKey runs answer s).2.2 = if answer.apiFails = true then 1 else 0 := by
  refine ⟨fun r => ?_, ?_, fun r hr hkey => ?_⟩
  · rcases sync_instance_cases isCourseKey answer hunique hclean r with hsame | ⟨hr, detail, hdetail, hsync⟩
    · exact hsame
    · cases hanswered : s.answered isCourseKey answer r with
      | false => exact sync_instance_of_not hunique hclean (Or.inr (Or.inl hanswered))
      | true => rw [hsync, synced_of_matchesEdx (h r hr detail hanswered hdetail)]
  · rw [sync_successCount hunique hclean, h.dueRuns]
    rfl
  · have hany : ¬(runs.any fun r => isCourseKey (s.db.courseRun r).coursewareId) = false := by
      rw [Bool.not_eq_false]
      exact List.any_eq_true.mpr ⟨r, hr, hkey⟩
    rw [sync_failureCount hunique hclean, if_neg hany, h.dueRuns]
    exact Nat.zero_add _

/-- What edX answers for after a sync it answered for before, so it is up to date if no save failed. -/
theorem sync_upToDate {answer' : SyncAnswer} {runs' : List RunId} (hunique : s.Unique runs)
    (hclean : s.Clean runs) (hsaves : ∀ r ∈ runs, answer.saveFails r = false) (hruns : runs' ⊆ runs)
    (hreported : answer'.reported ⊆ answer.reported) :
    (syncCourseRuns isCourseKey runs answer s).1.UpToDate isCourseKey runs' answer' := by
  have hedx := (sync_frame isCourseKey runs answer s).2
  have hid := sync_coursewareId isCourseKey runs answer s
  intro r hr detail hanswered hdetail
  have hsameDetail : (syncCourseRuns isCourseKey runs answer s).1.edxDetail r = s.edxDetail r := by
    unfold SyncedCourseware.edxDetail
    rw [hedx, hid r]
  have hbefore : s.answered isCourseKey answer r = true := by
    unfold SyncedCourseware.answered at hanswered ⊢
    rw [hid r, hsameDetail] at hanswered
    obtain ⟨hboth, hsome⟩ := Bool.and_eq_true_iff.mp hanswered
    obtain ⟨hkey, hreported'⟩ := Bool.and_eq_true_iff.mp hboth
    have hmem := hreported (List.contains_iff_mem.mp hreported')
    rw [hkey, List.contains_iff_mem.mpr hmem, hsome]
    rfl
  rw [hsameDetail] at hdetail
  rw [sync_instance_of_saved hunique hclean (hruns hr) hbefore hdetail (hsaves r (hruns hr))]
  exact synced_matchesEdx _ _

/-- After a sync in which no save failed, another one that asks for no further run and is answered for no
further id finds nothing to save, whatever fails then. -/
theorem sync_settles (isCourseKey : String → Bool) (runs runs' : List RunId) (answer answer' : SyncAnswer)
    (s : SyncedCourseware lookup) (hunique : s.Unique runs) (hclean : s.Clean runs)
    (hsaves : ∀ r ∈ runs, answer.saveFails r = false) (hruns : runs' ⊆ runs)
    (hreported : answer'.reported ⊆ answer.reported) :
    (∀ r, (syncCourseRuns isCourseKey runs' answer' (syncCourseRuns isCourseKey runs answer s).1).1.instance r =
      (syncCourseRuns isCourseKey runs answer s).1.instance r) ∧
    (syncCourseRuns isCourseKey runs' answer' (syncCourseRuns isCourseKey runs answer s).1).2.1 = 0 ∧
    ∀ r ∈ runs', isCourseKey (s.db.courseRun r).coursewareId = true →
      (syncCourseRuns isCourseKey runs' answer' (syncCourseRuns isCourseKey runs answer s).1).2.2 =
        if answer'.apiFails = true then 1 else 0 := by
  have hid := sync_coursewareId isCourseKey runs answer s
  have hclean' : (syncCourseRuns isCourseKey runs answer s).1.Clean runs' := fun r hr =>
    sync_cleanExpirationDate (hclean r (hruns hr))
  have hunique' : (syncCourseRuns isCourseKey runs answer s).1.Unique runs' := by
    intro r hr r' hr' heq
    rw [hid r, hid r'] at heq
    exact hunique r (hruns hr) r' (hruns hr') heq
  obtain ⟨hsame, hnone, hfailures⟩ :=
    sync_of_upToDate hunique' hclean' (sync_upToDate hunique hclean hsaves hruns hreported)
  exact ⟨hsame, hnone, fun r hr hkey => hfailures r hr ((congrArg isCourseKey (hid r)).trans hkey)⟩

theorem sync_settles_laterEnd :
    (syncCourseRuns (fun _ => true) [1] oneAnswer
      (syncCourseRuns (fun _ => true) [1] oneAnswer laterEnd).1).2.1 = 0 :=
  (sync_settles (fun _ => true) [1] [1] oneAnswer oneAnswer laterEnd (laterEnd_unique laterEnd) laterEnd_clean
    (fun _ _ => rfl) (List.Subset.refl _) (List.Subset.refl _)).2.1

end MitxOnline

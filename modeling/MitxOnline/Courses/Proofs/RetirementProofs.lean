import MitxOnline.Courses.Retirement

/-!
# A retired run is over

The four dates of a retirement are in order whatever dates the run had, and an expiration date that
would contradict them is cleared, so `clean` accepts the run. A second retirement at the same instant
computes the same dates and finds no active product.
-/

namespace MitxOnline

variable {lookup : String → Bool} {run : ScheduledRun} {now : Instant} {dates : RunDates}

/-! ## The dates -/

/-- The dates are in order: `enrollment_start ≤ start < end = enrollment_end < now`. -/
structure RunDates.Ordered (dates : RunDates) (now : Instant) (enrollmentStart start fin : Instant) :
    Prop where
  start_eq : dates.start = some start
  fin_eq : dates.fin = some fin
  enrollmentStart_eq : dates.enrollmentStart = some enrollmentStart
  enrollmentEnd_eq : dates.enrollmentEnd = some fin
  enrollmentStart_le : enrollmentStart ≤ start
  start_lt : start < fin
  fin_lt : fin < now

theorem sub_retirementDateOffset_lt (t : Instant) : t - retirementDateOffset < t :=
  Int.sub_lt_self t (by decide)

theorem computeRetirementDates_ordered (run : ScheduledRun) (now : Instant) :
    ∃ enrollmentStart start,
      (computeRetirementDates run now).Ordered now enrollmentStart start (now - retirementDateOffset) := by
  have hnow := sub_retirementDateOffset_lt now
  have hcutoff := sub_retirementDateOffset_lt (now - retirementDateOffset)
  -- the start is before the cutoff, whether it is kept or moved
  obtain ⟨start, hstart, hlt⟩ : ∃ start, (computeRetirementDates run now).start = some start ∧
      start < now - retirementDateOffset := by
    refine ⟨_, rfl, ?_⟩
    rcases run.startDate with _ | startDate
    · exact hcutoff
    · dsimp only
      split_ifs with h
      · exact h
      · exact hcutoff
  obtain ⟨enrollmentStart, henrollment, hle⟩ : ∃ enrollmentStart,
      (computeRetirementDates run now).enrollmentStart = some enrollmentStart ∧
        enrollmentStart ≤ start := by
    refine ⟨_, rfl, ?_⟩
    simp only [computeRetirementDates, Option.some.injEq] at hstart
    rw [hstart]
    rcases run.enrollmentStart with _ | enrollmentStart
    · exact le_rfl
    · dsimp only
      split_ifs with h
      · exact h.le
      · exact le_rfl
  exact ⟨enrollmentStart, start,
    { start_eq := hstart
      fin_eq := rfl
      enrollmentStart_eq := henrollment
      enrollmentEnd_eq := rfl
      enrollmentStart_le := hle
      start_lt := hlt
      fin_lt := hnow }⟩

/-- The dates of a run that was retired are the dates it has. -/
theorem computeRetirementDates_of_ordered {enrollmentStart start : Instant}
    (h : dates.Ordered now enrollmentStart start (now - retirementDateOffset))
    (hstart : run.startDate = dates.start) (henrollment : run.enrollmentStart = dates.enrollmentStart) :
    computeRetirementDates run now = dates := by
  rcases dates with ⟨_, _, _, _⟩
  obtain ⟨hs, hf, he, hee, hle, hlt, -⟩ := h
  dsimp only at hs hf he hee hstart henrollment
  subst hs hf he hee
  simp only [computeRetirementDates, hstart, henrollment, if_pos hlt, RunDates.mk.injEq, true_and,
    and_true, Option.some.injEq]
  split_ifs with h
  · rfl
  · exact le_antisymm (not_lt.mp h) hle

/-! ## The retired run -/

@[simp] theorem clearExpirationDate_language :
    (run.clearExpirationDate dates).language = run.language := by
  unfold ScheduledRun.clearExpirationDate
  split_ifs <;> rfl

@[simp] theorem retired_language : (run.retired dates).language = run.language := by
  simp [ScheduledRun.retired]

@[simp] theorem retired_expirationDate :
    (run.retired dates).expirationDate = (run.clearExpirationDate dates).expirationDate := rfl

/-- What is left of the expiration date does not come before the new dates. -/
theorem clearExpirationDate_any_predatedBy :
    (run.clearExpirationDate dates).expirationDate.any dates.predatedBy = false := by
  unfold ScheduledRun.clearExpirationDate
  split_ifs with h
  · rfl
  · exact Bool.eq_false_iff.mpr h

theorem retired_cleanExpirationDate : (run.retired dates).cleanExpirationDate = .ok () := by
  have hkept : (run.clearExpirationDate dates).expirationDate.any dates.predatedBy = false :=
    clearExpirationDate_any_predatedBy
  unfold ScheduledRun.cleanExpirationDate
  rw [retired_expirationDate]
  rcases hexp : (run.clearExpirationDate dates).expirationDate with _ | expiration
  · rfl
  · rw [hexp, Option.any_some, RunDates.predatedBy, Bool.or_eq_false_iff] at hkept
    simp [ScheduledRun.retired, hkept.1, hkept.2]

/-- `clean` accepts the retired run. -/
theorem retired_clean (hlang : cleanLanguage lookup run.language = .ok ()) :
    (run.retired dates).clean lookup = .ok () := by
  rw [ScheduledRun.clean, retired_language, hlang, retired_cleanExpirationDate]
  rfl

theorem retired_isPast {enrollmentStart start fin : Instant}
    (h : dates.Ordered now enrollmentStart start fin) {t : Instant} (ht : now ≤ t) :
    (run.retired dates).isPast t = true := by
  simp [ScheduledRun.isPast, ScheduledRun.retired, h.fin_eq, lt_of_lt_of_le h.fin_lt ht]

theorem retired_isEnrollable (t : Instant) : (run.retired dates).isEnrollable t = false := by
  simp [ScheduledRun.isEnrollable, ScheduledRun.retired]

theorem retired_isUpgradable (hasProduct : Bool) (t : Instant) :
    (run.retired dates).isUpgradable hasProduct t = false := by
  simp [ScheduledRun.isUpgradable, ScheduledRun.retired]

/-- Retiring with the same dates again changes nothing. -/
theorem retired_retired : (run.retired dates).retired dates = run.retired dates := by
  have hkept : (run.retired dates).clearExpirationDate dates = run.retired dates := by
    rw [ScheduledRun.clearExpirationDate, retired_expirationDate, clearExpirationDate_any_predatedBy]
    rfl
  rw [ScheduledRun.retired, hkept]
  rfl

/-! ## The products -/

variable {s : CoursewareStore lookup} {r : RunId}

theorem deactivateProduct_courseRun (acc : CoursewareStore lookup × List ProductId) (p : ProductId) :
    (deactivateProduct acc p).1.courseRun = acc.1.courseRun := by
  unfold deactivateProduct
  split_ifs <;> rfl

theorem deactivateProduct_edx (acc : CoursewareStore lookup × List ProductId) (p : ProductId) :
    (deactivateProduct acc p).1.edx = acc.1.edx := by
  unfold deactivateProduct
  split_ifs <;> rfl

theorem deactivateProduct_keys (acc : CoursewareStore lookup × List ProductId) (p : ProductId) :
    (deactivateProduct acc p).1.products.keys = acc.1.products.keys := by
  unfold deactivateProduct
  split_ifs <;> rfl

/-- A product is switched off, and the others stay as they are. -/
theorem deactivateProduct_row (acc : CoursewareStore lookup × List ProductId) (p q : ProductId) :
    (deactivateProduct acc p).1.products.row q =
      { acc.1.products.row q with isActive := (acc.1.products.row q).isActive && q != p } := by
  unfold deactivateProduct
  by_cases hq : q = p
  · subst hq
    split_ifs with h
    · simp [CoursewareStore.setProduct]
    · have hoff : (acc.1.products.row q).isActive = false := Bool.eq_false_iff.mpr h
      rw [hoff, Bool.false_and, ← hoff]
  · have hne : (q != p) = true := by simpa using hq
    split_ifs with h
    · simp [CoursewareStore.setProduct, Table.set_row_of_ne _ _ hq, hne]
    · rw [hne, Bool.and_true]

theorem deactivateProduct_of_not_isActive {acc : CoursewareStore lookup × List ProductId} {p : ProductId}
    (h : (acc.1.products.row p).isActive = false) : deactivateProduct acc p = acc := by
  simp [deactivateProduct, h]

theorem foldl_deactivateProduct_row (ps : List ProductId) (acc : CoursewareStore lookup × List ProductId)
    (q : ProductId) :
    (ps.foldl deactivateProduct acc).1.products.row q =
      { acc.1.products.row q with isActive := (acc.1.products.row q).isActive && !ps.contains q } := by
  induction ps generalizing acc with
  | nil => simp
  | cons p ps ih =>
    rw [List.foldl_cons, ih, deactivateProduct_row]
    simp [Bool.and_assoc, bne, Bool.not_or, beq_eq_decide]

theorem foldl_deactivateProduct_frame (ps : List ProductId)
    (acc : CoursewareStore lookup × List ProductId) :
    (ps.foldl deactivateProduct acc).1.courseRun = acc.1.courseRun ∧
      (ps.foldl deactivateProduct acc).1.edx = acc.1.edx ∧
      (ps.foldl deactivateProduct acc).1.products.keys = acc.1.products.keys := by
  induction ps generalizing acc with
  | nil => exact ⟨rfl, rfl, rfl⟩
  | cons p ps ih =>
    obtain ⟨hrun, hedx, hkeys⟩ := ih (deactivateProduct acc p)
    exact ⟨hrun.trans (deactivateProduct_courseRun acc p), hedx.trans (deactivateProduct_edx acc p),
      hkeys.trans (deactivateProduct_keys acc p)⟩

/-- Products that are off stay as they are. -/
theorem foldl_deactivateProduct_of_not_isActive {ps : List ProductId}
    {acc : CoursewareStore lookup × List ProductId}
    (h : ∀ p ∈ ps, (acc.1.products.row p).isActive = false) : ps.foldl deactivateProduct acc = acc := by
  induction ps with
  | nil => rfl
  | cons p ps ih =>
    rw [List.foldl_cons, deactivateProduct_of_not_isActive (h p (List.mem_cons_self ..))]
    exact ih fun q hq => h q (List.mem_cons_of_mem _ hq)

/-- The products of a run after their deactivation are those before it. -/
theorem getRunProducts_deactivateRunProducts :
    (deactivateRunProducts s r).1.getRunProducts r = s.getRunProducts r := by
  obtain ⟨-, -, hkeys⟩ := foldl_deactivateProduct_frame (s.getRunProducts r) (s, [])
  unfold deactivateRunProducts
  rw [CoursewareStore.getRunProducts, hkeys]
  simp only [foldl_deactivateProduct_row]
  rfl

/-- Without active products there is nothing to do. -/
theorem deactivateRunProducts_of_not_isActive
    (h : ∀ p ∈ s.getRunProducts r, (s.products.row p).isActive = false) :
    deactivateRunProducts s r = (s, []) :=
  foldl_deactivateProduct_of_not_isActive h

/-- No product of the run is active afterwards. -/
theorem deactivateRunProducts_isActive {p : ProductId}
    (hp : p ∈ (deactivateRunProducts s r).1.getRunProducts r) :
    ((deactivateRunProducts s r).1.products.row p).isActive = false := by
  rw [getRunProducts_deactivateRunProducts] at hp
  rw [deactivateRunProducts, foldl_deactivateProduct_row]
  simp [hp]

/-! ## Retirement -/

theorem saveRun_eq_ok {run : ScheduledRun} (h : run.clean lookup = .ok ()) :
    s.saveRun r run = .ok (s.setRun r run h) := by
  unfold CoursewareStore.saveRun
  split
  · rfl
  · rename_i e he
    rw [h] at he
    cases he

/-- The dates that run `r` gets when it is retired. -/
def CoursewareStore.retirementDates (s : CoursewareStore lookup) (r : RunId) (now : Instant) : RunDates :=
  computeRetirementDates (s.courseRun r) now

/-- The database after the two writes of a retirement that come before the products. -/
def CoursewareStore.withRetiredRun (s : CoursewareStore lookup) (r : RunId) (now : Instant) : CoursewareStore lookup :=
  (s.updateEdxCourse (s.courseRun r).coursewareId
    ((s.courseRun r).edxPayload (s.retirementDates r now))).setRun r
      ((s.courseRun r).retired (s.retirementDates r now)) (retired_clean (s.clean_language r))

theorem retireCourseRun_ok (s : CoursewareStore lookup) (r : RunId) (now : Instant) :
    retireCourseRun (.ok ()) true false now r s =
      ((deactivateRunProducts (s.withRetiredRun r now) r).1,
        .ok ⟨s.retirementDates r now, (deactivateRunProducts (s.withRetiredRun r now) r).2,
          (s.retirementDates r now).enrollmentComplete⟩) := by
  have hclean : ((s.courseRun r).retired (computeRetirementDates (s.courseRun r) now)).clean lookup =
      .ok () := retired_clean (s.clean_language r)
  simp [retireCourseRun, pushRunDatesToEdx, Except.map, saveRun_eq_ok hclean, CoursewareStore.withRetiredRun,
    CoursewareStore.retirementDates]

/-- When edX refuses, neither the runs nor the products of the database change. -/
theorem retireCourseRun_error (s : CoursewareStore lookup) (r : RunId) (now : Instant)
    (deactivateProducts : Bool) (e : Error) :
    (retireCourseRun (.error e) deactivateProducts false now r s).1.courseRun = s.courseRun ∧
      (retireCourseRun (.error e) deactivateProducts false now r s).1.products = s.products ∧
      (retireCourseRun (.error e) deactivateProducts false now r s).2 = .error e :=
  ⟨rfl, rfl, rfl⟩

@[simp] theorem withRetiredRun_courseRun :
    (s.withRetiredRun r now).courseRun r = (s.courseRun r).retired (s.retirementDates r now) :=
  Function.update_self ..

@[simp] theorem withRetiredRun_edx :
    (s.withRetiredRun r now).edx (s.courseRun r).coursewareId =
      some ((s.courseRun r).edxPayload (s.retirementDates r now)) :=
  Function.update_self ..

@[simp] theorem deactivateRunProducts_courseRun :
    (deactivateRunProducts s r).1.courseRun = s.courseRun :=
  (foldl_deactivateProduct_frame _ _).1

@[simp] theorem deactivateRunProducts_edx : (deactivateRunProducts s r).1.edx = s.edx :=
  (foldl_deactivateProduct_frame _ _).2.1

theorem retired_edxPayload :
    (run.retired dates).edxPayload dates = run.edxPayload dates := by
  simp only [ScheduledRun.edxPayload, ScheduledRun.retired, ScheduledRun.clearExpirationDate]
  split_ifs <;> rfl

theorem retired_coursewareId : (run.retired dates).coursewareId = run.coursewareId := by
  simp only [ScheduledRun.retired, ScheduledRun.clearExpirationDate]
  split_ifs <;> rfl

/-- The second retirement computes the dates of the first. -/
theorem retirementDates_retired {s' : CoursewareStore lookup}
    (h : s'.courseRun r = (s.courseRun r).retired (s.retirementDates r now)) :
    s'.retirementDates r now = s.retirementDates r now := by
  obtain ⟨enrollmentStart, start, hordered⟩ := computeRetirementDates_ordered (s.courseRun r) now
  rw [CoursewareStore.retirementDates, h]
  exact computeRetirementDates_of_ordered hordered rfl rfl

/-- Writing again what was written changes nothing. -/
theorem withRetiredRun_of_retired {s' : CoursewareStore lookup}
    (hrun : s'.courseRun r = (s.courseRun r).retired (s.retirementDates r now))
    (hedx : s'.edx (s.courseRun r).coursewareId =
      some ((s.courseRun r).edxPayload (s.retirementDates r now))) :
    s'.withRetiredRun r now = s' := by
  have hdates := retirementDates_retired hrun
  apply CoursewareStore.ext
  · change Function.update s'.courseRun r ((s'.courseRun r).retired (s'.retirementDates r now)) = _
    rw [hdates, hrun, retired_retired, ← hrun]
    exact Function.update_eq_self r s'.courseRun
  · rfl
  · change Function.update s'.edx _ (some ((s'.courseRun r).edxPayload (s'.retirementDates r now))) = _
    rw [hdates, hrun, retired_edxPayload, retired_coursewareId, ← hedx]
    exact Function.update_eq_self _ s'.edx

/-- Retiring a run: its dates are in order and over, `clean` accepts it, it is past and neither
enrollable nor upgradable, its products are off, and a second retirement at the same instant changes
nothing. When edX fails, no run and no product changes. -/
theorem retireCourseRun_spec (s : CoursewareStore lookup) (r : RunId) (now : Instant) :
    (∃ s' retired, retireCourseRun (.ok ()) true false now r s = (s', .ok retired) ∧
      (∃ enrollmentStart start fin,
        (s'.courseRun r).enrollmentStart = some enrollmentStart ∧
        (s'.courseRun r).startDate = some start ∧
        (s'.courseRun r).endDate = some fin ∧ (s'.courseRun r).enrollmentEnd = some fin ∧
        enrollmentStart ≤ start ∧ start < fin ∧ fin < now) ∧
      (s'.courseRun r).clean lookup = .ok () ∧
      (∀ t, now ≤ t → (s'.courseRun r).isPast t = true ∧ (s'.courseRun r).isEnrollable t = false ∧
        ∀ hasProduct, (s'.courseRun r).isUpgradable hasProduct t = false) ∧
      (∀ p ∈ s'.getRunProducts r, (s'.products.row p).isActive = false) ∧
      (retireCourseRun (.ok ()) true false now r s').1 = s') ∧
    ∀ (e : Error) (deactivateProducts : Bool),
      (retireCourseRun (.error e) deactivateProducts false now r s).1.courseRun = s.courseRun ∧
      (retireCourseRun (.error e) deactivateProducts false now r s).1.products = s.products := by
  refine ⟨?_, fun e deactivateProducts =>
    ⟨(retireCourseRun_error s r now deactivateProducts e).1,
      (retireCourseRun_error s r now deactivateProducts e).2.1⟩⟩
  have hrun : (deactivateRunProducts (s.withRetiredRun r now) r).1.courseRun r =
      (s.courseRun r).retired (s.retirementDates r now) := by
    rw [deactivateRunProducts_courseRun, withRetiredRun_courseRun]
  have hedx : (deactivateRunProducts (s.withRetiredRun r now) r).1.edx (s.courseRun r).coursewareId =
      some ((s.courseRun r).edxPayload (s.retirementDates r now)) := by
    rw [deactivateRunProducts_edx, withRetiredRun_edx]
  have hoff : ∀ p ∈ (deactivateRunProducts (s.withRetiredRun r now) r).1.getRunProducts r,
      ((deactivateRunProducts (s.withRetiredRun r now) r).1.products.row p).isActive = false :=
    fun p hp => deactivateRunProducts_isActive hp
  obtain ⟨enrollmentStart, start, hordered⟩ := computeRetirementDates_ordered (s.courseRun r) now
  refine ⟨_, _, retireCourseRun_ok s r now, ?_, ?_, ?_, hoff, ?_⟩
  · rw [hrun]
    exact ⟨enrollmentStart, start, _, hordered.enrollmentStart_eq, hordered.start_eq, hordered.fin_eq,
      hordered.enrollmentEnd_eq, hordered.enrollmentStart_le, hordered.start_lt, hordered.fin_lt⟩
  · rw [hrun]
    exact retired_clean (s.clean_language r)
  · rw [hrun]
    exact fun t ht => ⟨retired_isPast hordered ht, retired_isEnrollable t,
      fun hasProduct => retired_isUpgradable hasProduct t⟩
  · rw [retireCourseRun_ok, withRetiredRun_of_retired hrun hedx,
      deactivateRunProducts_of_not_isActive hoff]

end MitxOnline

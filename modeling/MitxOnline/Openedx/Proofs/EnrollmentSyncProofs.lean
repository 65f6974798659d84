import MitxOnline.Openedx.EnrollmentSync

/-!
# A sync gives each known run edX's flag

The two loops touch different runs and each run once, so what a sync does is said run by run: from edX's
flag and the enrollment before. A second sync finds nothing left to do.
-/

namespace MitxOnline

variable {runs : CourseRunTable} {edx : EdxEnrollments} {user : UserId} {s s' t : Store} {r : RunId}
  {rs : List RunId} {e : CourseRunEnrollment} {result : SyncResult RunId}
  {localMap : Dict String RunId}

/-! ## One run -/

/-- The enrollment after it was compared with edX's flag. -/
def CourseRunEnrollment.follows (e : CourseRunEnrollment) (isActive : Bool) : CourseRunEnrollment :=
  if e.active = true ∧ isActive = false then e.unenrolled
  else if e.active = false ∧ isActive = true then e.reactivated
  else e

theorem CourseRunEnrollment.follows_active (isActive : Bool) : (e.follows isActive).active = isActive := by
  unfold CourseRunEnrollment.follows
  split_ifs with hdeactivate hreactivate
  · exact hdeactivate.2.symm
  · exact hreactivate.2.symm
  · cases hactive : e.active <;> cases isActive <;> simp_all

theorem CourseRunEnrollment.follows_self {isActive : Bool} (h : e.active = isActive) :
    e.follows isActive = e := by
  unfold CourseRunEnrollment.follows
  rw [if_neg (by rintro ⟨htrue, hfalse⟩; rw [← h, htrue] at hfalse; cases hfalse),
    if_neg (by rintro ⟨hfalse, htrue⟩; rw [← h, hfalse] at htrue; cases htrue)]

/-- What a sync makes of the enrollment in a run. -/
def syncedEnrollment (runs : CourseRunTable) (edx : EdxEnrollments) (r : RunId) :
    Option CourseRunEnrollment → Option CourseRunEnrollment
  | some e =>
    match edx.get (runs.coursewareId r) with
    | some isActive => some (e.follows isActive)
    | none => some e
  | none =>
    match edx.get (runs.coursewareId r) with
    | some isActive =>
      if runs.usable r then
        some { active := isActive, changeStatus := none, edxEnrolled := true, enrollmentMode := .audit }
      else none
    | none => none

/-- edX has an enrollment in the run. -/
def reported (runs : CourseRunTable) (edx : EdxEnrollments) (r : RunId) : Bool :=
  (edx.get (runs.coursewareId r)).isSome

/-- The sync creates, reactivates or deactivates the enrollment in the run. -/
def creates (runs : CourseRunTable) (edx : EdxEnrollments) (s : Store) (user : UserId) (r : RunId) :
    Bool :=
  (s.enrollments user r).isNone && runs.usable r && reported runs edx r

def reactivates (runs : CourseRunTable) (edx : EdxEnrollments) (s : Store) (user : UserId) (r : RunId) :
    Bool :=
  (s.enrollments user r).any fun e => !e.active && edx.get (runs.coursewareId r) == some true

def deactivates (runs : CourseRunTable) (edx : EdxEnrollments) (s : Store) (user : UserId) (r : RunId) :
    Bool :=
  (s.enrollments user r).any fun e => e.active && edx.get (runs.coursewareId r) == some false

/-! ## Writes -/

/-- Only enrollments of the user in some runs are written. -/
def WritesOnly (user : UserId) (rs : List RunId) (s s' : Store) : Prop :=
  s' = { s with enrollments := s'.enrollments } ∧
    ∀ u r, (u = user → r ∉ rs) → s'.enrollments u r = s.enrollments u r

theorem WritesOnly.refl : WritesOnly user rs s s := ⟨rfl, fun _ _ _ => rfl⟩

theorem WritesOnly.trans (h : WritesOnly user rs s t) (h' : WritesOnly user rs t s') :
    WritesOnly user rs s s' :=
  ⟨by rw [h'.1, h.1], fun u r hr => (h'.2 u r hr).trans (h.2 u r hr)⟩

theorem WritesOnly.mono {rs' : List RunId} (h : WritesOnly user rs s s') (hsub : ∀ r ∈ rs, r ∈ rs') :
    WritesOnly user rs' s s' :=
  ⟨h.1, fun u r hr => h.2 u r fun hu hmem => hr hu (hsub r hmem)⟩

/-- A write to one run, and writes to others. -/
theorem WritesOnly.cons (h : WritesOnly user [r] s t) (hrest : WritesOnly user rs t s') :
    WritesOnly user (r :: rs) s s' :=
  (h.mono fun _ hmem => List.mem_cons.mpr (.inl (List.mem_singleton.mp hmem))).trans
    (hrest.mono fun _ hmem => List.mem_cons_of_mem _ hmem)

theorem WritesOnly.other (h : WritesOnly user rs s s') (hr : r ∉ rs) :
    s'.enrollments user r = s.enrollments user r := h.2 user r fun _ => hr

/-- A write to a run that is not among others leaves these. -/
theorem WritesOnly.rest (h : WritesOnly user [r] s t) (hr : r ∉ rs) {r' : RunId} (hr' : r' ∈ rs) :
    t.enrollments user r' = s.enrollments user r' := by
  refine h.other fun hmem => ?_
  rw [List.mem_singleton.mp hmem] at hr'
  exact hr hr'

theorem writesOnly_setEnrollment (hr : r ∈ rs) : WritesOnly user rs s (setEnrollment user r e s) := by
  refine ⟨rfl, fun u r' hr' => if_neg ?_⟩
  rintro ⟨rfl, rfl⟩
  exact hr' rfl hr

theorem setEnrollment_self : (setEnrollment user r e s).enrollments user r = some e := if_pos ⟨rfl, rfl⟩

/-! ## The first loop -/

theorem syncActive_writes (isActive : Bool) (hr : r ∈ rs) :
    WritesOnly user rs s (syncActive user r e isActive (s, result)).1 := by
  unfold syncActive
  split_ifs
  · exact writesOnly_setEnrollment hr
  · exact writesOnly_setEnrollment hr
  · exact WritesOnly.refl

theorem syncActive_self (isActive : Bool) (h : s.enrollments user r = some e) :
    (syncActive user r e isActive (s, result)).1.enrollments user r = some (e.follows isActive) := by
  unfold syncActive CourseRunEnrollment.follows
  split_ifs
  · exact setEnrollment_self
  · exact setEnrollment_self
  · exact h

/-- What the body of the loop lists. -/
theorem syncActive_result {isActive : Bool} (h : s.enrollments user r = some e)
    (hedx : edx.get (runs.coursewareId r) = some isActive) :
    (syncActive user r e isActive (s, result)).2 =
      { result with
        reactivated := result.reactivated ++ [r].filter (reactivates runs edx s user)
        deactivated := result.deactivated ++ [r].filter (deactivates runs edx s user) } := by
  have hre : reactivates runs edx s user r = (!e.active && isActive) := by
    simp [reactivates, h, hedx]
  have hde : deactivates runs edx s user r = (e.active && !isActive) := by
    simp [deactivates, h, hedx]
  unfold syncActive
  cases hactive : e.active <;> cases isActive <;>
    simp [hre, hde, hactive]

/-- Writes to other runs do not matter for what is listed. -/
theorem filter_congr_writes {p : Store → RunId → Bool}
    (hp : ∀ s s' r, s.enrollments user r = s'.enrollments user r → p s r = p s' r)
    (hwrites : WritesOnly user [r] s t) (hr : r ∉ rs) : rs.filter (p t) = rs.filter (p s) := by
  exact List.filter_congr fun r' hr' => hp t s r' (hwrites.rest hr hr')

theorem reactivates_congr {s s' : Store} {r : RunId}
    (h : s.enrollments user r = s'.enrollments user r) :
    reactivates runs edx s user r = reactivates runs edx s' user r := by
  unfold reactivates
  rw [h]

theorem deactivates_congr {s s' : Store} {r : RunId}
    (h : s.enrollments user r = s'.enrollments user r) :
    deactivates runs edx s user r = deactivates runs edx s' user r := by
  unfold deactivates
  rw [h]

variable (s result) in
/-- The first loop over the ids of some enrolled runs. -/
theorem syncCommon_spec (hnodup : rs.Nodup)
    (h : ∀ r ∈ rs, localMap.get (runs.coursewareId r) = some r ∧ reported runs edx r = true ∧
      (s.enrollments user r).isSome = true) :
    ∃ s', syncCommon edx localMap user (rs.map runs.coursewareId) (s, result) =
        .ok (s', { result with
          reactivated := result.reactivated ++ rs.filter (reactivates runs edx s user)
          deactivated := result.deactivated ++ rs.filter (deactivates runs edx s user) }) ∧
      WritesOnly user rs s s' ∧
      ∀ r ∈ rs, s'.enrollments user r = syncedEnrollment runs edx r (s.enrollments user r) := by
  induction rs generalizing s result with
  | nil => exact ⟨s, by simp [syncCommon], WritesOnly.refl, fun r hr => absurd hr List.not_mem_nil⟩
  | cons r rest ih =>
    obtain ⟨hr, hrest⟩ := List.nodup_cons.mp hnodup
    obtain ⟨hget, hreported, hrow⟩ := h r (List.mem_cons_self ..)
    obtain ⟨isActive, hedx⟩ := Option.isSome_iff_exists.mp hreported
    obtain ⟨e, he⟩ := Option.isSome_iff_exists.mp hrow
    let next := syncActive user r e isActive (s, result)
    have hone : WritesOnly user [r] s next.1 := syncActive_writes isActive (List.mem_singleton_self r)
    have hother : ∀ r' ∈ rest, next.1.enrollments user r' = s.enrollments user r' :=
      fun _ hr' => hone.rest hr hr'
    have hnext : ∀ r' ∈ rest, localMap.get (runs.coursewareId r') = some r' ∧
        reported runs edx r' = true ∧ (next.1.enrollments user r').isSome = true := by
      intro r' hr'
      rw [hother r' hr']
      exact h r' (List.mem_cons_of_mem _ hr')
    obtain ⟨s', hs', hwrites, hsynced⟩ := ih next.1 next.2 hrest hnext
    refine ⟨s', ?_, ?_, ?_⟩
    · have hstep : syncCommon edx localMap user ((r :: rest).map runs.coursewareId) (s, result) =
          syncCommon edx localMap user (rest.map runs.coursewareId) next := by
        rw [List.map_cons, syncCommon, hedx, hget]
        dsimp only
        rw [he]
      have hresult : next.2 = { result with
          reactivated := result.reactivated ++ [r].filter (reactivates runs edx s user)
          deactivated := result.deactivated ++ [r].filter (deactivates runs edx s user) } :=
        syncActive_result he hedx
      rw [hstep, hs', hresult, filter_congr_writes (fun _ _ _ => reactivates_congr) hone hr,
        filter_congr_writes (fun _ _ _ => deactivates_congr) hone hr]
      simp only [List.append_assoc]
      rw [← List.filter_append, ← List.filter_append, List.singleton_append]
    · exact hone.cons hwrites
    · intro r' hr'
      rcases List.mem_cons.mp hr' with rfl | hr'
      · rw [hwrites.other hr, syncActive_self isActive he, he]
        simp [syncedEnrollment, hedx]
      · rw [hsynced r' hr', hother r' hr']

/-! ## The second loop -/

variable (s result) in
/-- The second loop over some runs in which the user has no enrollment. -/
theorem createMissing_spec (hnodup : rs.Nodup)
    (h : ∀ r ∈ rs, reported runs edx r = true ∧ runs.usable r = true ∧ s.enrollments user r = none) :
    ∃ s', createMissing runs edx user rs (s, result) =
        .ok (s', { result with created := result.created ++ rs }) ∧
      WritesOnly user rs s s' ∧
      ∀ r ∈ rs, s'.enrollments user r = syncedEnrollment runs edx r (s.enrollments user r) := by
  induction rs generalizing s result with
  | nil => exact ⟨s, by simp [createMissing], WritesOnly.refl, fun r hr => absurd hr List.not_mem_nil⟩
  | cons r rest ih =>
    obtain ⟨hr, hrest⟩ := List.nodup_cons.mp hnodup
    obtain ⟨hreported, husable, hrow⟩ := h r (List.mem_cons_self ..)
    obtain ⟨isActive, hedx⟩ := Option.isSome_iff_exists.mp hreported
    let row : CourseRunEnrollment :=
      { active := isActive, changeStatus := none, edxEnrolled := true, enrollmentMode := .audit }
    have hone : WritesOnly user [r] s (setEnrollment user r row s) :=
      writesOnly_setEnrollment (List.mem_singleton_self r)
    have hother : ∀ r' ∈ rest, (setEnrollment user r row s).enrollments user r' =
        s.enrollments user r' := fun _ hr' => hone.rest hr hr'
    have hnext : ∀ r' ∈ rest, reported runs edx r' = true ∧ runs.usable r' = true ∧
        (setEnrollment user r row s).enrollments user r' = none := by
      intro r' hr'
      rw [hother r' hr']
      exact h r' (List.mem_cons_of_mem _ hr')
    obtain ⟨s', hs', hwrites, hsynced⟩ :=
      ih (setEnrollment user r row s) { result with created := result.created ++ [r] } hrest hnext
    refine ⟨s', ?_, ?_, ?_⟩
    · rw [createMissing, hedx]
      dsimp only
      rw [hrow]
      dsimp only
      rw [hs', List.append_assoc, List.singleton_append]
    · exact hone.cons hwrites
    · intro r' hr'
      rcases List.mem_cons.mp hr' with rfl | hr'
      · rw [hwrites.other hr, hrow]
        simp only [syncedEnrollment, hedx, husable, if_true]
        exact setEnrollment_self
      · rw [hsynced r' hr', hother r' hr']

/-! ## A whole sync -/

theorem CourseRunTable.coursewareId_inj {r' : RunId} (hr : r ∈ runs.table.keys)
    (hr' : r' ∈ runs.table.keys) (h : runs.coursewareId r = runs.coursewareId r') : r = r' := by
  have hnodup : (runs.table.keys.map runs.coursewareId).Nodup :=
    List.pairwise_map.mpr runs.unique_courseware_id
  exact List.inj_on_of_nodup_map hnodup hr hr' h

theorem mem_enrolledRuns : r ∈ enrolledRuns runs s user ↔
    r ∈ runs.table.keys ∧ (s.enrollments user r).isSome = true := List.mem_filter

theorem keys_localEnrollmentsMap :
    (localEnrollmentsMap runs s user).keys = (enrolledRuns runs s user).map runs.coursewareId := by
  rw [Dict.keys, localEnrollmentsMap, List.map_map]
  rfl

theorem reported_iff : reported runs edx r = true ↔ runs.coursewareId r ∈ edx.keys := by
  rw [reported, Option.isSome_iff_exists, Dict.mem_keys_iff]

/-- The ids that both sides have are those of the enrolled runs that edX reports. -/
theorem commonIds_eq :
    (getPartitionedSetDifference (localEnrollmentsMap runs s user).keys edx.keys).2.1 =
      ((enrolledRuns runs s user).filter (reported runs edx)).map runs.coursewareId := by
  have hfilter : (enrolledRuns runs s user).filter (reported runs edx) =
      (enrolledRuns runs s user).filter fun r => decide (runs.coursewareId r ∈ edx.keys) := by
    refine List.filter_congr fun r _ => ?_
    rw [Bool.eq_iff_iff, reported_iff, decide_eq_true_eq]
  rw [hfilter]
  simp only [getPartitionedSetDifference]
  rw [keys_localEnrollmentsMap, List.filter_map]
  rfl

/-- The runs that the second loop is about are those in which an enrollment is missing. -/
theorem missingRuns_eq :
    (runs.table.keys.filter fun r => runs.usable r && decide (runs.coursewareId r ∈
        (getPartitionedSetDifference (localEnrollmentsMap runs s user).keys edx.keys).2.2)) =
      runs.table.keys.filter (creates runs edx s user) := by
  refine List.filter_congr fun r hr => ?_
  have hcommon : runs.coursewareId r ∈
      (getPartitionedSetDifference (localEnrollmentsMap runs s user).keys edx.keys).2.1 ↔
        (s.enrollments user r).isSome = true ∧ reported runs edx r = true := by
    rw [commonIds_eq, List.mem_map]
    constructor
    · rintro ⟨r', hr', heq⟩
      obtain ⟨hmem, hreported⟩ := List.mem_filter.mp hr'
      obtain ⟨hkey, hrow⟩ := mem_enrolledRuns.mp hmem
      rw [← CourseRunTable.coursewareId_inj hkey hr heq]
      exact ⟨hrow, hreported⟩
    · rintro ⟨hrow, hreported⟩
      exact ⟨r, List.mem_filter.mpr ⟨mem_enrolledRuns.mpr ⟨hr, hrow⟩, hreported⟩, rfl⟩
  have honly : runs.coursewareId r ∈
      (getPartitionedSetDifference (localEnrollmentsMap runs s user).keys edx.keys).2.2 ↔
        reported runs edx r = true ∧ s.enrollments user r = none := by
    have hmem : runs.coursewareId r ∈
        (getPartitionedSetDifference (localEnrollmentsMap runs s user).keys edx.keys).2.2 ↔
          runs.coursewareId r ∈ edx.keys ∧ runs.coursewareId r ∉
            (getPartitionedSetDifference (localEnrollmentsMap runs s user).keys edx.keys).2.1 := by
      simp only [getPartitionedSetDifference, List.mem_filter, decide_eq_true_eq]
    rw [hmem, hcommon, ← reported_iff]
    cases s.enrollments user r <;> simp
  rw [Bool.eq_iff_iff, Bool.and_eq_true, decide_eq_true_eq, honly, creates, Bool.and_eq_true,
    Bool.and_eq_true, Option.isNone_iff_eq_none]
  tauto

/-- The first loop is about the enrolled runs that edX reports. -/
theorem mem_commonRuns : r ∈ (enrolledRuns runs s user).filter (reported runs edx) ↔
    r ∈ runs.table.keys ∧ (s.enrollments user r).isSome = true ∧ reported runs edx r = true := by
  rw [List.mem_filter, mem_enrolledRuns, and_assoc]

theorem mem_missingRuns : r ∈ runs.table.keys.filter (creates runs edx s user) ↔
    r ∈ runs.table.keys ∧ s.enrollments user r = none ∧ runs.usable r = true ∧
      reported runs edx r = true := by
  rw [List.mem_filter, creates, Bool.and_eq_true, Bool.and_eq_true, Option.isNone_iff_eq_none,
    and_assoc]

/-- Which of the common runs pass a test that only these pass. -/
theorem filter_commonRuns {p : RunId → Bool}
    (hp : ∀ r, p r = true → (s.enrollments user r).isSome = true ∧ reported runs edx r = true) :
    ((enrolledRuns runs s user).filter (reported runs edx)).filter p = runs.table.keys.filter p := by
  rw [List.filter_filter, enrolledRuns, List.filter_filter]
  refine List.filter_congr fun r _ => ?_
  cases hr : p r with
  | false => simp
  | true =>
    obtain ⟨hrow, hreported⟩ := hp r hr
    rw [hrow, hreported]
    rfl

/-- What tests an enrollment against edX's flag is about an enrollment that edX reports. -/
theorem common_of_any {p : CourseRunEnrollment → Bool} {isActive : Bool}
    (h : ((s.enrollments user r).any fun e =>
      p e && edx.get (runs.coursewareId r) == some isActive) = true) :
    (s.enrollments user r).isSome = true ∧ reported runs edx r = true := by
  obtain ⟨e, he, htest⟩ := Option.any_eq_true .. |>.mp h
  have hedx : edx.get (runs.coursewareId r) = some isActive := by
    simpa using (Bool.and_eq_true_iff.mp htest).2
  exact ⟨by rw [he]; rfl, by rw [reported, hedx]; rfl⟩

/-- A sync leaves a run that no loop is about: edX does not report it, or it is not shown. -/
theorem syncedEnrollment_of_idle {row : Option CourseRunEnrollment}
    (hcommon : ¬(row.isSome = true ∧ reported runs edx r = true))
    (hmissing : ¬(row = none ∧ runs.usable r = true ∧ reported runs edx r = true)) :
    syncedEnrollment runs edx r row = row := by
  unfold syncedEnrollment
  unfold reported at hcommon hmissing
  cases row <;> cases hedx : edx.get (runs.coursewareId r) <;> simp_all

/-- The two loops, if they are about those runs. -/
theorem syncEnrollmentsWithEdx_eq {acc : Store × SyncResult RunId}
    (hcommon : syncCommon edx (localEnrollmentsMap runs s user) user
      (((enrolledRuns runs s user).filter (reported runs edx)).map runs.coursewareId) (s, .empty) =
        .ok acc) :
    syncEnrollmentsWithEdx runs s user (some edx) =
      createMissing runs edx user (runs.table.keys.filter (creates runs edx s user)) acc := by
  rw [← commonIds_eq] at hcommon
  rw [← missingRuns_eq]
  simp only [syncEnrollmentsWithEdx, hcommon]

variable (runs edx user s) in
/-- What a sync returns and leaves, run by run. -/
theorem syncEnrollmentsWithEdx_spec :
    ∃ s', syncEnrollmentsWithEdx runs s user (some edx) = .ok (s',
        { created := runs.table.keys.filter (creates runs edx s user)
          reactivated := runs.table.keys.filter (reactivates runs edx s user)
          deactivated := runs.table.keys.filter (deactivates runs edx s user) }) ∧
      WritesOnly user runs.table.keys s s' ∧
      ∀ r ∈ runs.table.keys,
        s'.enrollments user r = syncedEnrollment runs edx r (s.enrollments user r) := by
  let common := (enrolledRuns runs s user).filter (reported runs edx)
  let missing := runs.table.keys.filter (creates runs edx s user)
  have hready : ∀ r ∈ common, (localEnrollmentsMap runs s user).get (runs.coursewareId r) = some r ∧
      reported runs edx r = true ∧ (s.enrollments user r).isSome = true := by
    intro r hr
    obtain ⟨hkey, hrow, hreported⟩ := mem_commonRuns.mp hr
    refine ⟨Dict.get_eq_some_iff.mpr ?_, hreported, hrow⟩
    exact List.mem_map.mpr ⟨r, mem_enrolledRuns.mpr ⟨hkey, hrow⟩, rfl⟩
  have hnodup : common.Nodup := (runs.table.keys_nodup.filter _).filter _
  obtain ⟨t, ht, hwrites, hsynced⟩ := syncCommon_spec s .empty hnodup hready
  have hapart : ∀ r ∈ missing, r ∉ common := by
    intro r hr hr'
    have hnone := (mem_missingRuns.mp hr).2.1
    have hsome := (mem_commonRuns.mp hr').2.1
    rw [hnone] at hsome
    cases hsome
  have habsent : ∀ r ∈ missing, reported runs edx r = true ∧ runs.usable r = true ∧
      t.enrollments user r = none := by
    intro r hr
    obtain ⟨-, hnone, husable, hreported⟩ := mem_missingRuns.mp hr
    exact ⟨hreported, husable, (hwrites.other (hapart r hr)).trans hnone⟩
  obtain ⟨s', hs', hwrites', hsynced'⟩ := createMissing_spec t
    { created := []
      reactivated := common.filter (reactivates runs edx s user)
      deactivated := common.filter (deactivates runs edx s user) }
    (runs.table.keys_nodup.filter _) habsent
  refine ⟨s', ?_, ?_, ?_⟩
  · have hre := filter_commonRuns fun r (h : reactivates runs edx s user r = true) => common_of_any h
    have hde := filter_commonRuns fun r (h : deactivates runs edx s user r = true) => common_of_any h
    rw [syncEnrollmentsWithEdx_eq ht, ← hre, ← hde]
    exact hs'
  · exact (hwrites.mono fun r hr => (mem_commonRuns.mp hr).1).trans
      (hwrites'.mono fun r hr => (mem_missingRuns.mp hr).1)
  · intro r hr
    by_cases hmiss : r ∈ missing
    · rw [hsynced' r hmiss, hwrites.other (hapart r hmiss)]
    · rw [hwrites'.other hmiss]
      by_cases hcomm : r ∈ common
      · exact hsynced r hcomm
      · rw [hwrites.other hcomm, syncedEnrollment_of_idle]
        · exact fun h => hcomm (mem_commonRuns.mpr ⟨hr, h⟩)
        · exact fun h => hmiss (mem_missingRuns.mpr ⟨hr, h⟩)

/-! ## The results -/

theorem syncedEnrollment_active {row : Option CourseRunEnrollment} {isActive : Bool}
    (hedx : edx.get (runs.coursewareId r) = some isActive)
    (hknown : runs.usable r = true ∨ row.isSome = true) :
    ∃ e, syncedEnrollment runs edx r row = some e ∧ e.active = isActive := by
  cases row with
  | some e =>
    refine ⟨e.follows isActive, ?_, CourseRunEnrollment.follows_active isActive⟩
    simp [syncedEnrollment, hedx]
  | none =>
    have husable : runs.usable r = true := by simpa using hknown
    refine ⟨⟨isActive, none, true, .audit⟩, ?_, rfl⟩
    simp [syncedEnrollment, hedx, husable]

theorem syncedEnrollment_of_not_reported {row : Option CourseRunEnrollment}
    (hedx : edx.get (runs.coursewareId r) = none) : syncedEnrollment runs edx r row = row := by
  cases row <;> simp [syncedEnrollment, hedx]

theorem syncedEnrollment_idem {row : Option CourseRunEnrollment} :
    syncedEnrollment runs edx r (syncedEnrollment runs edx r row) =
      syncedEnrollment runs edx r row := by
  cases hedx : edx.get (runs.coursewareId r) with
  | none => rw [syncedEnrollment_of_not_reported hedx]
  | some isActive =>
    by_cases hknown : runs.usable r = true ∨ row.isSome = true
    · obtain ⟨e, he, hactive⟩ := syncedEnrollment_active hedx hknown
      rw [he]
      simp [syncedEnrollment, hedx, CourseRunEnrollment.follows_self hactive]
    · obtain ⟨husable, hrow⟩ := not_or.mp hknown
      obtain rfl : row = none := by simpa using hrow
      simp [syncedEnrollment, hedx, husable]

/-- A sync changes an enrollment exactly if it lists it. -/
theorem syncedEnrollment_ne_iff :
    syncedEnrollment runs edx r (s.enrollments user r) ≠ s.enrollments user r ↔
      creates runs edx s user r = true ∨ reactivates runs edx s user r = true ∨
        deactivates runs edx s user r = true := by
  unfold syncedEnrollment creates reactivates deactivates reported
  cases hrow : s.enrollments user r with
  | none =>
    cases hedx : edx.get (runs.coursewareId r) <;> cases husable : runs.usable r <;> simp
  | some e =>
    cases hedx : edx.get (runs.coursewareId r) with
    | none => simp
    | some isActive =>
      by_cases hsame : e.active = isActive
      · have hfollows := CourseRunEnrollment.follows_self hsame
        cases isActive <;> simp [hfollows, hsame]
      · have hfollows : e.follows isActive ≠ e := by
          intro heq
          have hactive := @CourseRunEnrollment.follows_active e isActive
          rw [heq] at hactive
          exact hsame hactive
        cases isActive <;> simp_all

/-- No enrollment is listed under two headings. -/
theorem listed_nodup :
    (SyncResult.listed
      { created := runs.table.keys.filter (creates runs edx s user)
        reactivated := runs.table.keys.filter (reactivates runs edx s user)
        deactivated := runs.table.keys.filter (deactivates runs edx s user) }).Nodup := by
  have hkeys := runs.table.keys_nodup
  have hcreated : ∀ r, creates runs edx s user r = true → s.enrollments user r = none := by
    intro r hr
    rw [creates, Bool.and_eq_true, Bool.and_eq_true, Option.isNone_iff_eq_none] at hr
    exact hr.1.1
  have hreactivated : ∀ r, reactivates runs edx s user r = true →
      ∃ e, s.enrollments user r = some e ∧ e.active = false := by
    intro r hr
    obtain ⟨e, he, htest⟩ := Option.any_eq_true .. |>.mp hr
    exact ⟨e, he, by simpa using (Bool.and_eq_true_iff.mp htest).1⟩
  have hdeactivated : ∀ r, deactivates runs edx s user r = true →
      ∃ e, s.enrollments user r = some e ∧ e.active = true := by
    intro r hr
    obtain ⟨e, he, htest⟩ := Option.any_eq_true .. |>.mp hr
    exact ⟨e, he, (Bool.and_eq_true_iff.mp htest).1⟩
  refine ((hkeys.filter _).append (hkeys.filter _) ?_).append (hkeys.filter _) ?_
  · intro r hr hr'
    obtain ⟨e, he, -⟩ := hreactivated r (List.mem_filter.mp hr').2
    rw [hcreated r (List.mem_filter.mp hr).2] at he
    cases he
  · intro r hr hr'
    obtain ⟨e, he, hactive⟩ := hdeactivated r (List.mem_filter.mp hr').2
    rcases List.mem_append.mp hr with hr | hr
    · rw [hcreated r (List.mem_filter.mp hr).2] at he
      cases he
    · obtain ⟨e', he', hinactive⟩ := hreactivated r (List.mem_filter.mp hr).2
      rw [he] at he'
      obtain rfl := Option.some.inj he'
      rw [hactive] at hinactive
      cases hinactive

theorem mem_listed_iff (hr : r ∈ runs.table.keys) :
    r ∈ SyncResult.listed
      { created := runs.table.keys.filter (creates runs edx s user)
        reactivated := runs.table.keys.filter (reactivates runs edx s user)
        deactivated := runs.table.keys.filter (deactivates runs edx s user) } ↔
      syncedEnrollment runs edx r (s.enrollments user r) ≠ s.enrollments user r := by
  rw [syncedEnrollment_ne_iff]
  simp [SyncResult.listed, List.mem_filter, hr]

/-- A sync of a synced database lists and changes nothing. -/
theorem sync_of_synced
    (h : ∀ r ∈ runs.table.keys,
      syncedEnrollment runs edx r (s.enrollments user r) = s.enrollments user r) :
    syncEnrollmentsWithEdx runs s user (some edx) = .ok (s, .empty) := by
  obtain ⟨s', hs', hwrites, hsynced⟩ := syncEnrollmentsWithEdx_spec runs edx user s
  have hnone : ∀ r ∈ runs.table.keys, ¬ (creates runs edx s user r = true ∨
      reactivates runs edx s user r = true ∨ deactivates runs edx s user r = true) := by
    intro r hr hlisted
    exact syncedEnrollment_ne_iff.mpr hlisted (h r hr)
  have hcreated : runs.table.keys.filter (creates runs edx s user) = [] :=
    List.filter_eq_nil_iff.mpr fun r hr hcreates => hnone r hr (.inl hcreates)
  have hreactivated : runs.table.keys.filter (reactivates runs edx s user) = [] :=
    List.filter_eq_nil_iff.mpr fun r hr hre => hnone r hr (.inr (.inl hre))
  have hdeactivated : runs.table.keys.filter (deactivates runs edx s user) = [] :=
    List.filter_eq_nil_iff.mpr fun r hr hde => hnone r hr (.inr (.inr hde))
  have hsame : s'.enrollments = s.enrollments := by
    funext u r
    by_cases hr : u = user ∧ r ∈ runs.table.keys
    · obtain ⟨rfl, hr⟩ := hr
      rw [hsynced r hr, h r hr]
    · exact hwrites.2 u r fun hu hmem => hr ⟨hu, hmem⟩
  have hstore : s' = s := by rw [hwrites.1, hsame]
  rw [hs', hcreated, hreactivated, hdeactivated, hstore]
  rfl

/-- A sync returns; each known run that edX reports has an enrollment with edX's flag, the others are as
they were, and nothing else is written; what changed is listed, and listed once; and a second sync with
the same answer changes and lists nothing. -/
theorem syncEnrollments_converges (runs : CourseRunTable) (s : Store) (user : UserId)
    (edx : EdxEnrollments) :
    ∃ s' result, syncEnrollmentsWithEdx runs s user (some edx) = .ok (s', result) ∧
      (∀ r ∈ runs.table.keys, ∀ isActive, edx.get (runs.coursewareId r) = some isActive →
        (runs.usable r = true ∨ (s.enrollments user r).isSome = true) →
          ∃ e, s'.enrollments user r = some e ∧ e.active = isActive) ∧
      (∀ r ∈ runs.table.keys, edx.get (runs.coursewareId r) = none →
        s'.enrollments user r = s.enrollments user r) ∧
      WritesOnly user runs.table.keys s s' ∧
      result.listed.Nodup ∧
      (∀ r ∈ runs.table.keys,
        r ∈ result.listed ↔ s'.enrollments user r ≠ s.enrollments user r) ∧
      syncEnrollmentsWithEdx runs s' user (some edx) = .ok (s', .empty) := by
  obtain ⟨s', hs', hwrites, hsynced⟩ := syncEnrollmentsWithEdx_spec runs edx user s
  refine ⟨s', _, hs', ?_, ?_, hwrites, listed_nodup, ?_, ?_⟩
  · intro r hr isActive hedx hknown
    rw [hsynced r hr]
    exact syncedEnrollment_active hedx hknown
  · intro r hr hedx
    rw [hsynced r hr]
    exact syncedEnrollment_of_not_reported hedx
  · intro r hr
    rw [mem_listed_iff hr, hsynced r hr]
  · refine sync_of_synced fun r hr => ?_
    rw [hsynced r hr]
    exact syncedEnrollment_idem

end MitxOnline

import Mathlib.Order.WellFoundedSet
import MitxOnline.Courses.Proofs.RequirementsProofs

/-!
# Learners and program certificates

A learner who has everything that the requirements of a program name, and a learner who gets more than
they had.
-/

namespace MitxOnline

open Threshold

/-! ## Accepted forms and learners with every certificate -/

/-- The requirements name the course or the program. -/
def LeafOf (children : List ProgramRequirement) : Leaf → Prop
  | .inl c => c ∈ coursesOf children
  | .inr q => q ∈ programsOf children

/-- The user holds a certificate for every course that the requirements name, from a run that counts,
and for every program. None of them is revoked. -/
structure HoldsEverything (cur : Curriculum) (s : CertificateStore) (user : UserId)
    (children : List ProgramRequirement) : Prop where
  courses : ∀ c ∈ coursesOf children, ∃ r ∈ cur.runIds, countsTowards cur s user r = true ∧
    (cur.courseRun r).course = c ∧ holdsCertificate s user r = true
  programs : ∀ q ∈ programsOf children, holdsProgramCertificate s user q = true

/-- Once the form is accepted and saved as the requirements of `p`, every learner who holds all the
certificates that they name has earned the certificate of `p`. -/
def AcceptedIsAchievable (cur : Curriculum) (p : ProgramId) (form : List FormNode) : Prop :=
  clean form = .ok () → ∀ children, saveAll form = .ok children →
    cur.requirements p = some children → ∀ s user, HoldsEverything cur s user children →
      ∃ limit, hasEarnedProgramCert cur s user limit p = .ok true

section Achievable

variable {cur : Curriculum} {s : CertificateStore} {user : UserId} {p : ProgramId}
  {children : List ProgramRequirement}

theorem HoldsEverything.has_leaf (h : HoldsEverything cur s user children) (a : Leaf)
    (ha : LeafOf children a) : hasLeaf cur s user a = true := by
  cases a with
  | inl c =>
    obtain ⟨r, hr, hcounts, hcourse, hcert⟩ := h.courses c ha
    refine List.any_eq_true.mpr ⟨r, hr, ?_⟩
    rw [hcounts, hcourse, hcert, beq_self_eq_true]
    rfl
  | inr q => exact h.programs q ha

/-- The learner who is enrolled in every run and has just the certificates that the requirements
name. -/
def leafStore (cur : Curriculum) (children : List ProgramRequirement) : CertificateStore :=
  { fullStore with
    courseRunCertificates := fun _ r =>
      if (cur.courseRun r).course ∈ coursesOf children then [⟨false, 0⟩] else []
    programCertificates := fun _ q => if q ∈ programsOf children then [⟨false, 0⟩] else [] }

theorem leafStore_holdsCertificate {r : RunId} :
    holdsCertificate (leafStore cur children) user r = true ↔
      (cur.courseRun r).course ∈ coursesOf children := by
  by_cases hr : (cur.courseRun r).course ∈ coursesOf children
  · simp [holdsCertificate, leafStore, hr]
  · simp [holdsCertificate, leafStore, hr]

theorem leafStore_holdsProgramCertificate {q : ProgramId} :
    holdsProgramCertificate (leafStore cur children) user q = true ↔ q ∈ programsOf children := by
  by_cases hq : q ∈ programsOf children
  · simp [holdsProgramCertificate, leafStore, hq]
  · simp [holdsProgramCertificate, leafStore, hq]

theorem leafOf_of_hasLeaf (a : Leaf) (h : hasLeaf cur (leafStore cur children) user a = true) :
    LeafOf children a := by
  cases a with
  | inl c =>
    obtain ⟨r, _, hr⟩ := List.any_eq_true.mp h
    simp only [Bool.and_eq_true, Bool.or_eq_true, beq_iff_eq] at hr
    obtain ⟨⟨_, rfl⟩, hcert | hgrade⟩ := hr
    · exact leafStore_holdsCertificate.mp hcert
    · simp [passedWithoutMode, leafStore, fullStore, CertificateStore.empty] at hgrade
  | inr q => exact leafStore_holdsProgramCertificate.mp h

theorem leafStore_holdsEverything (h : ∀ c ∈ coursesOf children, Certifiable cur (.inl c)) :
    HoldsEverything cur (leafStore cur children) user children := by
  refine ⟨fun c hc => ?_, fun q hq => leafStore_holdsProgramCertificate.mpr hq⟩
  obtain ⟨r, hr, hvariant, rfl⟩ := h c hc
  refine ⟨r, hr, ?_, rfl, leafStore_holdsCertificate.mpr hc⟩
  simp [countsTowards, leafStore, fullStore, hvariant]

theorem fullStore_holdsEverything (h : ∀ c ∈ coursesOf children, Certifiable cur (.inl c)) :
    HoldsEverything cur fullStore user children := by
  refine ⟨fun c hc => ?_, fun q _ => by simp [holdsProgramCertificate, fullStore]⟩
  obtain ⟨r, hr, hvariant, rfl⟩ := h c hc
  refine ⟨r, hr, ?_, rfl, by simp [holdsCertificate, fullStore]⟩
  simp [countsTowards, fullStore, hvariant]

/-- Learners with every certificate have earned the certificate of the program exactly if what the
requirements name meets them, each operator counting one for the operator above it, and their
evaluation comes to an end. Where some course has no run that counts there are no such learners. -/
theorem achievable_iff :
    (∀ s user, HoldsEverything cur s user children →
        ∃ limit, hasEarnedProgramCert cur s user limit p = .ok true) ↔
      ((∀ c ∈ coursesOf children, Certifiable cur (.inl c)) →
        Meets cur (LeafOf children) p ∧ WellFormed cur.forest (Certifiable cur) p) := by
  constructor
  · intro hearned hcertifiable
    have hleaf := hearned _ 0 (leafStore_holdsEverything hcertifiable)
    have hfull := hearned _ 0 (fullStore_holdsEverything hcertifiable)
    exact ⟨(hasEarnedProgramCert_true_iff.mp hleaf).1.mono leafOf_of_hasLeaf,
      (hasEarnedProgramCert_true_iff.mp hfull).2.anti hasLeaf_fullStore⟩
  · intro hcond s user hholds
    have hcertifiable : ∀ c ∈ coursesOf children, Certifiable cur (.inl c) := fun c hc =>
      certifiable_of_hasLeaf _ (hholds.has_leaf (.inl c) hc)
    obtain ⟨hmeets, hwell⟩ := hcond hcertifiable
    exact hasEarnedProgramCert_true_iff.mpr
      ⟨hmeets.mono hholds.has_leaf, hwell.anti certifiable_of_hasLeaf⟩

/-- An accepted form describes an achievable program exactly if what the saved requirements name meets
them: the minimum of an operator that has to be met is at most the number of its children that can be
met, where a nested operator is one child whatever its value; and the evaluation comes to an end. -/
theorem accepted_form_achievable_iff (cur : Curriculum) (p : ProgramId) (form : List FormNode) :
    AcceptedIsAchievable cur p form ↔ (clean form = .ok () → ∀ children,
      saveAll form = .ok children → cur.requirements p = some children →
        (∀ c ∈ coursesOf children, Certifiable cur (.inl c)) →
          Meets cur (LeafOf children) p ∧ WellFormed cur.forest (Certifiable cur) p) := by
  constructor
  · intro h hclean children hsave hp
    exact achievable_iff.mp (h hclean children hsave hp)
  · intro h hclean children hsave hp
    exact achievable_iff.mpr (h hclean children hsave hp)

end Achievable

/-- A minimum of two whose only child is a minimum of two courses. -/
def nestedMinimumForm : List FormNode :=
  [.operator "min_number_of" (.text "2")
    [.operator "min_number_of" (.text "2") [.course 1, .course 2]]]

/-- The form counts the nested operator as its value, two; the evaluation counts it as one. Nobody
achieves the program. -/
theorem accepted_form_not_achievable :
    ¬AcceptedIsAchievable (.ofForms fun _ => nestedMinimumForm) 1 nestedMinimumForm := by
  intro h
  have hholds : HoldsEverything (.ofForms fun _ => nestedMinimumForm) fullStore 0
      [.node (.operator .minNumberOf (some "2"))
        [.node (.operator .minNumberOf (some "2")) [.node (.course 1) [], .node (.course 2) []]]] :=
    fullStore_holdsEverything fun c hc => by
      have hc : c = 1 ∨ c = 2 := by simpa [coursesOf, ProgramRequirement.courses] using hc
      have hrun : c ∈ [1, 2] := by simpa using hc
      exact ⟨c, hrun, rfl, rfl⟩
  have hearned := h (by decide) _ (by rfl) (by rfl) fullStore 0 hholds
  obtain ⟨trees, htrees, hall⟩ := holds_ref_iff.mp (hasEarnedProgramCert_true_iff.mp hearned).1
  obtain rfl := Except.ok.inj htrees
  have hle : (2 : ℤ) ≤ 1 := Holds.le_length (hall _ List.mem_cons_self)
  omega

/-! ## Learners who get more -/

/-- The user has in `t` what they have in `s`, and maybe more. -/
structure Grows (s t : CertificateStore) (user : UserId) : Prop where
  enrollments : ∀ r, ((s.enrollments user r).any fun e => e.active && e.changeStatus.isNone) = true →
    ((t.enrollments user r).any fun e => e.active && e.changeStatus.isNone) = true
  courseRunCertificates : ∀ r, holdsCertificate s user r = true → holdsCertificate t user r = true
  programCertificates : ∀ q, holdsProgramCertificate s user q = true →
    holdsProgramCertificate t user q = true
  grades : ∀ r, ((s.grades user r).any fun g => g.passed) = true →
    ((t.grades user r).any fun g => g.passed) = true

theorem Grows.has_leaf {cur : Curriculum} {s t : CertificateStore} {user : UserId}
    (h : Grows s t user) (a : Leaf) (ha : hasLeaf cur s user a = true) :
    hasLeaf cur t user a = true := by
  cases a with
  | inl c =>
    obtain ⟨r, hr, hleaf⟩ := List.any_eq_true.mp ha
    refine List.any_eq_true.mpr ⟨r, hr, ?_⟩
    simp only [countsTowards, passedWithoutMode, Bool.and_eq_true, Bool.or_eq_true] at hleaf ⊢
    obtain ⟨⟨⟨henrolled, hvariant⟩, hcourse⟩, hpassed⟩ := hleaf
    refine ⟨⟨⟨h.enrollments r henrolled, hvariant⟩, hcourse⟩, ?_⟩
    rcases hpassed with hcert | ⟨hmode, hgrade⟩
    · exact .inl (h.courseRunCertificates r hcert)
    · exact .inr ⟨hmode, h.grades r hgrade⟩
  | inr q => exact h.programCertificates q ha

/-- The requirements of `p` name `q`, whose own requirements then have to be met. -/
def RequiresProgram (cur : Curriculum) (p q : ProgramId) : Prop :=
  ∃ children, cur.requirements p = some children ∧ q ∈ programsOf children ∧
    cur.requiresPayment q = false

/-- No program requires itself, directly or through others. -/
structure AcyclicForest (cur : Curriculum) : Prop where
  listed : ∀ p children, cur.requirements p = some children → p ∈ cur.programIds
  acyclic : ∀ p, ¬Relation.TransGen (RequiresProgram cur) p p

section Growth

variable {cur : Curriculum} {P : Leaf → Prop} {p q : ProgramId}

theorem programs_subset_programsOf {ts : List ProgramRequirement} {t : ProgramRequirement}
    (ht : t ∈ ts) (hq : q ∈ t.programs) : q ∈ programsOf ts := by
  induction ts with
  | nil => cases ht
  | cons u rest ih =>
    rw [programsOf, List.mem_append]
    rcases List.mem_cons.mp ht with rfl | ht
    · exact .inl hq
    · exact .inr (ih ht)

/-- A tree in a row of threshold trees is that of a requirement. -/
theorem exists_of_toTrees {ts : List ProgramRequirement}
    {before after : List (Tree Leaf ProgramId CertificateError)}
    {t : Tree Leaf ProgramId CertificateError} (h : toTrees cur ts = before ++ t :: after) :
    ∃ u ∈ ts, t = u.toTree cur := by
  have ht : t ∈ toTrees cur ts := by
    rw [h]
    simp
  rw [toTrees_eq_map] at ht
  obtain ⟨u, hu, rfl⟩ := List.mem_map.mp ht
  exact ⟨u, hu, rfl⟩

theorem toTree_eq_all {u : ProgramRequirement}
    {trees : List (Tree Leaf ProgramId CertificateError)} (h : .all trees = u.toTree cur) :
    ∃ v children, u = .node (.operator .allOf v) children ∧ toTrees cur children = trees := by
  obtain ⟨data, children⟩ := u
  cases data with
  | course c => cases h
  | program q =>
    rw [ProgramRequirement.toTree] at h
    split at h <;> cases h
  | operator o v =>
    cases o with
    | allOf =>
      rw [ProgramRequirement.toTree] at h
      exact ⟨v, children, rfl, (Tree.all.inj h).symm⟩
    | minNumberOf => cases h
    | other w => cases h

theorem toTree_eq_atLeast {u : ProgramRequirement} {threshold : Except CertificateError ℤ}
    {trees : List (Tree Leaf ProgramId CertificateError)}
    (h : .atLeast threshold trees = u.toTree cur) :
    ∃ v children, u = .node (.operator .minNumberOf v) children ∧ toTrees cur children = trees := by
  obtain ⟨data, children⟩ := u
  cases data with
  | course c => cases h
  | program q =>
    rw [ProgramRequirement.toTree] at h
    split at h <;> cases h
  | operator o v =>
    cases o with
    | allOf => cases h
    | minNumberOf =>
      rw [ProgramRequirement.toTree] at h
      exact ⟨v, children, rfl, (Tree.atLeast.inj h).2.symm⟩
    | other w => cases h

theorem toTree_eq_ref {u : ProgramRequirement} (h : .ref q = u.toTree cur) :
    ∃ children, u = .node (.program q) children ∧ cur.requiresPayment q = false := by
  obtain ⟨data, children⟩ := u
  cases data with
  | course c => cases h
  | program q' =>
    rw [ProgramRequirement.toTree] at h
    by_cases hpay : cur.requiresPayment q' = true
    · rw [if_pos hpay] at h
      cases h
    · rw [if_neg hpay] at h
      cases h
      exact ⟨children, rfl, by simpa using hpay⟩
  | operator o v =>
    cases o with
    | allOf => cases h
    | minNumberOf => cases h
    | other w => cases h

/-- What an evaluation of `p` consults belongs to the requirements of `p`. -/
theorem exists_of_consulted {t : Tree Leaf ProgramId CertificateError}
    (h : Consulted cur.forest P p t) : ∃ children, ∃ u : ProgramRequirement,
      cur.requirements p = some children ∧ t = u.toTree cur ∧
        ∀ q ∈ u.programs, q ∈ programsOf children := by
  induction h with
  | root hroot _ =>
    rw [Curriculum.forest] at hroot
    cases hp : cur.requirements p with
    | none =>
      rw [hp] at hroot
      cases hroot
    | some children =>
      rw [hp] at hroot
      obtain ⟨u, hu, rfl⟩ := exists_of_toTrees (Except.ok.inj hroot)
      exact ⟨children, u, rfl, rfl, fun q hq => programs_subset_programsOf hu hq⟩
  | all _ _ ih =>
    obtain ⟨children, u, hp, hu, hprograms⟩ := ih
    obtain ⟨v, below, rfl, hbelow⟩ := toTree_eq_all hu
    obtain ⟨w, hw, rfl⟩ := exists_of_toTrees hbelow
    exact ⟨children, w, hp, rfl, fun q hq => hprograms q (programs_subset_programsOf hw hq)⟩
  | atLeast _ ht ih =>
    obtain ⟨children, u, hp, hu, hprograms⟩ := ih
    obtain ⟨v, below, rfl, hbelow⟩ := toTree_eq_atLeast hu
    obtain ⟨before, after, hrow⟩ := List.append_of_mem ht
    obtain ⟨w, hw, rfl⟩ := exists_of_toTrees (hbelow.trans hrow)
    exact ⟨children, w, hp, rfl, fun q hq => hprograms q (programs_subset_programsOf hw hq)⟩

theorem requiresProgram_of_requires (h : Requires cur.forest P p q) : RequiresProgram cur p q := by
  obtain ⟨children, u, hp, hu, hprograms⟩ := exists_of_consulted h
  obtain ⟨below, rfl, hpay⟩ := toTree_eq_ref hu
  exact ⟨children, hp, hprograms q List.mem_cons_self, hpay⟩

/-- Following required programs comes to an end: only finitely many programs have requirements. -/
theorem AcyclicForest.acc (h : AcyclicForest cur) (p : ProgramId) :
    Acc (fun q p => RequiresProgram cur p q) p := by
  have horder : IsStrictOrder ProgramId fun q p => Relation.TransGen (RequiresProgram cur) p q :=
    { irrefl := fun p => h.acyclic p
      trans := fun _ _ _ hqp hrq => hrq.trans hqp }
  have hfinite : {p | p ∈ cur.programIds}.Finite := List.finite_toSet cur.programIds
  have hwf := Set.wellFoundedOn_iff.mp
    (hfinite.wellFoundedOn (r := fun q p => Relation.TransGen (RequiresProgram cur) p q))
  induction p using hwf.induction with
  | _ p ih =>
    refine ⟨p, fun q hpq => ?_⟩
    obtain ⟨children, hp, _⟩ := id hpq
    by_cases hq : q ∈ cur.programIds
    · exact ih q ⟨.single hpq, hq, h.listed p children hp⟩
    · exact ⟨q, fun r hqr => by
        obtain ⟨below, hbelow, _⟩ := hqr
        exact absurd (h.listed q below hbelow) hq⟩

end Growth

/-- Over an acyclic forest, a learner who had earned the certificate of a program and gets more has
still earned it exactly if the evaluation now gets only to programs with requirements and to minimums
that are numbers. -/
theorem earned_kept_iff (cur : Curriculum) (hacyclic : AcyclicForest cur) (s t : CertificateStore)
    (user : UserId) (p : ProgramId) (hgrows : Grows s t user)
    (hearned : ∃ limit, hasEarnedProgramCert cur s user limit p = .ok true) :
    (∃ limit, hasEarnedProgramCert cur t user limit p = .ok true) ↔
      ∀ q, Relation.ReflTransGen (Requires cur.forest (hasLeaf cur t user · = true)) p q →
        (∃ children, cur.requirements q = some children) ∧
          ∀ e children, ¬Consulted cur.forest (hasLeaf cur t user · = true) q
            (.atLeast (.error e) children) := by
  rw [hasEarnedProgramCert_true_iff]
  constructor
  · rintro ⟨_, hwell⟩ q hq
    refine ⟨?_, fun e children => hwell.readable q e children hq⟩
    obtain ⟨trees, htrees⟩ := hwell.filed q hq
    cases hchildren : cur.requirements q with
    | none =>
      rw [Curriculum.forest, hchildren] at htrees
      cases htrees
    | some children => exact ⟨children, rfl⟩
  · intro hcond
    have hmeets := (hasEarnedProgramCert_true_iff.mp hearned).1
    refine ⟨hmeets.mono hgrows.has_leaf, ⟨fun q hq => ?_, fun q e children hq => ?_, ?_⟩⟩
    · obtain ⟨children, hchildren⟩ := (hcond q hq).1
      exact ⟨toTrees cur children, by rw [Curriculum.forest, hchildren]⟩
    · exact (hcond q hq).2 e children
    · exact Subrelation.accessible requiresProgram_of_requires (hacyclic.acc p)

/-- One course, or two of which the second comes with a nested minimum without a value. -/
def alternativesForm : List FormNode :=
  [.operator "min_number_of" (.text "1") [.course 1,
    .operator "all_of" .missing [.course 2, .operator "min_number_of" .missing [.course 2]]]]

/-- The learner who is enrolled in every run and has certificates for some. -/
def certifiedStore (runs : List RunId) : CertificateStore :=
  { fullStore with courseRunCertificates := fun _ r => if r ∈ runs then [⟨false, 0⟩] else [] }

theorem grows_certifiedStore {runs runs' : List RunId} {user : UserId} (h : runs ⊆ runs') :
    Grows (certifiedStore runs) (certifiedStore runs') user := by
  refine ⟨fun r hr => hr, fun r hr => ?_, fun q hq => hq, fun r hr => hr⟩
  by_cases hruns : r ∈ runs
  · simp [holdsCertificate, certifiedStore, h hruns]
  · simp [holdsCertificate, certifiedStore, hruns] at hr

theorem acyclic_alternativesForm : AcyclicForest (.ofForms fun _ => alternativesForm) := by
  have hlisted : ∀ p children, (Curriculum.ofForms fun _ => alternativesForm).requirements p =
      some children → (p = 1 ∨ p = 2) ∧ (saveAll alternativesForm).toOption = some children := by
    intro p children hp
    by_cases hkey : p = 1 ∨ p = 2
    · have hp : (if p = 1 ∨ p = 2 then (saveAll alternativesForm).toOption else none) =
        some children := hp
      rw [if_pos hkey] at hp
      exact ⟨hkey, hp⟩
    · have hp : (if p = 1 ∨ p = 2 then (saveAll alternativesForm).toOption else none) =
        some children := hp
      rw [if_neg hkey] at hp
      cases hp
  refine ⟨fun p children hp => ?_, fun p hcircle => ?_⟩
  · have hkey : p ∈ [1, 2] := by simpa using (hlisted p children hp).1
    exact hkey
  · obtain ⟨q, ⟨children, hp, hq, _⟩, _⟩ := Relation.TransGen.head'_iff.mp hcircle
    obtain rfl := Option.some.inj (hlisted p children hp).2
    cases hq

/-- The learner who has the first course and gets the second as well loses the certificate: now the
evaluation gets to the minimum without a value and raises. -/
theorem growing_learner_is_not_evaluated :
    clean alternativesForm = .ok () ∧ AcyclicForest (.ofForms fun _ => alternativesForm) ∧
      Grows (certifiedStore [1]) (certifiedStore [1, 2]) 0 ∧
      hasEarnedProgramCert (.ofForms fun _ => alternativesForm) (certifiedStore [1]) 0 1 1 = .ok true ∧
      ∀ limit, hasEarnedProgramCert (.ofForms fun _ => alternativesForm) (certifiedStore [1, 2]) 0
        limit 1 ≠ .ok true := by
  refine ⟨by decide, acyclic_alternativesForm, grows_certifiedStore (by simp), by rfl,
    fun limit h => ?_⟩
  cases limit with
  | zero => cases h
  | succ limit =>
    have hraises : hasEarnedProgramCert (.ofForms fun _ => alternativesForm) (certifiedStore [1, 2]) 0
        (limit + 1) 1 = .error .typeError := by rfl
    rw [hraises] at h
    cases h

/-- The same learner, as an instance: neither side holds. -/
theorem earned_kept_iff_example :
    (∃ limit, hasEarnedProgramCert (.ofForms fun _ => alternativesForm) (certifiedStore [1, 2]) 0
        limit 1 = .ok true) ↔
      ∀ q, Relation.ReflTransGen (Requires (Curriculum.ofForms fun _ => alternativesForm).forest
          (hasLeaf (.ofForms fun _ => alternativesForm) (certifiedStore [1, 2]) 0 · = true)) 1 q →
        (∃ children, (Curriculum.ofForms fun _ => alternativesForm).requirements q = some children) ∧
          ∀ e children, ¬Consulted (Curriculum.ofForms fun _ => alternativesForm).forest
            (hasLeaf (.ofForms fun _ => alternativesForm) (certifiedStore [1, 2]) 0 · = true) q
            (.atLeast (.error e) children) :=
  earned_kept_iff (.ofForms fun _ => alternativesForm) acyclic_alternativesForm (certifiedStore [1])
    (certifiedStore [1, 2]) 0 1 (grows_certifiedStore (by simp)) ⟨1, by rfl⟩

end MitxOnline

import MitxOnline.Courses.Proofs.CertificatesProofs
import MitxOnline.Courses.Proofs.RequirementsProofs
import MitxOnline.Lib.Paging

/-!
# The backfill of program certificates

The batches of the backfill visit the candidates once, in the order of their keys. A certificate that
is created on the way counts for the candidates after it, not for those before.
-/

namespace MitxOnline

open Threshold

/-- The program enrollment with key `i`. -/
def CertificateStore.enrollmentRow (s : CertificateStore) (i : ℕ) : ProgramEnrollmentRow :=
  s.programEnrollments.table.row i

/-- The user gets a certificate for the program when enrollment `j` of `issued` gets one. -/
def Gains (s : CertificateStore) (user : UserId) (issued : ℕ → Prop) (a : Leaf) : Prop :=
  ∃ j, issued j ∧ (s.enrollmentRow j).user = user ∧ a = .inr (s.enrollmentRow j).program

/-- What the user has, together with the certificates issued on the way. -/
def HasOrGains (cur : Curriculum) (s : CertificateStore) (user : UserId) (issued : ℕ → Prop)
    (a : Leaf) : Prop :=
  hasLeaf cur s user a = true ∨ Gains s user issued a

/-- Candidate `i` has earned its certificate with what the user has and the certificates that
candidates with smaller keys have earned so. -/
def IssuedInOrder (cur : Curriculum) (s : CertificateStore) (i : ℕ) : Prop :=
  i ∈ eligibleCandidates cur s ∧ Meets cur (HasOrGains cur s (s.enrollmentRow i).user fun j =>
    ∃ _ : j < i, IssuedInOrder cur s j) (s.enrollmentRow i).program
termination_by i

/-- No active verified enrollment in a live program has earned a certificate and has none. -/
def NoneMissing (cur : Curriculum) (s : CertificateStore) : Prop :=
  ∀ i ∈ s.programEnrollments.table.keys, (s.enrollmentRow i).enrollment.active = true →
    (s.enrollmentRow i).enrollment.enrollmentMode = .verified →
    cur.programLive (s.enrollmentRow i).program = true →
    s.programCertificates (s.enrollmentRow i).user (s.enrollmentRow i).program = [] →
      ¬∃ limit, hasEarnedProgramCert cur s (s.enrollmentRow i).user limit
        (s.enrollmentRow i).program = .ok true

section Backfill

variable {cur : Curriculum} {limit : ℕ} {now : Instant} {s s' : CertificateStore} {user : UserId}
  {i j : ℕ} {done : List ℕ} {run : CertificateStore × BackfillStats}

/-! ## Candidates -/

theorem mem_eligibleCandidates : i ∈ eligibleCandidates cur s ↔
    i ∈ s.programEnrollments.table.keys ∧ (s.enrollmentRow i).enrollment.active = true ∧
      (s.enrollmentRow i).enrollment.enrollmentMode = .verified ∧
      cur.programLive (s.enrollmentRow i).program = true ∧
      s.programCertificates (s.enrollmentRow i).user (s.enrollmentRow i).program = [] := by
  simp only [eligibleCandidates, CertificateStore.enrollmentRow, List.mem_filter, Bool.and_eq_true,
    beq_iff_eq, List.isEmpty_iff, and_assoc]

theorem noneMissing_iff : NoneMissing cur s ↔ ∀ i ∈ eligibleCandidates cur s,
    ¬∃ limit, hasEarnedProgramCert cur s (s.enrollmentRow i).user limit
      (s.enrollmentRow i).program = .ok true := by
  constructor
  · intro h i hi
    obtain ⟨hkey, hactive, hmode, hlive, hnone⟩ := mem_eligibleCandidates.mp hi
    exact h i hkey hactive hmode hlive hnone
  · intro h i hkey hactive hmode hlive hnone
    exact h i (mem_eligibleCandidates.mpr ⟨hkey, hactive, hmode, hlive, hnone⟩)

theorem eligibleCandidates_sorted (cur : Curriculum) (s : CertificateStore) :
    (eligibleCandidates cur s).Pairwise (· < ·) :=
  s.programEnrollments.table.sorted.filter _

/-- Two enrollments of one user in one program are the same. -/
theorem enrollmentRow_inj (hi : i ∈ s.programEnrollments.table.keys)
    (hj : j ∈ s.programEnrollments.table.keys)
    (huser : (s.enrollmentRow i).user = (s.enrollmentRow j).user)
    (hprogram : (s.enrollmentRow i).program = (s.enrollmentRow j).program) : i = j :=
  s.programEnrollments.unique_together i hi j hj huser hprogram

theorem issuedInOrder_candidate (h : IssuedInOrder cur s i) : i ∈ eligibleCandidates cur s := by
  rw [IssuedInOrder] at h
  exact h.1

theorem hasVerifiedEnrollment_of_candidate (h : i ∈ eligibleCandidates cur s) :
    hasVerifiedEnrollment s (s.enrollmentRow i).user (s.enrollmentRow i).program = true := by
  obtain ⟨hkey, hactive, hmode, _, _⟩ := mem_eligibleCandidates.mp h
  refine List.any_eq_true.mpr ⟨i, hkey, ?_⟩
  have hactive : (s.programEnrollments.table.row i).enrollment.active = true := hactive
  have hmode : (s.programEnrollments.table.row i).enrollment.enrollmentMode = .verified := hmode
  simp [CertificateStore.enrollmentRow, hactive, hmode]

/-! ## One candidate -/

/-- What processing candidate `i` does, by what its evaluation returns. -/
theorem processCandidate_of_candidate (run : CertificateStore × BackfillStats)
    (h : i ∈ eligibleCandidates cur run.1) :
    processCandidate cur limit now i run =
      match hasEarnedProgramCert cur run.1 (run.1.enrollmentRow i).user limit
        (run.1.enrollmentRow i).program with
      | .error _ => (run.1, { run.2 with processed := run.2.processed + 1, failed := run.2.failed + 1 })
      | .ok false => (run.1,
          { run.2 with processed := run.2.processed + 1, ineligible := run.2.ineligible + 1 })
      | .ok true => (run.1.setProgramCertificates (run.1.enrollmentRow i).user
          (run.1.enrollmentRow i).program [⟨false, now⟩],
          { run.2 with processed := run.2.processed + 1, created := run.2.created + 1 }) := by
  have hverified := hasVerifiedEnrollment_of_candidate h
  have hnone := (mem_eligibleCandidates.mp h).2.2.2.2
  simp only [CertificateStore.enrollmentRow] at hverified hnone ⊢
  simp only [processCandidate, generateProgramCertificate, hverified, hnone, Bool.true_eq_false,
    Bool.false_eq_true, and_false, if_false]
  cases hasEarnedProgramCert cur run.1 (run.1.programEnrollments.table.row i).user limit
      (run.1.programEnrollments.table.row i).program with
  | error e => rfl
  | ok b => cases b <;> rfl

theorem processCandidate_failed_le (cur : Curriculum) (limit : ℕ) (now : Instant) (i : ℕ)
    (run : CertificateStore × BackfillStats) :
    run.2.failed ≤ (processCandidate cur limit now i run).2.failed := by
  rw [processCandidate]
  split <;> simp

theorem processBatch_failed_le (cur : Curriculum) (limit : ℕ) (now : Instant) (batch : List ℕ)
    (run : CertificateStore × BackfillStats) :
    run.2.failed ≤ (processBatch cur limit now batch run).2.failed := by
  induction batch generalizing run with
  | nil => exact Nat.le_refl _
  | cons i batch ih => exact (processCandidate_failed_le cur limit now i run).trans (ih _)

theorem processCandidate_store (cur : Curriculum) (limit : ℕ) (now : Instant) (i : ℕ)
    (run : CertificateStore × BackfillStats) :
    (processCandidate cur limit now i run).1 = (generateProgramCertificate cur limit now
      (run.1.enrollmentRow i).user (run.1.enrollmentRow i).program false run.1).1 := by
  simp only [processCandidate, CertificateStore.enrollmentRow]
  split <;> simp_all only

/-! ## Batches -/

/-- A certificate for one candidate leaves the other candidates as they are. -/
theorem mem_candidates_generate {k : ℕ} (hi : i ∈ eligibleCandidates cur s) (hki : k ≠ i) :
    k ∈ eligibleCandidates cur (generateProgramCertificate cur limit now (s.enrollmentRow i).user
        (s.enrollmentRow i).program false s).1 ↔ k ∈ eligibleCandidates cur s := by
  rcases generateProgramCertificate_cases cur limit now (s.enrollmentRow i).user
      (s.enrollmentRow i).program false s with h | ⟨-, h⟩
  · rw [h]
  · rw [h, mem_eligibleCandidates, mem_eligibleCandidates]
    have hrow : ∀ j, (s.setProgramCertificates (s.enrollmentRow i).user (s.enrollmentRow i).program
        [⟨false, now⟩]).enrollmentRow j = s.enrollmentRow j := fun _ => rfl
    have hkeys : (s.setProgramCertificates (s.enrollmentRow i).user (s.enrollmentRow i).program
        [⟨false, now⟩]).programEnrollments = s.programEnrollments := rfl
    rw [hrow, hkeys]
    refine and_congr_right fun hk => ?_
    have hpair : ¬((s.enrollmentRow k).user = (s.enrollmentRow i).user ∧
        (s.enrollmentRow k).program = (s.enrollmentRow i).program) := by
      rintro ⟨huser, hprogram⟩
      exact hki (enrollmentRow_inj hk (mem_eligibleCandidates.mp hi).1 huser hprogram)
    have hsame : (s.setProgramCertificates (s.enrollmentRow i).user (s.enrollmentRow i).program
        [⟨false, now⟩]).programCertificates (s.enrollmentRow k).user (s.enrollmentRow k).program =
          s.programCertificates (s.enrollmentRow k).user (s.enrollmentRow k).program :=
      setPair_of_ne hpair
    rw [hsame]

theorem ownItemOnly_processCandidate (cur : Curriculum) (limit : ℕ) (now : Instant) :
    Paging.OwnItemOnly (fun run : CertificateStore × BackfillStats => eligibleCandidates cur run.1)
      fun run i => processCandidate cur limit now i run := by
  intro run i k hi hki
  show k ∈ eligibleCandidates cur (processCandidate cur limit now i run).1 ↔ _
  rw [processCandidate_store]
  exact mem_candidates_generate hi hki

/-- The batches are pages of the query. -/
theorem processBatches_eq_pages (batchSize fuel last : ℕ) (run : CertificateStore × BackfillStats) :
    processBatches cur limit now batchSize fuel last run =
      Paging.pages (fun run : CertificateStore × BackfillStats => eligibleCandidates cur run.1)
        (fun run i => processCandidate cur limit now i run) batchSize fuel last run := by
  induction fuel generalizing last run with
  | zero => rfl
  | succ fuel ih =>
    rw [processBatches, Paging.pages]
    unfold Paging.page
    rcases ((eligibleCandidates cur run.1).filter fun i => last < i).take batchSize with _ | ⟨i, batch⟩
    · rfl
    · exact ih _ _

variable (cur limit now) in
/-- The batches together are one pass over the candidates that are left. -/
theorem processBatches_eq_pass {batchSize : ℕ} (hsize : 0 < batchSize) (fuel last : ℕ)
    (run : CertificateStore × BackfillStats)
    (hfuel : ((eligibleCandidates cur run.1).filter fun i => last < i).length < fuel) :
    processBatches cur limit now batchSize fuel last run = some (processBatch cur limit now
      ((eligibleCandidates cur run.1).filter fun i => last < i) run) := by
  rw [processBatches_eq_pages]
  exact Paging.pages_eq_foldl (fun run => eligibleCandidates_sorted cur run.1)
    (ownItemOnly_processCandidate cur limit now) hsize fuel last run hfuel

/-- All candidates come after zero, where the loop begins. -/
theorem candidates_after_zero (cur : Curriculum) (s : CertificateStore) :
    ((eligibleCandidates cur s).filter fun i => decide (0 < i)) = eligibleCandidates cur s := by
  refine List.filter_eq_self.mpr fun i hi => ?_
  have hpos := s.programEnrollments.pos i (mem_eligibleCandidates.mp hi).1
  simpa using hpos

theorem candidates_length_le (cur : Curriculum) (s : CertificateStore) :
    (eligibleCandidates cur s).length ≤ s.programEnrollments.table.keys.length :=
  List.length_filter_le _ _

theorem generateMissing_eq_pass (cur : Curriculum) (limit : ℕ) (now : Instant) (s : CertificateStore)
    {batchSize : ℕ} (hsize : 0 < batchSize) :
    generateMissingProgramCertificates cur limit now batchSize s =
      some (processBatch cur limit now (eligibleCandidates cur s) (s, ⟨0, 0, 0, 0⟩)) := by
  have hafter := candidates_after_zero cur s
  have hlength := candidates_length_le cur s
  have hpass := processBatches_eq_pass cur limit now hsize
    (s.programEnrollments.table.keys.length + 1) 0 (s, ⟨0, 0, 0, 0⟩) (by
      show ((eligibleCandidates cur s).filter fun i => decide (0 < i)).length < _
      rw [hafter]
      omega)
  rw [hafter] at hpass
  exact hpass

/-! ## The pass -/

/-- After the candidates `done` have been visited, those issued in order have their certificate, and
nothing else has been written. -/
structure Passed (cur : Curriculum) (s : CertificateStore) (now : Instant) (done : List ℕ)
    (s' : CertificateStore) : Prop where
  frame : s' = { s with programCertificates := s'.programCertificates }
  issued : ∀ j ∈ done, IssuedInOrder cur s j →
    s'.programCertificates (s.enrollmentRow j).user (s.enrollmentRow j).program = [⟨false, now⟩]
  others : ∀ user q, (∀ j ∈ done, IssuedInOrder cur s j →
      ¬(user = (s.enrollmentRow j).user ∧ q = (s.enrollmentRow j).program)) →
    s'.programCertificates user q = s.programCertificates user q

theorem Passed.enrollmentRow (h : Passed cur s now done s') (i : ℕ) :
    s'.enrollmentRow i = s.enrollmentRow i := by
  rw [h.frame]
  rfl

theorem Passed.hasLeaf_iff (h : Passed cur s now done s') (a : Leaf) :
    hasLeaf cur s' user a = true ↔
      HasOrGains cur s user (fun j => j ∈ done ∧ IssuedInOrder cur s j) a := by
  cases a with
  | inl c =>
    have hsame : hasLeaf cur s' user (.inl c) = hasLeaf cur s user (.inl c) := by
      rw [h.frame]
      rfl
    rw [hsame]
    constructor
    · exact .inl
    · rintro (hleaf | ⟨j, _, _, hj⟩)
      · exact hleaf
      · cases hj
  | inr q =>
    by_cases hgains : ∃ j ∈ done, IssuedInOrder cur s j ∧
        user = (s.enrollmentRow j).user ∧ q = (s.enrollmentRow j).program
    · obtain ⟨j, hj, hissued, rfl, rfl⟩ := hgains
      constructor
      · intro _
        exact .inr ⟨j, ⟨hj, hissued⟩, rfl, rfl⟩
      · intro _
        simp only [hasLeaf, holdsProgramCertificate, h.issued j hj hissued]
        rfl
    · have hsame : s'.programCertificates user q = s.programCertificates user q :=
        h.others user q fun j hj hissued hpair => hgains ⟨j, hj, hissued, hpair⟩
      have hleaf : hasLeaf cur s' user (.inr q) = hasLeaf cur s user (.inr q) := by
        simp only [hasLeaf, holdsProgramCertificate, hsame]
      rw [hleaf]
      constructor
      · exact .inl
      · rintro (hleaf | ⟨j, ⟨hj, hissued⟩, huser, hprogram⟩)
        · exact hleaf
        · cases hprogram
          exact absurd ⟨j, hj, hissued, huser.symm, rfl⟩ hgains

/-- An enrollment that was not issued a certificate has those that it had. -/
theorem Passed.certificates_eq (h : Passed cur s now done s')
    (hkey : i ∈ s.programEnrollments.table.keys) (hnot : i ∉ done ∨ ¬IssuedInOrder cur s i) :
    s'.programCertificates (s.enrollmentRow i).user (s.enrollmentRow i).program =
      s.programCertificates (s.enrollmentRow i).user (s.enrollmentRow i).program := by
  refine h.others _ _ fun j hj hissued hpair => ?_
  have hkey' := (mem_eligibleCandidates.mp (issuedInOrder_candidate hissued)).1
  obtain rfl := enrollmentRow_inj hkey hkey' hpair.1 hpair.2
  rcases hnot with hnot | hnot
  · exact hnot hj
  · exact hnot hissued

/-- The candidates that are left are those that were not issued a certificate. -/
theorem Passed.mem_candidates_iff (h : Passed cur s now done s')
    (hdone : ∀ j, j ∈ eligibleCandidates cur s → j ∈ done) :
    i ∈ eligibleCandidates cur s' ↔ i ∈ eligibleCandidates cur s ∧ ¬IssuedInOrder cur s i := by
  have hkeys : s'.programEnrollments = s.programEnrollments := by rw [h.frame]
  rw [mem_eligibleCandidates, mem_eligibleCandidates, h.enrollmentRow, hkeys]
  by_cases hissued : IssuedInOrder cur s i
  · have hcertificate := h.issued i (hdone i (issuedInOrder_candidate hissued)) hissued
    simp [hcertificate, hissued]
  · by_cases hkey : i ∈ s.programEnrollments.table.keys
    · have hsame := h.certificates_eq hkey (Or.inr hissued)
      simp [hsame, hissued]
    · simp [hkey]

/-- A candidate that was not issued a certificate is one still. -/
theorem Passed.candidate (h : Passed cur s now done s') (hi : i ∈ eligibleCandidates cur s)
    (hnot : i ∉ done ∨ ¬IssuedInOrder cur s i) : i ∈ eligibleCandidates cur s' := by
  have hkeys : s'.programEnrollments = s.programEnrollments := by rw [h.frame]
  obtain ⟨hkey, hactive, hmode, hlive, hnone⟩ := mem_eligibleCandidates.mp hi
  rw [mem_eligibleCandidates, h.enrollmentRow, hkeys, h.certificates_eq hkey hnot]
  exact ⟨hkey, hactive, hmode, hlive, hnone⟩

/-- If those visited are those before `i`, the learner holds what is earned in order before `i`. -/
theorem Passed.leaves_eq (h : Passed cur s now done s')
    (hdone : ∀ j, IssuedInOrder cur s j → (j < i ↔ j ∈ done)) :
    (fun a => hasLeaf cur s' user a = true) =
      HasOrGains cur s user fun j => ∃ _ : j < i, IssuedInOrder cur s j := by
  funext a
  refine propext ((h.hasLeaf_iff a).trans (or_congr_right ?_))
  constructor
  · rintro ⟨j, ⟨hj, hissued⟩, hpair⟩
    exact ⟨j, ⟨(hdone j hissued).mpr hj, hissued⟩, hpair⟩
  · rintro ⟨j, ⟨hj, hissued⟩, hpair⟩
    exact ⟨j, ⟨(hdone j hissued).mp hj, hissued⟩, hpair⟩

/-- A candidate that has not earned a certificate is passed over. -/
theorem Passed.passOver (h : Passed cur s now done s') (hissued : ¬IssuedInOrder cur s i) :
    Passed cur s now (done ++ [i]) s' := by
  refine ⟨h.frame, fun j hj hj' => ?_, fun user q hnone => ?_⟩
  · rcases List.mem_append.mp hj with hj | hj
    · exact h.issued j hj hj'
    · exact absurd hj' (List.mem_singleton.mp hj ▸ hissued)
  · exact h.others user q fun j hj => hnone j (List.mem_append_left _ hj)

/-- A candidate that has earned a certificate is issued one. -/
theorem Passed.issue (h : Passed cur s now done s') (hissued : IssuedInOrder cur s i) :
    Passed cur s now (done ++ [i]) (s'.setProgramCertificates (s.enrollmentRow i).user
      (s.enrollmentRow i).program [⟨false, now⟩]) := by
  have hkey := (mem_eligibleCandidates.mp (issuedInOrder_candidate hissued)).1
  refine ⟨?_, fun j hj hj' => ?_, fun user q hnone => ?_⟩
  · rw [h.frame]
    rfl
  · by_cases hij : j = i
    · rw [hij]
      exact setPair_self _ _ _ _
    · have hkey' := (mem_eligibleCandidates.mp (issuedInOrder_candidate hj')).1
      have hj : j ∈ done := by simpa [hij] using hj
      have hpair : ¬((s.enrollmentRow j).user = (s.enrollmentRow i).user ∧
          (s.enrollmentRow j).program = (s.enrollmentRow i).program) := fun hpair =>
        hij (enrollmentRow_inj hkey' hkey hpair.1 hpair.2)
      exact (setPair_of_ne hpair).trans (h.issued j hj hj')
  · have hpair := hnone i (List.mem_append_right _ (List.mem_singleton_self i)) hissued
    exact (setPair_of_ne hpair).trans
      (h.others user q fun j hj => hnone j (List.mem_append_left _ hj))

/-- The next candidate: if its evaluation returns, it is issued a certificate exactly if it has earned
one in order. -/
theorem Passed.step {stats : BackfillStats} (h : Passed cur s now done s')
    (hi : i ∈ eligibleCandidates cur s)
    (hdone : ∀ j, IssuedInOrder cur s j → (j < i ↔ j ∈ done))
    (hreturns : (processCandidate cur limit now i (s', stats)).2.failed = stats.failed) :
    Passed cur s now (done ++ [i]) (processCandidate cur limit now i (s', stats)).1 := by
  have hrow := h.enrollmentRow
  have hnot : i ∉ done ∨ ¬IssuedInOrder cur s i := by
    by_cases hissued : IssuedInOrder cur s i
    · exact .inl fun hmem => absurd ((hdone i hissued).mpr hmem) (Nat.lt_irrefl i)
    · exact .inr hissued
  rw [processCandidate_of_candidate (s', stats) (h.candidate hi hnot)] at hreturns ⊢
  simp only [hrow] at hreturns ⊢
  cases heval : hasEarnedProgramCert cur s' (s.enrollmentRow i).user limit
      (s.enrollmentRow i).program with
  | error e =>
    rw [heval] at hreturns
    simp at hreturns
  | ok b =>
    have hiff : b = true ↔ IssuedInOrder cur s i := by
      rw [hasEarnedProgramCert_iff heval, h.leaves_eq hdone, IssuedInOrder]
      exact ⟨fun hmeets => ⟨hi, hmeets⟩, fun hissued => hissued.2⟩
    cases b with
    | false => exact h.passOver fun hissued => absurd (hiff.mpr hissued) (by simp)
    | true => exact h.issue (hiff.mp rfl)

/-- A pass in which no record fails issues the certificates that are earned in order. -/
theorem Passed.pass {rest : List ℕ} (hrest : done ++ rest = eligibleCandidates cur s)
    (h : Passed cur s now done run.1)
    (hreturns : (processBatch cur limit now rest run).2.failed = run.2.failed) :
    Passed cur s now (eligibleCandidates cur s) (processBatch cur limit now rest run).1 := by
  induction rest generalizing done run with
  | nil =>
    rw [List.append_nil] at hrest
    exact hrest ▸ h
  | cons i rest ih =>
    obtain ⟨s', stats⟩ := run
    have hsorted : (done ++ i :: rest).Pairwise (· < ·) := hrest ▸ eligibleCandidates_sorted cur s
    obtain ⟨-, hafter, hbefore⟩ := List.pairwise_append.mp hsorted
    have hdone : ∀ j, IssuedInOrder cur s j → (j < i ↔ j ∈ done) := by
      intro j hj
      have hmem : j ∈ done ++ i :: rest := hrest ▸ issuedInOrder_candidate hj
      constructor
      · intro hlt
        rcases List.mem_append.mp hmem with hmem | hmem
        · exact hmem
        · rcases List.mem_cons.mp hmem with rfl | hmem
          · omega
          · have hgt := (List.pairwise_cons.mp hafter).1 j hmem
            omega
      · intro hmem
        exact hbefore j hmem i List.mem_cons_self
    have hi : i ∈ eligibleCandidates cur s := hrest ▸ List.mem_append_right _ List.mem_cons_self
    have hfirst : stats.failed ≤ (processCandidate cur limit now i (s', stats)).2.failed :=
      processCandidate_failed_le cur limit now i (s', stats)
    have hlast := processBatch_failed_le cur limit now rest
      (processCandidate cur limit now i (s', stats))
    have hwhole : processBatch cur limit now (i :: rest) (s', stats) =
      processBatch cur limit now rest (processCandidate cur limit now i (s', stats)) := rfl
    rw [hwhole] at hreturns ⊢
    have hstep : (processCandidate cur limit now i (s', stats)).2.failed = stats.failed := by
      simp only at hreturns
      omega
    refine ih ?_ (h.step hi hdone hstep) (hreturns.trans hstep.symm)
    rw [List.append_assoc, List.singleton_append, hrest]

theorem Passed.start (cur : Curriculum) (s : CertificateStore) (now : Instant) :
    Passed cur s now [] s :=
  ⟨rfl, fun _ hj => absurd hj List.not_mem_nil, fun _ _ _ => rfl⟩

/-- After the pass nothing is missing exactly if every candidate that is earned with the certificates
issued is itself issued one. -/
theorem Passed.noneMissing_iff (h : Passed cur s now (eligibleCandidates cur s) s') :
    NoneMissing cur s' ↔ ∀ i ∈ eligibleCandidates cur s,
      Meets cur (HasOrGains cur s (s.enrollmentRow i).user (IssuedInOrder cur s))
        (s.enrollmentRow i).program →
      WellFormed cur.forest (HasOrGains cur s (s.enrollmentRow i).user (IssuedInOrder cur s))
        (s.enrollmentRow i).program → IssuedInOrder cur s i := by
  have hleaf : ∀ user, (fun a => hasLeaf cur s' user a = true) =
      HasOrGains cur s user (IssuedInOrder cur s) := by
    intro user
    funext a
    refine propext ((h.hasLeaf_iff a).trans (or_congr_right ?_))
    constructor
    · rintro ⟨j, ⟨_, hissued⟩, hpair⟩
      exact ⟨j, hissued, hpair⟩
    · rintro ⟨j, hissued, hpair⟩
      exact ⟨j, ⟨issuedInOrder_candidate hissued, hissued⟩, hpair⟩
  rw [MitxOnline.noneMissing_iff]
  simp only [h.enrollmentRow, hasEarnedProgramCert_true_iff, hleaf]
  constructor
  · intro hnone i hi hmeets hwell
    by_contra hissued
    exact hnone i ((h.mem_candidates_iff fun j hj => hj).mpr ⟨hi, hissued⟩) ⟨hmeets, hwell⟩
  · rintro hall i hi ⟨hmeets, hwell⟩
    obtain ⟨hcandidate, hissued⟩ := (h.mem_candidates_iff fun j hj => hj).mp hi
    exact hissued (hall i hcandidate hmeets hwell)

end Backfill

/-- The backfill comes to an end. If no record failed, it has reached its fixpoint exactly if every
candidate that is earned with the certificates issued in the order of the keys is earned with those of
smaller keys. Batches of size zero visit no candidate. -/
theorem backfill_fixpoint_iff (cur : Curriculum) (limit : ℕ) (now : Instant) (batchSize : ℕ)
    (s : CertificateStore) :
    ∃ s' stats, generateMissingProgramCertificates cur limit now batchSize s = some (s', stats) ∧
      (stats.failed = 0 → (NoneMissing cur s' ↔
        (batchSize = 0 → NoneMissing cur s) ∧
        (0 < batchSize → ∀ i ∈ eligibleCandidates cur s,
          Meets cur (HasOrGains cur s (s.enrollmentRow i).user (IssuedInOrder cur s))
            (s.enrollmentRow i).program →
          WellFormed cur.forest (HasOrGains cur s (s.enrollmentRow i).user (IssuedInOrder cur s))
            (s.enrollmentRow i).program → IssuedInOrder cur s i))) := by
  rcases Nat.eq_zero_or_pos batchSize with rfl | hsize
  · refine ⟨s, ⟨0, 0, 0, 0⟩, ?_, fun _ => ?_⟩
    · rw [generateMissingProgramCertificates, processBatches, List.take_zero]
    · simp
  · have hpass := generateMissing_eq_pass cur limit now s hsize
    rcases hrun : processBatch cur limit now (eligibleCandidates cur s) (s, ⟨0, 0, 0, 0⟩) with
      ⟨s', stats⟩
    rw [hrun] at hpass
    refine ⟨s', stats, hpass, fun hfailed => ?_⟩
    have hpassed : Passed cur s now (eligibleCandidates cur s) (processBatch cur limit now
        (eligibleCandidates cur s) (s, ⟨0, 0, 0, 0⟩)).1 :=
      Passed.pass (List.nil_append _) (Passed.start cur s now) (by rw [hrun]; exact hfailed)
    rw [hrun] at hpassed
    rw [hpassed.noneMissing_iff]
    have hpos : batchSize ≠ 0 := Nat.pos_iff_ne_zero.mp hsize
    simp [hsize, hpos]

/-- A program that requires another, which requires a course; both require a payment. -/
def chainCurriculum : Curriculum :=
  { Curriculum.ofRequirements fun p =>
      if p = 1 then some [.node (.operator .allOf none) [.node (.program 2) []]]
      else if p = 2 then some [.node (.operator .allOf none) [.node (.course 1) []]]
      else none with
    requiresPayment := fun _ => true }

theorem chain_sorted : [1, 2].Pairwise (· < ·) := by simp

theorem chain_pos : ∀ i ∈ [1, 2], 0 < i := by simp

/-- A user with a certificate for the course who enrolled in program 1 first and then in program 2. -/
def chainStore : CertificateStore :=
  { CertificateStore.empty with
    enrollments := fun _ _ => some ⟨true, none, true, .verified⟩
    programEnrollments :=
      { table := ⟨[1, 2], fun i => ⟨0, i, ⟨true, none, .verified⟩⟩, chain_sorted⟩
        pos := chain_pos
        unique_together := fun _ _ _ _ _ h => h }
    courseRunCertificates := fun _ _ => [⟨false, 0⟩] }

/-- The user is first refused the certificate of program 1 and then issued that of program 2, with
which they have earned the other. -/
theorem backfill_misses_earned_certificate :
    ∃ s' stats, generateMissingProgramCertificates chainCurriculum 2 0 500 chainStore =
      some (s', stats) ∧ stats.failed = 0 ∧ ¬NoneMissing chainCurriculum s' := by
  refine ⟨_, _, rfl, rfl, fun h => ?_⟩
  have hkey : 1 ∈ [1, 2] := List.mem_cons_self
  exact h 1 hkey rfl rfl rfl rfl ⟨2, rfl⟩

end MitxOnline

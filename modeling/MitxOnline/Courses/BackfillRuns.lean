import MitxOnline.Courses.Certificates
import MitxOnline.Lib.Paging
import MitxOnline.Courses.Proofs.BackfillProofs

/-!
# Runs of the backfill (`courses/api.py`)

What follows a new certificate can raise: the user is synced with Hubspot after the row is written, and the
row stays. A run records which enrollments it evaluates.
-/

namespace MitxOnline

/-- What a run of the backfill has left and counted; `evaluated` lists its calls. -/
structure BackfillRun where
  store : CertificateStore
  stats : BackfillStats
  evaluated : List ℕ

/-- `generate_program_certificate`, with the exception of what it calls for a new certificate. -/
def generateAndSync (cur : Curriculum) (limit : ℕ) (now : Instant)
    (syncError : UserId → ProgramId → Option CertificateError) (user : UserId) (p : ProgramId)
    (s : CertificateStore) : CertificateStore × Except CertificateError Bool :=
  match generateProgramCertificate cur limit now user p false s with
  | (s, .ok true) =>
    match syncError user p with
    | none => (s, .ok true)
    | some e => (s, .error e)
  | result => result

/-- The body of the loop over a batch. -/
def BackfillRun.evaluate (cur : Curriculum) (limit : ℕ) (now : Instant)
    (syncError : UserId → ProgramId → Option CertificateError) (run : BackfillRun) (i : ℕ) : BackfillRun :=
  let row := run.store.programEnrollments.table.row i
  let stats := { run.stats with processed := run.stats.processed + 1 }
  let evaluated := run.evaluated ++ [i]
  match generateAndSync cur limit now syncError row.user row.program run.store with
  | (store, .ok true) => { store, evaluated, stats := { stats with created := stats.created + 1 } }
  | (store, .ok false) => { store, evaluated, stats := { stats with ineligible := stats.ineligible + 1 } }
  | (store, .error _) => { store, evaluated, stats := { stats with failed := stats.failed + 1 } }

/-- `generate_missing_program_certificates`: the candidates are paged by the id of the last one, and the
query is asked again for each batch. -/
def generateMissingAndSync (cur : Curriculum) (limit : ℕ) (now : Instant)
    (syncError : UserId → ProgramId → Option CertificateError) (batchSize : ℕ) (s : CertificateStore) :
    Option BackfillRun :=
  Paging.pages (fun run : BackfillRun => eligibleCandidates cur run.store)
    (BackfillRun.evaluate cur limit now syncError) batchSize
    (s.programEnrollments.table.keys.length + 1) 0 ⟨s, ⟨0, 0, 0, 0⟩, []⟩

/-!
## The batch size of the backfill does not matter

Whatever raises and whatever is created on the way, the batches are pages of a query in which a round changes
its own candidate only, so they are one pass over the candidates of the beginning.
-/

variable {cur : Curriculum} {limit : ℕ} {now : Instant}
  {syncError : UserId → ProgramId → Option CertificateError} {s : CertificateStore} {user : UserId}
  {p : ProgramId} {run : BackfillRun} {i : ℕ}

/-! ## One candidate -/

variable (syncError) in
/-- The sync writes nothing. -/
theorem generateAndSync_store : (generateAndSync cur limit now syncError user p s).1 =
    (generateProgramCertificate cur limit now user p false s).1 := by
  unfold generateAndSync
  rcases generateProgramCertificate cur limit now user p false s with ⟨s', e | _ | _⟩
  · rfl
  · rfl
  · dsimp only
    rcases syncError user p with _ | e
    · rfl
    · rfl

theorem evaluate_store : (run.evaluate cur limit now syncError i).store =
    (generateProgramCertificate cur limit now (run.store.enrollmentRow i).user
      (run.store.enrollmentRow i).program false run.store).1 := by
  unfold BackfillRun.evaluate
  rw [← generateAndSync_store syncError]
  dsimp only [CertificateStore.enrollmentRow]
  split <;> simp_all only

theorem evaluate_evaluated :
    (run.evaluate cur limit now syncError i).evaluated = run.evaluated ++ [i] := by
  unfold BackfillRun.evaluate
  dsimp only
  split <;> rfl

/-- The counters add up, and every evaluation is counted. -/
structure Counted (run : BackfillRun) : Prop where
  sum : run.stats.processed = run.stats.created + run.stats.ineligible + run.stats.failed
  processed : run.stats.processed = run.evaluated.length

theorem Counted.evaluate (h : Counted run) : Counted (run.evaluate cur limit now syncError i) := by
  have hsum := h.sum
  have hprocessed := h.processed
  constructor
  · unfold BackfillRun.evaluate
    dsimp only
    split <;> (dsimp only; omega)
  · rw [evaluate_evaluated, List.length_append, List.length_singleton, ← hprocessed]
    unfold BackfillRun.evaluate
    dsimp only
    split <;> rfl

/-! ## The pass -/

theorem ownItemOnly_evaluate (cur : Curriculum) (limit : ℕ) (now : Instant)
    (syncError : UserId → ProgramId → Option CertificateError) :
    Paging.OwnItemOnly (fun run : BackfillRun => eligibleCandidates cur run.store)
      (BackfillRun.evaluate cur limit now syncError) := by
  intro run i k hi hki
  show k ∈ eligibleCandidates cur (run.evaluate cur limit now syncError i).store ↔ _
  rw [evaluate_store]
  exact mem_candidates_generate hi hki

theorem foldl_evaluate_evaluated (candidates : List ℕ) (run : BackfillRun) :
    (candidates.foldl (BackfillRun.evaluate cur limit now syncError) run).evaluated =
      run.evaluated ++ candidates := by
  induction candidates generalizing run with
  | nil => simp
  | cons i rest ih =>
    rw [List.foldl_cons, ih, evaluate_evaluated, List.append_assoc, List.singleton_append]

theorem foldl_evaluate_counted (candidates : List ℕ) (h : Counted run) :
    Counted (candidates.foldl (BackfillRun.evaluate cur limit now syncError) run) := by
  induction candidates generalizing run with
  | nil => exact h
  | cons i rest ih => exact ih h.evaluate

variable (cur limit now syncError s) in
/-- For every size of at least one, the loop ends, and it is one pass. -/
theorem generateMissingAndSync_eq_pass {batchSize : ℕ} (hsize : 1 ≤ batchSize) :
    generateMissingAndSync cur limit now syncError batchSize s =
      some ((eligibleCandidates cur s).foldl (BackfillRun.evaluate cur limit now syncError)
        ⟨s, ⟨0, 0, 0, 0⟩, []⟩) := by
  have hafter := candidates_after_zero cur s
  have hlength := candidates_length_le cur s
  have hpages := Paging.pages_eq_foldl (fun run : BackfillRun => eligibleCandidates_sorted cur run.store)
    (ownItemOnly_evaluate cur limit now syncError) hsize (s.programEnrollments.table.keys.length + 1) 0
    ⟨s, ⟨0, 0, 0, 0⟩, []⟩ (by
      show ((eligibleCandidates cur s).filter fun i => decide (0 < i)).length < _
      rw [hafter]
      omega)
  rw [hafter] at hpages
  exact hpages

/-- The backfill ends with the same certificates and the same counters for every batch size of at least one;
it evaluates every candidate once and nothing else, and its counters add up. -/
theorem backfill_batchSize (cur : Curriculum) (limit : ℕ) (now : Instant)
    (syncError : UserId → ProgramId → Option CertificateError) (s : CertificateStore) :
    ∃ run : BackfillRun,
      (∀ batchSize, 1 ≤ batchSize →
        generateMissingAndSync cur limit now syncError batchSize s = some run) ∧
      (∀ i, run.evaluated.count i = if i ∈ eligibleCandidates cur s then 1 else 0) ∧
      run.stats.processed = run.stats.created + run.stats.ineligible + run.stats.failed := by
  refine ⟨_, fun batchSize hsize => generateMissingAndSync_eq_pass cur limit now syncError s hsize, ?_,
    (foldl_evaluate_counted _ ⟨rfl, rfl⟩).sum⟩
  intro i
  have hnodup : (eligibleCandidates cur s).Nodup := (eligibleCandidates_sorted cur s).nodup
  rw [foldl_evaluate_evaluated, List.nil_append]
  split_ifs with hi
  · exact List.count_eq_one_of_mem hnodup hi
  · exact List.count_eq_zero_of_not_mem hi

/-- Where no sync raises, the run is that of `generateMissingProgramCertificates`. -/
theorem generateMissingAndSync_noErrors {batchSize : ℕ} (hsize : 1 ≤ batchSize) :
    (generateMissingAndSync cur limit now (fun _ _ => none) batchSize s).map
        (fun run => (run.store, run.stats)) =
      generateMissingProgramCertificates cur limit now batchSize s := by
  have hstep : ∀ (run : BackfillRun) i,
      ((run.evaluate cur limit now (fun _ _ => none) i).store,
        (run.evaluate cur limit now (fun _ _ => none) i).stats) =
        processCandidate cur limit now i (run.store, run.stats) := by
    intro run i
    unfold BackfillRun.evaluate processCandidate generateAndSync
    dsimp only
    rcases generateProgramCertificate cur limit now (run.store.programEnrollments.table.row i).user
      (run.store.programEnrollments.table.row i).program false run.store with ⟨s', e | _ | _⟩
    · rfl
    · rfl
    · rfl
  have hpass : ∀ (candidates : List ℕ) (run : BackfillRun),
      ((candidates.foldl (BackfillRun.evaluate cur limit now fun _ _ => none) run).store,
        (candidates.foldl (BackfillRun.evaluate cur limit now fun _ _ => none) run).stats) =
        processBatch cur limit now candidates (run.store, run.stats) := by
    intro candidates
    induction candidates with
    | nil => exact fun run => rfl
    | cons i rest ih =>
      intro run
      rw [List.foldl_cons, ih, hstep]
      rfl
  rw [generateMissing_eq_pass cur limit now s hsize, generateMissingAndSync_eq_pass cur limit now _ s hsize,
    Option.map_some, hpass]

end MitxOnline

import MitxOnline.Courses.Proofs.EnrollmentMigrationBatchesProofs

/-!
# When runs of the migration are exact

From what a batch does to what any number of runs do, each of which may be interrupted.
-/

namespace MitxOnline

open Autocommit

variable {cat : MigrationCatalog} {run : MigrationRun} {row : MigratedRow} {s : Store}

/-! ## One run -/

/-- The steps of a run over batches. -/
def batchSteps (cat : MigrationCatalog) (run : MigrationRun) (batches : List (List MigratedRow × ℕ)) :
    List MigrationStep :=
  batches.map fun b => migrateEnrollmentBatch cat (run.faults b.2) b.1

theorem migrateEnrollments_eq (h : run.dryRun = false) :
    migrateEnrollments cat run = seq (batchSteps cat run run.batches) := by
  unfold migrateEnrollments
  rw [if_neg (by simp [h])]
  rfl

/-- The condition on a run: rows are read, and every batch that it comes to meets its condition. -/
structure RunMeets (cat : MigrationCatalog) (run : MigrationRun) (s : Store) : Prop where
  size : run.batchSize ≠ 0
  batches : ∀ before b after t, run.batches = before ++ b :: after →
    seq (batchSteps cat run before) ⟨s, []⟩ = ⟨t, none⟩ → BatchMeets cat (run.faults b.2) b.1 t

theorem keeps_goes_migrateEnrollments (cat : MigrationCatalog) (run : MigrationRun) :
    Keeps Goes (migrateEnrollments cat run) := by
  unfold migrateEnrollments
  split
  · exact keeps_skip isFrame_goes
  · refine keeps_seq isFrame_goes fun a ha => ?_
    obtain ⟨b, -, rfl⟩ := List.mem_map.mp ha
    exact keeps_goes_migrateBatch cat _ b.1

/-- A run that meets the condition is exact, wherever it ends. -/
theorem RunMeets.migratesExactly (h : RunMeets cat run s) :
    MigratesExactly s (migrateEnrollments cat run ⟨s, []⟩).state.store := by
  cases hdry : run.dryRun with
  | true =>
    have hskip : migrateEnrollments cat run ⟨s, []⟩ = ⟨⟨s, []⟩, none⟩ := by
      unfold migrateEnrollments
      rw [if_pos hdry]
      rfl
    rw [hskip]
    exact isFrame_migratesExactly.refl s
  | false =>
    rw [migrateEnrollments_eq hdry]
    refine seq_map_of_reached (s := ⟨s, []⟩) isFrame_migration fun before b after hbatches herror => ?_
    exact (h.batches before b after _ hbatches (by rw [← herror]; rfl)).migratesExactly

/-- The run goes to its end and does not fail on the row, which is verified and can be resolved. -/
structure CompletesWith (cat : MigrationCatalog) (run : MigrationRun) (s : Store) (row : MigratedRow) :
    Prop where
  mem : row ∈ run.rows
  verified : row.source.isVerified = true
  resolves : (cat.resolve row.source).isSome = true
  writes : run.dryRun = false
  returns : (migrateEnrollments cat run ⟨s, []⟩).error = none
  passed : .failed row.source ∉ (migrateEnrollments cat run ⟨s, []⟩).state.log

theorem mem_batches (hsize : run.batchSize ≠ 0) (h : row ∈ run.rows) :
    ∃ b ∈ run.batches, row ∈ b.1 := by
  rw [← fetchBatches_flatten hsize run.rows] at h
  obtain ⟨rows, hrows, hrow⟩ := List.mem_flatten.mp h
  obtain ⟨i, hi⟩ := List.mem_iff_getElem?.mp hrows
  exact ⟨(rows, i), List.mk_mem_zipIdx_iff_getElem?.mpr hi, hrow⟩

/-- A batch that returns leaves a verified row that can be resolved with a fulfilled order, or writes that it
failed. -/
theorem BatchMeets.completes {f : BatchFaults} {rows : List MigratedRow} {m : Migration}
    (h : BatchMeets cat f rows m) (hreturns : (migrateEnrollmentBatch cat f rows m).error = none)
    (hrow : row ∈ verifiedRows rows) (hresolves : (cat.resolve row.source).isSome = true) :
    .failed row.source ∈ (migrateEnrollmentBatch cat f rows m).state.log ∨
      0 < (migrateEnrollmentBatch cat f rows m).state.store.ordersFor row.source.user
        row.source.courserun := by
  obtain ⟨t, hreached, hround⟩ := reaches_of_returns hreturns hrow
  have hgoes := hreached.goes
  by_cases hnew : m.store.ordersFor row.source.user row.source.courserun = 0
  · have hpair : row.source.pair ∉ batchPairs rows m.store :=
      (not_mem_batchPairs hreached.mem).mpr hnew
    obtain ⟨⟨p, discount⟩, hsome⟩ := Option.isSome_iff_exists.mp hresolves
    rcases migrateRow_returns hround hpair hsome with horders | hfailed
    · exact Or.inr (h.ordered hreached horders hnew)
    · exact Or.inl (hgoes.log hfailed)
  · right
    have hkept := (keeps_goes_migrateBatch cat f rows m).orders.count_le row.source.user row.source.courserun
    omega

/-- A run that completes with a row leaves its pair with a fulfilled order. -/
theorem RunMeets.completes (h : RunMeets cat run s) (hrow : CompletesWith cat run s row) :
    0 < (migrateEnrollments cat run ⟨s, []⟩).state.store.ordersFor row.source.user
      row.source.courserun := by
  obtain ⟨b, hb, hmem⟩ := mem_batches h.size hrow.mem
  obtain ⟨before, after, hbatches⟩ := List.append_of_mem hb
  have hreturns := hrow.returns
  have hpassed := hrow.passed
  have hrun : migrateEnrollments cat run =
      seq (batchSteps cat run before ++ migrateEnrollmentBatch cat (run.faults b.2) b.1 ::
        batchSteps cat run after) := by
    rw [migrateEnrollments_eq hrow.writes, hbatches]
    unfold batchSteps
    rw [List.map_append, List.map_cons]
  rw [hrun] at hreturns hpassed ⊢
  have hbefore := seq_append_error hreturns
  rw [seq_append, andThen_of_ok hbefore] at hreturns hpassed ⊢
  have hbatch := h.batches before b after _ hbatches (by rw [← hbefore])
  have hverified : row ∈ verifiedRows b.1 := List.mem_filter.mpr ⟨hmem, hrow.verified⟩
  have hafter : Keeps Goes (seq (batchSteps cat run after)) := by
    refine keeps_seq isFrame_goes fun a ha => ?_
    obtain ⟨b', -, rfl⟩ := List.mem_map.mp ha
    exact keeps_goes_migrateBatch cat _ b'.1
  have hgoes := seq_cons_after isFrame_goes hafter (seq (batchSteps cat run before) ⟨s, []⟩).state
    (a := migrateEnrollmentBatch cat (run.faults b.2) b.1)
  rcases hbatch.completes (seq_cons_error hreturns).1 hverified hrow.resolves with hfailed | hpos
  · exact absurd (hgoes.log hfailed) hpassed
  · exact hpos.trans_le (hgoes.orders.count_le _ _)

/-! ## Any number of runs -/

/-- The runs are exact, and the pair of a row that a run completes with ends with one fulfilled order, or with
those that it had before. -/
structure MigrationExact (cat : MigrationCatalog) (runs : List MigrationRun) (s : Store) : Prop where
  exactly : MigratesExactly s (migrateRuns cat runs s)
  ordered : ∀ before run after row, runs = before ++ run :: after →
    CompletesWith cat run (migrateRuns cat before s) row →
      (migrateRuns cat runs s).ordersFor row.source.user row.source.courserun =
        max (s.ordersFor row.source.user row.source.courserun) 1

theorem migrateRuns_append (cat : MigrationCatalog) (before after : List MigrationRun) (s : Store) :
    migrateRuns cat (before ++ after) s = migrateRuns cat after (migrateRuns cat before s) :=
  List.foldl_append

theorem migrateRuns_kept (cat : MigrationCatalog) (runs : List MigrationRun) (s : Store) :
    FulfilledKept s (migrateRuns cat runs s) := by
  induction runs generalizing s with
  | nil => exact isFrame_fulfilledKept.refl s
  | cons run rest ih =>
    have hfirst := (keeps_goes_migrateEnrollments cat run ⟨s, []⟩).orders
    exact isFrame_fulfilledKept.trans _ _ _ hfirst (ih _)

theorem migrateRuns_migratesExactly (runs : List MigrationRun) (s : Store)
    (h : ∀ before run after, runs = before ++ run :: after → RunMeets cat run (migrateRuns cat before s)) :
    MigratesExactly s (migrateRuns cat runs s) := by
  induction runs generalizing s with
  | nil => exact isFrame_migratesExactly.refl s
  | cons run rest ih =>
    have hfirst := (h [] run rest rfl).migratesExactly
    refine isFrame_migratesExactly.trans _ _ _ hfirst (ih _ fun before run' after hrest => ?_)
    have hnext := h (run :: before) run' after (by rw [hrest, List.cons_append])
    exact hnext

/-- Runs whose batches all meet the condition are exact, however often they are interrupted and whichever of
their orders fail. -/
theorem migrateRuns_exact_of_meets (cat : MigrationCatalog) (runs : List MigrationRun) (s : Store)
    (h : ∀ before run after, runs = before ++ run :: after → RunMeets cat run (migrateRuns cat before s)) :
    MigrationExact cat runs s := by
  have hexactly := migrateRuns_migratesExactly runs s h
  refine ⟨hexactly, fun before run after row hruns hrow => ?_⟩
  have hpos := (h before run after hruns).completes hrow
  have hfinal : migrateRuns cat runs s = migrateRuns cat after
      (migrateEnrollments cat run ⟨migrateRuns cat before s, []⟩).state.store := by
    rw [hruns, migrateRuns_append]
    rfl
  have hkept := (migrateRuns_kept cat after
    (migrateEnrollments cat run ⟨migrateRuns cat before s, []⟩).state.store).count_le
      row.source.user row.source.courserun
  rw [← hfinal] at hkept
  have hmost := hexactly.orders row.source.user row.source.courserun
  have hleast := hexactly.kept row.source.user row.source.courserun
  omega

/-! ## A user and a run -/

/-- Products that sell the run of the same number for free. -/
def freeRuns : MigrationCatalog :=
  { Catalog.ofPrices fun _ => ⟨0⟩ with
    isUser := fun _ => true
    isCourseRun := fun _ => true
    isProduct := fun _ => true
    isDiscount := fun _ => false
    version := fun v => some (some v)
    defaultGateway := .stripe }

/-- A verified row of which nothing fails. -/
def smoothRow : MigratedRow where
  source := ⟨7, 1, some .verified, some 1, none⟩
  now := 0
  interrupted := false
  lookup := none
  create := none
  faults := Faults.none

/-- A run of one batch. -/
def runOf (rows : List MigratedRow) (f : BatchFaults) : MigrationRun := ⟨rows, 1000, false, fun _ => f⟩

theorem runOf_batches (f : BatchFaults) {rows : List MigratedRow} (h : rows.length < 1000) :
    (runOf (row :: rows) f).batches = [(row :: rows, 0)] := by
  have htake : (row :: rows).take 1000 = row :: rows :=
    List.take_of_length_le (by rw [List.length_cons]; omega)
  have hdrop : rows.drop 999 = [] := List.drop_eq_nil_of_le (by omega)
  unfold MigrationRun.batches runOf
  dsimp only
  rw [fetchBatches, if_neg (by decide), htake, hdrop, fetchBatches]
  rfl

theorem migrateRuns_runOf (f : BatchFaults) {rows : List MigratedRow} (h : rows.length < 1000) :
    migrateRuns cat [runOf (row :: rows) f] s =
      (migrateEnrollmentBatch cat f (row :: rows) ⟨s, []⟩).state.store := by
  show (migrateEnrollments cat (runOf (row :: rows) f) ⟨s, []⟩).state.store = _
  rw [migrateEnrollments_eq rfl, runOf_batches f h]
  show (seq [migrateEnrollmentBatch cat f (row :: rows)] ⟨s, []⟩).state.store = _
  rw [seq_singleton]

/-- Without orders none is used again. -/
theorem startingOrder_of_no_orders {c : Catalog} {products : List ProductId} {user : UserId}
    {gatewayType : GatewayType} (h : s.orders.keys = []) :
    startingOrder c s products user gatewayType = Order.new user gatewayType := by
  unfold startingOrder
  cases hsome : reusedOrder c s products user gatewayType with
  | none => rfl
  | some o =>
    have hmem := (reusedOrder_spec hsome).1
    rw [h] at hmem
    exact absurd hmem List.not_mem_nil

/-- The one verified row of a batch is reached with the orders that the batch began with. -/
theorem Reaches.orders_of_single {f : BatchFaults} {rows : List MigratedRow} {m t : Migration}
    (hsingle : verifiedRows rows = [row]) (h : Reaches cat f rows m row t) :
    OrdersKept m.store t.store := by
  obtain ⟨before, after, hrows, hbefore⟩ := h
  obtain ⟨t', hprepared, ⟨e, hends⟩ | hloop⟩ := migrateBatchUpTo_cases cat f rows m
  · rw [hends] at hbefore
    cases hbefore
  · cases before with
    | nil =>
      rw [hloop] at hbefore
      have hsame : t' = t := congrArg Outcome.state hbefore
      exact hsame ▸ hprepared.orders
    | cons first rest =>
      have hlength := congrArg List.length (hsingle.symm.trans hrows)
      simp at hlength

/-- Where there are no orders, the row makes a safe one. -/
theorem batchMeets_smoothRow {m : Migration} (f : BatchFaults) (hkeys : m.store.orders.keys = [])
    (hmode : m.store.storedMode 7 1 = none) : BatchMeets freeRuns f [smoothRow] m := by
  constructor
  · rintro row t hreached - p discount horders
    obtain rfl := List.mem_singleton.mp hreached.mem
    have hresolves : freeRuns.resolve smoothRow.source = some (1, none) := by decide
    obtain ⟨rfl, -⟩ := Prod.mk.inj (Option.some.inj (hresolves.symm.trans horders.resolves))
    have hnone : t.store.orders.keys = [] := by
      rw [hreached.orders_of_single rfl]
      exact hkeys
    refine ⟨rfl, rfl, ?_, fun l hl => ?_⟩
    · unfold Store.ordersFor Table.count
      rw [hnone]
      rfl
    · have hl' : l ∈ (startingOrder freeRuns.toCatalog t.store [1] 7 .stripe).lines.rows := hl
      rw [startingOrder_of_no_orders hnone] at hl'
      exact absurd hl' List.not_mem_nil
  · rintro user r ⟨-, row, hrow, hpair, mode, hstored, -⟩
    obtain rfl := List.mem_singleton.mp hrow
    obtain ⟨rfl, rfl⟩ := Prod.mk.inj hpair
    have hsame : some mode = none := hstored.symm.trans hmode
    cases hsame

theorem runMeets_smoothRow (f : BatchFaults) (hkeys : s.orders.keys = [])
    (hmode : s.storedMode 7 1 = none) : RunMeets freeRuns (runOf [smoothRow] f) s := by
  refine ⟨Nat.succ_ne_zero 999, fun before b after t hbatches hreached => ?_⟩
  rw [runOf_batches f (by decide)] at hbatches
  cases before with
  | nil =>
    cases hbatches
    have hstart : (⟨s, []⟩ : Migration) = t := congrArg Outcome.state hreached
    rw [← hstart]
    exact batchMeets_smoothRow f hkeys hmode
  | cons first rest =>
    have hlength := congrArg List.length hbatches
    simp at hlength

/-- A run that is interrupted before its order, and one that is not. -/
theorem migrateRuns_exact_interrupted : MigrationExact freeRuns
    [runOf [smoothRow] ⟨none, none, some .failure⟩, runOf [smoothRow] ⟨none, none, none⟩] Store.empty := by
  refine migrateRuns_exact_of_meets freeRuns _ Store.empty fun before run after hruns => ?_
  rcases before with _ | ⟨first, _ | ⟨second, rest⟩⟩
  · cases hruns
    exact runMeets_smoothRow _ rfl rfl
  · cases hruns
    rw [migrateRuns_runOf _ (by decide)]
    exact runMeets_smoothRow _ (by decide +kernel) (by decide +kernel)
  · have hlength := congrArg List.length hruns
    simp at hlength

/-- A row that is twice in a batch gets two orders. -/
theorem repeated_row_orders_twice : ¬ ∀ (cat : MigrationCatalog) (runs : List MigrationRun) (s : Store),
    MigrationExact cat runs s := by
  intro h
  have horders := (h freeRuns [runOf [smoothRow, smoothRow] ⟨none, none, none⟩]
    Store.empty).exactly.orders 7 1
  rw [migrateRuns_runOf _ (by decide)] at horders
  revert horders
  decide +kernel

end MitxOnline

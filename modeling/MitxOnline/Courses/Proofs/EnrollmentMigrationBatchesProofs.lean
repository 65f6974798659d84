import MitxOnline.Courses.Proofs.EnrollmentMigrationProofs

/-!
# When a batch of the migration is exact

The orders and modes of a batch are looked up before it writes any. So a row may get an order that an earlier row
of the batch has got, and an enrollment may be verified whose order fails. Where neither happens the batch is
exact, wherever it ends.
-/

namespace MitxOnline

open Autocommit

variable {cat : MigrationCatalog} {f : BatchFaults} {row : MigratedRow} {rows : List MigratedRow}
  {m : Migration} {user : UserId} {r : RunId} {s s' : Store}

/-! ## Rows -/

/-- The row is not passed over and its objects are there: an order for the product is made. -/
structure MigratedRow.Resolves (cat : MigrationCatalog) (row : MigratedRow) (p : ProductId)
    (discount : Option DiscountId) : Prop where
  reached : row.interrupted = false
  lookup : row.lookup = none
  resolves : cat.resolve row.source = some (p, discount)

/-- The row resolves, and its transaction does not fail. -/
structure MigratedRow.Orders (cat : MigrationCatalog) (row : MigratedRow) (p : ProductId)
    (discount : Option DiscountId) (s : Store) : Prop extends row.Resolves cat p discount where
  returns : (row.createOrder cat p discount s).error = none

theorem migrateOrder_of_ok {p : ProductId} {discount : Option DiscountId}
    (h : (row.createOrder cat p discount m.store).error = none) :
    row.migrateOrder cat p discount m =
      ⟨{ m with store := (row.createOrder cat p discount m.store).state }, none⟩ := by
  unfold MigratedRow.migrateOrder
  rw [atomic_of_ok h]

theorem migrateOrder_of_error {p : ProductId} {discount : Option DiscountId} {e : Error}
    (h : (row.createOrder cat p discount m.store).error = some e) :
    row.migrateOrder cat p discount m = writeOut (.failed row.source) m := by
  unfold MigratedRow.migrateOrder
  rw [atomic_of_error h]

/-- A round writes its order or leaves the database as it was. -/
theorem migrateRow_cases (cat : MigrationCatalog) (existing : List (UserId × RunId)) (row : MigratedRow)
    (m : Migration) :
    ((migrateRow cat existing row m).state.store = m.store ∧
      m.log ⊆ (migrateRow cat existing row m).state.log) ∨
    (row.source.pair ∉ existing ∧ ∃ p discount, row.Orders cat p discount m.store ∧
      migrateRow cat existing row m =
        ⟨{ m with store := (row.createOrder cat p discount m.store).state }, none⟩) := by
  have hwrite : ∀ message, (writeOut message m).state.store = m.store ∧
      m.log ⊆ (writeOut message m).state.log := fun _ => ⟨rfl, List.subset_append_left _ _⟩
  unfold migrateRow
  split
  · exact Or.inl ⟨rfl, List.Subset.refl _⟩
  · rename_i hreached
    split
    · exact Or.inl ⟨rfl, List.Subset.refl _⟩
    · rename_i hnew
      cases hlookup : row.lookup with
      | some e => exact Or.inl (hwrite _)
      | none =>
        rcases hresolves : cat.resolve row.source with _ | ⟨p, discount⟩
        · exact Or.inl (hwrite _)
        · cases herror : (row.createOrder cat p discount m.store).error with
          | none =>
            refine Or.inr ⟨hnew, p, discount, ⟨⟨?_, hlookup, hresolves⟩, herror⟩, ?_⟩
            · simpa using hreached
            · exact migrateOrder_of_ok herror
          | some e =>
            have hfailed : row.migrateOrder cat p discount m = writeOut (.failed row.source) m :=
              migrateOrder_of_error herror
            dsimp only
            rw [hfailed]
            exact Or.inl (hwrite _)

/-- A round that returns for a row that can be resolved has made an order or has written that it failed, unless
the pair of the row is passed over. -/
theorem migrateRow_returns {existing : List (UserId × RunId)} {p : ProductId}
    {discount : Option DiscountId} (h : (migrateRow cat existing row m).error = none)
    (hnew : row.source.pair ∉ existing) (hresolves : cat.resolve row.source = some (p, discount)) :
    row.Orders cat p discount m.store ∨
      .failed row.source ∈ (migrateRow cat existing row m).state.log := by
  have hreached : row.interrupted = false := by
    by_contra hnot
    unfold migrateRow at h
    rw [if_pos (by simpa using hnot)] at h
    cases h
  have hwritten : .failed row.source ∈ (writeOut (.failed row.source) m).state.log :=
    List.mem_append_right _ (List.mem_singleton_self _)
  unfold migrateRow
  rw [hreached, if_neg (by simp), if_neg hnew, hresolves]
  cases hlookup : row.lookup with
  | some e => exact Or.inr hwritten
  | none =>
    cases herror : (row.createOrder cat p discount m.store).error with
    | none => exact Or.inl ⟨⟨hreached, hlookup, hresolves⟩, herror⟩
    | some e =>
      have hfailed : row.migrateOrder cat p discount m = writeOut (.failed row.source) m :=
        migrateOrder_of_error herror
      dsimp only
      rw [hfailed]
      exact Or.inr hwritten

/-- Fulfilled orders stay, and so does what was written out. -/
structure Goes (m m' : Migration) : Prop where
  orders : FulfilledKept m.store m'.store
  log : m.log ⊆ m'.log

theorem isFrame_goes : IsFrame Goes := by
  constructor
  · intro m
    exact ⟨isFrame_fulfilledKept.refl _, List.Subset.refl _⟩
  · intro m t u hmt htu
    exact ⟨isFrame_fulfilledKept.trans _ _ _ hmt.orders htu.orders, List.Subset.trans hmt.log htu.log⟩

theorem keeps_goes_migrateRow (existing : List (UserId × RunId)) (row : MigratedRow) :
    Keeps Goes (migrateRow cat existing row) := by
  intro m
  rcases migrateRow_cases cat existing row m with ⟨hsame, hlog⟩ | ⟨-, p, discount, horders, heq⟩
  · refine ⟨?_, hlog⟩
    rw [hsame]
    exact isFrame_fulfilledKept.refl _
  · rw [heq]
    obtain ⟨o, hmade⟩ := createOrder_made horders.returns
    exact ⟨hmade.fulfilledKept, List.Subset.refl _⟩

/-! ## Lookups -/

theorem mem_existingFulfilledOrderPairs {sources : List SourceEnrollment} {source : SourceEnrollment}
    (h : source ∈ sources) : source.pair ∈ existingFulfilledOrderPairs sources s ↔
      0 < s.ordersFor source.user source.courserun := by
  have hcount : 0 < s.ordersFor source.user source.courserun ↔
      ∃ o ∈ s.orders.keys, (s.order o).isFulfilledFor source.user source.courserun = true := by
    unfold Store.ordersFor Table.count
    rw [List.countP_pos_iff]
    rfl
  have huser : source.user ∈ sources.map (·.user) := List.mem_map.mpr ⟨source, h, rfl⟩
  have hrun : source.courserun ∈ sources.map (·.courserun) := List.mem_map.mpr ⟨source, h, rfl⟩
  rw [hcount]
  unfold existingFulfilledOrderPairs
  simp only [List.mem_flatMap, List.mem_filter, List.mem_filterMap, Bool.and_eq_true, beq_iff_eq,
    List.contains_iff_mem]
  constructor
  · rintro ⟨o, ⟨ho, hful, -⟩, l, hl, hpair⟩
    split_ifs at hpair with hcontent
    obtain ⟨r, hr, hsame⟩ := Option.map_eq_some_iff.mp hpair
    obtain ⟨hobject, -⟩ := Option.filter_eq_some_iff.mp hr
    obtain ⟨hpurchaser, rfl⟩ := Prod.mk.inj hsame
    refine ⟨o, ho, isFulfilledFor_iff.mpr ⟨hful, hpurchaser, mem_purchasedRuns.mpr ⟨l, hl, ?_⟩⟩⟩
    simp [Line.purchases, hcontent, hobject]
  · rintro ⟨o, ho, htest⟩
    obtain ⟨hful, hpurchaser, hr⟩ := isFulfilledFor_iff.mp htest
    obtain ⟨l, hl, hline⟩ := mem_purchasedRuns.mp hr
    simp only [Line.purchases, Bool.and_eq_true, beq_iff_eq] at hline
    refine ⟨o, ⟨ho, hful, hpurchaser ▸ huser⟩, l, hl, ?_⟩
    rw [if_pos hline.1, hline.2, Option.map_eq_some_iff]
    refine ⟨source.courserun, Option.filter_eq_some_iff.mpr ⟨rfl, ?_⟩, ?_⟩
    · simpa using hrun
    · rw [hpurchaser]
      rfl

theorem existingFulfilledOrderPairs_congr (sources : List SourceEnrollment) (h : OrdersKept s s') :
    existingFulfilledOrderPairs sources s' = existingFulfilledOrderPairs sources s := by
  unfold OrdersKept at h
  unfold existingFulfilledOrderPairs Store.order
  rw [h]

/-! ## In bulk -/

/-- The enrollments of the rows that are in another mode become verified. -/
theorem upgradeEnrollmentModes_cases (sources : List SourceEnrollment) (s : Store) (user : UserId)
    (r : RunId) :
    (upgradeEnrollmentModes sources (existingEnrollments sources s) s).storedMode user r =
      s.storedMode user r ∨
    ((upgradeEnrollmentModes sources (existingEnrollments sources s) s).storedMode user r =
        some .verified ∧
      ∃ source ∈ sources, source.pair = (user, r) ∧
        ∃ mode, s.storedMode user r = some mode ∧ mode ≠ .verified) := by
  by_cases hmem : (user, r) ∈
      (rowsToUpgrade sources (existingEnrollments sources s)).map SourceEnrollment.pair
  · right
    obtain ⟨source, hsource, hpair⟩ := List.mem_map.mp hmem
    obtain ⟨hlisted, hany⟩ := List.mem_filter.mp hsource
    have huser : user ∈ sources.map (·.user) := List.mem_map.mpr ⟨source, hlisted, congrArg Prod.fst hpair⟩
    have hrun : r ∈ sources.map (·.courserun) := List.mem_map.mpr ⟨source, hlisted, congrArg Prod.snd hpair⟩
    have hexisting : existingEnrollments sources s source.pair = s.storedMode user r := by
      rw [hpair]
      exact if_pos ⟨huser, hrun⟩
    rw [hexisting] at hany
    obtain ⟨mode, hmode, hother⟩ := (Option.any_eq_true _ _).mp hany
    refine ⟨?_, source, hlisted, hpair, mode, hmode, by simpa using hother⟩
    unfold Store.storedMode upgradeEnrollmentModes
    unfold Store.storedMode at hmode
    obtain ⟨e, he, -⟩ := Option.map_eq_some_iff.mp hmode
    dsimp only
    rw [if_pos hmem, he]
    rfl
  · left
    unfold Store.storedMode upgradeEnrollmentModes
    dsimp only
    rw [if_neg hmem]

/-- Enrollments are added, none of them verified. -/
def AddsOthers (s s' : Store) : Prop :=
  ∀ user r, s'.storedMode user r = s.storedMode user r ∨
    (s.storedMode user r = none ∧ s'.storedMode user r ≠ some .verified)

theorem isFrame_addsOthers : IsFrame AddsOthers := by
  constructor
  · intro s user r
    exact Or.inl rfl
  · intro s t u hst htu user r
    rcases htu user r with hsame | ⟨hnone, hother⟩
    · rw [hsame]
      exact hst user r
    · rcases hst user r with hsame | ⟨hnone', -⟩
      · exact Or.inr ⟨hsame ▸ hnone, hother⟩
      · exact Or.inr ⟨hnone', hother⟩

theorem insertEnrollment_addsOthers {source : SourceEnrollment} (h : source.isVerified = false) (s : Store) :
    AddsOthers s (insertEnrollment s source) := by
  unfold insertEnrollment
  split
  · rename_i mode hfree hmode
    intro user r
    by_cases hself : user = source.user ∧ r = source.courserun
    · obtain ⟨rfl, rfl⟩ := hself
      rw [storedMode_setEnrollment_self]
      refine Or.inr ⟨by rw [Store.storedMode, hfree]; rfl, fun hverified => ?_⟩
      have hmode' : mode = .verified := Option.some.inj hverified
      unfold SourceEnrollment.isVerified at h
      rw [hmode, hmode'] at h
      cases h
    · exact Or.inl (storedMode_setEnrollment_of_ne _ s hself)
  · exact isFrame_addsOthers.refl s

theorem insertEnrollments_addsOthers {sources : List SourceEnrollment}
    (h : ∀ source ∈ sources, source.isVerified = false) (s : Store) :
    AddsOthers s (sources.foldl insertEnrollment s) := by
  induction sources generalizing s with
  | nil => exact isFrame_addsOthers.refl s
  | cons source rest ih =>
    have hfirst := insertEnrollment_addsOthers (h source List.mem_cons_self) s
    have hrest := ih (fun source hsource => h source (List.mem_cons_of_mem _ hsource))
      (insertEnrollment s source)
    exact isFrame_addsOthers.trans _ _ _ hfirst hrest

theorem insertEnrollments_orders (sources : List SourceEnrollment) (s : Store) :
    OrdersKept s (sources.foldl insertEnrollment s) := by
  induction sources generalizing s with
  | nil => rfl
  | cons source rest ih =>
    have hfirst : OrdersKept s (insertEnrollment s source) := by
      unfold insertEnrollment
      split <;> rfl
    exact ordersKept_frame.trans _ _ _ hfirst (ih _)

theorem bulkCreateEnrollments_spec {sources : List SourceEnrollment}
    (h : ∀ source ∈ sources, source.isVerified = false) (s : Store) :
    OrdersKept s (bulkCreateEnrollments cat sources s).state ∧
      AddsOthers s (bulkCreateEnrollments cat sources s).state := by
  have hframe : IsFrame fun s s' => OrdersKept s s' ∧ AddsOthers s s' := by
    constructor
    · intro s
      exact ⟨ordersKept_frame.refl s, isFrame_addsOthers.refl s⟩
    · intro s t u hst htu
      exact ⟨ordersKept_frame.trans _ _ _ hst.1 htu.1, isFrame_addsOthers.trans _ _ _ hst.2 htu.2⟩
  refine keeps_statement hframe (fun s s' hs => ?_) s
  split at hs
  · cases hs
    exact ⟨insertEnrollments_orders sources s, insertEnrollments_addsOthers h s⟩
  · cases hs

/-! ## Up to the loop -/

/-- The bulk upgrade takes effect on the enrollment: a verified row is for it, and it is in another mode. -/
def Upgrades (f : BatchFaults) (rows : List MigratedRow) (s : Store) (user : UserId) (r : RunId) : Prop :=
  f.upgrade = none ∧ ∃ row ∈ verifiedRows rows, row.source.pair = (user, r) ∧
    ∃ mode, s.storedMode user r = some mode ∧ mode ≠ .verified

/-- What a batch has written before its loop. -/
structure Prepared (f : BatchFaults) (rows : List MigratedRow) (m m' : Migration) : Prop where
  orders : OrdersKept m.store m'.store
  log : m'.log = m.log
  modes : ∀ user r, m'.store.storedMode user r = m.store.storedMode user r ∨
    (m'.store.storedMode user r = some .verified ∧ Upgrades f rows m.store user r) ∨
    (m.store.storedMode user r = none ∧ m'.store.storedMode user r ≠ some .verified)

theorem Prepared.refl (f : BatchFaults) (rows : List MigratedRow) (m : Migration) : Prepared f rows m m :=
  ⟨rfl, rfl, fun _ _ => Or.inl rfl⟩

theorem Prepared.addsOthers {m' : Migration} {t : Store} (h : Prepared f rows m m')
    (horders : OrdersKept m'.store t) (hadds : AddsOthers m'.store t) :
    Prepared f rows m { m' with store := t } := by
  refine ⟨ordersKept_frame.trans _ _ _ h.orders horders, h.log, fun user r => ?_⟩
  show t.storedMode user r = _ ∨ _ ∧ _ ∨ _ ∧ t.storedMode user r ≠ _
  rcases hadds user r with hsame | ⟨hnone, hother⟩
  · rw [hsame]
    exact h.modes user r
  · refine Or.inr (Or.inr ⟨?_, hother⟩)
    rcases h.modes user r with hsame | ⟨hverified, -⟩ | ⟨hbefore, -⟩
    · exact hsame ▸ hnone
    · rw [hnone] at hverified
      cases hverified
    · exact hbefore

theorem seq_endsRun (a : MigrationStep) : seq [endsRun none, a] = a := by
  funext m
  exact congrFun (seq_singleton a) m

/-- The upgrade and the insert, with the modes that are looked up first. -/
def batchBulk (cat : MigrationCatalog) (f : BatchFaults) (rows : List MigratedRow) (s : Store) :
    List MigrationStep :=
  let verified := (verifiedRows rows).map (·.source)
  let nonVerified := (rows.map (·.source)).filter fun row => !row.isVerified
  [seq [endsRun f.upgrade,
      onStore (update (upgradeEnrollmentModes verified (existingEnrollments verified s)))],
    seq [endsRun f.insert, onStore (bulkCreateEnrollments cat nonVerified)]]

theorem prepared_batchBulk (cat : MigrationCatalog) (f : BatchFaults) (rows : List MigratedRow)
    (m : Migration) : Prepared f rows m (seq (batchBulk cat f rows m.store) m).state := by
  have hframe : IsFrame fun t t' => Prepared f rows m t → Prepared f rows m t' :=
    isFrame_preserves (Prepared f rows m)
  have hinsert : Keeps (fun t t' => Prepared f rows m t → Prepared f rows m t')
      (seq [endsRun f.insert, onStore (bulkCreateEnrollments cat
        ((rows.map (·.source)).filter fun row => !row.isVerified))]) := by
    intro t ht
    cases f.insert with
    | some e => exact ht
    | none =>
      rw [seq_endsRun]
      have hothers : ∀ source ∈ (rows.map (·.source)).filter fun row => !row.isVerified,
          source.isVerified = false := by
        intro source hsource
        simpa using (List.mem_filter.mp hsource).2
      obtain ⟨horders, hadds⟩ := bulkCreateEnrollments_spec hothers t.store
      exact ht.addsOthers horders hadds
  refine seq_cons_after hframe (keeps_seq_cons hframe hinsert (keeps_seq_nil hframe)) m ?_
  cases hupgrade : f.upgrade with
  | some e => exact Prepared.refl f rows m
  | none =>
    rw [seq_endsRun]
    refine ⟨rfl, rfl, fun user r => ?_⟩
    rcases upgradeEnrollmentModes_cases ((verifiedRows rows).map (·.source)) m.store user r with
      hsame | ⟨hverified, source, hsource, hpair, hmode⟩
    · exact Or.inl hsame
    · obtain ⟨row, hrow, rfl⟩ := List.mem_map.mp hsource
      exact Or.inr (Or.inl ⟨hverified, hupgrade, row, hrow, hpair, hmode⟩)

/-- The pairs that a batch has looked up. -/
def batchPairs (rows : List MigratedRow) (s : Store) : List (UserId × RunId) :=
  existingFulfilledOrderPairs ((verifiedRows rows).map (·.source)) s

/-- A batch ends before its loop, or goes on with its rows and what was looked up. -/
theorem migrateBatchUpTo_cases (cat : MigrationCatalog) (f : BatchFaults) (rows : List MigratedRow)
    (m : Migration) : ∃ t, Prepared f rows m t ∧
      ((∃ e, ∀ loop, migrateBatchUpTo cat f rows loop m = ⟨t, some e⟩) ∨
        ∀ loop, migrateBatchUpTo cat f rows loop m =
          seq (loop.map (migrateRow cat (batchPairs rows m.store))) t) := by
  have hprepared := prepared_batchBulk cat f rows m
  refine ⟨_, hprepared, ?_⟩
  have hsplit : ∀ loop, migrateBatchUpTo cat f rows loop m = andThen (seq (batchBulk cat f rows m.store))
      (fun m => seq (endsRun f.prepare :: loop.map (migrateRow cat (batchPairs rows m.store))) m) m := by
    intro loop
    rw [← seq_singleton (fun m => seq (endsRun f.prepare ::
      loop.map (migrateRow cat (batchPairs rows m.store))) m), ← seq_append]
    rfl
  cases herror : (seq (batchBulk cat f rows m.store) m).error with
  | some e =>
    refine Or.inl ⟨e, fun loop => ?_⟩
    rw [hsplit, andThen_of_error herror]
  | none =>
    cases hprepare : f.prepare with
    | some e =>
      refine Or.inl ⟨e, fun loop => ?_⟩
      rw [hsplit, andThen_of_ok herror, hprepare]
      rfl
    | none =>
      refine Or.inr fun loop => ?_
      have hpairs : batchPairs rows (seq (batchBulk cat f rows m.store) m).state.store =
          batchPairs rows m.store := existingFulfilledOrderPairs_congr _ hprepared.orders
      rw [hsplit, andThen_of_ok herror, hprepare, hpairs]
      rfl

/-! ## The loop -/

/-- The loop of the batch comes to the row, and leaves `t` before it. -/
def Reaches (cat : MigrationCatalog) (f : BatchFaults) (rows : List MigratedRow) (m : Migration)
    (row : MigratedRow) (t : Migration) : Prop :=
  ∃ before after, verifiedRows rows = before ++ row :: after ∧
    migrateBatchUpTo cat f rows before m = ⟨t, none⟩

theorem mem_batchPairs (h : row ∈ verifiedRows rows) : row.source.pair ∈ batchPairs rows s ↔
    0 < s.ordersFor row.source.user row.source.courserun :=
  mem_existingFulfilledOrderPairs (List.mem_map.mpr ⟨row, h, rfl⟩)

theorem not_mem_batchPairs (h : row ∈ verifiedRows rows) : row.source.pair ∉ batchPairs rows s ↔
    s.ordersFor row.source.user row.source.courserun = 0 := by
  rw [mem_batchPairs h, Nat.not_lt, Nat.le_zero]

theorem Reaches.mem {t : Migration} (h : Reaches cat f rows m row t) : row ∈ verifiedRows rows := by
  obtain ⟨before, after, hrows, -⟩ := h
  rw [hrows]
  exact List.mem_append_cons_self

/-- What the round of a row leaves stays to the end of the batch. -/
theorem Reaches.goes {t : Migration} (h : Reaches cat f rows m row t) :
    Goes (migrateRow cat (batchPairs rows m.store) row t).state
      (migrateEnrollmentBatch cat f rows m).state := by
  obtain ⟨before, after, hrows, hreached⟩ := h
  obtain ⟨t', -, ⟨e, hends⟩ | hloop⟩ := migrateBatchUpTo_cases cat f rows m
  · rw [hends] at hreached
    cases hreached
  · rw [hloop] at hreached
    have hbatch : migrateEnrollmentBatch cat f rows m =
        seq ((before ++ row :: after).map (migrateRow cat (batchPairs rows m.store))) t' := by
      rw [← hrows]
      exact hloop _
    rw [hbatch, List.map_append, List.map_cons, seq_append,
      andThen_of_ok (congrArg Outcome.error hreached), hreached]
    refine seq_cons_after isFrame_goes (keeps_seq isFrame_goes fun a ha => ?_) t
    obtain ⟨row', -, rfl⟩ := List.mem_map.mp ha
    exact keeps_goes_migrateRow _ row'

/-- A batch that returns has come to all its rows, and their rounds have returned. -/
theorem reaches_of_returns (h : (migrateEnrollmentBatch cat f rows m).error = none)
    (hrow : row ∈ verifiedRows rows) : ∃ t, Reaches cat f rows m row t ∧
      (migrateRow cat (batchPairs rows m.store) row t).error = none := by
  unfold migrateEnrollmentBatch at h
  obtain ⟨before, after, hrows⟩ := List.append_of_mem hrow
  obtain ⟨t', -, ⟨e, hends⟩ | hloop⟩ := migrateBatchUpTo_cases cat f rows m
  · rw [hends] at h
    cases h
  · have hbatch : migrateBatchUpTo cat f rows (verifiedRows rows) m =
        seq ((before ++ row :: after).map (migrateRow cat (batchPairs rows m.store))) t' := by
      rw [← hrows]
      exact hloop _
    rw [hbatch, List.map_append, List.map_cons] at h
    have hbefore := seq_append_error h
    rw [seq_append, andThen_of_ok hbefore] at h
    exact ⟨_, ⟨before, after, hrows, by rw [hloop, ← hbefore]⟩, (seq_cons_error h).1⟩

/-- The condition on a batch: a row whose pair had no fulfilled order at its beginning, and whose transaction
does not fail, makes a safe order; and an enrollment that is upgraded had a fulfilled order then, or a row for
it is reached and gets one. -/
structure BatchMeets (cat : MigrationCatalog) (f : BatchFaults) (rows : List MigratedRow)
    (m : Migration) : Prop where
  orders : ∀ row t, Reaches cat f rows m row t →
    m.store.ordersFor row.source.user row.source.courserun = 0 →
      ∀ p discount, row.Orders cat p discount t.store → SafeOrder cat row.source p t.store
  upgrades : ∀ user r, Upgrades f rows m.store user r → 0 < m.store.ordersFor user r ∨
    ∃ row t p discount, Reaches cat f rows m row t ∧ row.source.pair = (user, r) ∧
      row.Orders cat p discount t.store

theorem BatchMeets.round {t : Migration} (h : BatchMeets cat f rows m) (hreached : Reaches cat f rows m row t) :
    MigratesExactly t.store (migrateRow cat (batchPairs rows m.store) row t).state.store := by
  rcases migrateRow_cases cat (batchPairs rows m.store) row t with
    ⟨hsame, -⟩ | ⟨hnew, p, discount, horders, heq⟩
  · rw [hsame]
    exact isFrame_migratesExactly.refl _
  · rw [not_mem_batchPairs hreached.mem] at hnew
    have hsafe := h.orders row t hreached hnew p discount horders
    obtain ⟨o, hmade⟩ := createOrder_made horders.returns
    rw [heq]
    exact hmade.migratesExactly hsafe

/-- A row that is reached and whose transaction does not fail leaves its pair with a fulfilled order. -/
theorem BatchMeets.ordered {t : Migration} {p : ProductId} {discount : Option DiscountId}
    (h : BatchMeets cat f rows m) (hreached : Reaches cat f rows m row t)
    (horders : row.Orders cat p discount t.store)
    (hnew : m.store.ordersFor row.source.user row.source.courserun = 0) :
    0 < (migrateEnrollmentBatch cat f rows m).state.store.ordersFor row.source.user
      row.source.courserun := by
  have hpair : row.source.pair ∉ batchPairs rows m.store := (not_mem_batchPairs hreached.mem).mpr hnew
  obtain ⟨o, hmade⟩ := createOrder_made horders.returns
  have hpos := hmade.count_pos (hmade.courserun_mem (h.orders row t hreached hnew p discount horders))
  have hround : migrateRow cat (batchPairs rows m.store) row t =
      ⟨{ t with store := (row.createOrder cat p discount t.store).state }, none⟩ := by
    unfold migrateRow
    rw [horders.reached, if_neg (by simp), if_neg hpair, horders.lookup, horders.resolves]
    exact migrateOrder_of_ok horders.returns
  have hgoes := hreached.goes.orders
  rw [hround] at hgoes
  exact hpos.trans_le (hgoes.count_le _ _)

theorem keeps_goes_migrateBatch (cat : MigrationCatalog) (f : BatchFaults) (rows : List MigratedRow) :
    Keeps Goes (migrateEnrollmentBatch cat f rows) := by
  intro m
  obtain ⟨t, hprepared, hcases⟩ := migrateBatchUpTo_cases cat f rows m
  have hstart : Goes m t := by
    refine ⟨fun o ho hful => ⟨?_, order_of_ordersKept hprepared.orders o⟩, ?_⟩
    · rw [hprepared.orders]
      exact ho
    · rw [hprepared.log]
      exact List.Subset.refl _
  unfold migrateEnrollmentBatch
  rcases hcases with ⟨e, hends⟩ | hloop
  · rw [hends]
    exact hstart
  · rw [hloop]
    refine isFrame_goes.trans _ _ _ hstart (keeps_seq isFrame_goes (fun a ha => ?_) t)
    obtain ⟨row, -, rfl⟩ := List.mem_map.mp ha
    exact keeps_goes_migrateRow _ row

/-- From where the loop begins the batch is exact, wherever it ends. -/
theorem BatchMeets.loop {t : Migration} (h : BatchMeets cat f rows m)
    (hcases : (∃ e, ∀ loop, migrateBatchUpTo cat f rows loop m = ⟨t, some e⟩) ∨
      ∀ loop, migrateBatchUpTo cat f rows loop m =
        seq (loop.map (migrateRow cat (batchPairs rows m.store))) t) :
    MigratesExactly t.store (migrateEnrollmentBatch cat f rows m).state.store := by
  rcases hcases with ⟨e, hends⟩ | hloop
  · unfold migrateEnrollmentBatch
    rw [hends]
    exact isFrame_migratesExactly.refl _
  · have hbatch : migrateEnrollmentBatch cat f rows m =
        seq ((verifiedRows rows).map (migrateRow cat (batchPairs rows m.store))) t := hloop _
    rw [hbatch]
    refine seq_map_of_reached isFrame_migration fun before row after hrows herror => ?_
    refine h.round ⟨before, after, hrows, ?_⟩
    rw [hloop, ← herror]

/-- An enrollment that the upgrade has verified ends with a fulfilled order. -/
theorem BatchMeets.upgraded (h : BatchMeets cat f rows m) (hupgrades : Upgrades f rows m.store user r) :
    0 < (migrateEnrollmentBatch cat f rows m).state.store.ordersFor user r := by
  by_cases hnew : m.store.ordersFor user r = 0
  · rcases h.upgrades user r hupgrades with hpos | ⟨row, t, p, discount, hreached, hpair, horders⟩
    · omega
    · obtain ⟨rfl, rfl⟩ := Prod.mk.inj hpair
      exact h.ordered hreached horders hnew
  · have hkept := (keeps_goes_migrateBatch cat f rows m).orders.count_le user r
    omega

/-- A batch that meets the condition is exact, wherever it ends. -/
theorem BatchMeets.migratesExactly (h : BatchMeets cat f rows m) :
    MigratesExactly m.store (migrateEnrollmentBatch cat f rows m).state.store := by
  obtain ⟨t, hprepared, hcases⟩ := migrateBatchUpTo_cases cat f rows m
  have hloop := h.loop hcases
  have hcount : ∀ user r, t.store.ordersFor user r = m.store.ordersFor user r :=
    ordersFor_of_ordersKept hprepared.orders
  constructor
  · intro user r
    rw [← hcount]
    exact hloop.orders user r
  · intro user r
    rw [← hcount]
    exact hloop.kept user r
  · intro user r mode hmode
    rcases hprepared.modes user r with hsame | ⟨hverified, -⟩ | ⟨hnone, -⟩
    · exact hloop.modes user r mode (hsame.trans hmode)
    · exact Or.inr ((hloop.modes user r _ hverified).elim id id)
    · rw [hmode] at hnone
      cases hnone
  · intro user r hmode
    rcases hloop.verified user r hmode with hbefore | hpos
    · rcases hprepared.modes user r with hsame | ⟨-, hupgrades⟩ | ⟨-, hother⟩
      · exact Or.inl (hsame ▸ hbefore)
      · exact Or.inr (h.upgraded hupgrades)
      · exact absurd hbefore hother
    · exact Or.inr hpos

end MitxOnline

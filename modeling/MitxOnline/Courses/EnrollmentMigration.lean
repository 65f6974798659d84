import MitxOnline.Courses.UserMigration
import MitxOnline.Ecommerce.Payments

/-!
# Migrating enrollments (`courses/management/commands/migrate_edx_data.py`)

Enrollments are read from a table in batches. Of a batch the enrollments that exist are upgraded and those that
are not verified are inserted, in bulk; then every verified row gets an order, in a transaction of its own. What
an order exists for already is looked up once for the batch.
-/

namespace MitxOnline

open Autocommit

/-! ## Rows -/

/-- A row of `edxorg_to_mitxonline_enrollments` that the query selects. -/
structure SourceEnrollment where
  user : UserId
  courserun : RunId
  enrollmentMode : Option EnrollmentMode
  productVersion : Option VersionId
  discount : Option DiscountId
  deriving DecidableEq, Repr

/-- The user and the course run of a row. -/
def SourceEnrollment.pair (row : SourceEnrollment) : UserId × RunId := (row.user, row.courserun)

def SourceEnrollment.isVerified (row : SourceEnrollment) : Bool := row.enrollmentMode == some .verified

/-- The catalog, and which of the objects that rows refer to exist. -/
structure MigrationCatalog extends Catalog where
  isUser : UserId → Bool
  isCourseRun : RunId → Bool
  isProduct : ProductId → Bool
  isDiscount : DiscountId → Bool
  /-- The versions of all models, each with `field_dict.get("id")`. -/
  version : VersionId → Option (Option ℕ)
  /-- `settings.ECOMMERCE_DEFAULT_PAYMENT_GATEWAY` -/
  defaultGateway : GatewayType

/-- The product of a row and its discount, if the user, the version and the product are there. -/
def MigrationCatalog.resolve (cat : MigrationCatalog) (row : SourceEnrollment) :
    Option (ProductId × Option DiscountId) :=
  let product := ((row.productVersion.bind cat.version).bind id).filter cat.isProduct
  if cat.isUser row.user = true then product.map fun p => (p, row.discount.filter cat.isDiscount)
  else none

/-! ## Faults -/

/-- A row, when it is migrated, and what fails while it is. `interrupted` ends the process before or inside the
transaction of the row, and `lookup` and `create` fail before the order is there. -/
structure MigratedRow where
  source : SourceEnrollment
  now : Instant
  interrupted : Bool
  lookup : Option Error
  create : Option Error
  faults : Faults

/-- What ends a run in the bulk statements of a batch: in the upgrade, in the insert, or in the statements
between it and the first order. -/
structure BatchFaults where
  upgrade : Option Error
  insert : Option Error
  prepare : Option Error
  deriving DecidableEq

/-- A run of the command. -/
structure MigrationRun where
  rows : List MigratedRow
  batchSize : ℕ
  dryRun : Bool
  faults : ℕ → BatchFaults

/-- What is written to the output about a row that gets no order. -/
inductive MigrationMessage where
  | missing (row : SourceEnrollment)
  | failed (row : SourceEnrollment)
  deriving DecidableEq, Repr

/-- The database and the output. -/
structure Migration where
  store : Store
  log : List MigrationMessage

/-- A step of a run. -/
abbrev MigrationStep := Action Migration Error

/-- A step on the database. -/
def onStore (a : Code) : MigrationStep := fun m => ⟨{ m with store := (a m.store).state }, (a m.store).error⟩

/-- Write to the output. -/
def writeOut (message : MigrationMessage) : MigrationStep := fun m =>
  ⟨{ m with log := m.log ++ [message] }, none⟩

/-- A statement that only fails, if it does. -/
def endsRun (fault : Option Error) : MigrationStep :=
  match fault with
  | none => skip
  | some e => raise e

/-! ## In bulk -/

/-- `existing_enrollments`: the modes of the enrollments, active or not, of users and in runs of the rows. -/
def existingEnrollments (verifiedRows : List SourceEnrollment) (s : Store) (pair : UserId × RunId) :
    Option EnrollmentMode :=
  if pair.1 ∈ verifiedRows.map (·.user) ∧ pair.2 ∈ verifiedRows.map (·.courserun) then
    (s.enrollments pair.1 pair.2).map (·.enrollmentMode)
  else none

/-- The rows that `_upgrade_enrollment_modes` collects. -/
def rowsToUpgrade (verifiedRows : List SourceEnrollment)
    (existing : UserId × RunId → Option EnrollmentMode) : List SourceEnrollment :=
  verifiedRows.filter fun row => (existing row.pair).any fun mode => mode != .verified

/-- `_upgrade_enrollment_modes` -/
def upgradeEnrollmentModes (verifiedRows : List SourceEnrollment)
    (existing : UserId × RunId → Option EnrollmentMode) (s : Store) : Store :=
  { s with enrollments := fun user r =>
      if (user, r) ∈ (rowsToUpgrade verifiedRows existing).map SourceEnrollment.pair then
        (s.enrollments user r).map fun e => { e with enrollmentMode := .verified }
      else s.enrollments user r }

/-- The mode fits into its column. -/
def EnrollmentMode.fits : EnrollmentMode → Bool
  | .other slug => decide (slug.length ≤ 20)
  | _ => true

/-- The database takes the row: the mode is not null and fits, and the user and the run exist. -/
def MigrationCatalog.storable (cat : MigrationCatalog) (row : SourceEnrollment) : Bool :=
  row.enrollmentMode.any EnrollmentMode.fits && cat.isUser row.user && cat.isCourseRun row.courserun

/-- `INSERT … ON CONFLICT DO NOTHING` of one enrollment. -/
def insertEnrollment (s : Store) (row : SourceEnrollment) : Store :=
  match s.enrollments row.user row.courserun, row.enrollmentMode with
  | none, some mode => setEnrollment row.user row.courserun
      { active := true, changeStatus := none, edxEnrolled := false, enrollmentMode := mode } s
  | _, _ => s

/-- `_bulk_create_enrollments`, in one transaction. -/
def bulkCreateEnrollments (cat : MigrationCatalog) (rows : List SourceEnrollment) : Code :=
  statement fun s =>
    if rows.all cat.storable = true then .ok (rows.foldl insertEnrollment s) else .error .integrityError

/-! ## Order by order -/

/-- `existing_fulfilled_order_pairs`: the pairs of users and runs of the rows that fulfilled orders are for. -/
def existingFulfilledOrderPairs (verifiedRows : List SourceEnrollment) (s : Store) :
    List (UserId × RunId) :=
  (s.orders.keys.filter fun o => (s.order o).state == .fulfilled &&
    (verifiedRows.map (·.user)).contains (s.order o).purchaser).flatMap fun o =>
      (s.order o).lines.rows.filterMap fun l =>
        if l.purchasedContentType = some .courseRun then
          (l.purchasedObjectId.filter (verifiedRows.map (·.courserun)).contains).map
            fun r => ((s.order o).purchaser, r)
        else none

/-- What is inside the transaction of a row: an order for the product is made and fulfilled, without a basket. -/
def MigratedRow.createOrder (cat : MigrationCatalog) (row : MigratedRow) (p : ProductId)
    (discount : Option DiscountId) : Code := fun s =>
  match row.create, createFromProduct cat.toCatalog s p row.source.user discount cat.defaultGateway with
  | some e, _ => ⟨s, some e⟩
  | none, .error e => ⟨s, some e⟩
  | none, .ok (o, s') =>
    seq [fulfill row.faults cat.toCatalog row.now o zeroPaymentData ⟨true, false, false⟩ true,
      mayFail row.faults .syncHubspotDeal] s'

/-- The part of the loop after the lookup: the transaction, and what is written if it fails. -/
def MigratedRow.migrateOrder (cat : MigrationCatalog) (row : MigratedRow) (p : ProductId)
    (discount : Option DiscountId) : MigrationStep := fun m =>
  match (atomic (row.createOrder cat p discount) m.store).error with
  | none => ⟨{ m with store := (atomic (row.createOrder cat p discount) m.store).state }, none⟩
  | some _ => writeOut (.failed row.source) m

/-- The body of the loop over the verified rows. -/
def migrateRow (cat : MigrationCatalog) (existing : List (UserId × RunId)) (row : MigratedRow) :
    MigrationStep :=
  if row.interrupted = true then raise .failure
  else if row.source.pair ∈ existing then skip
  else
    match row.lookup, cat.resolve row.source with
    | some _, _ => writeOut (.failed row.source)
    | none, none => writeOut (.missing row.source)
    | none, some (p, discount) => row.migrateOrder cat p discount

/-! ## Batches and runs -/

/-- The verified rows of a batch. -/
def verifiedRows (rows : List MigratedRow) : List MigratedRow := rows.filter (·.source.isVerified)

/-- A batch up to the given rows of its loop. -/
def migrateBatchUpTo (cat : MigrationCatalog) (f : BatchFaults) (rows loop : List MigratedRow) :
    MigrationStep := fun m =>
  let verified := (verifiedRows rows).map (·.source)
  let nonVerified := (rows.map (·.source)).filter fun row => !row.isVerified
  seq
    [ seq [endsRun f.upgrade,
        onStore (update (upgradeEnrollmentModes verified (existingEnrollments verified m.store)))],
      seq [endsRun f.insert, onStore (bulkCreateEnrollments cat nonVerified)],
      fun m => seq (endsRun f.prepare ::
        loop.map (migrateRow cat (existingFulfilledOrderPairs verified m.store))) m ] m

/-- The body of the loop over the batches. -/
def migrateEnrollmentBatch (cat : MigrationCatalog) (f : BatchFaults) (rows : List MigratedRow) :
    MigrationStep := migrateBatchUpTo cat f rows (verifiedRows rows)

/-- The batches of a run, each with what ends the run in it. -/
def MigrationRun.batches (run : MigrationRun) : List (List MigratedRow × ℕ) :=
  (fetchBatches run.batchSize run.rows).zipIdx

/-- `_migrate_enrollments` -/
def migrateEnrollments (cat : MigrationCatalog) (run : MigrationRun) : MigrationStep :=
  if run.dryRun = true then skip
  else seq (run.batches.map fun b => migrateEnrollmentBatch cat (run.faults b.2) b.1)

/-- Runs of the command, one after the other, whether the one before has ended or not. -/
def migrateRuns (cat : MigrationCatalog) (runs : List MigrationRun) (s : Store) : Store :=
  runs.foldl (fun s run => (migrateEnrollments cat run ⟨s, []⟩).state.store) s

end MitxOnline

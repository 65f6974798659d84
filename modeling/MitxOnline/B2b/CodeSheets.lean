import Mathlib.Data.List.Sort
import MitxOnline.B2b.EnrollmentCodes
import MitxOnline.Lib.Dialogues

/-!
# The sheet with the enrollment codes of a contract (`b2b/sheets.py`, `b2b/tasks.py`)

The codes of a contract are listed in a worksheet that belongs to the customer, who sorts it, writes notes
into it and moves rows around. A code is looked for where it was written last, and then in the whole sheet;
one that is not there is written into the first blank row. The worksheets and what `pygsheets` does with them
are parameters.
-/

namespace MitxOnline

open Dialogues

/-- A row of `DiscountContractAttachmentRedemption`; an assignment that was not claimed has no user. -/
structure CodeRedemption where
  userEmail : Option String
  createdOn : Instant
  deriving DecidableEq, Repr

/-- A discount of the contract. -/
structure SheetCode where
  id : ℕ
  discountCode : String
  redemptionType : RedemptionType
  expirationDate : Option Instant
  /-- The products of the contract that it is for. -/
  productCount : ℕ
  /-- `contract_redemptions`, in the order of their ids. -/
  redemptions : List CodeRedemption
  /-- `b2b_sheet_location` -/
  sheetLocation : Option ℕ
  deriving DecidableEq, Repr

inductive SheetError where
  | valueError (msg : String)
  | attributeError
  /-- A request to the sheet failed. -/
  | apiError
  deriving DecidableEq, Repr

/-! ## Rows -/

/-- `row_zero`, which is `GOOGLE_SHEET_FIRST_ROW`. -/
def rowZero : ℕ := 1

def rowOne : ℕ := rowZero + 1

/-- `default_columns` -/
def defaultColumns : List String :=
  ["Enrollment Code", "Use Type", "Total Redemptions", "Invalidated On", "Redeemed By", "Redeemed On"]

/-- What is used of `pygsheets`: `get_row` with `include_tailing_empty`, `update_row` from the first column on,
and `find` for whole cells in the first column from `row_one` on. A worksheet is an `σ` and has so many rows. -/
structure SheetOps (σ : Type) where
  rows : σ → ℕ
  getRow : σ → ℕ → Bool → Except SheetError (List String)
  updateRow : σ → ℕ → List String → Except SheetError σ
  find : σ → String → Except SheetError (List ℕ)

/-- What there is in the cells of a worksheet. Rows are counted from one, columns from zero. -/
structure SheetCells (σ : Type) where
  /-- What was entered. -/
  entry : σ → ℕ → ℕ → String
  /-- What the cell shows. -/
  shown : σ → ℕ → ℕ → String
  /-- A formula, there or elsewhere, may decide what the cell shows. -/
  calculated : σ → ℕ → ℕ → Prop
  isFormula : String → Prop
  /-- A cell shows it as it is entered, whatever its format is. -/
  plain : String → Prop
  /-- A text where upper and lower case are the same. -/
  fold : String → String

variable {σ : Type} {ops : SheetOps σ} {cells : SheetCells σ}

/-- What is documented of `pygsheets`. A row comes with or without the empty cells at its end; an update enters
the values and, unless one of them is a formula, changes nothing of what is shown elsewhere but by formulas that
were there; a search goes by what is shown, whatever the case. -/
structure SheetOps.Documented (ops : SheetOps σ) (cells : SheetCells σ) : Prop where
  getRow : ∀ {sheet row tail values}, ops.getRow sheet row tail = .ok values →
    ∀ j, values.getD j "" = cells.shown sheet row j
  entry_updateRow : ∀ {sheet row columns sheet'}, ops.updateRow sheet row columns = .ok sheet' →
    ∀ r j, cells.entry sheet' r j = if r = row then columns.getD j (cells.entry sheet r j)
      else cells.entry sheet r j
  shown_updateRow : ∀ {sheet row columns sheet'}, ops.updateRow sheet row columns = .ok sheet' →
    (∀ text ∈ columns, ¬cells.isFormula text) → ∀ r j, (r = row → columns.length ≤ j) →
      ¬cells.calculated sheet r j → cells.shown sheet' r j = cells.shown sheet r j ∧ ¬cells.calculated sheet' r j
  rows_updateRow : ∀ {sheet row columns sheet'}, ops.updateRow sheet row columns = .ok sheet' →
    ops.rows sheet' = ops.rows sheet
  find : ∀ {sheet code found}, code ≠ "" → ops.find sheet code = .ok found →
    found.Nodup ∧ ∀ r, r ∈ found ↔ rowOne ≤ r ∧ cells.fold (cells.shown sheet r 0) = cells.fold code
  shown_of_plain : ∀ {sheet r j}, cells.plain (cells.entry sheet r j) →
    cells.shown sheet r j = cells.entry sheet r j ∧ ¬cells.calculated sheet r j
  eq_empty : ∀ {text}, cells.fold text = cells.fold "" → text = ""
  header : ∀ title ∈ defaultColumns, cells.plain title ∧ ¬cells.isFormula title

/-- Requests inside the grid, which has as many columns as there are titles or more, are taken, and no others. -/
structure SheetOps.Serves (ops : SheetOps σ) : Prop where
  getRow : ∀ sheet row tail, 0 < row → row ≤ ops.rows sheet → ∃ values, ops.getRow sheet row tail = .ok values
  padded : ∀ {sheet row values}, ops.getRow sheet row true = .ok values →
    values = [] ∨ defaultColumns.length ≤ values.length
  updateRow : ∀ sheet row columns, columns.length = defaultColumns.length →
    ((∃ sheet', ops.updateRow sheet row columns = .ok sheet') ↔ 0 < row ∧ row ≤ ops.rows sheet)
  find : ∀ sheet code, ∃ found, ops.find sheet code = .ok found ∧ ∀ r ∈ found, r ≤ ops.rows sheet

/-- The columns of the codes are blank. -/
def isBlank (values : List String) : Bool :=
  values = [] ∨ values.take defaultColumns.length = List.replicate defaultColumns.length ""

/-- The search for a blank row. -/
def searchBlank (ops : SheetOps σ) (sheet : σ) : ℕ → ℕ → Except SheetError ℕ
  -- the search has left the grid, where `get_row` raises
  | 0, _ => .error .apiError
  | fuel + 1, row => do
    let values ← ops.getRow sheet row true
    if isBlank values = true then return row else searchBlank ops sheet fuel (row + 1)

/-- `_write_row`; without a row, the first blank one is taken. -/
def writeRow (ops : SheetOps σ) (sheet : σ) (row : Option ℕ) (columns : List String) :
    Except SheetError (σ × ℕ) := do
  let row ← match row with
    | some row => pure row
    | none => searchBlank ops sheet (ops.rows sheet) rowOne
  let sheet' ← ops.updateRow sheet row columns
  return (sheet', row)

/-! ## Codes -/

/-- The count of `_get_sorted_codes`; the join with the products multiplies it. -/
def SheetCode.attachRedemptionCount (d : SheetCode) : ℕ := d.productCount * d.redemptions.length

/-- `order_by("-attach_redemption_count", "id")` -/
def SheetCode.Before (d d' : SheetCode) : Prop :=
  d'.attachRedemptionCount < d.attachRedemptionCount ∨
    d.attachRedemptionCount = d'.attachRedemptionCount ∧ d.id ≤ d'.id

instance : DecidableRel SheetCode.Before := fun d d' => by
  unfold SheetCode.Before
  infer_instance

/-- `_get_sorted_codes` -/
def getSortedCodes (codes : List SheetCode) (maxLearners : Option ℕ) : List SheetCode :=
  match maxLearners with
  | none => codes.insertionSort SheetCode.Before
  | some n => (codes.insertionSort SheetCode.Before).take n

/-- The values of `REDEMPTION_TYPES` -/
def RedemptionType.value : RedemptionType → String
  | .oneTime => "one-time"
  | .oneTimePerUser => "one-time-per-user"
  | .unlimited => "unlimited"

/-- `_get_discount_cells`; `str` writes an instant. The user of the last redemption may be missing. -/
def getDiscountCells (str : Instant → String) (d : SheetCode) : Except SheetError (List String) :=
  match d.redemptions.getLast? with
  | none =>
    .ok [d.discountCode, d.redemptionType.value, toString d.redemptions.length,
      (d.expirationDate.map str).getD "", "", ""]
  | some redemption =>
    let redemptionDate := if d.redemptionType ≠ .unlimited then str redemption.createdOn else ""
    match redemption.userEmail with
    | none => .error .attributeError
    | some redeemedBy =>
      .ok [d.discountCode, d.redemptionType.value, toString d.redemptions.length,
        (d.expirationDate.map str).getD redemptionDate, redeemedBy,
        str redemption.createdOn]

/-- The cached location of the code, if the code is still there. -/
def SheetCode.cachedRow (ops : SheetOps σ) (d : SheetCode) (sheet : σ) : Except SheetError (Option ℕ) :=
  match d.sheetLocation with
  | none => .ok none
  | some row =>
    if 0 < row then do
      let values ← ops.getRow sheet row false
      return if values.head? = some d.discountCode then some row else none
    else .ok none

/-- `check_code`, without saving. -/
def checkCode (ops : SheetOps σ) (sheet : σ) (d : SheetCode) : Except SheetError (Option ℕ) := do
  match ← d.cachedRow ops sheet with
  | some row => return some row
  | none =>
    match ← ops.find sheet d.discountCode with
    | [] => return none
    | [row] => return some row
    | rows =>
      .error (.valueError ("Code " ++ d.discountCode ++ " seems to be in the sheet more than once: " ++
        String.intercalate "," (rows.map fun row => "(" ++ toString row ++ ",1)")))

/-! ## The loops over the codes -/

/-- Where a loop puts the code of a round. -/
abbrev Placing (σ : Type) := ℕ → σ → SheetCode → Except SheetError (Option ℕ)

/-- `write_codes` puts them one below the other. -/
def placeInOrder : Placing σ := fun i _ _ => .ok (some (rowOne + i))

/-- `update_code` puts a code where it is. -/
def placeWhereItIs (ops : SheetOps σ) : Placing σ := fun _ sheet d => checkCode ops sheet d

/-- One round. -/
def writeCode (ops : SheetOps σ) (str : Instant → String) (place : Placing σ) (i : ℕ) (sheet : σ)
    (d : SheetCode) : Except SheetError (σ × ℕ) := do
  let row ← place i sheet d
  let columns ← getDiscountCells str d
  writeRow ops sheet row columns

/-- The loop: the sheet that it leaves, and the rows of the codes if it ends. The requests of a round may fail
before the row is written or after it. -/
def writeRounds (ops : SheetOps σ) (str : Instant → String) (place : Placing σ)
    (sent : ℕ → Transmission SheetError) :
    ℕ → σ → List SheetCode → σ × Except SheetError (List (SheetCode × ℕ))
  | _, sheet, [] => (sheet, .ok [])
  | i, sheet, d :: rest =>
    match sent i, writeCode ops str place i sheet d with
    | .failed e, _ => (sheet, .error e)
    | _, .error e => (sheet, .error e)
    | .lost e, .ok (sheet', _) => (sheet', .error e)
    | .answered, .ok (sheet', row) =>
      match writeRounds ops str place sent (i + 1) sheet' rest with
      | (sheet'', .error e) => (sheet'', .error e)
      | (sheet'', .ok rows) => (sheet'', .ok ((d, row) :: rows))

/-- A code with its row, if it has one. -/
def located (rows : List (SheetCode × ℕ)) (d : SheetCode) : SheetCode :=
  match rows.find? fun item => item.1.id = d.id with
  | none => d
  | some item => { d with sheetLocation := some item.2 }

/-- `bulk_update` of the locations. -/
def saveLocations (rows : List (SheetCode × ℕ)) (codes : List SheetCode) : List SheetCode :=
  codes.map (located rows)

/-! ## The task -/

/-- The sheet of a contract and its tab. -/
structure SheetTarget where
  googleSheetTarget : String
  googleSheetTargetTab : String
  deriving DecidableEq, Repr

/-- A contract with its codes, the targets of its revisions with the newest first, and all worksheets. -/
structure SheetState (σ : Type) where
  membershipType : MembershipType
  maxLearners : Option ℕ
  target : SheetTarget
  revisions : List SheetTarget
  codes : List SheetCode
  sheets : SheetTarget → σ

/-- The handler can be made. -/
def SheetState.hasHandler (s : SheetState σ) : Bool :=
  s.target.googleSheetTarget ≠ "" && !contractMembershipAutos.contains s.membershipType

def SheetState.sheet (s : SheetState σ) : σ := s.sheets s.target

def SheetState.setSheet (s : SheetState σ) (sheet : σ) : SheetState σ :=
  { s with sheets := Function.update s.sheets s.target sheet }

def SheetState.sortedCodes (s : SheetState σ) : List SheetCode := getSortedCodes s.codes s.maxLearners

/-- A loop over the codes, and the locations that are saved at its end. -/
def SheetState.writeAll (ops : SheetOps σ) (str : Instant → String) (place : Placing σ)
    (sent : ℕ → Transmission SheetError) (sheet : σ) (s : SheetState σ) : SheetState σ × Option SheetError :=
  match writeRounds ops str place sent 0 sheet s.sortedCodes with
  | (sheet', .error e) => (s.setSheet sheet', some e)
  | (sheet', .ok rows) => ({ s.setSheet sheet' with codes := saveLocations rows s.codes }, none)

/-- `write_codes`; the first request writes the header. -/
def SheetState.writeCodes (ops : SheetOps σ) (str : Instant → String) (sent : ℕ → Transmission SheetError)
    (s : SheetState σ) : SheetState σ × Option SheetError :=
  match sent 0, ops.updateRow s.sheet rowZero defaultColumns with
  | .failed e, _ => (s, some e)
  | _, .error e => (s, some e)
  | .lost e, .ok sheet => (s.setSheet sheet, some e)
  | .answered, .ok sheet => s.writeAll ops str placeInOrder (fun i => sent (i + 1)) sheet

/-- `update_sheet` -/
def SheetState.updateSheet (ops : SheetOps σ) (str : Instant → String) (sent : ℕ → Transmission SheetError)
    (s : SheetState σ) : SheetState σ × Option SheetError :=
  s.writeAll ops str (placeWhereItIs ops) sent s.sheet

/-- The sheet of the contract was changed between the last two revisions, or there are none to compare. -/
def SheetState.startsOver (s : SheetState σ) : Bool :=
  match s.revisions with
  | last :: previous :: _ => decide (last ≠ previous)
  | _ => true

/-- `queue_contract_sheet_update_post_save` -/
def SheetState.postSave (ops : SheetOps σ) (str : Instant → String) (onlyUpdate : Bool)
    (sent : ℕ → Transmission SheetError) (s : SheetState σ) : SheetState σ × Option SheetError :=
  if s.hasHandler = false then (s, none)
  else if onlyUpdate = false ∧ s.startsOver = true then s.writeCodes ops str sent
  else s.updateSheet ops str sent

/-! ## What happens to the sheets -/

inductive SheetEvent (σ : Type) where
  | postSave (onlyUpdate : Bool) (sent : ℕ → Transmission SheetError)
  /-- Codes are made, assigned, redeemed and removed. -/
  | database (codes : List SheetCode)
  /-- The page of the contract is saved. -/
  | save (membershipType : MembershipType) (maxLearners : Option ℕ) (target : SheetTarget)
  /-- The customer edits a worksheet. -/
  | customer (target : SheetTarget) (sheet : σ)

def SheetState.event (ops : SheetOps σ) (str : Instant → String) (s : SheetState σ) :
    SheetEvent σ → SheetState σ
  | .postSave onlyUpdate sent => (s.postSave ops str onlyUpdate sent).1
  | .database codes => { s with codes := codes }
  | .save membershipType maxLearners target =>
    { s with
      membershipType := membershipType
      maxLearners := maxLearners
      target := target
      revisions := target :: s.revisions }
  | .customer target sheet => { s with sheets := Function.update s.sheets target sheet }

end MitxOnline

import MitxOnline.B2b.ContractRunKeys
import MitxOnline.FlexiblePricing.Approval
import MitxOnline.Lib.Autocommit
import MitxOnline.Lib.Table

/-!
# The command that sets up tiers (`flexiblepricing/management/commands/configure_tiers.py`)

For every row of a table of tiers the command looks for a discount of the courseware and the year that has the
type and the amount of the row, creates one where there is none, and links the tier of the threshold to it. The
other discounts of the courseware expire, and their tiers are switched off. The code runs outside a transaction.
-/

namespace MitxOnline

open Autocommit FixedPoint

/-! ## The database -/

/-- A row of `Discount`: the columns that the command reads or writes. -/
structure FinaidDiscount where
  discountCode : Text
  discountType : Text
  amount : Decimal 5
  paymentType : Option PaymentType
  redemptionType : RedemptionType
  activationDate : Option Instant
  expirationDate : Option Instant
  deriving DecidableEq

/-- `Discount.valid_now` -/
def FinaidDiscount.validNow (d : FinaidDiscount) (now : Instant) : Bool :=
  !(d.activationDate.any fun activation => decide (now < activation)) &&
    !(d.expirationDate.any fun expiration => decide (expiration ≤ now))

/-- A row of `FlexiblePriceTier`. The thresholds of a column of floats are rational numbers; those that are
whole numbers are taken as exact. -/
structure StoredTier extends FlexiblePriceTier where
  courseware : Courseware
  incomeThresholdUsd : ℚ
  deriving DecidableEq

structure TierDb where
  discounts : Table FinaidDiscount
  tiers : Table StoredTier

/-- The order in which a query that asks for none lists its rows. -/
structure DiscountOrder where
  list : List DiscountId → List DiscountId
  perm : ∀ rows, (list rows).Perm rows

/-! ## The tables of tiers -/

inductive TierCommandError where
  | valueError
  | validationError
  | integrityError
  | dataError
  | multipleObjectsReturned
  deriving DecidableEq, Repr

/-- The courseware, the year and the environment of the command. -/
structure TierCommand where
  isCourse : Bool
  id : ℕ
  readableId : Text
  currentYear : ℕ
  /-- The first of January of the year before. -/
  lastYear : Instant
  /-- What the column of amounts holds of a text, if it takes it. -/
  toDecimal : Text → Option (Decimal 5)

def TierCommand.courseware (cmd : TierCommand) : Courseware :=
  if cmd.isCourse = true then .course cmd.id else .program cmd.id

/-- A row of the file. A field that is missing at the end of a line is null. -/
structure TierInfoRow where
  threshold : Text
  discountType : Option Text
  value : Option Text
  deriving DecidableEq

/-- The amount of a discount in a table: a number of the default table, or what the file has. -/
inductive TierAmount where
  | number (n : ℕ)
  | field (value : Option Text)
  deriving DecidableEq

/-- A row of a table, with the code of the discount that is created for it. -/
structure TierConfig where
  threshold : ℚ
  discountCode : Text
  discountType : Option Text
  amount : TierAmount
  deriving DecidableEq

/-- What the codes of the discounts of the courseware begin with. -/
def TierCommand.codePrefix (cmd : TierCommand) : Text := cmd.readableId ++ "-fa-tier".toList

def TierCommand.yearText (cmd : TierCommand) : Text := Nat.toDigits 10 cmd.currentYear

def TierCommand.discountCode (cmd : TierCommand) (tier : ℕ) : Text :=
  cmd.codePrefix ++ (Nat.toDigits 10 tier ++ '-' :: cmd.yearText)

def percentOffText : Text := "percent-off".toList

def dollarsOffText : Text := "dollars-off".toList

/-- The type of the discounts of the first three default tiers. -/
def TierCommand.defaultType (cmd : TierCommand) : Text :=
  if cmd.isCourse = true then percentOffText else dollarsOffText

/-- The default table. -/
def TierCommand.defaultTiers (cmd : TierCommand) : List TierConfig :=
  [⟨0, cmd.discountCode 1, some cmd.defaultType, .number (if cmd.isCourse = true then 75 else 750)⟩,
    ⟨25000, cmd.discountCode 2, some cmd.defaultType, .number (if cmd.isCourse = true then 50 else 650)⟩,
    ⟨50000, cmd.discountCode 3, some cmd.defaultType, .number (if cmd.isCourse = true then 25 else 500)⟩,
    ⟨75000, cmd.discountCode 4, some percentOffText, .number 0⟩]

/-- The rows of a file, from the row of a number on; a threshold that `int` does not read raises. -/
def TierCommand.readTierInfo (cmd : TierCommand) :
    ℕ → List TierInfoRow → Except TierCommandError (List TierConfig)
  | _, [] => .ok []
  | idx, row :: rest =>
    match readInt (String.ofList row.threshold) with
    | none => .error .valueError
    | some n => do
      let configs ← cmd.readTierInfo (idx + 1) rest
      .ok (⟨n, cmd.discountCode (idx + 1), row.discountType, .field row.value⟩ :: configs)

/-- The table of a run: the default one, or that of a file. -/
def TierCommand.discountsAndTiers (cmd : TierCommand) (tierInfo : Option (List TierInfoRow)) :
    Except TierCommandError (List TierConfig) :=
  match tierInfo with
  | none => .ok cmd.defaultTiers
  | some rows => cmd.readTierInfo 0 rows

/-- `found_zero_tier`, for a file. -/
def foundZeroTier (rows : List TierInfoRow) : Bool :=
  rows.any fun row => readInt (String.ofList row.threshold) == some 0

/-! ## Discounts -/

/-- `tier_config["discount"]["amount"] == discount.amount`: a text equals no decimal. -/
def TierAmount.equals : TierAmount → Decimal 5 → Bool
  | .number n, amount => amount == ⟨n * 10 ^ 5⟩
  | .field _, _ => false

/-- What the column of amounts holds of an amount. -/
def TierAmount.column (toDecimal : Text → Option (Decimal 5)) :
    TierAmount → Except TierCommandError (Decimal 5)
  | .number n => .ok ⟨n * 10 ^ 5⟩
  | .field none => .error .integrityError
  | .field (some text) =>
    match toDecimal text with
    | none => .error .validationError
    | some amount => .ok amount

/-- The test of a row on a discount that is there. -/
def TierConfig.suits (c : TierConfig) (now : Instant) (d : FinaidDiscount) : Bool :=
  d.validNow now && c.discountType == some d.discountType && c.amount.equals d.amount

/-- `Discount(**tier_config["discount"], …).save()` -/
def TierCommand.newDiscount (cmd : TierCommand) (c : TierConfig) :
    Except TierCommandError FinaidDiscount := do
  let amount ← c.amount.column cmd.toDecimal
  match c.discountType with
  | none => .error .integrityError
  | some discountType =>
    if 30 < discountType.length ∨ 100 < c.discountCode.length then .error .dataError
    else .ok ⟨c.discountCode, discountType, amount, some .financialAssistance, .unlimited, none, none⟩

/-- The discounts of the courseware. -/
def TierCommand.hasPrefix (cmd : TierCommand) (d : FinaidDiscount) : Bool :=
  cmd.codePrefix.isPrefixOf d.discountCode

/-- The discounts of the courseware and the year. -/
def TierCommand.ofYear (cmd : TierCommand) (d : FinaidDiscount) : Bool :=
  cmd.hasPrefix d && cmd.yearText.isSuffixOf d.discountCode

/-- The discount that a row finds among those that are there when the run begins. -/
def TierCommand.findDiscount (cmd : TierCommand) (now : Instant) (order : DiscountOrder) (db : TierDb)
    (c : TierConfig) : Option DiscountId :=
  (order.list (db.discounts.keysWhere fun _ d => cmd.ofYear d)).find? fun k =>
    c.suits now (db.discounts.row k)

/-! ## Tiers -/

/-- The tiers of the courseware with a threshold. -/
def TierCommand.tiersAt (cmd : TierCommand) (threshold : ℚ) (tiers : Table StoredTier) : List TierId :=
  tiers.keysWhere fun _ tier =>
    decide (tier.incomeThresholdUsd = threshold) && decide (tier.courseware = cmd.courseware)

/-- `FlexiblePriceTier.objects.update_or_create` -/
def TierCommand.updateOrCreateTier (cmd : TierCommand) (threshold : ℚ) (discount : DiscountId)
    (tiers : Table StoredTier) : Except TierCommandError (Table StoredTier) :=
  match cmd.tiersAt threshold tiers with
  | [] => .ok (tiers.create ⟨⟨discount, true⟩, cmd.courseware, threshold⟩)
  | [k] => .ok (tiers.set k { tiers.row k with discount := discount, current := true })
  | _ => .error .multipleObjectsReturned

/-! ## The command -/

/-- The database, and `matched_discounts`. -/
structure TierProgress where
  db : TierDb
  matched : List DiscountId

/-- The tier of a row, linked to its discount. -/
def TierCommand.assignTier (cmd : TierCommand) (c : TierConfig) (discount : DiscountId) :
    Action TierProgress TierCommandError := fun p =>
  match cmd.updateOrCreateTier c.threshold discount p.db.tiers with
  | .error e => ⟨{ p with matched := p.matched ++ [discount] }, some e⟩
  | .ok tiers => ⟨⟨{ p.db with tiers := tiers }, p.matched ++ [discount]⟩, none⟩

/-- The round of the loop for a row, with the discount that was found for it. -/
def TierCommand.configureTier (cmd : TierCommand) (found : TierConfig → Option DiscountId)
    (c : TierConfig) : Action TierProgress TierCommandError := fun p =>
  match found c with
  | some discount => cmd.assignTier c discount p
  | none =>
    match cmd.newDiscount c with
    | .error e => ⟨p, some e⟩
    | .ok row =>
      cmd.assignTier c p.db.discounts.nextKey
        { p with db := { p.db with discounts := p.db.discounts.create row } }

/-- The discounts of the courseware that no row matched. -/
def TierCommand.isUnmatched (cmd : TierCommand) (matched : List DiscountId) (k : DiscountId)
    (d : FinaidDiscount) : Bool := cmd.hasPrefix d && !matched.contains k

/-- The end of the command: other discounts expire, and their tiers are switched off. -/
def TierCommand.expireUnmatched (cmd : TierCommand) (p : TierProgress) : TierDb :=
  let discounts := p.db.discounts.updateWhere (cmd.isUnmatched p.matched) fun d =>
    { d with expirationDate := some cmd.lastYear }
  let unmatched := discounts.keysWhere (cmd.isUnmatched p.matched)
  { discounts := discounts
    tiers := p.db.tiers.updateWhere
      (fun _ tier => decide (tier.courseware = cmd.courseware) && unmatched.contains tier.discount)
      fun tier => { tier with current := false } }

/-- `Command.handle`, once the courseware is found. -/
def TierCommand.handle (cmd : TierCommand) (now : Instant) (order : DiscountOrder)
    (tierInfo : Option (List TierInfoRow)) : Action TierDb TierCommandError := fun db =>
  match cmd.discountsAndTiers tierInfo with
  | .error e => ⟨db, some e⟩
  | .ok configs =>
    if tierInfo.any (fun rows => !foundZeroTier rows) = true then ⟨db, none⟩
    else
      let out := seq (configs.map (cmd.configureTier (cmd.findDiscount now order db))) ⟨db, []⟩
      match out.error with
      | some e => ⟨out.state.db, some e⟩
      | none => ⟨cmd.expireUnmatched out.state, none⟩

end MitxOnline

import MitxOnline.FlexiblePricing.Approval
import MitxOnline.Lib.Autocommit
import MitxOnline.Lib.Table

/-!
# Requests for financial assistance (`cms/models.py`, `flexiblepricing/views/v0`)

A learner fills in the form of a course or a program. The income gets a tier, and the request is approved
at once or waits for the staff, who may change it later. A request that was reset can be made again. The
statements of a submission are not in a transaction.
-/

namespace MitxOnline

open Autocommit

abbrev RequestId := ℕ
abbrev SubmissionId := ℕ
abbrev FormPageId := ℕ

/-! ## The database -/

/-- What a learner answers, as the fields of the form read it. -/
structure FormAnswers where
  yourIncome : ℤ
  incomeCurrency : String
  countryOfIncome : String
  countryOfResidence : String
  deriving DecidableEq, Repr

/-- A row of `FlexiblePrice`. -/
structure PriceRequest (α : Type) extends FlexiblePrice where
  user : UserId
  courseware : Courseware
  createdOn : Instant
  incomeUsd : Option α
  originalIncome : Option α
  originalCurrency : Option String
  countryOfIncome : Option String
  countryOfResidence : String
  dateExchangeRate : Option Instant
  dateDocumentsSent : Option Instant
  justification : Option String
  cmsSubmission : Option SubmissionId
  deriving DecidableEq, Repr

/-- A row of `FlexiblePricingRequestSubmission`. -/
structure FormSubmission where
  formData : FormAnswers
  page : FormPageId
  user : UserId
  deriving DecidableEq, Repr

/-- The tables that the staff and the periodic tasks fill. -/
structure PricingTables (α : Type) where
  /-- The rows of `FlexiblePriceTier`, in the order in which the database reads them. -/
  tiers : List (IncomeTier α)
  tiers_nodup : (tiers.map (·.id)).Nodup
  discount : DiscountId → Discount
  /-- The rows of `CurrencyExchangeRate`. -/
  exchangeRate : String → Option α
  /-- The rows of `CountryIncomeThreshold`. -/
  incomeThreshold : String → Option ℤ

structure PricingDb (α : Type) where
  requests : Table (PriceRequest α)
  submissions : Table FormSubmission
  tables : PricingTables α

/-- The courses and programs. -/
structure FinaidCatalog where
  course : RunId → CourseId
  programs : CourseId → List ProgramId
  program : ProgramRunId → ProgramId
  relatedPrograms : List (ProgramId × ProgramId)

variable {α : Type}

def PricingTables.tierRow (tables : PricingTables α) (t : TierId) : FlexiblePriceTier :=
  match tables.tiers.find? fun tier => tier.id == t with
  | some tier => tier.toFlexiblePriceTier
  | none => { discount := 0, current := false }

/-- The request of a user for a courseware. -/
def PricingDb.requestFor (db : PricingDb α) (user : UserId) (courseware : Courseware) : Option RequestId :=
  db.requests.first fun _ row => row.user == user && row.courseware == courseware

/-- The tables as the checks of an approval read them. -/
def PricingDb.finaid (cat : FinaidCatalog) (db : PricingDb α) : Finaid where
  course := cat.course
  programs := cat.programs
  program := cat.program
  relatedPrograms := cat.relatedPrograms
  tier := db.tables.tierRow
  discount := db.tables.discount
  flexiblePrice user courseware :=
    (db.requestFor user courseware).map fun k => (db.requests.row k).toFlexiblePrice

/-- `Program.related_programs` -/
def FinaidCatalog.related (cat : FinaidCatalog) (p : ProgramId) : List ProgramId :=
  cat.relatedPrograms.filterMap fun row =>
    if row.1 = p then some row.2 else if row.2 = p then some row.1 else none

/-! ## The courseware of a form -/

/-- The page above a form, if it is one of a course or a program; either may have been deleted. -/
inductive ProductPage where
  | coursePage (course : Option CourseId)
  | programPage (program : Option ProgramId)
  deriving DecidableEq, Repr

/-- `FlexiblePricingRequestForm` -/
structure RequestForm where
  page : FormPageId
  parentProductPage : Option ProductPage
  selectedCourse : Option CourseId
  selectedProgram : Option ProgramId

inductive RequestError where
  | validationError (msg : String)
  | improperlyConfigured (e : TierError)
  | attributeError (msg : String)
  | valueError (msg : String)
  | overflowError
  | zeroDivisionError
  | integrityError
  | notFound
  /-- Any other exception. -/
  | failure
  deriving DecidableEq, Repr

/-- The first program of a course, or the course if it has none. -/
def FinaidCatalog.programOrCourse (cat : FinaidCatalog) (c : CourseId) : Courseware :=
  match cat.programs c with
  | p :: _ => .program p
  | [] => .course c

/-- `get_parent_courseware` -/
def getParentCourseware (cat : FinaidCatalog) (form : RequestForm) :
    Except RequestError (Option Courseware) :=
  match form.selectedProgram, form.selectedCourse, form.parentProductPage with
  | some p, _, _ => .ok (some (.program p))
  | none, some c, _ => .ok (some (cat.programOrCourse c))
  | none, none, none => .ok none
  | none, none, some (.programPage p) => .ok (p.map .program)
  | none, none, some (.coursePage (some c)) => .ok (some (cat.programOrCourse c))
  | none, none, some (.coursePage none) =>
    .error (.attributeError "'NoneType' object has no attribute 'programs'")

/-- The coursewares whose requests `get_previous_submission` looks for. -/
def FinaidCatalog.coursewaresCounted (cat : FinaidCatalog) : Courseware → List Courseware
  | .course c =>
    if 0 < (cat.programs c).length then
      .course c :: ((cat.programs c).flatMap fun p => p :: cat.related p).map .program
    else [.course c]
  | .program p => (p :: cat.related p).map .program
  | .courseRun r => [.program r]
  | .programRun r => [.program r]

/-- The request that was created last; of requests of one instant the first. -/
def latestOf (createdOn : RequestId → Instant) : List RequestId → Option RequestId
  | [] => none
  | k :: rest =>
    match latestOf createdOn rest with
    | none => some k
    | some l => if createdOn k < createdOn l then some l else some k

/-- `get_previous_submission` -/
def getPreviousSubmission (cat : FinaidCatalog) (db : PricingDb α) :
    Option Courseware → Option UserId → Option RequestId
  | some courseware, some user =>
    latestOf (fun k => (db.requests.row k).createdOn) (db.requests.keysWhere fun _ row =>
      row.user == user && (cat.coursewaresCounted courseware).contains row.courseware)
  | _, _ => none

/-! ## The decision -/

/-- The floats of the columns and what the code computes with them. -/
structure Floats (α : Type) where
  /-- A whole number that is too large for a float raises. -/
  ofInt : ℤ → Option α
  /-- Dividing by zero raises. -/
  div : α → α → Option α
  /-- `round(_, 2)` -/
  round : α → α
  exceeds : α → ℤ → Bool

/-- `DEFAULT_INCOME_THRESHOLD` -/
def defaultIncomeThreshold : ℤ := 75000

/-- `determine_income_usd` -/
def determineIncomeUsd (fl : Floats α) (tables : PricingTables α) (originalIncome : ℤ)
    (originalCurrency : String) : Except RequestError α :=
  if originalCurrency = "USD" then
    match fl.ofInt originalIncome with
    | none => .error .overflowError
    | some income => .ok income
  else
    match tables.exchangeRate originalCurrency, fl.ofInt originalIncome with
    | none, _ => .error (.validationError "Currency not supported")
    | some _, none => .error .overflowError
    | some rate, some income =>
      match fl.div income rate with
      | none => .error .zeroDivisionError
      | some incomeUsd => .ok incomeUsd

/-- `determine_auto_approval` -/
def determineAutoApproval (fl : Floats α) (tables : PricingTables α) (countryOfIncome : String)
    (incomeUsd : α) (tier : TierId) : Bool :=
  let incomeThreshold := (tables.incomeThreshold countryOfIncome).getD defaultIncomeThreshold
  if (tables.discount (tables.tierRow tier).discount).amount.units = 0 then true
  else if incomeThreshold = 0 then true
  else fl.exceeds incomeUsd incomeThreshold

/-- `process_form_submission` up to the tier: the courseware, the income and the tier. -/
def decideTier [LinearOrder α] (fl : Floats α) (cat : FinaidCatalog) (form : RequestForm)
    (answers : FormAnswers) (db : PricingDb α) : Except RequestError (Courseware × α × TierId) := do
  let converted ← determineIncomeUsd fl db.tables answers.yourIncome answers.incomeCurrency
  let some courseware ← getParentCourseware cat form
    | .error (.attributeError "'NoneType' object has no attribute '_meta'")
  let incomeUsd := fl.round converted
  match determineTierCourseware (db.finaid cat) db.tables.tiers courseware incomeUsd with
  | .error e => .error (.improperlyConfigured e)
  | .ok tier => .ok (courseware, incomeUsd, tier.id)

/-! ## Submissions -/

/-- The statements that can fail. -/
inductive RequestPoint where
  | submission
  | save
  /-- `process_flexible_price_discount_task.delay`, which a signal of `save` calls. -/
  | delay
  | notify
  deriving DecidableEq, Repr

/-- Which statements fail, and how. -/
abbrev RequestFaults := RequestPoint → Option RequestError

/-- What a submission writes into a request. -/
def PriceRequest.decide (fl : Floats α) (tables : PricingTables α) (now : Instant) (answers : FormAnswers)
    (incomeUsd : α) (tier : TierId) (submission : SubmissionId) (row : PriceRequest α) : PriceRequest α :=
  { row with
    originalIncome := fl.ofInt answers.yourIncome
    originalCurrency := some answers.incomeCurrency
    countryOfIncome := some answers.countryOfIncome
    countryOfResidence := answers.countryOfResidence
    incomeUsd := some incomeUsd
    dateExchangeRate := some now
    cmsSubmission := some submission
    tier := some tier
    justification := some ""
    status :=
      if determineAutoApproval fl tables answers.countryOfIncome incomeUsd tier = true then .autoApproved
      else .pendingManualApproval }

/-- `FlexiblePrice(user=…, courseware_object=…)` -/
def newRequest (now : Instant) (user : UserId) (courseware : Courseware) : PriceRequest α where
  status := .created
  tier := none
  user := user
  courseware := courseware
  createdOn := now
  incomeUsd := none
  originalIncome := none
  originalCurrency := none
  countryOfIncome := none
  countryOfResidence := ""
  dateExchangeRate := none
  dateDocumentsSent := none
  justification := none
  cmsSubmission := none

/-- `_should_process_flexible_price` -/
def FlexiblePriceStatus.shouldProcess (status : FlexiblePriceStatus) : Bool :=
  status == .approved || status == .autoApproved

/-- What the signal of a save raises, once the row is saved. -/
def handleFlexiblePriceSave (f : RequestFaults) (row : PriceRequest α) : Option RequestError :=
  if row.status.shouldProcess = true then f .delay else none

/-- `save` of a new request: a user has one for a courseware. -/
def insertRequest (f : RequestFaults) (row : PriceRequest α) : Action (PricingDb α) RequestError :=
  fun db =>
    match f .save, db.requestFor row.user row.courseware with
    | some e, _ => ⟨db, some e⟩
    | none, some _ => ⟨db, some .integrityError⟩
    | none, none => ⟨{ db with requests := db.requests.create row }, handleFlexiblePriceSave f row⟩

/-- `save` of a request that exists. -/
def saveRequest (f : RequestFaults) (k : RequestId) (row : PriceRequest α) :
    Action (PricingDb α) RequestError := fun db =>
  match f .save with
  | some e => ⟨db, some e⟩
  | none => ⟨{ db with requests := db.requests.set k row }, handleFlexiblePriceSave f row⟩

/-- `process_form_submission` from the search for a previous request on. -/
def submitRequest (fl : Floats α) (cat : FinaidCatalog) (now : Instant) (f : RequestFaults) (user : UserId)
    (answers : FormAnswers) (courseware : Courseware) (incomeUsd : α) (tier : TierId)
    (submission : SubmissionId) : Action (PricingDb α) RequestError := fun db =>
  match getPreviousSubmission cat db (some courseware) (some user) with
  | none => insertRequest f
      ((newRequest now user courseware).decide fl db.tables now answers incomeUsd tier submission) db
  | some k =>
    if (db.requests.row k).status ≠ .reset then
      ⟨db, some (.validationError
        "A Flexible Price request already exists for this user and course or program.")⟩
    else saveRequest f k
      ((db.requests.row k).decide fl db.tables now answers incomeUsd tier submission) db

/-- `process_form_submission` -/
def processFormSubmission [LinearOrder α] (fl : Floats α) (cat : FinaidCatalog) (form : RequestForm)
    (now : Instant) (f : RequestFaults) (user : Option UserId) (answers : FormAnswers) :
    Action (PricingDb α) RequestError := fun db =>
  match decideTier fl cat form answers db, user, f .submission with
  | .error e, _, _ => ⟨db, some e⟩
  | .ok _, none, _ => ⟨db, some (.valueError "Cannot assign \"AnonymousUser\"")⟩
  | .ok _, some _, some e => ⟨db, some e⟩
  | .ok (courseware, incomeUsd, tier), some user, none =>
    submitRequest fl cat now f user answers courseware incomeUsd tier db.submissions.nextKey
      { db with submissions := db.submissions.create ⟨answers, form.page, user⟩ }

/-- `serve`, of a form that is posted. `answers` are those that the fields of the form accept: without
them, and where there is a request that was not reset, the form is shown again. -/
def serve [LinearOrder α] (fl : Floats α) (cat : FinaidCatalog) (form : RequestForm) (now : Instant)
    (f : RequestFaults) (user : Option UserId) (answers : Option FormAnswers) :
    Action (PricingDb α) RequestError := fun db =>
  match getParentCourseware cat form with
  | .error e => ⟨db, some e⟩
  | .ok courseware =>
    if (getPreviousSubmission cat db courseware user).any
        fun k => decide ((db.requests.row k).status ≠ .reset) then skip db
    else
      match answers with
      | none => skip db
      | some answers => processFormSubmission fl cat form now f user answers db

/-! ## The API -/

/-- The fields that both serializers write; a field that is missing is left as it is. -/
structure RequestEdit where
  status : Option FlexiblePriceStatus
  countryOfIncome : Option (Option String)
  dateExchangeRate : Option (Option Instant)
  dateDocumentsSent : Option (Option Instant)
  justification : Option (Option String)
  countryOfResidence : Option String
  deriving DecidableEq, Repr

/-- The fields of `FlexiblePriceSerializer`. -/
structure LearnerEdit (α : Type) extends RequestEdit where
  incomeUsd : Option (Option α)
  originalIncome : Option (Option α)
  originalCurrency : Option (Option String)

/-- The fields of `FlexiblePriceAdminSerializer`, with the `id` of the discount that was selected. -/
structure StaffEdit extends RequestEdit where
  discountId : Option DiscountId
  deriving DecidableEq, Repr

def RequestEdit.apply (edit : RequestEdit) (row : PriceRequest α) : PriceRequest α :=
  { row with
    status := edit.status.getD row.status
    countryOfIncome := edit.countryOfIncome.getD row.countryOfIncome
    dateExchangeRate := edit.dateExchangeRate.getD row.dateExchangeRate
    dateDocumentsSent := edit.dateDocumentsSent.getD row.dateDocumentsSent
    justification := edit.justification.getD row.justification
    countryOfResidence := edit.countryOfResidence.getD row.countryOfResidence }

def LearnerEdit.apply (edit : LearnerEdit α) (row : PriceRequest α) : PriceRequest α :=
  { edit.toRequestEdit.apply row with
    incomeUsd := edit.incomeUsd.getD row.incomeUsd
    originalIncome := edit.originalIncome.getD row.originalIncome
    originalCurrency := edit.originalCurrency.getD row.originalCurrency }

/-- The first current tier of a courseware with a discount. -/
def PricingTables.tierWith (tables : PricingTables α) (courseware : Courseware) (d : DiscountId) :
    Option TierId :=
  ((currentTiers tables.tiers courseware).filter fun tier => tier.discount == d).map (·.id) |>.min?

/-- `FlexiblePriceAdminSerializer.update`, up to the save. -/
def StaffEdit.selectTier (edit : StaffEdit) (tables : PricingTables α) (row : PriceRequest α) :
    Except RequestError (PriceRequest α) :=
  match edit.discountId with
  | none => .ok row
  | some d =>
    if d = 0 then .ok row
    else
      match row.tier with
      | none => .error (.attributeError "'NoneType' object has no attribute 'discount_id'")
      | some t =>
        if d = (tables.tierRow t).discount then .ok row
        else .ok { row with tier := tables.tierWith row.courseware d }

/-- `FlexiblePriceViewSet.update`: learners see their own requests. -/
def learnerUpdate (f : RequestFaults) (user : UserId) (k : RequestId) (edit : LearnerEdit α) :
    Action (PricingDb α) RequestError := fun db =>
  if k ∈ db.requests.keys ∧ (db.requests.row k).user = user then
    saveRequest f k (edit.apply (db.requests.row k)) db
  else ⟨db, some .notFound⟩

/-- The response of the staff's API, which has the discount of the tier. -/
def showRequest (k : RequestId) : Action (PricingDb α) RequestError := fun db =>
  match (db.requests.row k).tier with
  | none => ⟨db, some (.attributeError "'NoneType' object has no attribute 'discount'")⟩
  | some _ => ⟨db, none⟩

/-- The email about the new status. -/
def notifyLearner (f : RequestFaults) : Action (PricingDb α) RequestError := fun db => ⟨db, f .notify⟩

/-- `FlexiblePriceAdminViewSet.update` -/
def staffUpdate (f : RequestFaults) (k : RequestId) (edit : StaffEdit) :
    Action (PricingDb α) RequestError := fun db =>
  if k ∈ db.requests.keys then
    match edit.selectTier db.tables (db.requests.row k) with
    | .error e => ⟨db, some e⟩
    | .ok row => atomic (seq [saveRequest f k (edit.apply row), showRequest k, notifyLearner f]) db
  else ⟨db, some .notFound⟩

/-! ## Runs -/

/-- What happens to requests: a form is posted, a learner or the staff writes a request or deletes it, or the
tables of tiers, discounts, rates and thresholds change. -/
inductive RequestEvent (α : Type) where
  | submit (form : RequestForm) (now : Instant) (f : RequestFaults) (user : Option UserId)
      (answers : Option FormAnswers)
  | learnerUpdate (f : RequestFaults) (user : UserId) (k : RequestId) (edit : LearnerEdit α)
  | learnerDelete (user : UserId) (k : RequestId)
  | staffUpdate (f : RequestFaults) (k : RequestId) (edit : StaffEdit)
  | staffDelete (k : RequestId)
  | configure (tables : PricingTables α)

/-- New tables; a tier that is deleted takes its requests with it. -/
def PricingDb.configure (db : PricingDb α) (tables : PricingTables α) : PricingDb α :=
  { db with
    requests := db.requests.deleteWhere fun _ row =>
      row.tier.any fun t => !(tables.tiers.map (·.id)).contains t
    tables := tables }

/-- What an event leaves. -/
def requestStep [LinearOrder α] (fl : Floats α) (cat : FinaidCatalog) (db : PricingDb α) :
    RequestEvent α → PricingDb α
  | .submit form now f user answers => (serve fl cat form now f user answers db).state
  | .learnerUpdate f user k edit => (learnerUpdate f user k edit db).state
  | .learnerDelete user k =>
    if (db.requests.row k).user = user then { db with requests := db.requests.erase k } else db
  | .staffUpdate f k edit => (staffUpdate f k edit db).state
  | .staffDelete k => { db with requests := db.requests.erase k }
  | .configure tables => db.configure tables

end MitxOnline

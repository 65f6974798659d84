import MitxOnline.Ecommerce.Discounts

/-!
# How discounts come about (`ecommerce/api.py`, `ecommerce/serializers`)

Batches of codes are made by `generate_discount_code`, single discounts by the serializer of the discount
API. Amounts are given with at most five digits after the point, which is what the column holds.
-/

namespace MitxOnline

open FixedPoint

/-- A value of `ALL_DISCOUNT_TYPES`. -/
def DiscountType.ofString : String → Option DiscountType
  | "percent-off" => some .percentOff
  | "dollars-off" => some .dollarsOff
  | "fixed-price" => some .fixedPrice
  | _ => none

/-- A value of `ALL_PAYMENT_TYPES`. -/
def PaymentType.ofString : String → Option PaymentType
  | "marketing" => some .marketing
  | "sales" => some .sales
  | "financial-assistance" => some .financialAssistance
  | "customer-support" => some .customerSupport
  | "staff" => some .staff
  | "legacy" => some .legacy
  | _ => none

/-- A value of `ALL_REDEMPTION_TYPES`. -/
def RedemptionType.ofString : String → Option RedemptionType
  | "one-time" => some .oneTime
  | "one-time-per-user" => some .oneTimePerUser
  | "unlimited" => some .unlimited
  | _ => none

/-! ## Rows -/

/-- `Discount.check_date_validity` refuses the dates. -/
def Discount.datesInvalid (d : Discount) (now : Instant) : Bool :=
  match d.expirationDate with
  | none => false
  | some expiration =>
    decide (expiration < now) || d.activationDate.any fun activation => decide (expiration < activation)

/-- `Discount.save` of a row with a code. The amount has at most twenty digits, the code at most a hundred
characters. -/
def Discount.save (now : Instant) (code : String) (d : Discount) : Except Error (String × Discount) :=
  if d.datesInvalid now = true then
    .error (.validationError "Expiration date must be in the future and after the activation date.")
  else if 10 ^ 20 ≤ d.amount.units.natAbs ∨ 100 < code.length then .error .failure
  else .ok (code, d)

/-- The rows that were saved, and the exception that ended it. -/
structure Generation (ε : Type) where
  created : List (String × Discount)
  error : Option ε

/-- Save a discount with one code after the other. -/
def createRows (now : Instant) (d : Discount) : List String → Generation Error
  | [] => ⟨[], none⟩
  | code :: codes =>
    match d.save now code with
    | .error e => ⟨[], some e⟩
    | .ok row => ⟨row :: (createRows now d codes).created, (createRows now d codes).error⟩

/-! ## `generate_discount_code` -/

/-- The keyword arguments; an argument that may be missing is optional. A prefix may be given as null. -/
structure GenerateArguments where
  discountType : String
  paymentType : String
  amount : Decimal 5
  count : ℤ
  codePrefix : Option (Option String)
  codes : List String
  oneTime : Bool
  oncePerUser : Bool
  redemptionType : Option String
  expires : Option String
  activates : Option String
  deriving DecidableEq

/-- What the function raises. -/
inductive GenerateError where
  | discountTypeNotValid (discountType : String)
  | paymentTypeNotValid (paymentType : String)
  | amountNotValid (amount : Decimal 5)
  | prefixMissing
  | prefixTooLong (codePrefix : String)
  | raised (e : Error)
  deriving DecidableEq

/-- The codes to generate. `uuid4` are the ids that are drawn. -/
def codesToGenerate (uuid4 : ℕ → String) (kwargs : GenerateArguments) :
    Except GenerateError (List String) :=
  if 1 < kwargs.count then
    match kwargs.codePrefix with
    | none => .error .prefixMissing
    | some none => .error (.raised (.typeError "object of type 'NoneType' has no len()"))
    | some (some codePrefix) =>
      if 63 < codePrefix.length then .error (.prefixTooLong codePrefix)
      else .ok ((List.range kwargs.count.toNat).map fun i => codePrefix ++ uuid4 i)
  else .ok kwargs.codes

/-- The redemption type: that of the argument if it is valid, or else by the flags. -/
def GenerateArguments.redemption (kwargs : GenerateArguments) : RedemptionType :=
  match kwargs.redemptionType.bind RedemptionType.ofString with
  | some redemptionType => redemptionType
  | none =>
    if kwargs.oncePerUser = true then .oneTimePerUser
    else if kwargs.oneTime = true then .oneTime
    else .unlimited

/-- The discount and payment type, after the checks of the types and of the amount. -/
def checkedTypes (kwargs : GenerateArguments) : Except GenerateError (DiscountType × PaymentType) :=
  match DiscountType.ofString kwargs.discountType, PaymentType.ofString kwargs.paymentType with
  | none, _ => .error (.discountTypeNotValid kwargs.discountType)
  | some _, none => .error (.paymentTypeNotValid kwargs.paymentType)
  | some discountType, some paymentType =>
    if discountType = .percentOff ∧ 100 < kwargs.amount.toRat then .error (.amountNotValid kwargs.amount)
    else .ok (discountType, paymentType)

/-- `parse_supplied_date` of an argument that may be missing. -/
def parseDate (parseSuppliedDate : String → Except Error Instant) :
    Option String → Except Error (Option Instant)
  | none => .ok none
  | some date =>
    match parseSuppliedDate date with
    | .ok instant => .ok (some instant)
    | .error e => .error e

/-- `generate_discount_code` -/
def generateDiscountCode (parseSuppliedDate : String → Except Error Instant) (uuid4 : ℕ → String)
    (now : Instant) (kwargs : GenerateArguments) : Generation GenerateError :=
  match checkedTypes kwargs, codesToGenerate uuid4 kwargs,
    parseDate parseSuppliedDate kwargs.expires, parseDate parseSuppliedDate kwargs.activates with
  | .error e, _, _, _ => ⟨[], some e⟩
  | .ok _, .error e, _, _ => ⟨[], some e⟩
  | .ok _, .ok _, .error e, _ => ⟨[], some (.raised e)⟩
  | .ok _, .ok _, .ok _, .error e => ⟨[], some (.raised e)⟩
  | .ok (discountType, paymentType), .ok codes, .ok expirationDate, .ok activationDate =>
    let saved := createRows now ⟨kwargs.amount, discountType, kwargs.redemption, some paymentType, some 0,
      activationDate, expirationDate, [], []⟩ codes
    ⟨saved.created, saved.error.map .raised⟩

/-! ## The discount API -/

/-- What `DiscountSerializer` and `V0DiscountSerializer` accept. -/
structure DiscountData where
  amount : Decimal 5
  discountType : DiscountType
  redemptionType : RedemptionType
  paymentType : Option PaymentType
  maxRedemptions : Option ℕ
  discountCode : String
  activationDate : Option Instant
  expirationDate : Option Instant
  deriving DecidableEq

/-- The `create` of the serializers. -/
def createDiscount (now : Instant) (data : DiscountData) : Except Error (String × Discount) :=
  Discount.save now data.discountCode ⟨data.amount, data.discountType, data.redemptionType,
    data.paymentType, data.maxRedemptions, data.activationDate, data.expirationDate, [], []⟩

/-- A discount that one of the two can have created, whose products and users were added later. -/
inductive Discount.Creatable (d : Discount) : Prop where
  | generated (parseSuppliedDate : String → Except Error Instant) (uuid4 : ℕ → String) (now : Instant)
    (kwargs : GenerateArguments) (code : String)
    (h : (code, { d with products := [], users := [] }) ∈
      (generateDiscountCode parseSuppliedDate uuid4 now kwargs).created)
  | posted (now : Instant) (data : DiscountData)
    (h : createDiscount now data =
      .ok (data.discountCode, { d with products := [], users := [] }))

end MitxOnline

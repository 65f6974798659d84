import MitxOnline.Courses.RequirementClasses
import MitxOnline.Courses.RunDates
import MitxOnline.Ecommerce.Checkout

/-!
# Course enrollments that come with a program (`courses/views/v2/__init__.py`, `ecommerce/api.py`)

A learner who is enrolled in a program can enroll in the runs of its courses at no charge. The request
names a run and one program, or two of which one is a part of the other. An audit enrollment is made at
once; a verified one is bought with a discount of the program that takes everything off. The requests are
those in which no service and no statement fails.
-/

namespace MitxOnline

open Autocommit Paths

/-! ## The catalog of programs -/

/-- An active product for an object. -/
def Catalog.productFor (cat : Catalog) (contentType : ContentType) (objectId : ℕ) : Option ProductId :=
  cat.productIds.find? fun p => (cat.product p).isActive &&
    (cat.product p).contentType == contentType && (cat.product p).objectId == objectId

/-- The discount that `create_verified_program_discount` creates for the product of a program. -/
def verifiedProgramDiscount (q : ProductId) : Discount where
  amount := ⟨10000000⟩
  discountType := .percentOff
  redemptionType := .unlimited
  paymentType := some .sales
  maxRedemptions := some 0
  activationDate := none
  expirationDate := none
  products := [some q]
  users := []

/-- A catalog with the requirements of programs. The catalog also has the rows of the discounts that are
still to be created, under the keys that they get. -/
structure ProgramCatalog extends RunCatalog where
  /-- The programs, in their order. -/
  programIds : List ProgramId
  requirements : ProgramId → Requirements
  programCourses_iff : ∀ p c,
    c ∈ programCourses p ↔ ∃ row ∈ (requirements p).rows, row.value.node.course? = some c
  discountIds : List DiscountId
  isProgramDiscount : DiscountId → Bool
  newProgramDiscount : ProgramId → DiscountId
  newProgramDiscount_row : ∀ p q, toCatalog.productFor .program p = some q →
    discount (newProgramDiscount p) = verifiedProgramDiscount q

/-- `Program.program_nodes` -/
def ProgramCatalog.programNodes (cat : ProgramCatalog) (p : ProgramId) : List ProgramId :=
  (cat.requirements p).rows.filterMap (·.value.node.requiredProgram?)

/-- The row of a user in a program that the active manager finds. -/
def Store.activeProgramEnrollment (s : Store) (user : UserId) (p : ProgramId) :
    Option ProgramEnrollment :=
  (s.programEnrollments user p).filter (·.active)

/-- The user has an active verified enrollment in the program. -/
def Store.verifiedInProgram (s : Store) (user : UserId) (p : ProgramId) : Bool :=
  (s.activeProgramEnrollment user p).any fun e => e.enrollmentMode == .verified

/-! ## Requests -/

/-- The time of a request, the gateway of the site, and what the gateway answers. -/
structure ProgramRequest where
  now : Instant
  gatewayType : GatewayType
  startPayment : Except Error PaymentData

/-- The checkout that `create_verified_program_course_run_enrollment` asks for. -/
def ProgramRequest.checkout (req : ProgramRequest) : CheckoutRequest where
  gatewayType := req.gatewayType
  skipDiscountCheck := true
  skipReceipt := true
  userDiscount := none
  startPayment := req.startPayment
  now := req.now
  faults := Faults.none

/-- The exceptions of the request. -/
inductive ProgramCourseError where
  | enrollmentCreationFailed
  | verifiedProgramNoEnrollment
  | verifiedProgramInvalidBasket
  | verifiedProgramInvalidOrder
  | requirements (e : CertificateError)
  | other (e : Error)
  deriving DecidableEq, Repr

/-- The response: 201 with the enrollment, 204, 400 or 404. -/
inductive EnrollmentResponse where
  | created (enrollment : CourseRunEnrollment)
  | noContent
  | badRequest
  | notFound
  deriving DecidableEq, Repr

/-! ## The order (`ecommerce/api.py`) -/

/-- `create_verified_program_discount` -/
def createVerifiedProgramDiscount (cat : ProgramCatalog) (now : Instant) (p : ProgramId) :
    Except Error DiscountId :=
  match cat.productFor .program p with
  | none => .error .doesNotExist
  | some q =>
    let existing := cat.discountIds.filter fun d => (cat.discount d).datesValid now &&
      (cat.discount d).products.contains (some q) && cat.isProgramDiscount d
    .ok (existing.getLast?.getD (cat.newProgramDiscount p))

/-- The product of the run is put into a basket from which anything else is cleared. -/
def Basket.withRunProduct (basket : Basket) (q : ProductId) : Basket :=
  if 0 < basket.basketItems.length then ⟨[⟨q, 1⟩], []⟩
  else { basket with basketItems := basket.basketItems ++ [⟨q, 1⟩] }

/-- The sum of the discounted prices of the items. -/
def Basket.itemsTotal (cat : Catalog) (basket : Basket) : ℚ :=
  (basket.basketItems.map (basket.itemDiscountedPrice cat)).sum

/-- The discount of the program is added to a basket, which has to be free then. -/
def addProgramDiscount (cat : ProgramCatalog) (user : UserId) (d : DiscountId) (basket : Basket)
    (s : Store) : Store × Except ProgramCourseError Unit :=
  if (basket.discounts.any fun held => held.redeemedBy == user) = true then
    (setBasket user basket s, .error (.other .integrityError))
  else if 0 < Basket.itemsTotal cat.toCatalog { basket with discounts := basket.discounts ++ [⟨user, d⟩] } then
    (setBasket user { basket with discounts := basket.discounts ++ [⟨user, d⟩] } s,
      .error .verifiedProgramInvalidBasket)
  else (setBasket user { basket with discounts := basket.discounts ++ [⟨user, d⟩] } s, .ok ())

/-- `create_verified_program_course_run_enrollment` up to the checkout: the basket has the run and the
discount, and is free. -/
def fillProgramBasket (cat : ProgramCatalog) (now : Instant) (user : UserId) (r : RunId) (p : ProgramId)
    (s : Store) : Store × Except ProgramCourseError Unit :=
  if s.verifiedInProgram user p = false then (s, .error .verifiedProgramNoEnrollment)
  else
    match createVerifiedProgramDiscount cat now p, cat.productFor .courseRun r with
    | .error e, _ => (s, .error (.other e))
    | .ok _, none => (s, .error (.other .doesNotExist))
    | .ok d, some q => addProgramDiscount cat user d ((s.basketOf user).withRunProduct q) s

/-- `create_verified_program_course_run_enrollment` -/
def createVerifiedProgramCourseRunEnrollment (cat : ProgramCatalog) (req : ProgramRequest)
    (user : UserId) (r : RunId) (p : ProgramId) (s : Store) :
    Store × Except ProgramCourseError CourseRunEnrollment :=
  match fillProgramBasket cat req.now user r p s with
  | (s, .error e) => (s, .error e)
  | (s, .ok ()) =>
    match generateCheckoutPayload cat.toCatalog user req.checkout s with
    | (s, .error e) => (s, .error (.other e))
    | (s, .ok (.noCheckout _)) =>
      match (s.enrollments user r).filter (·.active) with
      | none => (s, .error (.other .doesNotExist))
      | some enrollment => (s, .ok enrollment)
    | (s, .ok _) => (s, .error .verifiedProgramInvalidOrder)

/-! ## The view -/

/-- The run is among the required and elective courses that a program lists. -/
def listsCourse (cat : ProgramCatalog) (r : RunId) (data : CoursesWithRequirements) : Bool :=
  (data.requiredCourses ++ data.electiveCourses).contains (cat.courseRun r).course

/-- `should_create_audit_enrollment`, for an enrollment in a program in the given mode. -/
def shouldCreateAuditEnrollment (cat : ProgramCatalog) (now : Instant) (r : RunId)
    (data : CoursesWithRequirements) (mode : EnrollmentMode) : Bool :=
  mode == .audit || !listsCourse cat r data || !isUpgradable cat.toCatalog now r

/-- `_create_course_enrollment_from_program`, for an enrollment in program `p` in the given mode. -/
def createCourseEnrollmentFromProgram (cat : ProgramCatalog) (req : ProgramRequest) (user : UserId)
    (r : RunId) (p : ProgramId) (mode : EnrollmentMode) (s : Store) :
    Store × Except ProgramCourseError EnrollmentResponse :=
  let active := (s.enrollments user r).filter (·.active)
  if r ∉ cat.usableRunIds then (s, .error (.other .doesNotExist))
  else if (cat.schedule r).isEnrollable req.now = false ∧ active.isNone = true then (s, .ok .badRequest)
  else
    match getCoursesWithRequirementsData (cat.requirements p).rows with
    | .error e => (s, .error (.requirements e))
    | .ok data =>
      if shouldCreateAuditEnrollment cat req.now r data mode = true then
        if (active.any fun e => e.enrollmentMode == .audit) = true then (s, .ok .noContent)
        else
          let s := (createRunEnrollments Faults.none cat.toCatalog req.now user [r] none true .audit s).state
          match (s.enrollments user r).filter (·.active) with
          | none => (s, .error .enrollmentCreationFailed)
          | some enrollment => (s, .ok (.created enrollment))
      else if (active.any fun e => e.enrollmentMode == mode) = true then (s, .ok .noContent)
      else
        match createVerifiedProgramCourseRunEnrollment cat req user r p s with
        | (s, .error e) => (s, .error e)
        | (s, .ok enrollment) => (s, .ok (.created enrollment))

/-- `VPE_MAX_PROGRAMS` -/
def vpeMaxPrograms : ℕ := 2

/-- What the first part of the view comes to: a response, or the enrollment in a program that is used. -/
inductive ProgramSelection where
  | respond (response : EnrollmentResponse)
  | program (p : ProgramId) (mode : EnrollmentMode)
  deriving DecidableEq, Repr

/-- The part of the view for two programs: which of them contains the other, and the enrollments that a
learner of the whole gets in both. -/
def selectFromPair (cat : ProgramCatalog) (user : UserId) (r : RunId) (first second : ProgramId)
    (s : Store) : Store × Except ProgramCourseError ProgramSelection :=
  let firstInSecond := (cat.programNodes second).contains first
  let secondInFirst := (cat.programNodes first).contains second
  if firstInSecond = secondInFirst then (s, .ok (.respond .badRequest))
  else
    let rootProgram := if firstInSecond = false then first else second
    let use (s : Store) : Store × Except ProgramCourseError ProgramSelection :=
      let courseProgram :=
        if (cat.programCourses first).contains (cat.courseRun r).course = true then first else second
      match s.activeProgramEnrollment user courseProgram with
      | none => (s, .error .enrollmentCreationFailed)
      | some e => (s, .ok (.program courseProgram e.enrollmentMode))
    match [first, second].filter (s.verifiedInProgram user) with
    | [] => use (createProgramEnrollments Faults.none user [first, second] .audit s).state
    | [p] =>
      if p = rootProgram then
        use (createProgramEnrollments Faults.none user [first, second] .verified s).state
      else (s, .ok (.respond .badRequest))
    | _ => use s

/-- The view up to the call of `_create_course_enrollment_from_program`. -/
def selectProgram (cat : ProgramCatalog) (user : UserId) (r : RunId) (programIds : List ProgramId)
    (s : Store) : Store × Except ProgramCourseError ProgramSelection :=
  if programIds.length = 0 ∨ vpeMaxPrograms < programIds.length then (s, .ok (.respond .badRequest))
  else
    let programs := cat.programIds.filter fun p => programIds.contains p
    let enrolled := programs.filter fun p => (s.activeProgramEnrollment user p).isSome
    if enrolled.length = 0 ∨ programs.length ≠ programIds.length then (s, .ok (.respond .notFound))
    else
      match programs with
      | [p] =>
        match s.activeProgramEnrollment user p with
        | none => (s, .ok (.respond .notFound))
        | some e => (s, .ok (.program p e.enrollmentMode))
      | [first, second] => selectFromPair cat user r first second s
      | _ => (s, .error (.other .failure))

/-- `add_verified_program_course_enrollment` -/
def addVerifiedProgramCourseEnrollment (cat : ProgramCatalog) (req : ProgramRequest) (user : UserId)
    (r : RunId) (programIds : List ProgramId) (s : Store) :
    Store × Except ProgramCourseError EnrollmentResponse :=
  match selectProgram cat user r programIds s with
  | (s, .error e) => (s, .error e)
  | (s, .ok (.respond response)) => (s, .ok response)
  | (s, .ok (.program p mode)) => createCourseEnrollmentFromProgram cat req user r p mode s

end MitxOnline

import MitxOnline.Lib.FixedPoint

/-!
# The catalog

The rows that the purchase and membership paths read but do not write: products and their versions,
discounts, course runs, contracts and organizations. A row is found by its primary key, so a foreign
key always resolves. `now` is an instant in seconds.
-/

namespace MitxOnline

open FixedPoint

abbrev UserId := ℕ
abbrev ProductId := ℕ
abbrev VersionId := ℕ
abbrev DiscountId := ℕ
abbrev OrderId := ℕ
abbrev CourseId := ℕ
abbrev RunId := ℕ
abbrev ProgramId := ℕ
abbrev ContractId := ℕ
abbrev OrgId := ℕ
abbrev Country := ℕ
abbrev Instant := ℤ

/-- An instant in microseconds, which is what a column of the database can tell apart. -/
abbrev Microseconds := ℤ

/-- A date, as the number of its day. -/
abbrev Day := ℤ

/-- The date of an instant; `TIME_ZONE` is UTC. -/
def dateOf (now : Instant) : Day := now / 86400

/-- The content types a product can be bought for (`valid_purchasable_objects_list`). -/
inductive ContentType where
  | courseRun
  | program
  deriving DecidableEq, Repr

structure Product where
  contentType : ContentType
  objectId : ℕ
  price : Decimal 2
  isActive : Bool
  deriving DecidableEq, Repr

/-- A `reversion` version: a snapshot of the product with key `objectId`. -/
structure Version where
  id : VersionId
  objectId : ProductId
  fieldDict : Product
  deriving DecidableEq, Repr

inductive DiscountType where
  | percentOff
  | dollarsOff
  | fixedPrice
  deriving DecidableEq, Repr

inductive RedemptionType where
  | oneTime
  | oneTimePerUser
  | unlimited
  deriving DecidableEq, Repr

inductive PaymentType where
  | marketing
  | sales
  | financialAssistance
  | customerSupport
  | staff
  | legacy
  deriving DecidableEq, Repr

/-- A discount. `products` are its `DiscountProduct` rows, whose product may be null, and `users` the
users of its `UserDiscount` rows. -/
structure Discount where
  amount : Decimal 5
  discountType : DiscountType
  redemptionType : RedemptionType
  paymentType : Option PaymentType
  maxRedemptions : Option ℕ
  activationDate : Option Instant
  expirationDate : Option Instant
  products : List (Option ProductId)
  users : List UserId
  deriving DecidableEq, Repr

/-- A course run; `verifiedMode` says that verified is among its enrollment modes, `isFakeCourseRun`
that its run tag starts with `fake`, `isUai` that its courseware id has the UAI prefix. -/
structure CourseRun where
  course : CourseId
  live : Bool
  upgradeDeadline : Option Instant
  verifiedMode : Bool
  isFakeCourseRun : Bool
  isUai : Bool
  b2bContract : Option ContractId
  deriving DecidableEq, Repr

inductive MembershipType where
  | managed
  | code
  | auto
  deriving DecidableEq, Repr

structure ContractPage where
  membershipType : MembershipType
  organization : OrgId
  contractStart : Option Day
  contractEnd : Option Day
  active : Bool
  maxLearners : Option ℕ
  enrollmentFixedPrice : Option (Decimal 2)
  deriving DecidableEq, Repr

structure OrganizationPage where
  ssoOrganizationId : Option ℕ
  deriving DecidableEq, Repr

/-- The catalog. The proof fields are what the database and `reversion` guarantee: versions belong to
their product and are told apart by their keys, and no two products sell the same object. -/
structure Catalog where
  product : ProductId → Product
  productIds : List ProductId
  /-- `Version.objects.get_for_object`: the most recent version first. -/
  versions : ProductId → List Version
  discount : DiscountId → Discount
  courseRun : RunId → CourseRun
  runIds : List RunId
  blockedCountries : CourseId → List Country
  country : UserId → Country
  programCourses : ProgramId → List CourseId
  isUaiProgram : ProgramId → Bool
  contract : ContractId → ContractPage
  contractIds : List ContractId
  organization : OrgId → OrganizationPage
  orgIds : List OrgId
  versions_objectId : ∀ p, ∀ v ∈ versions p, v.objectId = p
  versions_id : ∀ p, ∀ v ∈ versions p, ∀ w ∈ versions p, v.id = w.id → v = w
  unique_purchasable_object : ∀ p q, (product p).contentType = (product q).contentType →
    (product p).objectId = (product q).objectId → p = q

/-- The catalog in which product `p` sells course run `p` for the given price and has one version;
there are no discounts in it worth the name, no contracts and no programs. -/
def Catalog.ofPrices (price : ProductId → Decimal 2) : Catalog where
  product p := ⟨.courseRun, p, price p, true⟩
  productIds := []
  versions p := [⟨p, p, ⟨.courseRun, p, price p, true⟩⟩]
  discount _ := ⟨⟨0⟩, .dollarsOff, .unlimited, none, some 0, none, none, [], []⟩
  courseRun r := ⟨r, true, none, true, false, false, none⟩
  runIds := []
  blockedCountries _ := []
  country _ := 0
  programCourses _ := []
  isUaiProgram _ := false
  contract _ := ⟨.code, 0, none, none, true, none, none⟩
  contractIds := []
  organization _ := ⟨none⟩
  orgIds := []
  versions_objectId := by simp
  versions_id := by simp
  unique_purchasable_object _ _ _ h := h

end MitxOnline

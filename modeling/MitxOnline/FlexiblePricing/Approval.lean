import MitxOnline.Ecommerce.DiscountValidity
import MitxOnline.Lib.Nullable
import MitxOnline.Lib.Search
import MitxOnline.Lib.Ladders

/-!
# Financial assistance (`flexiblepricing/api.py`)

A learner asks for financial assistance for a program or a course. The request gets a tier, which has a
discount, and it counts for other coursewares too: for the courses of a program and for the programs that
are related to it.
-/

namespace MitxOnline

open Nullable Search

abbrev TierId := ℕ
abbrev ProgramRunId := ℕ

inductive FlexiblePriceStatus where
  | approved
  | autoApproved
  | created
  | pendingManualApproval
  | denied
  | reset
  deriving DecidableEq, Repr

structure FlexiblePriceTier where
  discount : DiscountId
  current : Bool
  deriving DecidableEq, Repr

/-- A request; its tier may be null. -/
structure FlexiblePrice where
  status : FlexiblePriceStatus
  tier : Option TierId
  deriving DecidableEq, Repr

/-- A courseware object. -/
inductive Courseware where
  | courseRun (r : RunId)
  | course (c : CourseId)
  | program (p : ProgramId)
  | programRun (r : ProgramRunId)
  deriving DecidableEq, Repr

inductive FinaidError where
  | typeError (msg : String)
  | attributeError (msg : String)
  deriving DecidableEq, Repr

/-- The tables that are read. A user has at most one request for a courseware object
(`unique_user_courseware_object`). -/
structure Finaid where
  /-- `CourseRun.course` -/
  course : RunId → CourseId
  /-- `Course.programs` -/
  programs : CourseId → List ProgramId
  /-- `ProgramRun.program` -/
  program : ProgramRunId → ProgramId
  /-- The rows of `RelatedProgram`: `first_program` and `second_program`. -/
  relatedPrograms : List (ProgramId × ProgramId)
  tier : TierId → FlexiblePriceTier
  discount : DiscountId → Discount
  flexiblePrice : UserId → Courseware → Option FlexiblePrice

/-- `Program.related_programs` -/
def Finaid.related (fin : Finaid) (p : ProgramId) : List ProgramId :=
  fin.relatedPrograms.filterMap fun row =>
    if row.1 = p then some row.2 else if row.2 = p then some row.1 else none

/-- `get_ordered_eligible_coursewares`, for a course. -/
def Finaid.eligibleForCourse (fin : Finaid) (c : CourseId) : List Courseware :=
  if 0 < (fin.programs c).length then
    (fin.programs c).map .program ++ [.course c] ++
      ((fin.programs c).flatMap fin.related).map .program
  else [.course c]

/-- `get_ordered_eligible_coursewares`. The related programs of the program of a program run are taken
to be tuples: subscripting the first raises. -/
def getOrderedEligibleCoursewares (fin : Finaid) : Courseware → Except FinaidError (List Courseware)
  | .courseRun r => .ok (fin.eligibleForCourse (fin.course r))
  | .course c => .ok (fin.eligibleForCourse c)
  | .program p => .ok [.program p]
  | .programRun r =>
    match fin.related (fin.program r) with
    | [] => .ok [.program (fin.program r)]
    | _ :: _ => .error (.typeError "'Program' object is not subscriptable")

/-- The test of both functions on the request they found: its tier, if it is current and the request was
approved. A request without a tier raises. -/
def FlexiblePrice.approvedTier (fin : Finaid) (flexiblePrice : FlexiblePrice) :
    Except FinaidError (Option TierId) :=
  match flexiblePrice.tier with
  | none => .error (.attributeError "'NoneType' object has no attribute 'current'")
  | some tier =>
    if (fin.tier tier).current = true ∧
        (flexiblePrice.status = .approved ∨ flexiblePrice.status = .autoApproved) then .ok (some tier)
    else .ok none

/-- The condition on the dates of the discount of the tier: without a tier, the dates are null. -/
def FlexiblePrice.dateFilter (fin : Finaid) (now : Instant) (flexiblePrice : FlexiblePrice) : Truth :=
  let discount := flexiblePrice.tier.map fun tier => fin.discount (fin.tier tier).discount
  let activationDate := discount.bind (·.activationDate)
  let expirationDate := discount.bind (·.expirationDate)
  ((isNull activationDate).or (compare (fun date => decide (date ≤ now)) activationDate)).and
    ((isNull expirationDate).or (compare (fun date => decide (now ≤ date)) expirationDate))

/-- The body of the loop of `is_courseware_flexible_price_approved`. -/
def approvedFor (fin : Finaid) (user : UserId) (courseware : Courseware) :
    Except FinaidError (Option TierId) :=
  match fin.flexiblePrice user courseware with
  | none => .ok none
  | some flexiblePrice => flexiblePrice.approvedTier fin

/-- The body of the loop of `determine_courseware_flexible_price_discount`. -/
def discountFor (fin : Finaid) (now : Instant) (user : UserId) (courseware : Courseware) :
    Except FinaidError (Option TierId) :=
  match (fin.flexiblePrice user courseware).filter fun f => selects (f.dateFilter fin now) with
  | none => .ok none
  | some flexiblePrice => flexiblePrice.approvedTier fin

/-- `is_courseware_flexible_price_approved`; `none` is an anonymous user. -/
def isCoursewareFlexiblePriceApproved (fin : Finaid) (courseware : Courseware) :
    Option UserId → Except FinaidError Bool
  | none => .ok false
  | some user => do
    let eligible ← getOrderedEligibleCoursewares fin courseware
    let approved ← search (approvedFor fin user) eligible
    .ok approved.isSome

/-- `determine_courseware_flexible_price_discount`, for the product of a courseware or for none. -/
def determineCoursewareFlexiblePriceDiscount (fin : Finaid) (now : Instant) :
    Option Courseware → Option UserId → Except FinaidError (Option DiscountId)
  | some courseware, some user => do
    let eligible ← getOrderedEligibleCoursewares fin courseware
    let approved ← search (discountFor fin now user) eligible
    .ok (approved.map fun tier => (fin.tier tier).discount)
  | _, _ => .ok none

/-!
## The tier of an income (`flexiblepricing/api.py`)

A tier is for a courseware and for incomes from its threshold on. Thresholds and incomes are compared by
the database, whose order of numbers is total.
-/

/-- A row of the table of tiers. -/
structure IncomeTier (α : Type) extends FlexiblePriceTier where
  id : TierId
  courseware : Courseware
  incomeThresholdUsd : α
  deriving DecidableEq, Repr

inductive TierError where
  /-- Raised by `get_ordered_eligible_coursewares`. -/
  | ineligible (e : FinaidError)
  | improperlyConfigured (msg : String)
  deriving DecidableEq, Repr

def Courseware.id : Courseware → ℕ
  | .courseRun r => r
  | .course c => c
  | .program p => p
  | .programRun r => r

variable {α : Type} [LinearOrder α]

/-- The current tiers of a courseware, in the order in which the database reads them. -/
def currentTiers (tiers : List (IncomeTier α)) (courseware : Courseware) : List (IncomeTier α) :=
  tiers.filter fun tier => tier.current && decide (tier.courseware = courseware)

/-- `determine_tier_courseware`. The rows are listed in the order in which the database reads them; tiers
with one threshold stay in it. -/
def determineTierCourseware (fin : Finaid) (tiers : List (IncomeTier α)) (courseware : Courseware)
    (income : α) : Except TierError (IncomeTier α) :=
  match getOrderedEligibleCoursewares fin courseware with
  | .error e => .error (.ineligible e)
  | .ok eligible =>
    match Ladder.climb (·.incomeThresholdUsd) (currentTiers tiers) eligible income with
    | some tier => .ok tier
    | none => .error (.improperlyConfigured
      s!"$0-income-threshold Tier has not yet been configured for Courseware with id {courseware.id}.")

end MitxOnline

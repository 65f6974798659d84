import MitxOnline.B2b.ContractRunKeys
import MitxOnline.Lib.UniqueConstraint

/-!
# Groups of course runs (`courses/models.py`, `b2b/api.py`)

Runs of one course with the same run tag and contract form a group, in which there is one run for each
language and variant and at most one run in the primary language. A retired run is parked in a holding
contract, where it must not meet a run of the same group.
-/

namespace MitxOnline

/-- A course run: the columns of its constraints. -/
structure GroupedRun extends CourseRunRow where
  course : CourseId
  b2bContract : Option ContractId
  isPrimaryLanguage : Bool
  deriving DecidableEq

/-- The fields that both constraints on groups have. -/
structure RunGroup where
  course : CourseId
  runTag : Text
  isSourceRun : Bool
  b2bContract : Option ContractId
  deriving DecidableEq

def GroupedRun.group (run : GroupedRun) : RunGroup where
  course := run.course
  runTag := run.runTag
  isSourceRun := run.isSourceRun
  b2bContract := run.b2bContract

/-- `unique_primary_language_per_group` -/
def uniquePrimaryLanguagePerGroup : UniqueConstraint GroupedRun RunGroup where
  condition run := run.isPrimaryLanguage
  fields run := run.group

/-- `unique_language_per_group` -/
def uniqueLanguagePerGroup : UniqueConstraint GroupedRun (RunGroup × Text × Text × Text) where
  condition run := run.language != []
  fields run := (run.group, run.language, run.variantLength, run.variantIndustry)

/-- `courseware_id` is unique, and so is what `unique_together` adds to it. -/
def uniqueCoursewareId : UniqueConstraint GroupedRun Text where
  condition _ := true
  fields run := run.coursewareId

/-- All constraints of `CourseRun` hold. -/
structure MeetsConstraints (t : Table GroupedRun) : Prop where
  uniquePrimaryLanguagePerGroup : uniquePrimaryLanguagePerGroup.HoldsIn t
  uniqueLanguagePerGroup : uniqueLanguagePerGroup.HoldsIn t
  uniqueCoursewareId : uniqueCoursewareId.HoldsIn t

theorem meetsConstraints_iff (t : Table GroupedRun) : MeetsConstraints t ↔
    uniquePrimaryLanguagePerGroup.HoldsIn t ∧ uniqueLanguagePerGroup.HoldsIn t ∧
      uniqueCoursewareId.HoldsIn t :=
  ⟨fun h => ⟨h.1, h.2, h.3⟩, fun h => ⟨h.1, h.2.1, h.2.2⟩⟩

instance (t : Table GroupedRun) : Decidable (MeetsConstraints t) := decidable_of_iff' _ (meetsConstraints_iff t)

/-- `CourseRun.all_objects` -/
structure CourseRuns where
  table : Table GroupedRun
  meetsConstraints : MeetsConstraints table

/-- The row of a run. -/
def CourseRuns.row (runs : CourseRuns) (r : RunId) : GroupedRun := runs.table.row r

/-- A write to the table, which the database refuses where it breaks a constraint. -/
def CourseRuns.write (t : Table GroupedRun) : Except Error CourseRuns :=
  if h : MeetsConstraints t then .ok ⟨t, h⟩ else .error .integrityError

/-! ## `check_retirement_contract_collision` -/

/-- `RetirementContractCollisionError` -/
structure RetirementContractCollisionError where
  message : Text
  deriving DecidableEq

/-- What the messages call the course and the contract. -/
structure CollisionNames where
  readableId : Text
  contract : Text

/-- The message about a run in the same language and variant. -/
def languageCollision (names : CollisionNames) (run : GroupedRun) : Text :=
  "A run for ".toList ++ names.readableId ++ " with run tag '".toList ++ run.runTag ++
    "', language '".toList ++ run.language ++ "' and variant '".toList ++ run.variantLength ++
    "/".toList ++ run.variantIndustry ++ "' is already parked in ".toList ++ names.contract ++
    ". Rename the run tag or clear the existing one first.".toList

/-- The message about a run in the primary language. -/
def primaryCollision (names : CollisionNames) (run : GroupedRun) : Text :=
  "A primary-language run for ".toList ++ names.readableId ++ " with run tag '".toList ++ run.runTag ++
    "' is already parked in ".toList ++ names.contract ++
    ". Rename the run tag or clear the existing one first.".toList

/-- The other runs of the group in the holding contract. -/
def CourseRuns.siblings (runs : CourseRuns) (r : RunId) (contract : ContractId) : List GroupedRun :=
  ((runs.table.keys.filter (· != r)).map runs.row).filter fun sibling =>
    sibling.course == (runs.row r).course && sibling.runTag == (runs.row r).runTag &&
      sibling.isSourceRun == (runs.row r).isSourceRun && sibling.b2bContract == some contract

/-- `check_retirement_contract_collision` -/
def checkRetirementContractCollision (names : CollisionNames) (runs : CourseRuns) (r : RunId)
    (contract : ContractId) : Except RetirementContractCollisionError Unit :=
  let run := runs.row r
  if run.language ≠ [] ∧ ((runs.siblings r contract).any fun sibling =>
      sibling.language == run.language && sibling.variantLength == run.variantLength &&
        sibling.variantIndustry == run.variantIndustry) = true then
    .error ⟨languageCollision names run⟩
  else if run.isPrimaryLanguage = true ∧
      ((runs.siblings r contract).any fun sibling => sibling.isPrimaryLanguage) = true then
    .error ⟨primaryCollision names run⟩
  else .ok ()

/-- The run in another contract. -/
def GroupedRun.inContract (run : GroupedRun) (contract : ContractId) : GroupedRun :=
  { run with b2bContract := some contract }

/-- The table after the run was moved into the contract. -/
def CourseRuns.moved (runs : CourseRuns) (r : RunId) (contract : ContractId) : Table GroupedRun :=
  runs.table.set r ((runs.row r).inContract contract)

/-- How a move can fail: with a clear refusal, or with an exception of the database. -/
inductive MoveError where
  | collision (e : RetirementContractCollisionError)
  | database (e : Error)
  deriving DecidableEq

/-- `move_run_to_retirement_contract`, for the holding contract. -/
def moveRunToRetirementContract (names : CollisionNames) (runs : CourseRuns) (r : RunId)
    (contract : ContractId) : Except MoveError CourseRuns :=
  if (runs.row r).b2bContract = some contract then .ok runs
  else
    match checkRetirementContractCollision names runs r contract with
    | .error e => .error (.collision e)
    | .ok () => (CourseRuns.write (runs.moved r contract)).mapError .database

/-!
## The collision check is the check of the database

A sibling that the check finds clashes with the moved run, and a run that clashes with the moved one is a
sibling that the check finds.
-/

variable {names : CollisionNames} {runs : CourseRuns} {r k : RunId} {contract : ContractId}
  {sibling : GroupedRun}

/-- The siblings are the other runs of the group that the run would be moved to. -/
theorem mem_siblings : sibling ∈ runs.siblings r contract ↔
    ∃ k ∈ runs.table.keys, k ≠ r ∧ runs.row k = sibling ∧
      sibling.group = ((runs.row r).inContract contract).group := by
  simp only [CourseRuns.siblings, List.mem_filter, List.mem_map, bne_iff_ne, Bool.and_eq_true,
    beq_iff_eq, GroupedRun.group, RunGroup.mk.injEq]
  constructor
  · rintro ⟨⟨k, ⟨hk, hne⟩, hrow⟩, ⟨⟨hcourse, htag⟩, hsource⟩, hcontract⟩
    exact ⟨k, hk, hne, hrow, hcourse, htag, hsource, hcontract⟩
  · rintro ⟨k, hk, hne, hrow, hcourse, htag, hsource, hcontract⟩
    exact ⟨⟨k, ⟨hk, hne⟩, hrow⟩, ⟨⟨hcourse, htag⟩, hsource⟩, hcontract⟩

variable (contract) in
/-- A constraint on groups is broken by a move exactly if the moved run clashes with a sibling. -/
theorem HoldsIn.moved_iff {κ : Type} [DecidableEq κ] {c : UniqueConstraint GroupedRun κ}
    (h : c.HoldsIn runs.table) (hr : r ∈ runs.table.keys)
    (hgroup : ∀ a b, c.clash a b = true → a.group = b.group) :
    c.HoldsIn (runs.moved r contract) ↔ ∀ sibling ∈ runs.siblings r contract,
      c.clash ((runs.row r).inContract contract) sibling = false := by
  unfold CourseRuns.moved
  rw [h.set_iff hr]
  constructor
  · intro hfree sibling hsibling
    obtain ⟨k, hk, hne, rfl, -⟩ := mem_siblings.mp hsibling
    exact hfree k hk hne
  · intro hfree k hk hne
    cases hclash : c.clash ((runs.row r).inContract contract) (runs.table.row k) with
    | false => rfl
    | true =>
      have hsibling : runs.row k ∈ runs.siblings r contract :=
        mem_siblings.mpr ⟨k, hk, hne, rfl, (hgroup _ _ hclash).symm⟩
      exact absurd hclash (by rw [← CourseRuns.row, hfree _ hsibling]; simp)

theorem group_of_primaryClash {a b : GroupedRun} (h : uniquePrimaryLanguagePerGroup.clash a b = true) :
    a.group = b.group := (UniqueConstraint.clash_iff.mp h).2.2

theorem group_of_languageClash {a b : GroupedRun} (h : uniqueLanguagePerGroup.clash a b = true) :
    a.group = b.group := congrArg Prod.fst (UniqueConstraint.clash_iff.mp h).2.2

/-- The first test finds a sibling in the language and variant of the run. -/
theorem language_test_iff :
    ((runs.row r).language ≠ [] ∧ ((runs.siblings r contract).any fun sibling =>
      sibling.language == (runs.row r).language &&
        sibling.variantLength == (runs.row r).variantLength &&
          sibling.variantIndustry == (runs.row r).variantIndustry) = true) ↔
      ∃ sibling ∈ runs.siblings r contract,
        uniqueLanguagePerGroup.clash ((runs.row r).inContract contract) sibling = true := by
  simp only [List.any_eq_true, Bool.and_eq_true, beq_iff_eq]
  constructor
  · rintro ⟨hlanguage, sibling, hsibling, ⟨hsame, hlength⟩, hindustry⟩
    obtain ⟨-, -, -, -, hgroup⟩ := mem_siblings.mp hsibling
    refine ⟨sibling, hsibling, UniqueConstraint.clash_iff.mpr ⟨?_, ?_, ?_⟩⟩
    · exact bne_iff_ne.mpr hlanguage
    · exact bne_iff_ne.mpr (hsame ▸ hlanguage)
    · exact Prod.ext hgroup.symm (Prod.ext hsame.symm (Prod.ext hlength.symm hindustry.symm))
  · rintro ⟨sibling, hsibling, hclash⟩
    obtain ⟨hlanguage, -, hfields⟩ := UniqueConstraint.clash_iff.mp hclash
    obtain ⟨-, hvariant⟩ := Prod.mk.inj hfields
    obtain ⟨hsame, hrest⟩ := Prod.mk.inj hvariant
    obtain ⟨hlength, hindustry⟩ := Prod.mk.inj hrest
    exact ⟨bne_iff_ne.mp hlanguage, sibling, hsibling, ⟨hsame.symm, hlength.symm⟩, hindustry.symm⟩

/-- The second test finds a sibling that is in the primary language like the run. -/
theorem primary_test_iff :
    ((runs.row r).isPrimaryLanguage = true ∧
      ((runs.siblings r contract).any fun sibling => sibling.isPrimaryLanguage) = true) ↔
      ∃ sibling ∈ runs.siblings r contract,
        uniquePrimaryLanguagePerGroup.clash ((runs.row r).inContract contract) sibling =
          true := by
  rw [List.any_eq_true]
  constructor
  · rintro ⟨hprimary, sibling, hsibling, hsame⟩
    obtain ⟨-, -, -, -, hgroup⟩ := mem_siblings.mp hsibling
    exact ⟨sibling, hsibling, UniqueConstraint.clash_iff.mpr ⟨hprimary, hsame, hgroup.symm⟩⟩
  · rintro ⟨sibling, hsibling, hclash⟩
    obtain ⟨hprimary, hsame, -⟩ := UniqueConstraint.clash_iff.mp hclash
    exact ⟨hprimary, sibling, hsibling, hsame⟩

theorem check_raises_iff_clash :
    (∃ e, checkRetirementContractCollision names runs r contract = .error e) ↔
      (∃ sibling ∈ runs.siblings r contract,
        uniqueLanguagePerGroup.clash ((runs.row r).inContract contract) sibling = true) ∨
      ∃ sibling ∈ runs.siblings r contract,
        uniquePrimaryLanguagePerGroup.clash ((runs.row r).inContract contract) sibling =
          true := by
  rw [← language_test_iff, ← primary_test_iff]
  unfold checkRetirementContractCollision
  dsimp only
  split
  · rename_i hlanguage
    exact iff_of_true ⟨_, rfl⟩ (Or.inl hlanguage)
  · rename_i hlanguage
    split
    · rename_i hprimary
      exact iff_of_true ⟨_, rfl⟩ (Or.inr hprimary)
    · rename_i hprimary
      exact iff_of_false (by rintro ⟨e, h⟩; cases h) (not_or.mpr ⟨hlanguage, hprimary⟩)

variable (contract) in
/-- A move leaves the courseware ids alone. -/
theorem uniqueCoursewareId_moved (hr : r ∈ runs.table.keys) :
    uniqueCoursewareId.HoldsIn (runs.moved r contract) := by
  have hrow := runs.meetsConstraints.uniqueCoursewareId
  refine (hrow.set_iff hr).mpr fun k hk hne => ?_
  exact UniqueConstraint.holdsIn_iff.mp hrow r hr k hk hne.symm

theorem check_raises_iff_broken (hr : r ∈ runs.table.keys) :
    (∃ e, checkRetirementContractCollision names runs r contract = .error e) ↔
      ¬MeetsConstraints (runs.moved r contract) := by
  have hprimary := HoldsIn.moved_iff contract runs.meetsConstraints.uniquePrimaryLanguagePerGroup hr
    fun _ _ => group_of_primaryClash
  have hlanguage := HoldsIn.moved_iff contract runs.meetsConstraints.uniqueLanguagePerGroup hr
    fun _ _ => group_of_languageClash
  have hfree : ∀ clashes : GroupedRun → Bool, (∀ sibling ∈ runs.siblings r contract,
      clashes sibling = false) ↔ ¬∃ sibling ∈ runs.siblings r contract, clashes sibling = true := by
    intro clashes
    simp only [not_exists, not_and, Bool.not_eq_true]
  rw [check_raises_iff_clash, meetsConstraints_iff, hprimary, hlanguage, hfree, hfree,
    and_iff_left (uniqueCoursewareId_moved contract hr), ← not_or, not_not, or_comm]

/-- A move is refused clearly or goes through: the database has nothing to object to. -/
theorem move_not_database (hr : r ∈ runs.table.keys) {e : Error} :
    moveRunToRetirementContract names runs r contract ≠ .error (.database e) := by
  unfold moveRunToRetirementContract
  split
  · simp
  · cases hcheck : checkRetirementContractCollision names runs r contract with
    | error e => simp
    | ok u =>
      have hmoved : MeetsConstraints (runs.moved r contract) := by
        by_contra hnot
        obtain ⟨e, he⟩ := (check_raises_iff_broken hr).mpr hnot
        rw [hcheck] at he
        cases he
      simp [CourseRuns.write, hmoved, Except.mapError]

/-- The check raises exactly if the move would break a constraint. -/
theorem collisionCheck_exact (names : CollisionNames) (runs : CourseRuns) (contract : ContractId)
    (hr : r ∈ runs.table.keys) :
    (∃ e, checkRetirementContractCollision names runs r contract = .error e) ↔
      ¬MeetsConstraints (runs.moved r contract) :=
  check_raises_iff_broken hr

/-- A run without siblings. -/
def loneRun : GroupedRun where
  coursewareId := "course-v1:UAI_MIT+6.00x+1T5C2026".toList
  runTag := "1T5C2026".toList
  language := "en".toList
  variantIndustry := []
  variantLength := []
  isSourceRun := false
  course := 1
  b2bContract := some 5
  isPrimaryLanguage := true

def loneRuns : CourseRuns := ⟨Table.single 1 loneRun, by decide⟩

/-- A run of the same course with the same tag is parked in contract 6. -/
def parkedRun : GroupedRun :=
  { loneRun with
    coursewareId := "course-v1:UAI_MIT_2+6.00x+1T5C2026".toList
    b2bContract := some 6 }

def parkedRuns : CourseRuns := ⟨loneRuns.table.create parkedRun, by decide⟩

/-- The run cannot be parked beside the other one, but in another contract. -/
theorem collisionCheck_exact_parkedRun :
    (∃ e, checkRetirementContractCollision ⟨[], []⟩ parkedRuns 1 6 = .error e) ∧
      ¬∃ e, checkRetirementContractCollision ⟨[], []⟩ parkedRuns 1 7 = .error e :=
  have hrun : 1 ∈ parkedRuns.table.keys := by decide
  ⟨(collisionCheck_exact ⟨[], []⟩ parkedRuns 6 hrun).mpr (by decide),
    (collisionCheck_exact ⟨[], []⟩ parkedRuns 7 hrun).not.mpr (not_not.mpr (by decide))⟩

end MitxOnline

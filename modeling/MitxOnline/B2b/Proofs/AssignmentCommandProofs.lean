import MitxOnline.B2b.AssignmentCommand
import MitxOnline.B2b.Proofs.BulkAssignmentsProofs

/-!
# When codes are assigned and revoked safely

The codes that a command hands out are unused and distinct. Whether it fails, and whether an address gets a
second code, depends on what it counts: rows of joins instead of codes, and rows of the file instead of
addresses. A revoked code stays what it was.
-/

namespace MitxOnline

open Autocommit CodeStore ManagerDb

variable {cat : Catalog} {rows : RowOrder} {c : ContractId} {db db' : ManagerDb} {d : DiscountId} {k n : ℕ}
  {assignees : List AssignRequest} {unused : List DiscountId} {emails : List Text}
  {assignments : List (AssignRequest × DiscountId)}

/-! ## Handing out -/

/-- There is a code for every row exactly if there are as many codes, and the last ones go first. -/
theorem popCodes_eq (assignees : List AssignRequest) (unused : List DiscountId) :
    popCodes assignees unused =
      if assignees.length ≤ unused.length then some (assignees.zip unused.reverse) else none := by
  induction assignees generalizing unused with
  | nil => rfl
  | cons a rest ih =>
    unfold popCodes
    rcases List.eq_nil_or_concat unused with rfl | ⟨init, d, rfl⟩
    · simp
    · rw [List.concat_eq_append, List.getLast?_concat, List.dropLast_concat]
      dsimp only
      rw [ih, List.reverse_append, List.length_append]
      by_cases hlength : rest.length ≤ init.length
      · have hmore : (a :: rest).length ≤ init.length + [d].length := by simpa using hlength
        rw [if_pos hlength, if_pos hmore]
        rfl
      · have hless : ¬(a :: rest).length ≤ init.length + [d].length := by simpa using hlength
        rw [if_neg hlength, if_neg hless]
        rfl

theorem mem_unusedCodes (h : d ∈ db.unusedCodes cat c) : db.codes.isUsed d = false := by
  have hmem := (List.mem_filter.mp h).1
  unfold getUnusedDiscounts at hmem
  have hunused := (List.mem_filter.mp hmem).2
  rw [Bool.and_eq_true, Bool.not_eq_true'] at hunused
  exact hunused.2

theorem unusedCodes_nodup (cat : Catalog) (c : ContractId) (db : ManagerDb) :
    (db.unusedCodes cat c).Nodup := (db.codes.discounts.keys_nodup.filter _).filter _

/-- What the command hands out to the rows of new addresses. -/
def commandAssignments (cat : Catalog) (rows : RowOrder) (c : ContractId)
    (assignees : List AssignRequest) (db : ManagerDb) : List (AssignRequest × DiscountId) :=
  (newAssignees cat c assignees db).zip (rows.discounts (db.unusedCodes cat c)).reverse

variable (cat rows c assignees db) in
theorem commandAssignments_unused :
    ∀ a ∈ commandAssignments cat rows c assignees db, db.codes.isUsed a.2 = false := by
  intro a ha
  have hmem := (List.of_mem_zip ha).2
  exact mem_unusedCodes ((rows.discounts_perm _).mem_iff.mp (List.mem_reverse.mp hmem))

variable (cat rows c assignees db) in
theorem commandAssignments_nodup :
    ((commandAssignments cat rows c assignees db).map (·.2)).Nodup := by
  have hnodup : (rows.discounts (db.unusedCodes cat c)).reverse.Nodup :=
    List.nodup_reverse.mpr ((rows.discounts_perm _).nodup_iff.mpr (unusedCodes_nodup cat c db))
  have hsub : ((commandAssignments cat rows c assignees db).map (·.2)).Sublist
      (rows.discounts (db.unusedCodes cat c)).reverse := by
    unfold commandAssignments
    rw [List.zip_eq_zip_take_min, List.map_snd_zip]
    · exact List.take_sublist _ _
    · rw [List.length_take, List.length_take]
      omega
  exact hnodup.sublist hsub

theorem commandAssignments_fst
    (h : (newAssignees cat c assignees db).length ≤ (db.unusedCodes cat c).length) :
    (commandAssignments cat rows c assignees db).map (·.1) = newAssignees cat c assignees db := by
  unfold commandAssignments
  refine List.map_fst_zip ?_
  rw [List.length_reverse, (rows.discounts_perm _).length_eq]
  exact h

/-! ## Codes of addresses -/

/-- The records of a contract. -/
def ManagerDb.recordsOf (c : ContractId) (db : ManagerDb) : List AttachmentRecord :=
  (db.records.keys.map db.records.row).filter (·.contract == c)

/-- No address has two codes. -/
def OneCodeEach (records : List AttachmentRecord) : Prop :=
  ∀ r ∈ records, ∀ r' ∈ records, r.assignedEmail = r'.assignedEmail → r.assignedEmail ≠ [] →
    r.discount = r'.discount

/-- The addresses of records, without empty ones. -/
def filledEmails (emails : List Text) : List Text := emails.filter (· ≠ [])

/-- Distinct codes are for distinct addresses. -/
theorem oneCodeEach_of_nodup {records : List AttachmentRecord}
    (hnodup : (records.map (·.discount)).Nodup) :
    OneCodeEach records ↔ (filledEmails (records.map (·.assignedEmail))).Nodup := by
  induction records with
  | nil => simp [OneCodeEach, filledEmails]
  | cons r rest ih =>
    obtain ⟨hr, hrest⟩ := List.nodup_cons.mp hnodup
    have hsplit : OneCodeEach (r :: rest) ↔ OneCodeEach rest ∧
        (r.assignedEmail ≠ [] → r.assignedEmail ∉ rest.map (·.assignedEmail)) := by
      constructor
      · intro h
        refine ⟨fun a ha b hb => h a (List.mem_cons_of_mem r ha) b (List.mem_cons_of_mem r hb),
          fun hfilled hmem => ?_⟩
        obtain ⟨r', hr', hemail⟩ := List.mem_map.mp hmem
        have hsame := h r List.mem_cons_self r' (List.mem_cons_of_mem r hr') hemail.symm hfilled
        exact hr (List.mem_map.mpr ⟨r', hr', hsame.symm⟩)
      · rintro ⟨hothers, hfirst⟩ a ha b hb hemail hfilled
        rcases List.mem_cons.mp ha with rfl | ha'
        · rcases List.mem_cons.mp hb with rfl | hb
          · rfl
          · exact absurd (List.mem_map.mpr ⟨b, hb, hemail.symm⟩) (hfirst hfilled)
        · rcases List.mem_cons.mp hb with rfl | hb
          · rw [hemail] at hfilled
            exact absurd (List.mem_map.mpr ⟨a, ha', hemail⟩) (hfirst hfilled)
          · exact hothers a ha' b hb hemail hfilled
    rw [hsplit, ih hrest]
    unfold filledEmails
    rw [List.map_cons, List.filter_cons]
    by_cases hfilled : r.assignedEmail = []
    · simp [hfilled]
    · simp [hfilled, and_comm]

/-- New records with codes that are distinct and not those of the old ones keep the addresses apart exactly
if theirs are distinct and new. -/
theorem oneCodeEach_append {old new : List AttachmentRecord}
    (hnodup : (new.map (·.discount)).Nodup) (hnew : ∀ r ∈ old, ∀ r' ∈ new, r.discount ≠ r'.discount) :
    OneCodeEach (old ++ new) ↔ OneCodeEach old ∧ (filledEmails (new.map (·.assignedEmail))).Nodup ∧
      ∀ r' ∈ new, r'.assignedEmail ≠ [] → ∀ r ∈ old, r.assignedEmail ≠ r'.assignedEmail := by
  rw [← oneCodeEach_of_nodup hnodup]
  constructor
  · intro h
    refine ⟨fun a ha b hb => h a (List.mem_append_left _ ha) b (List.mem_append_left _ hb),
      fun a ha b hb => h a (List.mem_append_right _ ha) b (List.mem_append_right _ hb),
      fun r' hr' hfilled r hr hemail => ?_⟩
    have hfilled' : r.assignedEmail ≠ [] := hemail ▸ hfilled
    exact hnew r hr r' hr' (h r (List.mem_append_left _ hr) r' (List.mem_append_right _ hr') hemail hfilled')
  · rintro ⟨hold, hnews, hapart⟩ a ha b hb hemail hfilled
    rcases List.mem_append.mp ha with ha | ha
    · rcases List.mem_append.mp hb with hb | hb
      · exact hold a ha b hb hemail hfilled
      · exact absurd hemail (hapart b hb (hemail ▸ hfilled) a ha)
    · rcases List.mem_append.mp hb with hb | hb
      · exact absurd hemail.symm (hapart a ha hfilled b hb)
      · exact hnews a ha b hb hemail hfilled

variable (db) in
theorem recordsOf_createAll {records : List AttachmentRecord} (h : ∀ r ∈ records, r.contract = c) :
    (db.setRecords (db.records.createAll records)).recordsOf c = db.recordsOf c ++ records := by
  obtain ⟨new, hkeys, hrows, hold⟩ := db.records.createAll_spec records
  have hnew : records.filter (·.contract == c) = records :=
    List.filter_eq_self.mpr fun r hr => by simpa using h r hr
  have hsame : db.records.keys.map (db.records.createAll records).row =
      db.records.keys.map db.records.row := List.map_congr_left hold
  unfold recordsOf
  show (((db.records.createAll records).keys.map (db.records.createAll records).row).filter _) = _
  rw [hkeys, List.map_append, hrows, hsame, List.filter_append, hnew]

/-! ## Assigning -/

/-- The command assigns as it should: nothing is raised, the codes that it hands out are distinct and
unused, and no address has two codes of the contract then. -/
structure AssignsSafely (c : ContractId) (db : ManagerDb) (outcome : Outcome ManagerDb Error) : Prop where
  returns : outcome.error = none
  distinct : ((handedOut db outcome.state).map (·.discount)).Nodup
  unused : ∀ r ∈ handedOut db outcome.state, db.codes.isUsed r.discount = false
  oneEach : OneCodeEach (outcome.state.recordsOf c)

/-- The command does not skip the contract: it has seats, enough for all rows, and by the count of the
command enough codes. -/
structure HandsOut (cat : Catalog) (c : ContractId) (assignees : List AssignRequest) (db : ManagerDb)
    (maxLearners : ℕ) : Prop where
  seats : 0 < maxLearners
  enough : assignees.length ≤ maxLearners
  codes : assignees.length ≤ (db.unusedCodes cat c).length +
    (db.alreadyAssigned cat c (assignees.map (·.email))).length

/-- The rows of new addresses can be given codes: there is one for each, they fit into their columns, and
their addresses are distinct and have no code. -/
structure Assignable (cat : Catalog) (c : ContractId) (assignees : List AssignRequest) (db : ManagerDb) :
    Prop where
  codes : (newAssignees cat c assignees db).length ≤ (db.unusedCodes cat c).length
  fits : ∀ a ∈ newAssignees cat c assignees db,
    fitsEmailColumn a.email = true ∧ fitsNameColumn a.name = true
  distinct : (filledEmails ((newAssignees cat c assignees db).map (·.email))).Nodup
  fresh : ∀ a ∈ newAssignees cat c assignees db, a.email ≠ [] →
    ∀ r ∈ db.recordsOf c, r.assignedEmail ≠ a.email

/-- No address has two codes to begin with; and if there are rows and the contract has no automatic
membership, it has a seat limit, and where the command does not skip it the rows can be given codes. -/
structure AssignReady (cat : Catalog) (c : ContractId) (assignees : List AssignRequest) (db : ManagerDb) :
    Prop where
  oneEach : OneCodeEach (db.recordsOf c)
  limit : assignees ≠ [] → contractMembershipAutos.contains (cat.contract c).membershipType = false →
    ∃ maxLearners, (cat.contract c).maxLearners = some maxLearners ∧
      (HandsOut cat c assignees db maxLearners → Assignable cat c assignees db)

theorem handedOut_self (db : ManagerDb) : handedOut db db = [] := by
  unfold handedOut
  rw [List.filter_eq_nil_iff.mpr (by simp)]
  rfl

/-- Where the command writes nothing, it is safe if no address had two codes. -/
theorem assignsSafely_self : AssignsSafely c db ⟨db, none⟩ ↔ OneCodeEach (db.recordsOf c) := by
  constructor
  · intro h
    exact h.oneEach
  · intro h
    refine ⟨rfl, ?_, ?_, h⟩
    · rw [handedOut_self]
      exact List.nodup_nil
    · rw [handedOut_self]
      exact fun r hr => absurd hr List.not_mem_nil

/-- Where the command writes the new records, it is safe if the addresses stay apart. -/
theorem assignsSafely_created :
    AssignsSafely c db ⟨db.setRecords (db.records.createAll
        ((commandAssignments cat rows c assignees db).map (commandAssignment c))), none⟩ ↔
      OneCodeEach (db.recordsOf c ++
        (commandAssignments cat rows c assignees db).map (commandAssignment c)) := by
  have hcontract : ∀ r ∈ (commandAssignments cat rows c assignees db).map (commandAssignment c),
      r.contract = c := by
    intro r hr
    obtain ⟨a, -, rfl⟩ := List.mem_map.mp hr
    rfl
  have hrecords := recordsOf_createAll db hcontract
  have hhanded : handedOut db (db.setRecords (db.records.createAll
      ((commandAssignments cat rows c assignees db).map (commandAssignment c)))) =
      (commandAssignments cat rows c assignees db).map (commandAssignment c) :=
    handedOut_createAll rfl
  rw [← hrecords]
  constructor
  · intro h
    exact h.oneEach
  · intro h
    refine ⟨rfl, ?_, ?_, h⟩
    · rw [hhanded, List.map_map]
      exact commandAssignments_nodup cat rows c db assignees
    · rw [hhanded]
      intro r hr
      obtain ⟨a, ha, rfl⟩ := List.mem_map.mp hr
      exact commandAssignments_unused cat rows c db assignees a ha

/-- The records of a code make it a used one. -/
theorem isUsed_of_record {r : AttachmentRecord} (hr : r ∈ db.recordsOf c) :
    db.codes.isUsed r.discount = true := by
  obtain ⟨hmem, -⟩ := List.mem_filter.mp hr
  obtain ⟨k, hk, rfl⟩ := List.mem_map.mp hmem
  unfold isUsed
  rw [Bool.or_eq_true, List.any_eq_true, db.contractRedemptions]
  refine Or.inr ⟨_, List.mem_map.mpr ⟨k, hk, rfl⟩, ?_⟩
  exact beq_self_eq_true _

/-- The addresses stay apart exactly if the new ones are distinct and have no code. -/
theorem oneCodeEach_created
    (hcodes : (newAssignees cat c assignees db).length ≤ (db.unusedCodes cat c).length) :
    OneCodeEach (db.recordsOf c ++
        (commandAssignments cat rows c assignees db).map (commandAssignment c)) ↔
      OneCodeEach (db.recordsOf c) ∧
        (filledEmails ((newAssignees cat c assignees db).map (·.email))).Nodup ∧
        ∀ a ∈ newAssignees cat c assignees db, a.email ≠ [] →
          ∀ r ∈ db.recordsOf c, r.assignedEmail ≠ a.email := by
  have hfst : (commandAssignments cat rows c assignees db).map (·.1) =
      newAssignees cat c assignees db := commandAssignments_fst hcodes
  have hnodup : (((commandAssignments cat rows c assignees db).map (commandAssignment c)).map
      (·.discount)).Nodup := by
    rw [List.map_map]
    exact commandAssignments_nodup cat rows c db assignees
  rw [oneCodeEach_append hnodup, ← hfst]
  · simp only [List.map_map, List.forall_mem_map]
    rfl
  · intro r hr r' hr' hsame
    obtain ⟨a, ha, rfl⟩ := List.mem_map.mp hr'
    have hused := isUsed_of_record hr
    have hfree := commandAssignments_unused cat rows c db assignees a ha
    rw [hsame] at hused
    exact absurd (hfree.symm.trans hused) Bool.false_ne_true

variable (rows) in
/-- Creating the records fails exactly if something does not fit. -/
theorem createAssignments_cases
    (hcodes : (newAssignees cat c assignees db).length ≤ (db.unusedCodes cat c).length) :
    ((∀ a ∈ newAssignees cat c assignees db,
        fitsEmailColumn a.email = true ∧ fitsNameColumn a.name = true) ∧
      statement (createAssignments c (commandAssignments cat rows c assignees db)) db =
        ⟨db.setRecords (db.records.createAll
          ((commandAssignments cat rows c assignees db).map (commandAssignment c))), none⟩) ∨
    ((¬∀ a ∈ newAssignees cat c assignees db,
        fitsEmailColumn a.email = true ∧ fitsNameColumn a.name = true) ∧
      statement (createAssignments c (commandAssignments cat rows c assignees db)) db =
        ⟨db, some .failure⟩) := by
  have hall : ((commandAssignments cat rows c assignees db).all fun a =>
      fitsEmailColumn a.1.email && fitsNameColumn a.1.name) = true ↔
      ∀ a ∈ newAssignees cat c assignees db,
        fitsEmailColumn a.email = true ∧ fitsNameColumn a.name = true := by
    rw [← commandAssignments_fst hcodes, List.forall_mem_map, List.all_eq_true]
    exact forall₂_congr fun a _ => Bool.and_eq_true_iff
  rw [← hall]
  unfold createAssignments
  by_cases hfits : ((commandAssignments cat rows c assignees db).all fun a =>
      fitsEmailColumn a.1.email && fitsNameColumn a.1.name) = true
  · refine Or.inl ⟨hfits, statement_ok ?_⟩
    rw [if_pos hfits]
  · refine Or.inr ⟨hfits, statement_error ?_⟩
    rw [if_neg hfits]

variable (rows db assignees) in
/-- What the command does for a contract with a seat limit. -/
theorem assignContract_eq (hauto : contractMembershipAutos.contains
      (cat.contract c).membershipType = false) (hlimit : (cat.contract c).maxLearners = some n) :
    (HandsOut cat c assignees db n ∧ assignContract cat rows true assignees c db =
      if (newAssignees cat c assignees db).length ≤ (db.unusedCodes cat c).length then
        statement (createAssignments c (commandAssignments cat rows c assignees db)) db
      else ⟨db, some .failure⟩) ∨
    (¬HandsOut cat c assignees db n ∧
      assignContract cat rows true assignees c db = ⟨db, none⟩) := by
  unfold assignContract
  rw [hauto, if_neg Bool.false_ne_true, hlimit]
  dsimp only
  by_cases hseats : n < 1
  · rw [if_pos hseats]
    exact Or.inr ⟨fun h => absurd h.seats (by omega), rfl⟩
  · rw [if_neg hseats]
    by_cases henough : n < assignees.length
    · rw [if_pos henough]
      exact Or.inr ⟨fun h => absurd h.enough (by omega), rfl⟩
    · rw [if_neg henough]
      by_cases hcodes : ((db.unusedCodes cat c).length : ℤ) < assignees.length -
          (db.alreadyAssigned cat c (assignees.map (·.email))).length
      · rw [if_pos hcodes]
        exact Or.inr ⟨fun h => absurd h.codes (by omega), rfl⟩
      · rw [if_neg hcodes, popCodes_eq, (rows.discounts_perm _).length_eq]
        refine Or.inl ⟨⟨by omega, by omega, by omega⟩, ?_⟩
        by_cases hall : (newAssignees cat c assignees db).length ≤ (db.unusedCodes cat c).length
        · rw [if_pos hall, if_pos hall]
          rfl
        · rw [if_neg hall, if_neg hall]

/-- Assigning the codes of one contract is safe exactly if it is ready for it. -/
theorem assignContract_safe_iff (hauto : contractMembershipAutos.contains
      (cat.contract c).membershipType = false) (hlimit : (cat.contract c).maxLearners = some n) :
    AssignsSafely c db (assignContract cat rows true assignees c db) ↔
      OneCodeEach (db.recordsOf c) ∧
        (HandsOut cat c assignees db n → Assignable cat c assignees db) := by
  have hcases := assignContract_eq rows db assignees hauto hlimit
  rcases hcases with ⟨hhands, heq⟩ | ⟨hskips, heq⟩
  · rw [heq]
    by_cases hcodes : (newAssignees cat c assignees db).length ≤ (db.unusedCodes cat c).length
    · rw [if_pos hcodes]
      rcases createAssignments_cases rows hcodes with ⟨hfits, hcreated⟩ | ⟨hlong, hfailed⟩
      · rw [hcreated, assignsSafely_created, oneCodeEach_created hcodes]
        refine and_congr_right fun _ => ?_
        constructor
        · rintro ⟨hdistinct, hfresh⟩ _
          exact ⟨hcodes, hfits, hdistinct, hfresh⟩
        · intro h
          exact ⟨(h hhands).distinct, (h hhands).fresh⟩
      · rw [hfailed]
        exact iff_of_false (fun h => nomatch h.returns) fun h => hlong (h.2 hhands).fits
    · rw [if_neg hcodes]
      exact iff_of_false (fun h => nomatch h.returns) fun h => hcodes (h.2 hhands).codes
  · rw [heq, assignsSafely_self]
    exact (and_iff_left fun hhands => absurd hhands hskips).symm

/-- `b2b_codes assign --commit` is safe exactly if the contract is ready for it. -/
theorem handleAssign_safe_iff (cat : Catalog) (rows : RowOrder) (c : ContractId)
    (assignees : List AssignRequest) (db : ManagerDb) :
    AssignsSafely c db (handleAssign cat rows true false [c] assignees db) ↔
      AssignReady cat c assignees db := by
  unfold handleAssign
  by_cases hempty : assignees = []
  · rw [if_pos (by rw [hempty]; rfl), skip_apply, assignsSafely_self]
    constructor
    · intro h
      exact ⟨h, fun hsome => absurd hempty hsome⟩
    · intro h
      exact h.oneEach
  · rw [if_neg (by simpa using hempty), if_neg Bool.false_ne_true, List.map_singleton, seq_singleton]
    cases hauto : contractMembershipAutos.contains (cat.contract c).membershipType with
    | true =>
      have hskips : assignContract cat rows true assignees c db = ⟨db, none⟩ := if_pos hauto
      rw [hskips, assignsSafely_self]
      constructor
      · intro h
        refine ⟨h, fun _ hother => ?_⟩
        rw [hauto] at hother
        cases hother
      · intro h
        exact h.oneEach
    | false =>
      cases hlimit : (cat.contract c).maxLearners with
      | none =>
        have hraises : (assignContract cat rows true assignees c db).error ≠ none := by
          unfold assignContract
          rw [hauto, if_neg Bool.false_ne_true, hlimit]
          exact Option.some_ne_none _
        refine iff_of_false (fun h => hraises h.returns) fun h => ?_
        obtain ⟨n, hsome, -⟩ := h.limit hempty hauto
        rw [hlimit] at hsome
        cases hsome
      | some n =>
        rw [assignContract_safe_iff hauto hlimit]
        constructor
        · rintro ⟨honce, hready⟩
          exact ⟨honce, fun _ _ => ⟨n, hlimit, hready⟩⟩
        · intro h
          obtain ⟨m, hsome, hready⟩ := h.limit hempty hauto
          rw [hlimit, Option.some_inj] at hsome
          rw [hsome]
          exact ⟨h.oneEach, hready⟩

/-! ## Revoking -/

/-- An assignment that was not redeemed, to one of the addresses. -/
structure AttachmentRecord.IsListed (r : AttachmentRecord) (c : ContractId) (emails : List Text) : Prop where
  contract : r.contract = c
  unredeemed : r.isRedeemed = false
  filled : r.assignedEmail ≠ []
  listed : r.assignedEmail ∈ emails

/-- The command revokes as it should: it clears exactly the assignments to the addresses that were not
redeemed, and regenerates their codes and no others, so that no discount has the old code any more. -/
structure RevokesSafely (c : ContractId) (emails : List Text) (db : ManagerDb)
    (outcome : Outcome ManagerDb Error) : Prop where
  returns : outcome.error = none
  keys : outcome.state.records.keys = db.records.keys
  cleared : ∀ k ∈ db.records.keys, (db.records.row k).IsListed c emails →
    outcome.state.records.row k = (db.records.row k).cleared
  others : ∀ k ∈ db.records.keys, ¬(db.records.row k).IsListed c emails →
    outcome.state.records.row k = db.records.row k
  regenerated : ∀ k ∈ db.records.keys, (db.records.row k).IsListed c emails →
    ∀ d ∈ outcome.state.codes.discounts.keys,
      outcome.state.discountCode d ≠ db.discountCode (db.records.row k).discount
  kept : ∀ d, (∀ k ∈ db.records.keys, (db.records.row k).IsListed c emails →
    (db.records.row k).discount ≠ d) → outcome.state.discountCode d = db.discountCode d

/-- All that would be cleared is empty already. -/
def NothingToRevoke (c : ContractId) (emails : List Text) (db : ManagerDb) : Prop :=
  ∀ k ∈ db.revocatables c emails, (db.records.row k).cleared = db.records.row k

/-- Clearing records leaves all else, the codes of the discounts too. -/
structure RecordsCleared (ks : List ℕ) (db db' : ManagerDb) : Prop where
  keys : db'.records.keys = db.records.keys
  row : ∀ k, db'.records.row k = if k ∈ ks then (db.records.row k).cleared else db.records.row k
  discounts : db'.codes.discounts = db.codes.discounts
  discountCode : db'.discountCode = db.discountCode

theorem foldl_saveCleared (ks : List ℕ) (db : ManagerDb) :
    RecordsCleared ks db (ks.foldl saveCleared db) := by
  induction ks generalizing db with
  | nil => exact ⟨rfl, fun k => (if_neg List.not_mem_nil).symm, rfl, rfl⟩
  | cons k rest ih =>
    obtain ⟨hkeys, hrow, hdiscounts, hcode⟩ := ih (saveCleared db k)
    refine ⟨hkeys, fun i => ?_, hdiscounts, hcode⟩
    rw [List.foldl_cons, hrow]
    by_cases hik : i = k
    · have hself : (saveCleared db k).records.row i = (db.records.row i).cleared := by
        rw [hik]
        exact Table.set_row_self _ _ _
      have hmem : i ∈ k :: rest := by
        rw [hik]
        exact List.mem_cons_self
      rw [hself, if_pos hmem]
      split <;> rfl
    · have hother : (saveCleared db k).records.row i = db.records.row i :=
        Table.set_row_of_ne _ _ hik
      have hmem : i ∈ k :: rest ↔ i ∈ rest := by
        rw [List.mem_cons, or_iff_right hik]
      simp only [hother, hmem]

theorem mem_revocatables : k ∈ db.revocatables c emails ↔ k ∈ db.records.keys ∧
    (db.records.row k).contract = c ∧ (db.records.row k).user = none ∧
      (db.records.row k).assignedEmail ∈ emails := by
  unfold revocatables
  rw [List.mem_filter, Bool.and_eq_true, Bool.and_eq_true, beq_iff_eq, Option.isNone_iff_eq_none,
    List.contains_iff_mem, and_assoc]

theorem mem_revocatables_of_listed (hk : k ∈ db.records.keys)
    (h : (db.records.row k).IsListed c emails) : k ∈ db.revocatables c emails := by
  have hunredeemed := h.unredeemed
  unfold AttachmentRecord.isRedeemed at hunredeemed
  rw [Bool.or_eq_false_iff, Option.isSome_eq_false_iff, Option.isNone_iff_eq_none] at hunredeemed
  exact mem_revocatables.mpr ⟨hk, h.contract, hunredeemed.1, h.listed⟩

/-- Revoking is safe exactly if there is nothing to revoke. -/
theorem revokeAssignments_safe_iff (hexist : ∀ k ∈ db.records.keys,
      (db.records.row k).discount ∈ db.codes.discounts.keys) :
    RevokesSafely c emails db (revokeAssignments true [c] emails db) ↔ NothingToRevoke c emails db := by
  have hrun : revokeAssignments true [c] emails db =
      ⟨(db.revocatables c emails).foldl saveCleared db, none⟩ := by
    unfold revokeAssignments
    rw [if_pos rfl, List.flatMap_singleton]
  obtain ⟨hkeys, hrow, hdiscounts, hcode⟩ := foldl_saveCleared (db.revocatables c emails) db
  rw [hrun]
  constructor
  · intro h k hk
    have hkey := (mem_revocatables.mp hk).1
    have hcleared := hrow k
    rw [if_pos hk] at hcleared
    by_cases hlisted : (db.records.row k).IsListed c emails
    · refine absurd ?_ (h.regenerated k hkey hlisted (db.records.row k).discount ?_)
      · exact congrFun hcode _
      · show _ ∈ ((db.revocatables c emails).foldl saveCleared db).codes.discounts.keys
        rw [hdiscounts]
        exact hexist k hkey
    · exact hcleared.symm.trans (h.others k hkey hlisted)
  · intro h
    have hsame : ∀ k, ((db.revocatables c emails).foldl saveCleared db).records.row k =
        db.records.row k := by
      intro k
      rw [hrow]
      split
      · rename_i hk
        exact h k hk
      · rfl
    have hnone : ∀ k ∈ db.records.keys, ¬(db.records.row k).IsListed c emails := by
      intro k hk hlisted
      have hempty := congrArg AttachmentRecord.assignedEmail
        (h k (mem_revocatables_of_listed hk hlisted))
      exact hlisted.filled hempty.symm
    exact ⟨rfl, hkeys, fun k hk hlisted => absurd hlisted (hnone k hk), fun k _ _ => hsame k,
      fun k hk hlisted => absurd hlisted (hnone k hk), fun d _ => congrFun hcode d⟩

/-- `b2b_codes assign --revoke --commit` is safe exactly if there is nothing to revoke. -/
theorem handleRevoke_safe_iff (cat : Catalog) (rows : RowOrder) (c : ContractId)
    (assignees : List AssignRequest) (hexist : ∀ k ∈ db.records.keys,
      (db.records.row k).discount ∈ db.codes.discounts.keys) :
    RevokesSafely c (assignees.map (·.email)) db (handleAssign cat rows true true [c] assignees db) ↔
      NothingToRevoke c (assignees.map (·.email)) db := by
  rw [← revokeAssignments_safe_iff hexist]
  unfold handleAssign
  by_cases hempty : assignees = []
  · have hnone : db.revocatables c [] = [] := by
      refine List.eq_nil_iff_forall_not_mem.mpr fun k hk => ?_
      exact List.not_mem_nil (mem_revocatables.mp hk).2.2.2
    have hrun : revokeAssignments true [c] [] db = ⟨db, none⟩ := by
      unfold revokeAssignments
      rw [if_pos rfl, List.flatMap_singleton, hnone]
      rfl
    rw [hempty, List.map_nil, hrun]
    exact Iff.rfl
  · rw [if_neg (by simpa using hempty), if_pos rfl]

/-- Assigning and revoking from the command line are safe exactly if the contract is ready for the rows and
there is nothing to revoke. -/
theorem assign_command_safe_iff (cat : Catalog) (rows : RowOrder) (c : ContractId)
    (assignees : List AssignRequest) (db : ManagerDb) (hexist : ∀ k ∈ db.records.keys,
      (db.records.row k).discount ∈ db.codes.discounts.keys) :
    (AssignsSafely c db (handleAssign cat rows true false [c] assignees db) ↔
      AssignReady cat c assignees db) ∧
    (RevokesSafely c (assignees.map (·.email)) db
        (handleAssign cat rows true true [c] assignees db) ↔
      NothingToRevoke c (assignees.map (·.email)) db) :=
  ⟨handleAssign_safe_iff cat rows c assignees db, handleRevoke_safe_iff cat rows c assignees hexist⟩

/-- Code 1 was assigned to a learner, who has not redeemed it. -/
def assignedCode : ManagerDb :=
  oneCodeWith (Table.single 1 (newAssignment 3 1 ⟨"ada@mit.edu".toList, []⟩ 1))

theorem assign_command_safe_iff_assignedCode :
    (AssignsSafely 1 assignedCode
        (handleAssign threeSeatsCatalog (RowOrder.first 1 1) true false [1] twoLearners assignedCode) ↔
      AssignReady threeSeatsCatalog 1 twoLearners assignedCode) ∧
    (RevokesSafely 1 (twoLearners.map (·.email)) assignedCode
        (handleAssign threeSeatsCatalog (RowOrder.first 1 1) true true [1] twoLearners assignedCode) ↔
      NothingToRevoke 1 (twoLearners.map (·.email)) assignedCode) :=
  assign_command_safe_iff threeSeatsCatalog (RowOrder.first 1 1) 1 twoLearners assignedCode (by decide)

/-- The assignment is taken back, but the code that was sent still belongs to the discount. -/
theorem revoked_code_stays_valid :
    ¬∀ (cat : Catalog) (rows : RowOrder) (c : ContractId) (assignees : List AssignRequest)
      (db : ManagerDb),
      (∀ k ∈ db.records.keys, (db.records.row k).discount ∈ db.codes.discounts.keys) →
      AssignsSafely c db (handleAssign cat rows true false [c] assignees db) ∧
        RevokesSafely c (assignees.map (·.email)) db
          (handleAssign cat rows true true [c] assignees db) := by
  intro h
  obtain ⟨-, hrevokes⟩ := h threeSeatsCatalog (RowOrder.first 1 1) 1 twoLearners assignedCode
    (by decide)
  have hlisted : (assignedCode.records.row 1).IsListed 1 (twoLearners.map (·.email)) :=
    ⟨rfl, rfl, by decide, by decide⟩
  exact hrevokes.regenerated 1 (List.mem_singleton_self 1) hlisted 1 (List.mem_singleton_self 1) rfl

end MitxOnline

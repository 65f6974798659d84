import MitxOnline.B2b.CodeAssignments
import MitxOnline.B2b.Proofs.CodeCountsProofs

/-!
# Which codes a manager can take away

Revoking and reassigning look at the first record of a code. A code that is redeemed by another of its
records, or in an order only, passes that check.
-/

namespace MitxOnline

open CodeStore

variable {cat : Catalog} {now : Instant} {uuid code : Text} {c : ContractId} {db db' : ManagerDb}
  {d d' : DiscountId} {k : ℕ} {manager : UserId} {request : AssignRequest}

/-- The two operations that take a code away from whom it was assigned to. -/
inductive CodeOperation where
  | revoke
  | reassign (manager : UserId) (request : Option AssignRequest)

/-- The view of an operation. -/
def CodeOperation.run (op : CodeOperation) (cat : Catalog) (now : Instant) (uuid : Text) (c : ContractId)
    (code : Text) (db : ManagerDb) : ManagerDb :=
  match op with
  | .revoke => (revokeCode cat now uuid c code db).1
  | .reassign manager request => (reassignCode cat now uuid manager c code request db).1

/-- An operation that is let through writes something. A request that the serializer refuses is not let
through, and a code that cannot be saved is not reassigned, whereas its record is deleted. -/
def CodeOperation.Writes (now : Instant) (row : Discount) : CodeOperation → Prop
  | .revoke => True
  | .reassign _ none => False
  | .reassign _ (some _) => row.checkDateValidity now = .ok ()

namespace ManagerDb

/-- The code has a redeemed record or was redeemed in a fulfilled order. -/
def IsRedeemed (db : ManagerDb) (d : DiscountId) : Prop :=
  (∃ k ∈ db.records.keys, (db.records.row k).discount = d ∧ (db.records.row k).isRedeemed = true) ∨
    0 < db.codes.store.fulfilledRedemptions d

/-- A code keeps its text and its records, with all their columns. -/
structure KeepsCode (db db' : ManagerDb) (d : DiscountId) : Prop where
  code : db'.discountCode d = db.discountCode d
  records : ∀ k ∈ db.records.keys, (db.records.row k).discount = d →
    k ∈ db'.records.keys ∧ db'.records.row k = db.records.row k

theorem KeepsCode.rfl : db.KeepsCode db d := ⟨Eq.refl _, fun _ hk _ => ⟨hk, Eq.refl _⟩⟩

/-- The guard of an operation looks at this record of this code, and lets the operation through. -/
structure LetsThrough (db : ManagerDb) (cat : Catalog) (now : Instant) (c : ContractId) (code : Text)
    (op : CodeOperation) (d : DiscountId) (k : ℕ) : Prop where
  found : db.findCode cat c code = some d
  record : db.assignmentRecord d = some k
  unredeemed : (db.records.row k).isRedeemed = false
  writes : op.Writes now (db.codes.discounts.row d)

theorem assignmentRecord_spec (h : db.assignmentRecord d = some k) :
    k ∈ db.records.keys ∧ (db.records.row k).discount = d := by
  obtain ⟨hk, hd⟩ := Table.first_eq_some h
  exact ⟨hk, beq_iff_eq.mp hd⟩

theorem mem_of_findCode (h : db.findCode cat c code = some d) : d ∈ db.codes.discounts.keys :=
  (mem_getDiscounts.mp (List.mem_of_find?_eq_some h)).1

end ManagerDb

open ManagerDb

variable (uuid db) in
theorem saveCode_error {e : Error} (h : (db.codes.discounts.row d).checkDateValidity now = .error e) :
    saveCode now d uuid db = .error e := by
  simp [saveCode, h]

variable (uuid db) in
theorem saveCode_ok (h : (db.codes.discounts.row d).checkDateValidity now = .ok ()) :
    saveCode now d uuid db = .ok (db.setCode d uuid) := by
  simp [saveCode, h]

/-- Another code is not affected by a write to one. -/
theorem keepsCode_setCode (h : d' ≠ d) : db.KeepsCode (db.setCode d uuid) d' :=
  ⟨Function.update_of_ne h _ _, fun _ hk _ => ⟨hk, rfl⟩⟩

/-! ## What an operation does -/

variable (uuid) in
/-- Revoking deletes the record, whether the code can be saved or not. -/
theorem revoke_effect (h : db.LetsThrough cat now c code .revoke d k) :
    k ∉ (CodeOperation.revoke.run cat now uuid c code db).records.keys ∧
      ∀ d', d' ≠ d → db.KeepsCode (CodeOperation.revoke.run cat now uuid c code db) d' := by
  obtain ⟨hfound, hrecord, hunredeemed, -⟩ := h
  obtain ⟨hk, hd⟩ := assignmentRecord_spec hrecord
  have hgone : k ∉ (db.records.erase k).keys := fun hmem => ((Table.mem_erase_keys _).mp hmem).2 rfl
  have hothers : ∀ d', d' ≠ d → db.KeepsCode (db.setRecords (db.records.erase k)) d' := by
    intro d' hne
    refine ⟨rfl, fun i hi hdiscount => ⟨(Table.mem_erase_keys _).mpr ⟨hi, ?_⟩, rfl⟩⟩
    rintro rfl
    exact hne (hdiscount.symm.trans hd)
  cases hvalid : (db.codes.discounts.row d).checkDateValidity now with
  | error e =>
    have hrun : CodeOperation.revoke.run cat now uuid c code db =
        db.setRecords (db.records.erase k) := by
      simp only [CodeOperation.run, revokeCode, hfound, hrecord, hunredeemed, Bool.false_eq_true,
        if_false, saveCode_error uuid (db.setRecords _) hvalid]
    rw [hrun]
    exact ⟨hgone, hothers⟩
  | ok u =>
    have hrun : CodeOperation.revoke.run cat now uuid c code db =
        (db.setRecords (db.records.erase k)).setCode d uuid := by
      simp only [CodeOperation.run, revokeCode, hfound, hrecord, hunredeemed, Bool.false_eq_true,
        if_false, saveCode_ok uuid (db.setRecords _) hvalid]
    rw [hrun]
    refine ⟨hgone, fun d' hne => ⟨?_, (hothers d' hne).records⟩⟩
    exact (Function.update_of_ne hne _ _).trans (hothers d' hne).code

variable (uuid) in
/-- Reassigning rotates the code, whether the record can be saved or not. -/
theorem reassign_effect (h : db.LetsThrough cat now c code (.reassign manager (some request)) d k) :
    ((CodeOperation.reassign manager (some request)).run cat now uuid c code db).discountCode d = uuid ∧
      ∀ d', d' ≠ d → db.KeepsCode
        ((CodeOperation.reassign manager (some request)).run cat now uuid c code db) d' := by
  obtain ⟨hfound, hrecord, hunredeemed, hvalid⟩ := h
  obtain ⟨hk, hd⟩ := assignmentRecord_spec hrecord
  have hrotated : (db.setCode d uuid).discountCode d = uuid := Function.update_self _ _ _
  have hrun : (CodeOperation.reassign manager (some request)).run cat now uuid c code db =
      (if fitsEmailColumn request.email = true then
        ((db.setCode d uuid).setRecords
          (db.records.set k ((db.records.row k).reassigned manager request)))
      else db.setCode d uuid) := by
    simp only [CodeOperation.run, reassignCode, hfound, hrecord, hunredeemed, Bool.false_eq_true,
      if_false, saveCode_ok uuid db hvalid]
    split <;> rfl
  rw [hrun]
  split
  · refine ⟨hrotated, fun d' hne => ⟨Function.update_of_ne hne _ _, fun i hi hdiscount => ⟨hi, ?_⟩⟩⟩
    have hik : i ≠ k := by
      rintro rfl
      exact hne (hdiscount.symm.trans hd)
    exact Table.set_row_of_ne _ _ hik
  · exact ⟨hrotated, fun d' hne => keepsCode_setCode hne⟩

/-- An operation that is not let through changes nothing. -/
theorem run_of_stopped {op : CodeOperation}
    (h : ∀ d k, ¬db.LetsThrough cat now c code op d k) : op.run cat now uuid c code db = db := by
  cases op with
  | revoke =>
    unfold CodeOperation.run revokeCode
    cases hfound : db.findCode cat c code with
    | none => rfl
    | some d =>
      cases hrecord : db.assignmentRecord d with
      | none => simp [hrecord]
      | some k =>
        cases hredeemed : (db.records.row k).isRedeemed with
        | true => simp [hrecord, hredeemed]
        | false => exact absurd ⟨hfound, hrecord, hredeemed, trivial⟩ (h d k)
  | reassign manager request =>
    cases request with
    | none => rfl
    | some request =>
      unfold CodeOperation.run reassignCode
      cases hfound : db.findCode cat c code with
      | none => rfl
      | some d =>
        cases hrecord : db.assignmentRecord d with
        | none => simp [hrecord]
        | some k =>
          cases hredeemed : (db.records.row k).isRedeemed with
          | true => simp [hrecord, hredeemed]
          | false =>
            cases hvalid : (db.codes.discounts.row d).checkDateValidity now with
            | error e => simp [hrecord, hredeemed, saveCode_error uuid db hvalid]
            | ok u => exact absurd ⟨hfound, hrecord, hredeemed, hvalid⟩ (h d k)

/-- An operation that is let through takes the code away and leaves all others alone. -/
theorem run_effect {op : CodeOperation}
    (hfresh : ∀ d ∈ db.codes.discounts.keys, uuid ≠ db.discountCode d)
    (h : db.LetsThrough cat now c code op d k) :
    ¬db.KeepsCode (op.run cat now uuid c code db) d ∧
      ∀ d', d' ≠ d → db.KeepsCode (op.run cat now uuid c code db) d' := by
  obtain ⟨hk, hd⟩ := assignmentRecord_spec h.record
  cases op with
  | revoke =>
    obtain ⟨hgone, hothers⟩ := revoke_effect uuid h
    exact ⟨fun hkeeps => hgone (hkeeps.records k hk hd).1, hothers⟩
  | reassign manager request =>
    cases request with
    | none => exact absurd h.writes id
    | some request =>
      obtain ⟨hrotated, hothers⟩ := reassign_effect uuid h
      refine ⟨fun hkeeps => ?_, hothers⟩
      exact hfresh d (mem_of_findCode h.found) (hrotated.symm.trans hkeeps.code)

/-- Redeemed codes stay as they are exactly if the guard lets the operation through for none of them.
Codes of `uuid4` are new. -/
theorem redeemedCodes_kept_iff (op : CodeOperation) (cat : Catalog) (now : Instant) (c : ContractId)
    (code : Text) (hfresh : ∀ d ∈ db.codes.discounts.keys, uuid ≠ db.discountCode d) :
    (∀ d, db.IsRedeemed d → db.KeepsCode (op.run cat now uuid c code db) d) ↔
      ∀ d k, db.LetsThrough cat now c code op d k → ¬db.IsRedeemed d := by
  constructor
  · intro h d k hthrough hredeemed
    exact (run_effect hfresh hthrough).1 (h d hredeemed)
  · intro h d hredeemed
    by_cases hstopped : ∃ d k, db.LetsThrough cat now c code op d k
    · obtain ⟨d₀, k, hthrough⟩ := hstopped
      have hne : d ≠ d₀ := by
        rintro rfl
        exact h d k hthrough hredeemed
      exact (run_effect hfresh hthrough).2 d hne
    · rw [run_of_stopped fun d k hthrough => hstopped ⟨d, k, hthrough⟩]
      exact KeepsCode.rfl

/-- A record of code 1 that a learner has redeemed. -/
def redeemedRecord : AttachmentRecord where
  emailMessageId := ""
  emailStatus := "pending"
  emailStatusEventTimestamp := none
  discount := 1
  contract := 1
  user := some 7
  assignedEmail := []
  assignedName := []
  assignedBy := none
  redeemedOn := some 0
  lastReminderSentOn := none

/-- A database with one code, which has the given records. -/
def oneCodeWith (records : Table AttachmentRecord) : ManagerDb where
  codes := { oneCode [some 1] with
    store := { Store.empty with
      contractRedemptions := records.keys.map fun k => (records.row k).redemption } }
  discountCode _ := "code".toList
  records := records
  contractRedemptions := rfl

/-- Code 1 was assigned to one learner and redeemed by another. -/
def assignedAndRedeemed : ManagerDb :=
  oneCodeWith ((Table.single 1 (newAssignment 3 1 ⟨"ada@mit.edu".toList, []⟩ 1)).create redeemedRecord)

theorem redeemedCodes_kept_iff_revoke :
    (∀ d, assignedAndRedeemed.IsRedeemed d → assignedAndRedeemed.KeepsCode
      (CodeOperation.revoke.run threeSeatsCatalog 0 "uuid".toList 1 "code".toList assignedAndRedeemed)
      d) ↔
      ∀ d k, assignedAndRedeemed.LetsThrough threeSeatsCatalog 0 1 "code".toList .revoke d k →
        ¬assignedAndRedeemed.IsRedeemed d :=
  redeemedCodes_kept_iff .revoke threeSeatsCatalog 0 1 "code".toList fun _ _ =>
    show "uuid".toList ≠ "code".toList by decide

theorem not_redeemedCodes_kept :
    ¬∀ d, assignedAndRedeemed.IsRedeemed d → assignedAndRedeemed.KeepsCode
      (CodeOperation.revoke.run threeSeatsCatalog 0 "uuid".toList 1 "code".toList assignedAndRedeemed)
      d := by
  intro h
  have hredeemed : assignedAndRedeemed.IsRedeemed 1 := .inl ⟨2, by decide, rfl, rfl⟩
  have hkept := ((h 1 hredeemed).records 1 (by decide) rfl).1
  exact absurd hkept (by decide)

end MitxOnline

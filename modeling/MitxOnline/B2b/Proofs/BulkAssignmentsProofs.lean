import MitxOnline.B2b.Proofs.CodeAssignmentsProofs
import MitxOnline.Lib.Draws

/-!
# When a bulk assignment gives every address its own code

Codes are drawn from a query that has a row for each product of a code, so a code with two products can be
drawn twice; and whether a code was redeemed in an order is not asked. The addresses are kept apart by the
serializer, and every one of them ends up with a code or among the errors.
-/

namespace MitxOnline

open CodeStore ManagerDb Draws

variable {cat : Catalog} {lower : Text → Text} {userEmail : UserId → Text} {uuid : DiscountId → Text}
  {manager : UserId} {c : ContractId} {db db' : ManagerDb} {payload : List AssignRequest}
  {seen : List Text} {email : Text} {d : DiscountId} {k n : ℕ} {p : ProductId}
  {assigned : List DiscountId} {errors : List AssignError}

/-! ## Addresses -/

/-- The address of a row, as addresses are compared. -/
def AssignRequest.address (lower : Text → Text) (record : AssignRequest) : Text := lower record.email

variable (lower payload seen) in
/-- The first rows have different addresses, and all addresses that were not seen before. -/
theorem firstRecords_spec :
    ((firstRecords lower seen payload).map (·.address lower)).Nodup ∧
      ∀ email, email ∈ (firstRecords lower seen payload).map (·.address lower) ↔
        email ∈ payload.map (·.address lower) ∧ email ∉ seen := by
  induction payload generalizing seen with
  | nil => simp [firstRecords]
  | cons record rest ih =>
    unfold firstRecords
    split
    · rename_i hseen
      obtain ⟨hnodup, hmem⟩ := ih seen
      refine ⟨hnodup, fun email => ?_⟩
      rw [hmem, List.map_cons, List.mem_cons]
      constructor
      · rintro ⟨hrest, hnew⟩
        exact ⟨.inr hrest, hnew⟩
      · rintro ⟨rfl | hrest, hnew⟩
        · exact absurd hseen hnew
        · exact ⟨hrest, hnew⟩
    · rename_i hseen
      obtain ⟨hnodup, hmem⟩ := ih (seen ++ [lower record.email])
      rw [List.map_cons]
      constructor
      · refine List.nodup_cons.mpr ⟨fun hhead => ?_, hnodup⟩
        exact ((hmem _).mp hhead).2 (by simp [AssignRequest.address])
      · intro email
        rw [List.mem_cons, hmem, List.map_cons, List.mem_cons]
        simp only [List.mem_append, List.mem_singleton, not_or]
        constructor
        · rintro (rfl | ⟨hrest, hnew, -⟩)
          · exact ⟨.inl rfl, hseen⟩
          · exact ⟨.inr hrest, hnew⟩
        · rintro ⟨hemail, hnew⟩
          by_cases hhead : email = record.address lower
          · exact .inl hhead
          · exact .inr ⟨hemail.resolve_left hhead, hnew, hhead⟩

/-- The addresses of a payload, each once. -/
def distinctAddresses (lower : Text → Text) (payload : List AssignRequest) : List Text :=
  (payload.map (·.address lower)).dedup

theorem firstRecords_perm :
    ((firstRecords lower [] payload).map (·.address lower)).Perm (distinctAddresses lower payload) := by
  obtain ⟨hnodup, hmem⟩ := firstRecords_spec lower payload []
  refine (List.perm_ext_iff_of_nodup hnodup (List.nodup_dedup _)).mpr fun email => ?_
  rw [hmem, List.mem_dedup]
  simp

/-- The rows that want a code. -/
def emailAssignees (lower : Text → Text) (userEmail : UserId → Text) (c : ContractId)
    (payload : List AssignRequest) (db : ManagerDb) : List AssignRequest :=
  (firstRecords lower [] payload).filter fun record =>
    !(takenEmails lower userEmail c db).contains (lower record.email)

/-- The number of addresses of the payload that do not have or had a code of the contract. -/
def wantedCodes (lower : Text → Text) (userEmail : UserId → Text) (c : ContractId)
    (payload : List AssignRequest) (db : ManagerDb) : ℕ :=
  (distinctAddresses lower payload).countP fun email =>
    !(takenEmails lower userEmail c db).contains email

theorem emailAssignees_length :
    (emailAssignees lower userEmail c payload db).length = wantedCodes lower userEmail c payload db := by
  unfold wantedCodes emailAssignees
  rw [← firstRecords_perm.countP_eq, List.countP_map, ← List.countP_eq_length_filter]
  rfl

/-! ## Codes -/

/-- The codes without a record. -/
def unassignedCodes (db : ManagerDb) : List DiscountId :=
  db.codes.discounts.keys.filter fun d => (db.assignmentRecord d).isNone

/-- The rows that a code has in the query: one for each of its products that is one of the contract's. -/
def codeRows (cat : Catalog) (c : ContractId) (db : ManagerDb) (d : DiscountId) : ℕ :=
  db.codes.productRows d (ofContract cat c)

theorem unassignedRows_eq : unassignedRows cat c db = expand (codeRows cat c db) (unassignedCodes db) :=
  filter_expand _ _ _

theorem unassignedCodes_sorted : (unassignedCodes db).Pairwise (· < ·) :=
  db.codes.discounts.sorted.filter _

theorem mem_unassignedCodes : d ∈ unassignedCodes db ↔
    d ∈ db.codes.discounts.keys ∧ ∀ k ∈ db.records.keys, (db.records.row k).discount ≠ d := by
  unfold unassignedCodes assignmentRecord Table.first
  simp [List.mem_filter]

variable (uuid db n p) in
/-- New codes are new discounts, different from each other. -/
theorem createCodes_spec : (createCodes uuid p n db).1.records = db.records ∧
    (createCodes uuid p n db).2.length = n ∧ (createCodes uuid p n db).2.Nodup ∧
      ∀ d ∈ (createCodes uuid p n db).2, d ∉ db.codes.discounts.keys := by
  induction n generalizing db with
  | zero => exact ⟨rfl, rfl, List.nodup_nil, fun d hd => absurd hd List.not_mem_nil⟩
  | succ n ih =>
    obtain ⟨hrecords, hlength, hnodup, hnew⟩ :=
      ih (db.createCode p (uuid db.codes.discounts.nextKey))
    have hstep : createCodes uuid p (n + 1) db =
        ((createCodes uuid p n (db.createCode p (uuid db.codes.discounts.nextKey))).1,
          db.codes.discounts.nextKey ::
            (createCodes uuid p n (db.createCode p (uuid db.codes.discounts.nextKey))).2) := rfl
    rw [hstep]
    have hkeys : ∀ d, d ∈ db.codes.discounts.keys ∨ d = db.codes.discounts.nextKey →
        d ∈ (db.createCode p (uuid db.codes.discounts.nextKey)).codes.discounts.keys :=
      fun d hd => (Table.mem_create_keys _ _ _).mpr hd
    refine ⟨hrecords, by simp [hlength], ?_, ?_⟩
    · exact List.nodup_cons.mpr ⟨fun hmem => hnew _ hmem (hkeys _ (.inr rfl)), hnodup⟩
    · intro d hd
      rcases List.mem_cons.mp hd with rfl | hd
      · exact Table.nextKey_not_mem _
      · exact fun hold => hnew d hd (hkeys d (.inl hold))

variable (cat uuid c db n) in
/-- The codes for a number of addresses: the rows that the query has, and then new codes. -/
theorem availableDiscounts_spec : ∃ new : List DiscountId,
    (availableDiscounts cat uuid c n db).2 = (unassignedRows cat c db).take n ++ new ∧
      (availableDiscounts cat uuid c n db).1.records = db.records ∧
      ((unassignedRows cat c db).take n).length + new.length ≤ n ∧ new.Nodup ∧
        ∀ d ∈ new, d ∉ db.codes.discounts.keys := by
  have htake : ((unassignedRows cat c db).take n).length ≤ n := List.length_take_le _ _
  have hnone : (unassignedRows cat c db).take n = (unassignedRows cat c db).take n ++ [] :=
    (List.append_nil _).symm
  unfold availableDiscounts
  dsimp only
  split
  · unfold createDiscountCodesForContract
    cases hproduct : (contractProducts cat c).min? with
    | none => exact ⟨[], rfl, rfl, htake, List.nodup_nil, fun d hd => absurd hd List.not_mem_nil⟩
    | some p =>
      obtain ⟨hrecords, hlength, hnodup, hnew⟩ := createCodes_spec uuid db
        (n - ((unassignedRows cat c db).take n).length) p
      have hsum : ((unassignedRows cat c db).take n).length + (createCodes uuid p
          (n - ((unassignedRows cat c db).take n).length) db).2.length ≤ n := by
        omega
      exact ⟨_, rfl, hrecords, hsum, hnodup, hnew⟩
  · exact ⟨[], hnone, rfl, htake, List.nodup_nil, fun d hd => absurd hd List.not_mem_nil⟩

/-! ## Records -/

/-- The records that were not there before. -/
def handedOut (db db' : ManagerDb) : List AttachmentRecord :=
  (db'.records.keys.filter fun k => !db.records.keys.contains k).map db'.records.row

theorem handedOut_createAll {rows : List AttachmentRecord}
    (h : db'.records = db.records.createAll rows) : handedOut db db' = rows := by
  obtain ⟨new, hkeys, hrows, -⟩ := db.records.createAll_spec rows
  have hnodup := (db.records.createAll rows).keys_nodup
  rw [hkeys] at hnodup
  unfold handedOut
  rw [h, hkeys, List.filter_append, List.filter_eq_nil_iff.mpr (by simp), List.nil_append,
    List.filter_eq_self.mpr, hrows]
  intro k hk
  have hold : k ∉ db.records.keys := fun hk' => List.disjoint_of_nodup_append hnodup hk' hk
  simpa using hold

theorem assignCodes_records {assignments : List (AssignRequest × DiscountId)}
    (h : assignCodesAndSendEmails manager c assignments db = some db') :
    db'.records = db.records.createAll (assignments.map fun a => newAssignment manager c a.1 a.2) := by
  unfold assignCodesAndSendEmails at h
  split at h
  · rename_i hnone
    obtain rfl := Option.some.inj h
    rw [hnone]
    rfl
  · split at h
    · obtain rfl := Option.some.inj h
      rfl
    · cases h

/-! ## The whole call -/

/-- The codes that a call may hand out. -/
abbrev availableCodes (cat : Catalog) (lower : Text → Text) (userEmail : UserId → Text)
    (uuid : DiscountId → Text) (c : ContractId) (payload : List AssignRequest) (db : ManagerDb) :
    List DiscountId :=
  (availableDiscounts cat uuid c (emailAssignees lower userEmail c payload db).length db).2

theorem bulkAssign_eq : bulkAssign cat lower userEmail uuid manager c (some payload) db =
    match assignCodesAndSendEmails manager c
        ((emailAssignees lower userEmail c payload db).zip
          (availableCodes cat lower userEmail uuid c payload db))
        (availableDiscounts cat uuid c (emailAssignees lower userEmail c payload db).length db).1 with
    | none => ((availableDiscounts cat uuid c (emailAssignees lower userEmail c payload db).length db).1,
        .detail 500 "Error assigning codes.")
    | some db' => (db', .codes
        (((emailAssignees lower userEmail c payload db).zip
          (availableCodes cat lower userEmail uuid c payload db)).map (·.2))
        ((((firstRecords lower [] payload).filter fun record =>
            (takenEmails lower userEmail c db).contains (lower record.email)).map fun record =>
            ⟨record.email, record.name, "Email has already been assigned or has redeemed a code."⟩) ++
          ((emailAssignees lower userEmail c payload db).drop
            (availableCodes cat lower userEmail uuid c payload db).length).map fun record =>
            ⟨record.email, record.name, "No available code."⟩)) := rfl

/-- A call that is not answered with codes hands out none. -/
theorem bulkAssign_refused {status : ℕ} {text : String}
    (h : (bulkAssign cat lower userEmail uuid manager c (some payload) db).2 = .detail status text) :
    (bulkAssign cat lower userEmail uuid manager c (some payload) db).1.records = db.records := by
  obtain ⟨new, -, hrecords, -⟩ := availableDiscounts_spec cat uuid c db
    (emailAssignees lower userEmail c payload db).length
  rw [bulkAssign_eq] at h ⊢
  split at h
  · exact hrecords
  · cases h

/-- What an answered call has done: it has handed its codes to the first rows that wanted one, and all other
rows are among the errors. -/
theorem bulkAssign_effect
    (h : (bulkAssign cat lower userEmail uuid manager c (some payload) db).2 = .codes assigned errors) :
    handedOut db (bulkAssign cat lower userEmail uuid manager c (some payload) db).1 =
      ((emailAssignees lower userEmail c payload db).zip
        (availableCodes cat lower userEmail uuid c payload db)).map
          (fun a => newAssignment manager c a.1 a.2) ∧
      assigned = ((emailAssignees lower userEmail c payload db).zip
        (availableCodes cat lower userEmail uuid c payload db)).map (·.2) ∧
      errors.length = (firstRecords lower [] payload).countP (fun record =>
          (takenEmails lower userEmail c db).contains (lower record.email)) +
        ((emailAssignees lower userEmail c payload db).length -
          (availableCodes cat lower userEmail uuid c payload db).length) := by
  obtain ⟨new, -, hrecords, -⟩ := availableDiscounts_spec cat uuid c db
    (emailAssignees lower userEmail c payload db).length
  rw [bulkAssign_eq] at h ⊢
  split at h
  · cases h
  · rename_i db' hassign
    have hafter := assignCodes_records hassign
    rw [hrecords] at hafter
    injection h with hassigned herrors
    refine ⟨handedOut_createAll hafter, hassigned.symm, ?_⟩
    rw [← herrors, List.length_append, List.length_map, List.length_map, List.length_drop,
      List.countP_eq_length_filter]

/-- No code is given twice, and none that was assigned or redeemed; no address gets a code twice; and every
address of the payload has a code or an error. -/
structure AssignsFairly (lower : Text → Text) (userEmail : UserId → Text) (c : ContractId)
    (payload : List AssignRequest) (db db' : ManagerDb) (assigned : List DiscountId)
    (errors : List AssignError) : Prop where
  recorded : (handedOut db db').map (·.discount) = assigned
  distinct : assigned.Nodup
  unassigned : ∀ d ∈ assigned, d ∈ db.codes.discounts.keys →
    ∀ k ∈ db.records.keys, (db.records.row k).discount ≠ d
  unredeemed : ∀ d ∈ assigned, d ∈ db.codes.discounts.keys → db.codes.store.orderRedemptions d = 0
  onceEach : ((handedOut db db').map fun record => lower record.assignedEmail).Nodup
  untaken : ∀ record ∈ handedOut db db', lower record.assignedEmail ∉ takenEmails lower userEmail c db
  accounted : assigned.length + errors.length = (distinctAddresses lower payload).length

variable (cat lower userEmail uuid c db payload) in
theorem availableCodes_length : (availableCodes cat lower userEmail uuid c payload db).length ≤
    (emailAssignees lower userEmail c payload db).length := by
  obtain ⟨new, hcodes, -, hlength, -⟩ := availableDiscounts_spec cat uuid c db
    (emailAssignees lower userEmail c payload db).length
  rw [availableCodes, hcodes, List.length_append]
  exact hlength

/-- The codes that a call hands out are distinct exactly if each code of which it draws a row has one row,
or only one is drawn. -/
theorem availableCodes_nodup_iff : (availableCodes cat lower userEmail uuid c payload db).Nodup ↔
    ∀ d ∈ unassignedCodes db, 0 < codeRows cat c db d →
      before (codeRows cat c db) (unassignedCodes db) d < wantedCodes lower userEmail c payload db →
      codeRows cat c db d = 1 ∨ before (codeRows cat c db) (unassignedCodes db) d + 1 =
        wantedCodes lower userEmail c payload db := by
  obtain ⟨new, hcodes, -, -, hnodup, hnew⟩ := availableDiscounts_spec cat uuid c db
    (emailAssignees lower userEmail c payload db).length
  have hdisjoint : ((unassignedRows cat c db).take (wantedCodes lower userEmail c payload db)).Disjoint
      new := by
    intro d hd hd'
    have hrow := List.mem_of_mem_take hd
    rw [unassignedRows_eq, mem_expand] at hrow
    exact hnew d hd' (mem_unassignedCodes.mp hrow.1).1
  rw [availableCodes, hcodes, emailAssignees_length, List.nodup_append', and_iff_right hnodup,
    and_iff_left hdisjoint, unassignedRows_eq, nodup_take_expand_iff unassignedCodes_sorted]

/-- The codes that were there before and that a call hands out are those of the rows that it draws. -/
theorem mem_availableCodes (h : d ∈ db.codes.discounts.keys) :
    d ∈ availableCodes cat lower userEmail uuid c payload db ↔
      d ∈ unassignedCodes db ∧ 0 < codeRows cat c db d ∧
        before (codeRows cat c db) (unassignedCodes db) d < wantedCodes lower userEmail c payload db := by
  obtain ⟨new, hcodes, -, -, -, hnew⟩ := availableDiscounts_spec cat uuid c db
    (emailAssignees lower userEmail c payload db).length
  rw [availableCodes, hcodes, emailAssignees_length, List.mem_append, or_iff_left fun hmem => hnew d hmem h,
    unassignedRows_eq, mem_take_expand unassignedCodes_sorted]

/-- The rows of a zip that stand on its left come from the list in their order. -/
theorem zip_fst_sublist {α β : Type} (xs : List α) (ys : List β) :
    ((xs.zip ys).map Prod.fst).Sublist xs := by
  rw [List.zip_eq_zip_take_min, List.map_fst_zip (by simp)]
  exact List.take_sublist _ _

variable (lower userEmail c db payload) in
/-- No address gets two codes. -/
theorem zip_addresses_nodup (codes : List DiscountId) :
    (((emailAssignees lower userEmail c payload db).zip codes).map fun a => a.1.address lower).Nodup := by
  have hsublist := ((zip_fst_sublist (emailAssignees lower userEmail c payload db) codes).trans
    List.filter_sublist).map (·.address lower)
  rw [List.map_map] at hsublist
  exact (firstRecords_spec lower payload []).1.sublist hsublist

variable (lower userEmail c db payload) in
/-- Every address of the payload wants a code or has one. -/
theorem wanted_add_taken : (firstRecords lower [] payload).countP (fun record =>
      (takenEmails lower userEmail c db).contains (lower record.email)) +
    (emailAssignees lower userEmail c payload db).length = (distinctAddresses lower payload).length := by
  have hall : (firstRecords lower [] payload).length = (distinctAddresses lower payload).length := by
    rw [← firstRecords_perm.length_eq, List.length_map]
  have hsplit := List.length_eq_countP_add_countP (l := firstRecords lower [] payload)
    fun record => (takenEmails lower userEmail c db).contains (lower record.email)
  have hwanted : (emailAssignees lower userEmail c payload db).length =
      (firstRecords lower [] payload).countP fun record =>
        ¬(takenEmails lower userEmail c db).contains (lower record.email) = true := by
    unfold emailAssignees
    rw [← List.countP_eq_length_filter]
    refine List.countP_congr fun record _ => ?_
    simp
  omega

/-- A call that is answered with codes assigns them fairly exactly if every unassigned code of the contract
that it reaches was redeemed in no order and has one row, unless only its first row is reached. -/
theorem assignsFairly_iff
    (h : (bulkAssign cat lower userEmail uuid manager c (some payload) db).2 = .codes assigned errors) :
    AssignsFairly lower userEmail c payload db
        (bulkAssign cat lower userEmail uuid manager c (some payload) db).1 assigned errors ↔
      ∀ d ∈ unassignedCodes db, 0 < codeRows cat c db d →
        before (codeRows cat c db) (unassignedCodes db) d < wantedCodes lower userEmail c payload db →
        db.codes.store.orderRedemptions d = 0 ∧ (codeRows cat c db d = 1 ∨
          before (codeRows cat c db) (unassignedCodes db) d + 1 =
            wantedCodes lower userEmail c payload db) := by
  obtain ⟨hhanded, hassigned, herrors⟩ := bulkAssign_effect h
  have hcodes : assigned = availableCodes cat lower userEmail uuid c payload db := by
    rw [hassigned]
    exact List.map_snd_zip (availableCodes_length cat lower userEmail uuid c db payload)
  constructor
  · intro hfair d hd hpos hlt
    have hkey := (mem_unassignedCodes.mp hd).1
    have hmem : d ∈ assigned := by
      rw [hcodes]
      exact (mem_availableCodes hkey).mpr ⟨hd, hpos, hlt⟩
    exact ⟨hfair.unredeemed d hmem hkey, availableCodes_nodup_iff.mp (hcodes ▸ hfair.distinct) d hd hpos hlt⟩
  · intro hcond
    have hold : ∀ d ∈ assigned, d ∈ db.codes.discounts.keys → d ∈ unassignedCodes db ∧
        db.codes.store.orderRedemptions d = 0 := by
      intro d hd hkey
      rw [hcodes, mem_availableCodes hkey] at hd
      exact ⟨hd.1, (hcond d hd.1 hd.2.1 hd.2.2).1⟩
    constructor
    · rw [hhanded, hassigned, List.map_map]
      rfl
    · rw [hcodes]
      exact availableCodes_nodup_iff.mpr fun d hd hpos hlt => (hcond d hd hpos hlt).2
    · exact fun d hd hkey => (mem_unassignedCodes.mp (hold d hd hkey).1).2
    · exact fun d hd hkey => (hold d hd hkey).2
    · rw [hhanded, List.map_map]
      exact zip_addresses_nodup lower userEmail c db payload _
    · intro record hrecord
      rw [hhanded] at hrecord
      obtain ⟨a, ha, rfl⟩ := List.mem_map.mp hrecord
      have hassignee := (List.mem_filter.mp (List.of_mem_zip ha).1).2
      show lower a.1.email ∉ takenEmails lower userEmail c db
      simpa using hassignee
    · have hlength := availableCodes_length cat lower userEmail uuid c db payload
      have htotal := wanted_add_taken lower userEmail c db payload
      rw [hcodes, herrors]
      omega

/-- A database with one code for products 1 and 2, which nobody was assigned to. -/
def sharedCode : ManagerDb where
  codes := oneCode [some 1, some 2]
  discountCode _ := "code".toList
  records := ⟨[], fun _ => redeemedRecord, Table.sorted_nil⟩
  contractRedemptions := rfl

/-- Two learners. -/
def twoLearners : List AssignRequest := [⟨"ada@mit.edu".toList, []⟩, ⟨"bob@mit.edu".toList, []⟩]

/-- Both learners get the one code. -/
theorem sharedCode_assigned :
    (bulkAssign threeSeatsCatalog id (fun _ => []) (fun _ => []) 3 1 (some twoLearners) sharedCode).2 =
      .codes [1, 1] [] := by
  decide +kernel

theorem assignsFairly_iff_sharedCode :
    AssignsFairly id (fun _ => []) 1 twoLearners sharedCode (bulkAssign threeSeatsCatalog id (fun _ => [])
        (fun _ => []) 3 1 (some twoLearners) sharedCode).1 [1, 1] [] ↔
      ∀ d ∈ unassignedCodes sharedCode, 0 < codeRows threeSeatsCatalog 1 sharedCode d →
        before (codeRows threeSeatsCatalog 1 sharedCode) (unassignedCodes sharedCode) d <
          wantedCodes id (fun _ => []) 1 twoLearners sharedCode →
        sharedCode.codes.store.orderRedemptions d = 0 ∧
          (codeRows threeSeatsCatalog 1 sharedCode d = 1 ∨
            before (codeRows threeSeatsCatalog 1 sharedCode) (unassignedCodes sharedCode) d + 1 =
              wantedCodes id (fun _ => []) 1 twoLearners sharedCode) :=
  assignsFairly_iff sharedCode_assigned

theorem not_assignsFairly :
    ¬∀ (payload : List AssignRequest) (db : ManagerDb) (assigned : List DiscountId)
      (errors : List AssignError),
      (bulkAssign threeSeatsCatalog id (fun _ => []) (fun _ => []) 3 1 (some payload) db).2 =
        .codes assigned errors →
      AssignsFairly id (fun _ => []) 1 payload db
        (bulkAssign threeSeatsCatalog id (fun _ => []) (fun _ => []) 3 1 (some payload) db).1
        assigned errors := by
  intro h
  have hdistinct := (h twoLearners sharedCode [1, 1] [] sharedCode_assigned).distinct
  exact absurd hdistinct (by decide)

end MitxOnline

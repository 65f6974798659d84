import MitxOnline.Courses.UserMigration

/-!
# Whether migrated users keep their data

The objects that are inserted have no primary key, so no user is found for them and nothing is ever added to the
addresses and profiles. What is counted are the objects.
-/

namespace MitxOnline

variable {lower : String → String} {batchSize : ℕ} {rows : List SourceUser}
  {batches : List (List SourceUser)} {db db' : UserDb} {users : List UserObject} {count created : ℕ}
  {email : String}

/-- The constraints of the database. -/
structure UserDb.Consistent (lower : String → String) (db : UserDb) : Prop where
  username_unique : ∀ j ∈ db.users.keys, ∀ k ∈ db.users.keys,
    (db.users.row j).username = (db.users.row k).username → j = k
  email_unique : ∀ j ∈ db.users.keys, ∀ k ∈ db.users.keys,
    lower (db.users.row j).email = lower (db.users.row k).email → j = k
  legalAddress_user : ∀ a ∈ db.legalAddresses, a.1 ∈ db.users.keys
  legalAddress_unique : (db.legalAddresses.map Prod.fst).Nodup
  userProfile_user : ∀ a ∈ db.userProfiles, a.1 ∈ db.users.keys
  userProfile_unique : (db.userProfiles.map Prod.fst).Nodup

/-- The email belongs to exactly one user, compared in lower case. -/
def UserDb.BelongsToOne (lower : String → String) (db : UserDb) (email : String) : Prop :=
  ∃ k, (k ∈ db.users.keys ∧ lower (db.users.row k).email = lower email) ∧
    ∀ j ∈ db.users.keys, lower (db.users.row j).email = lower email → j = k

/-- The rows of a user in one of the two other tables. -/
def rowsOfUser {α : Type} (table : List (UserId × α)) (k : UserId) : List (UserId × α) :=
  table.filter fun row => row.1 == k

/-- No personal data is lost: every email that is not blank belongs to exactly one user, every new user has one
address and one profile with the data of a row with that email, the users there were are unchanged, and the
count is that of the new users. -/
structure KeepsData (lower : String → String) (rows : List SourceUser) (db db' : UserDb) (count : ℕ) :
    Prop where
  owned : ∀ row ∈ rows, ∀ email, row.nonblankEmail = some email → db'.BelongsToOne lower email
  stored : ∀ k ∈ db'.users.keys, k ∉ db.users.keys →
    ∃ row ∈ rows, row.nonblankEmail = some (db'.users.row k).email ∧
      rowsOfUser db'.legalAddresses k = [(k, row.legalAddress)] ∧
      rowsOfUser db'.userProfiles k = [(k, row.userProfile)]
  unchanged : ∀ k ∈ db.users.keys, k ∈ db'.users.keys ∧ db'.users.row k = db.users.row k ∧
    rowsOfUser db'.legalAddresses k = rowsOfUser db.legalAddresses k ∧
    rowsOfUser db'.userProfiles k = rowsOfUser db.userProfiles k
  counted : count = (db'.users.keys.filter fun k => !db.users.keys.contains k).length

/-- The run ends without an exception, and no data is lost. -/
def MigratesUsers (lower : String → String) (batchSize : ℕ) (rows : List SourceUser) (db : UserDb) : Prop :=
  ∃ count db', migrateUsers lower batchSize rows db = (.ok count, db') ∧ KeepsData lower rows db db' count

/-- There is nothing to migrate: every email that is not blank is, letter for letter, that of a user. -/
def NothingToMigrate (rows : List SourceUser) (db : UserDb) : Prop :=
  ∀ row ∈ rows, ∀ email, row.nonblankEmail = some email →
    ∃ k ∈ db.users.keys, (db.users.row k).email = email

/-! ## Objects without a primary key -/

theorem newUsers_id {existing : List String} (user : UserObject) (h : user ∈ newUsers rows existing) :
    user.id = none := by
  obtain ⟨row, -, hrow⟩ := List.mem_filterMap.mp h
  cases hemail : row.nonblankEmail with
  | none => simp [hemail] at hrow
  | some email =>
    rw [hemail] at hrow
    dsimp only at hrow
    split at hrow
    · cases hrow
    · cases hrow
      rfl

theorem savedUsers_eq_nil (h : ∀ user ∈ users, user.id = none) : db.savedUsers users = [] := by
  unfold UserDb.savedUsers
  refine List.filter_eq_nil_iff.mpr fun k _ hk => ?_
  rw [List.contains_eq_mem, decide_eq_true_eq, List.mem_map] at hk
  obtain ⟨user, huser, hid⟩ := hk
  rw [h user huser] at hid
  cases hid

/-- Nothing is added to the addresses. -/
theorem bulkCreateLegalAddresses_eq {byId : Dict (Option UserId) SourceUser}
    (h : ∀ user ∈ users, user.id = none) : bulkCreateLegalAddresses users byId db = db := by
  unfold bulkCreateLegalAddresses rowsToCreate
  rw [savedUsers_eq_nil h, List.filterMap_nil, List.append_nil]

/-- Nothing is added to the profiles. -/
theorem bulkCreateUserProfiles_eq {byId : Dict (Option UserId) SourceUser}
    (h : ∀ user ∈ users, user.id = none) : bulkCreateUserProfiles users byId db = db := by
  unfold bulkCreateUserProfiles rowsToCreate
  rw [savedUsers_eq_nil h, List.filterMap_nil, List.append_nil]

theorem insertUsers_others (lower : String → String) (users : List UserObject) (db : UserDb) :
    (users.foldl (UserDb.insertUser lower) db).legalAddresses = db.legalAddresses ∧
      (users.foldl (UserDb.insertUser lower) db).userProfiles = db.userProfiles := by
  induction users generalizing db with
  | nil => exact ⟨rfl, rfl⟩
  | cons user rest ih =>
    obtain ⟨haddresses, hprofiles⟩ := ih (db.insertUser lower user)
    have huser : (db.insertUser lower user).legalAddresses = db.legalAddresses ∧
        (db.insertUser lower user).userProfiles = db.userProfiles := by
      unfold UserDb.insertUser
      split <;> exact ⟨rfl, rfl⟩
    exact ⟨haddresses.trans huser.1, hprofiles.trans huser.2⟩

/-! ## A batch -/

/-- What a batch comes to: an exception or the count of the objects, and the other tables as they are. -/
theorem migrateUserBatch_cases (lower : String → String) (rows : List SourceUser) (db : UserDb) :
    (∃ e, migrateUserBatch lower rows db = (.error e, db)) ∨
      migrateUserBatch lower rows db =
        (.ok (newUsers rows (db.existingEmails (rowLookup rows).keys)).length,
          (newUsers rows (db.existingEmails (rowLookup rows).keys)).foldl (UserDb.insertUser lower) db) := by
  unfold migrateUserBatch bulkCreateUsers
  dsimp only
  by_cases hall : (newUsers rows (db.existingEmails (rowLookup rows).keys)).all UserObject.storable = false
  · rw [if_pos hall]
    exact .inl ⟨_, rfl⟩
  · rw [if_neg hall]
    dsimp only
    rw [bulkCreateLegalAddresses_eq newUsers_id, bulkCreateUserProfiles_eq newUsers_id]
    exact .inr rfl

/-- The email of a row is an existing one if it is that of a user. -/
theorem mem_existingEmails_iff {row : SourceUser} (hrow : row ∈ rows)
    (hemail : row.nonblankEmail = some email) :
    email ∈ db.existingEmails (rowLookup rows).keys ↔ ∃ k ∈ db.users.keys, (db.users.row k).email = email := by
  have hkey : email ∈ (rowLookup rows).keys := by
    refine Dict.mem_keys_setAll.mpr (.inr ?_)
    refine List.mem_map.mpr ⟨(email, row), List.mem_filterMap.mpr ⟨row, hrow, ?_⟩, rfl⟩
    rw [hemail]
    rfl
  unfold UserDb.existingEmails
  rw [List.mem_map]
  constructor
  · rintro ⟨k, hk, heq⟩
    exact ⟨k, (List.mem_filter.mp hk).1, heq⟩
  · rintro ⟨k, hk, heq⟩
    refine ⟨k, List.mem_filter.mpr ⟨hk, ?_⟩, heq⟩
    rw [heq]
    simp [hkey]

theorem newUsers_eq_nil_iff :
    newUsers rows (db.existingEmails (rowLookup rows).keys) = [] ↔ NothingToMigrate rows db := by
  unfold newUsers
  rw [List.filterMap_eq_nil_iff]
  refine forall₂_congr fun row hrow => ?_
  cases hemail : row.nonblankEmail with
  | none => simp
  | some email =>
    have hmem : email ∈ db.existingEmails (rowLookup rows).keys ↔
        ∃ k ∈ db.users.keys, (db.users.row k).email = email := mem_existingEmails_iff hrow hemail
    dsimp only
    split_ifs with hexisting
    · refine iff_of_true rfl fun email' heq => ?_
      obtain rfl : email = email' := Option.some.inj heq
      exact hmem.mp hexisting
    · refine iff_of_false (by simp) fun hall => ?_
      exact hexisting (hmem.mpr (hall email rfl))

theorem migrateUserBatch_of_nothing (h : NothingToMigrate rows db) :
    migrateUserBatch lower rows db = (.ok 0, db) := by
  have hnil := newUsers_eq_nil_iff.mpr h
  rcases migrateUserBatch_cases lower rows db with ⟨e, he⟩ | hok
  · unfold migrateUserBatch bulkCreateUsers at he
    dsimp only at he
    rw [hnil] at he
    cases he
  · rw [hok, hnil]
    rfl

/-! ## The run -/

/-- The other tables are as they were, and the count has grown by at least nothing. -/
theorem migrateUserBatches_frame (batches : List (List SourceUser)) {final : ℕ}
    (h : migrateUserBatches lower batches count db = (.ok final, db')) :
    db'.legalAddresses = db.legalAddresses ∧ db'.userProfiles = db.userProfiles ∧ count ≤ final := by
  induction batches generalizing count db with
  | nil =>
    cases h
    exact ⟨rfl, rfl, le_rfl⟩
  | cons rows rest ih =>
    rw [migrateUserBatches] at h
    rcases migrateUserBatch_cases lower rows db with ⟨e, he⟩ | hok
    · rw [he] at h
      cases h
    · rw [hok] at h
      obtain ⟨haddresses, hprofiles, hcount⟩ := ih h
      have hbatch := insertUsers_others lower (newUsers rows (db.existingEmails (rowLookup rows).keys)) db
      obtain ⟨haddresses', hprofiles'⟩ := hbatch
      exact ⟨haddresses.trans haddresses', hprofiles.trans hprofiles', by omega⟩

theorem migrateUserBatches_of_nothing (h : ∀ rows ∈ batches, NothingToMigrate rows db) :
    migrateUserBatches lower batches count db = (.ok count, db) := by
  induction batches with
  | nil => rfl
  | cons rows rest ih =>
    rw [migrateUserBatches, migrateUserBatch_of_nothing (h rows List.mem_cons_self)]
    exact ih fun rows' hrows' => h rows' (List.mem_cons_of_mem rows hrows')

/-- The first batch with something to migrate is counted. -/
theorem lt_of_migrateUserBatches {final : ℕ} (hsome : ¬∀ rows ∈ batches, NothingToMigrate rows db)
    (h : migrateUserBatches lower batches count db = (.ok final, db')) : count < final := by
  induction batches with
  | nil => exact absurd (fun rows hrows => absurd hrows List.not_mem_nil) hsome
  | cons rows rest ih =>
    rw [migrateUserBatches] at h
    by_cases hfirst : NothingToMigrate rows db
    · rw [migrateUserBatch_of_nothing hfirst] at h
      refine ih (fun hrest => hsome ?_) h
      exact List.forall_mem_cons.mpr ⟨hfirst, hrest⟩
    · rcases migrateUserBatch_cases lower rows db with ⟨e, he⟩ | hok
      · rw [he] at h
        cases h
      · rw [hok] at h
        have hpos : newUsers rows (db.existingEmails (rowLookup rows).keys) ≠ [] :=
          fun hnil => hfirst (newUsers_eq_nil_iff.mp hnil)
        have hlength := List.length_pos_iff.mpr hpos
        obtain ⟨-, -, hcount⟩ := migrateUserBatches_frame rest h
        omega

theorem fetchBatches_flatten {α : Type} (hsize : batchSize ≠ 0) (rows : List α) :
    (fetchBatches batchSize rows).flatten = rows := by
  induction rows using fetchBatches.induct batchSize with
  | case1 => rw [fetchBatches, List.flatten_nil]
  | case2 row rest hzero => exact absurd hzero hsize
  | case3 row rest _ ih =>
    have hdrop : rest.drop (batchSize - 1) = (row :: rest).drop batchSize := by
      obtain ⟨n, rfl⟩ := Nat.exists_eq_succ_of_ne_zero hsize
      rfl
    rw [fetchBatches, if_neg hsize, List.flatten_cons, ih, hdrop, List.take_append_drop]

theorem nothingToMigrate_batches (hsize : batchSize ≠ 0) :
    (∀ batch ∈ fetchBatches batchSize rows, NothingToMigrate batch db) ↔ NothingToMigrate rows db := by
  have hflatten := fetchBatches_flatten hsize rows
  constructor
  · intro h row hrow
    rw [← hflatten] at hrow
    obtain ⟨batch, hbatch, hmem⟩ := List.mem_flatten.mp hrow
    exact h batch hbatch row hmem
  · intro h batch hbatch row hrow
    refine h row ?_
    rw [← hflatten]
    exact List.mem_flatten.mpr ⟨batch, hbatch, hrow⟩

/-! ## What is lost -/

theorem UserDb.Consistent.belongsToOne (h : db.Consistent lower) (hnothing : NothingToMigrate rows db)
    {row : SourceUser} (hrow : row ∈ rows) (hemail : row.nonblankEmail = some email) :
    db.BelongsToOne lower email := by
  obtain ⟨k, hk, rfl⟩ := hnothing row hrow email hemail
  exact ⟨k, ⟨hk, rfl⟩, fun j hj heq => h.email_unique j hj k hk heq⟩

/-- A run that changes nothing keeps the data if the emails have their users already. -/
theorem keepsData_self (howned : ∀ row ∈ rows, ∀ email, row.nonblankEmail = some email →
    db.BelongsToOne lower email) : KeepsData lower rows db db 0 := by
  refine ⟨howned, fun k hk hnew => absurd hk hnew, fun k hk => ⟨hk, rfl, rfl, rfl⟩, ?_⟩
  have hnone : (db.users.keys.filter fun k => !db.users.keys.contains k) = [] := by
    refine List.filter_eq_nil_iff.mpr fun k hk => ?_
    simp [hk]
  rw [hnone]
  rfl

/-- A new user has no address, as no address was added and those that there were have other users. -/
theorem KeepsData.count_eq_zero (h : db.Consistent lower) (hkeeps : KeepsData lower rows db db' count)
    (haddresses : db'.legalAddresses = db.legalAddresses) : count = 0 := by
  rw [hkeeps.counted, List.length_eq_zero_iff]
  refine List.filter_eq_nil_iff.mpr fun k hk hnew => ?_
  have hk' : k ∉ db.users.keys := by simpa using hnew
  obtain ⟨row, -, -, haddress, -⟩ := hkeeps.stored k hk hk'
  have hmem : (k, row.legalAddress) ∈ rowsOfUser db'.legalAddresses k := by
    rw [haddress]
    exact List.mem_cons_self
  rw [haddresses] at hmem
  exact hk' (h.legalAddress_user _ (List.mem_filter.mp hmem).1)

/-- No data is lost exactly if there is nothing to migrate: no row has an email that is not that of a user. -/
theorem migratesUsers_iff (h : db.Consistent lower) :
    MigratesUsers lower batchSize rows db ↔ NothingToMigrate rows db ∨ batchSize = 0 ∧
      ∀ row ∈ rows, ∀ email, row.nonblankEmail = some email → db.BelongsToOne lower email := by
  unfold MigratesUsers migrateUsers
  by_cases hsize : batchSize = 0
  · have hnone : fetchBatches batchSize rows = [] := by
      cases rows with
      | nil => rw [fetchBatches]
      | cons row rest => rw [fetchBatches, if_pos hsize]
    rw [hnone]
    constructor
    · rintro ⟨count, db', hrun, hkeeps⟩
      cases hrun
      exact .inr ⟨hsize, hkeeps.owned⟩
    · rintro (hnothing | ⟨-, howned⟩)
      · exact ⟨0, db, rfl, keepsData_self fun row hrow email => h.belongsToOne hnothing hrow⟩
      · exact ⟨0, db, rfl, keepsData_self howned⟩
  · rw [or_iff_left fun hzero => hsize hzero.1]
    constructor
    · rintro ⟨count, db', hrun, hkeeps⟩
      rw [← nothingToMigrate_batches hsize]
      by_contra hsome
      have hcount := lt_of_migrateUserBatches hsome hrun
      obtain ⟨haddresses, -, -⟩ := migrateUserBatches_frame _ hrun
      have hzero := hkeeps.count_eq_zero h haddresses
      omega
    · intro hnothing
      have hrun : migrateUserBatches lower (fetchBatches batchSize rows) 0 db = (.ok 0, db) :=
        migrateUserBatches_of_nothing ((nothingToMigrate_batches hsize).mpr hnothing)
      exact ⟨0, db, hrun, keepsData_self fun row hrow email => h.belongsToOne hnothing hrow⟩

/-- A row with an email and a country. -/
def sourceUser (email : String) : SourceUser :=
  ⟨some email, some "Ada", some "GB", none, none, none, none, none, some "Female", some 1815⟩

/-- Two rows for Ada, one for Bob and two without an email. -/
def sourceRows : List SourceUser :=
  [sourceUser "ada@mit.edu", sourceUser "", { sourceUser "ada@mit.edu" with userFullName := some "A. Lovelace" },
    { sourceUser "" with userEmail := none }, sourceUser "bob@mit.edu"]

/-- Ada, with an address and a profile, Bob, who has none, and another user. -/
def threeUserDb : UserDb where
  users :=
    ((Table.single 1 ⟨"ada@mit.edu", "ada@mit.edu", "Ada", false, true, false⟩).create
      ⟨"bob", "bob@mit.edu", "Bob", true, true, false⟩).create
        ⟨"eve@mit.edu", "Eve@mit.edu", "Eve", false, false, false⟩
  legalAddresses := [(1, (sourceUser "ada@mit.edu").legalAddress)]
  userProfiles := [(1, (sourceUser "ada@mit.edu").userProfile)]

/-- No user yet. -/
def noUserDb : UserDb := ⟨⟨[], fun _ => ⟨"", "", "", false, true, false⟩, Table.sorted_nil⟩, [], []⟩

theorem noUserDb_consistent (lower : String → String) : noUserDb.Consistent lower := by
  constructor <;> simp [noUserDb]

theorem threeUserDb_consistent : threeUserDb.Consistent String.toLower where
  username_unique := by decide
  email_unique := by decide +kernel
  legalAddress_user := by decide
  legalAddress_unique := by decide
  userProfile_user := by decide
  userProfile_unique := by decide

/-- The users that there are keep the data. -/
theorem migratesUsers_again : MigratesUsers String.toLower 2 sourceRows threeUserDb := by
  refine (migratesUsers_iff threeUserDb_consistent).mpr (.inl fun row hrow email hemail => ?_)
  have hknown : ∀ row ∈ sourceRows, ∀ email ∈ row.nonblankEmail, ∃ k ∈ threeUserDb.users.keys,
      (threeUserDb.users.row k).email = email := by decide
  exact hknown row hrow email hemail

/-- The first user that is migrated has no address. -/
theorem not_migratesUsers :
    ¬∀ (lower : String → String) (batchSize : ℕ) (rows : List SourceUser) (db : UserDb),
      db.Consistent lower → MigratesUsers lower batchSize rows db := by
  intro h
  obtain ⟨count, db', hrun, hkeeps⟩ := h id 1000 [sourceUser "ada@mit.edu"] noUserDb (noUserDb_consistent id)
  have hsome : ¬∀ batch ∈ fetchBatches 1000 [sourceUser "ada@mit.edu"], NothingToMigrate batch noUserDb := by
    rw [nothingToMigrate_batches (by decide)]
    intro hnothing
    obtain ⟨k, hk, -⟩ := hnothing _ (List.mem_singleton_self _) "ada@mit.edu" rfl
    exact absurd hk List.not_mem_nil
  have hcount := lt_of_migrateUserBatches hsome hrun
  have hzero := hkeeps.count_eq_zero (noUserDb_consistent id) (migrateUserBatches_frame _ hrun).1
  omega

end MitxOnline

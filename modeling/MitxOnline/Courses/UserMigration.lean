import MitxOnline.Ecommerce.Models
import MitxOnline.Lib.Dict

/-!
# Migrating users (`courses/management/commands/migrate_edx_data.py`)

Users are read from a table in batches. Each batch is saved in three steps: the users, their addresses and
their profiles. The users are inserted with `ignore_conflicts`, so a row that violates a constraint is passed
over and no object gets a primary key.
-/

namespace MitxOnline

/-- A row of `edxorg_to_mitxonline_users`. -/
structure SourceUser where
  userEmail : Option String
  userFullName : Option String
  userAddressCountry : Option String
  userAddressState : Option String
  userAddressPostalCode : Option String
  userAddressStreet1 : Option String
  userAddressStreet2 : Option String
  userAddressCity : Option String
  userGender : Option String
  userBirthYear : Option ℤ
  deriving DecidableEq, Repr

/-- A user as it is stored. -/
structure UserRow where
  username : String
  email : String
  name : String
  isStaff : Bool
  isActive : Bool
  isSuperuser : Bool
  deriving DecidableEq, Repr

/-- A `User` object of the migration, which may lack a primary key and a name. -/
structure UserObject where
  id : Option UserId
  username : String
  email : String
  name : Option String
  deriving DecidableEq, Repr

structure LegalAddress where
  country : String
  state : Option String
  postalCode : String
  streetAddress1 : String
  streetAddress2 : String
  city : String
  deriving DecidableEq, Repr

structure UserProfile where
  yearOfBirth : Option ℤ
  gender : Option String
  deriving DecidableEq, Repr

/-- The users, and the addresses and profiles with the users they belong to. -/
structure UserDb where
  users : Table UserRow
  legalAddresses : List (UserId × LegalAddress)
  userProfiles : List (UserId × UserProfile)

/-! ## What is made of a row -/

/-- `x or ""` -/
def orBlank (x : Option String) : String := x.getD ""

/-- `x or None` -/
def orNone (x : Option String) : Option String := if x = some "" then none else x

/-- `GENDER_MAP` -/
def genderMap : List (String × String) :=
  [("Male", "m"), ("Female", "f"), ("Transgender", "t"), ("Non-binary/non-conforming", "nb"),
    ("Other/Prefer Not to Say", "o")]

def SourceUser.legalAddress (row : SourceUser) : LegalAddress where
  country := orBlank row.userAddressCountry
  state := orNone row.userAddressState
  postalCode := orBlank row.userAddressPostalCode
  streetAddress1 := orBlank row.userAddressStreet1
  streetAddress2 := orBlank row.userAddressStreet2
  city := orBlank row.userAddressCity

def SourceUser.userProfile (row : SourceUser) : UserProfile where
  yearOfBirth := row.userBirthYear
  gender := row.userGender.bind fun gender => genderMap.lookup gender

/-- The email of a row, if it is not blank. -/
def SourceUser.nonblankEmail (row : SourceUser) : Option String := orNone row.userEmail

/-! ## The three steps -/

section

-- `lower` is `LOWER` of the database
variable (lower : String → String)

/-- An insert would violate a unique constraint: of the usernames, or of the emails in lower case. -/
def UserDb.conflicts (db : UserDb) (user : UserObject) : Bool :=
  db.users.keys.any fun k =>
    (db.users.row k).username == user.username || lower (db.users.row k).email == lower user.email

/-- The row that is inserted for an object. -/
def UserObject.row (user : UserObject) : UserRow :=
  ⟨user.username, user.email, user.name.getD "", false, true, false⟩

/-- The database takes the values: the name is not null and the texts fit. -/
def UserObject.storable (user : UserObject) : Bool :=
  user.name.isSome && decide (user.email.length ≤ 254) && decide ((user.name.getD "").length ≤ 255)

/-- `INSERT … ON CONFLICT DO NOTHING` of one user. -/
def UserDb.insertUser (db : UserDb) (user : UserObject) : UserDb :=
  if db.conflicts lower user = true then db else { db with users := db.users.create user.row }

/-- The users that `_bulk_create_users` makes of the rows. -/
def newUsers (rows : List SourceUser) (existingEmails : List String) : List UserObject :=
  rows.filterMap fun row =>
    match row.nonblankEmail with
    | none => none
    | some email => if email ∈ existingEmails then none else some ⟨none, email, email, row.userFullName⟩

/-- `_bulk_create_users`. The objects that it returns are those it was given. -/
def bulkCreateUsers (rows : List SourceUser) (existingEmails : List String) (db : UserDb) :
    Except Error (List UserObject) × UserDb :=
  let users := newUsers rows existingEmails
  if users.all UserObject.storable = false then (.error .integrityError, db)
  else (.ok users, users.foldl (UserDb.insertUser lower) db)

/-- `User.objects.filter(id__in=user_ids)` -/
def UserDb.savedUsers (db : UserDb) (users : List UserObject) : List UserId :=
  db.users.keys.filter fun k => (users.map (·.id)).contains (some k)

/-- The rows that one of the helpers inserts: for the users that are saved, have none yet and have a row. -/
def rowsToCreate {α : Type} (saved : List UserId) (existing : List (UserId × α))
    (rowLookupById : Dict (Option UserId) SourceUser) (make : SourceUser → α) : List (UserId × α) :=
  saved.filterMap fun k =>
    if k ∈ existing.map Prod.fst then none else (rowLookupById.get (some k)).map fun row => (k, make row)

/-- `_bulk_create_legal_addresses` -/
def bulkCreateLegalAddresses (createdUsers : List UserObject)
    (rowLookupById : Dict (Option UserId) SourceUser) (db : UserDb) : UserDb :=
  { db with
    legalAddresses := db.legalAddresses ++
      rowsToCreate (db.savedUsers createdUsers) db.legalAddresses rowLookupById SourceUser.legalAddress }

/-- `_bulk_create_user_profiles` -/
def bulkCreateUserProfiles (createdUsers : List UserObject)
    (rowLookupById : Dict (Option UserId) SourceUser) (db : UserDb) : UserDb :=
  { db with
    userProfiles := db.userProfiles ++
      rowsToCreate (db.savedUsers createdUsers) db.userProfiles rowLookupById SourceUser.userProfile }

/-! ## The loop -/

/-- `row_lookup` -/
def rowLookup (rows : List SourceUser) : Dict String SourceUser :=
  Dict.empty.setAll (rows.filterMap fun row => row.nonblankEmail.map fun email => (email, row))

/-- `existing_emails`: the emails of the users whose username or email is one of the given. -/
def UserDb.existingEmails (db : UserDb) (emails : List String) : List String :=
  (db.users.keys.filter fun k =>
    emails.contains (db.users.row k).username || emails.contains (db.users.row k).email).map
      fun k => (db.users.row k).email

/-- `id_row_lookup` -/
def idRowLookup (createdUsers : List UserObject) (lookup : Dict String SourceUser) :
    Dict (Option UserId) SourceUser :=
  Dict.empty.setAll (createdUsers.filterMap fun user => (lookup.get user.email).map fun row => (user.id, row))

/-- The body of the loop over the batches, and what it adds to the count. -/
def migrateUserBatch (rows : List SourceUser) (db : UserDb) : Except Error ℕ × UserDb :=
  let lookup := rowLookup rows
  match bulkCreateUsers lower rows (db.existingEmails lookup.keys) db with
  | (.error e, db) => (.error e, db)
  | (.ok createdUsers, db) =>
    let byId := idRowLookup createdUsers lookup
    (.ok createdUsers.length,
      bulkCreateUserProfiles createdUsers byId (bulkCreateLegalAddresses createdUsers byId db))

/-- The loop over the batches. -/
def migrateUserBatches : List (List SourceUser) → ℕ → UserDb → Except Error ℕ × UserDb
  | [], count, db => (.ok count, db)
  | rows :: rest, count, db =>
    match migrateUserBatch lower rows db with
    | (.error e, db) => (.error e, db)
    | (.ok created, db) => migrateUserBatches rest (count + created) db

/-- What `fetchmany` returns call after call, up to an empty answer. -/
def fetchBatches {α : Type} (batchSize : ℕ) : List α → List (List α)
  | [] => []
  | row :: rest =>
    if batchSize = 0 then []
    else (row :: rest).take batchSize :: fetchBatches batchSize (rest.drop (batchSize - 1))
termination_by rows => rows.length
decreasing_by
  rw [List.length_drop, List.length_cons]
  omega

/-- `_migrate_users`: the count that it reports, or the exception, and the database afterwards. -/
def migrateUsers (batchSize : ℕ) (rows : List SourceUser) (db : UserDb) : Except Error ℕ × UserDb :=
  migrateUserBatches lower (fetchBatches batchSize rows) 0 db

end

end MitxOnline

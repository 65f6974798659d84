import MitxOnline.Ecommerce.Models

/-!
# Creating edX accounts (`openedx/api.py`)

An account is created by a registration request with a username. edX may answer that the username is
taken, with suggestions for another one; the loop of `_create_edx_user_request` then tries another name,
for at most four attempts unless the name was generated locally, which starts the count again. edX's
answers and the random numbers are inputs.
-/

namespace MitxOnline

/-- The part of edX's JSON answer that is read. -/
structure RegistrationData where
  errorCode : Option String
  usernameSuggestions : List String
  deriving DecidableEq, Repr

structure RegistrationResponse where
  statusCode : ℕ
  data : RegistrationData
  deriving DecidableEq, Repr

structure OpenEdxUser where
  edxUsername : Option String
  desiredEdxUsername : Option String
  hasBeenSynced : Bool
  hasSyncError : Bool
  syncErrorData : Option RegistrationData
  deriving DecidableEq, Repr

/-- The rows of `OpenEdxUser` by their user, who has at most one on the one platform there is. -/
abbrev OpenEdxUsers := Table OpenEdxUser

/-- `OPENEDX_USERNAME_MAX_LEN` -/
def openedxUsernameMaxLen : ℕ := 30

/-- `filter(edx_username=…).exclude(user=user).exists()` -/
def takenByOther (users : OpenEdxUsers) (user : UserId) (edxUsername : Option String) : Bool :=
  users.keys.any fun k => k != user && (users.row k).edxUsername == edxUsername

/-- `open_edx_user.save()` with a new username, which has to be unique and to fit its column. -/
def saveUsername (users : OpenEdxUsers) (user : UserId) (name : String) : Except Error OpenEdxUsers :=
  if takenByOther users user (some name) then .error .integrityError
  else if openedxUsernameMaxLen < name.length then .error .failure
  else .ok (users.set user { users.row user with edxUsername := some name })

/-! ## Names -/

/-- `random.randint`: `draw` chooses a number of the range. -/
def randint (range : ℕ × ℕ) (draw : ℕ) : ℕ := range.1 + draw % (range.2 - range.1 + 1)

/-- A name that `generate_unique_username` tries. -/
def usernameToTry (baseUsername : String) (randomInt : ℕ) : String :=
  let name := baseUsername ++ "_" ++ toString randomInt
  if openedxUsernameMaxLen < name.length then
    String.ofList (baseUsername.toList.take (name.length - openedxUsernameMaxLen)) ++ "-" ++
      toString randomInt
  else name

/-- `generate_unique_username`; there is one draw for each range. -/
def generateUniqueUsername (users : OpenEdxUsers) (draws : Fin 5 → ℕ) (baseUsername : String) :
    Option String :=
  [usernameToTry baseUsername (randint (0, 9) (draws 0)),
    usernameToTry baseUsername (randint (10, 99) (draws 1)),
    usernameToTry baseUsername (randint (100, 999) (draws 2)),
    usernameToTry baseUsername (randint (1000, 9999) (draws 3)),
    usernameToTry baseUsername (randint (10000, 99999) (draws 4))].find? fun name =>
      !users.keys.any fun k => (users.row k).edxUsername == some name

/-- `get_attemptable_username`. A missing name is looked up as null and formatted as `None`. -/
def getAttemptableUsername (users : OpenEdxUsers) (draws : Fin 5 → ℕ) (user : UserId)
    (desiredEdxUsername : Option String) : Option String :=
  if takenByOther users user desiredEdxUsername then
    generateUniqueUsername users draws (desiredEdxUsername.getD "None")
  else desiredEdxUsername

/-- `_extract_username_from_email` -/
def extractUsernameFromEmail (username : String) : String :=
  String.ofList (username.toList.takeWhile (· != '@'))

/-! ## Answers -/

def RegistrationResponse.isDuplicateUsernameError (resp : RegistrationResponse) : Bool :=
  resp.statusCode == 409 && resp.data.errorCode == some "duplicate-username"

def RegistrationResponse.isDuplicateEmailError (resp : RegistrationResponse) : Bool :=
  resp.statusCode == 409 && resp.data.errorCode == some "duplicate-email"

def RegistrationResponse.isBadRequest (resp : RegistrationResponse) : Bool :=
  resp.statusCode == 400 || resp.statusCode == 409

/-- `_extract_username_suggestions` -/
def extractUsernameSuggestions (data : RegistrationData) (suggestionsExtracted : Bool) : List String :=
  if suggestionsExtracted then [] else data.usernameSuggestions

/-- What `_handle_username_collision` answers: no name, or a name and whether the attempts are counted
anew. -/
inductive Collision where
  | unresolved
  | suggested (name : String)
  | generated (name : String)
  deriving DecidableEq, Repr

/-- `_handle_username_collision` -/
def handleUsernameCollision (users : OpenEdxUsers) (draws : Fin 5 → ℕ) (user : UserId)
    (username : String) (resp : RegistrationResponse) (suggestedUsernames : List String)
    (suggestionsExtracted : Bool) : Collision :=
  if resp.isDuplicateUsernameError = false then .unresolved
  else
    let suggestions := extractUsernameSuggestions resp.data suggestionsExtracted
    let available := (if suggestions = [] then suggestedUsernames else suggestions).filter fun name =>
      !takenByOther users user (some name)
    match available with
    | name :: _ => .suggested name
    | [] =>
      let desired := (users.row user).desiredEdxUsername.getD ""
      let baseUsername := if desired = "" then extractUsernameFromEmail username else desired
      match generateUniqueUsername users draws baseUsername with
      | some name => .generated name
      | none => .unresolved

/-! ## The call -/

/-- `max_attempts` -/
def maxAttempts : ℕ := 4

/-- What a call starts from. Between the choice of the first name and the refresh under the lock,
another process may have changed the rows. -/
structure AccountRequest where
  user : UserId
  /-- `user.username` -/
  username : String
  /-- `open_edx_user.desired_edx_username` before the refresh. -/
  desiredEdxUsername : Option String
  usersBefore : OpenEdxUsers
  draws : Fin 5 → ℕ
  /-- `lock.acquire(timeout=5)` -/
  acquired : Bool
  users : OpenEdxUsers
  /-- The exception of `_build_user_data`, if it raises one. -/
  userDataError : Option Error

/-- The answer to one registration request: the response or the exception of the request, the status
of the duplicate email fix, if one is asked for, and the random numbers, if a name is generated. -/
structure EdxAnswer where
  response : Except Error RegistrationResponse
  fixLtiUser : Except Error ℕ
  draws : Fin 5 → ℕ

/-- A call that waits for an answer, or has an outcome; `some none` is a call that returns nothing.
`requests`, `saved` and `rejected` record the names that were submitted, saved, and answered as taken,
newest first. -/
structure AccountCall where
  users : OpenEdxUsers
  currentUsername : String
  attempt : ℕ
  triedDuplicateEmailFix : Bool
  lockHeld : Bool
  outcome : Option (Except Error (Option Bool))
  requests : List String
  saved : List String
  rejected : List String

namespace AccountCall

variable (input : AccountRequest)

/-- A way out of the `try` block: the lock is released. -/
def finish (c : AccountCall) (users : OpenEdxUsers) (outcome : Except Error (Option Bool)) :
    AccountCall :=
  { c with users := users, lockHeld := false, outcome := some outcome }

/-- The body of the loop up to its request. -/
def sendRequest (c : AccountCall) : AccountCall :=
  match saveUsername c.users input.user c.currentUsername with
  | .error e => c.finish c.users (.error e)
  | .ok users =>
    let c := { c with attempt := c.attempt + 1, saved := c.currentUsername :: c.saved }
    match input.userDataError with
    | some e => c.finish users (.error e)
    | none => { c with users := users, requests := c.currentUsername :: c.requests }

/-- What follows the loop. -/
def leaveLoop (c : AccountCall) (resp : RegistrationResponse) : AccountCall :=
  if resp.isBadRequest then
    let row := { c.users.row input.user with hasSyncError := true, syncErrorData := some resp.data }
    c.finish (c.users.set input.user row) (.ok (some false))
  else if 400 ≤ resp.statusCode ∧ resp.statusCode < 600 then c.finish c.users (.error .connectionError)
  else c.finish c.users (.ok none)

/-- The head of the loop, after a response. -/
def nextAttempt (c : AccountCall) (resp : RegistrationResponse) : AccountCall :=
  if c.attempt < maxAttempts then c.sendRequest input else c.leaveLoop input resp

/-- What the body of the loop makes of an answer. -/
inductive Reaction where
  /-- It returns or raises. -/
  | ends (outcome : Except Error (Option Bool))
  /-- It leaves the loop. -/
  | leaves (resp : RegistrationResponse)
  /-- It tries the same name again, after the duplicate email fix. -/
  | retries (resp : RegistrationResponse)
  | suggested (name : String) (resp : RegistrationResponse)
  | generated (name : String) (resp : RegistrationResponse)

/-- The body of the loop from its request on. The helper is given an empty list and `False` each time,
because what it extracts is not handed back. -/
def react (c : AccountCall) (answer : EdxAnswer) : Reaction :=
  match answer.response with
  | .error e => .ends (.error e)
  | .ok resp =>
    if resp.statusCode = 200 then .ends (.ok (some true))
    else if resp.isDuplicateEmailError = true ∧ c.triedDuplicateEmailFix = false then
      match answer.fixLtiUser with
      | .error e => .ends (.error e)
      | .ok status => if status = 200 then .retries resp else .leaves resp
    else
      match handleUsernameCollision c.users answer.draws input.user input.username resp [] false with
      | .unresolved => .leaves resp
      | .suggested name => .suggested name resp
      | .generated name => .generated name resp

/-- The rows when the body returns: a created account is marked as synced. -/
def usersAtEnd (c : AccountCall) : Except Error (Option Bool) → OpenEdxUsers
  | .ok (some true) => c.users.set input.user { c.users.row input.user with hasBeenSynced := true }
  | _ => c.users

/-- The call with another name, which edX's answer made necessary. -/
def withName (c : AccountCall) (name : String) : AccountCall :=
  { c with currentUsername := name, rejected := c.currentUsername :: c.rejected }

/-- One answer. A call that has an outcome reads no further answer. -/
def step (c : AccountCall) (answer : EdxAnswer) : AccountCall :=
  match c.outcome with
  | some _ => c
  | none =>
    match c.react input answer with
    | .ends outcome => c.finish (c.usersAtEnd input outcome) outcome
    | .leaves resp => c.leaveLoop input resp
    | .retries resp => { c with triedDuplicateEmailFix := true }.nextAttempt input resp
    | .suggested name resp => (c.withName name).nextAttempt input resp
    | .generated name resp => { c.withName name with attempt := 0 }.nextAttempt input resp

/-- A call that ends before it has the lock. -/
def refused : AccountCall :=
  ⟨input.usersBefore, "", 0, false, false, some (.ok (some false)), [], [], []⟩

/-- A call that has the lock and no attempt yet. -/
def locked (name : String) : AccountCall := ⟨input.users, name, 0, false, true, none, [], [], []⟩

/-- `_create_edx_user_request` up to its first request. -/
def begin : AccountCall :=
  match getAttemptableUsername input.usersBefore input.draws input.user input.desiredEdxUsername with
  | none => refused input
  | some name =>
    if input.acquired = false then refused input
    -- the lock is held, and the `try` block is not entered yet
    else if input.user ∉ input.users.keys then
      { locked input name with outcome := some (.error .doesNotExist) }
    else if (input.users.row input.user).hasBeenSynced then
      { locked input name with outcome := some (.ok (some true)) }
    else (locked input name).sendRequest input

/-- `_create_edx_user_request` after the first `n` answers of edX. -/
def after (answers : ℕ → EdxAnswer) : ℕ → AccountCall
  | 0 => begin input
  | n + 1 => (after answers n).step input (answers n)

end AccountCall

end MitxOnline

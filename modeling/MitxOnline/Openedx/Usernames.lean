import MitxOnline.Openedx.AccountCreation

/-!
# edX usernames (`openedx/api.py`)

A user who has no edX username gets the one that is desired, the username or one made of name and email. If
another user has it, a number is added. `usernameify` is not part of the repository.
-/

namespace MitxOnline

/-- The columns of the user that are read. -/
structure NamedUser where
  username : String
  name : String
  email : String
  deriving DecidableEq, Repr

/-- `filter(edx_username=…).exists()` -/
def usernameExists (users : OpenEdxUsers) (name : String) : Bool :=
  users.keys.any fun k => (users.row k).edxUsername == some name

/-- A name that `generate_unique_username` tries for any `max_length`. -/
def usernameToTryWithin (maxLength : ℕ) (baseUsername : String) (randomInt : ℕ) : String :=
  let name := baseUsername ++ "_" ++ toString randomInt
  if maxLength < name.length then
    String.ofList (baseUsername.toList.take (name.length - maxLength)) ++ "-" ++ toString randomInt
  else name

/-- The random numbers, one for each range. -/
def randomInts (draws : Fin 5 → ℕ) : List ℕ :=
  List.zipWith randint [(0, 9), (10, 99), (100, 999), (1000, 9999), (10000, 99999)] (List.ofFn draws)

/-- `generate_unique_username` for any `max_length`. -/
def generateUniqueUsernameWithin (users : OpenEdxUsers) (draws : Fin 5 → ℕ) (baseUsername : String)
    (maxLength : ℕ) : Option String :=
  ((randomInts draws).map (usernameToTryWithin maxLength baseUsername)).find? fun name =>
    !usernameExists users name

/-- `get_or_create(platform=PLATFORM_EDX, user=user)` -/
def getOrCreateOpenEdxUser (users : OpenEdxUsers) (user : UserId) : OpenEdxUsers :=
  if user ∈ users.keys then users else users.put user ⟨none, none, false, false, none⟩

section

variable (usernameify : String → String → ℕ → Except Error String)

/-- The name that `reconcile_edx_username` tries first. -/
def firstEdxUsername (user : NamedUser) (desiredUsername : Option String) : Except Error String :=
  let desired := desiredUsername.getD ""
  if desired ≠ "" ∧ '@' ∉ desired.toList then .ok desired
  else
    let userUsername :=
      if '@' ∈ user.username.toList ∨ user.username = user.email then "" else user.username
    if userUsername ≠ "" then .ok (String.ofList (userUsername.toList.take openedxUsernameMaxLen))
    else usernameify user.name user.email openedxUsernameMaxLen

/-- `edx_user.save()` with a name in both columns. -/
def saveBothUsernames (users : OpenEdxUsers) (user : UserId) (name : String) :
    OpenEdxUsers × Except Error Bool :=
  match saveUsername users user name with
  | .error e => (users, .error e)
  | .ok users' => (users'.set user { users'.row user with desiredEdxUsername := some name }, .ok true)

/-- `reconcile_edx_username`: the rows that it leaves and what it returns. -/
def reconcileEdxUsername (users : OpenEdxUsers) (draws : Fin 5 → ℕ) (user : UserId)
    (profile : NamedUser) (desiredUsername : Option String) : OpenEdxUsers × Except Error Bool :=
  let users := getOrCreateOpenEdxUser users user
  if (users.row user).edxUsername.getD "" ≠ "" then (users, .ok false)
  else
    match firstEdxUsername usernameify profile desiredUsername with
    | .error e => (users, .error e)
    | .ok edxUsername =>
      if usernameExists users edxUsername = false then saveBothUsernames users user edxUsername
      else
        match generateUniqueUsername users draws edxUsername with
        | some uniqueUsername => saveBothUsernames users user uniqueUsername
        | none => (users, .ok true)

end

end MitxOnline

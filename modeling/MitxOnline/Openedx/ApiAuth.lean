import MitxOnline.Catalog
import MitxOnline.Lib.Transactions

/-!
# Tokens for edX (`openedx/api.py`)

A user's record holds the tokens for the API of edX. Tokens that are about to expire are refreshed, and
where edX says that the refresh token is dead, the tokens are cleared and the user is authorized again.
What edX answers to each request, and when, are inputs.
-/

namespace MitxOnline

/-- A row of `OpenEdxApiAuth`; there is one for each user. -/
structure OpenEdxApiAuth where
  refreshToken : String
  accessToken : Option String
  accessTokenExpiresOn : Option Microseconds
  deriving DecidableEq, Repr

/-- The keys of a JSON object that are read. A missing key is `none`, `null` is `some none`. -/
structure TokenResult where
  error : Option (Option String)
  refreshToken : Option (Option String)
  accessToken : Option (Option String)
  /-- A value that is not a number is `some none`. -/
  expiresIn : Option (Option Microseconds)
  deriving DecidableEq, Repr

/-- What `json()` makes of a body. -/
inductive JsonBody where
  | malformed
  /-- JSON that is not an object. -/
  | other
  | object (result : TokenResult)
  deriving DecidableEq, Repr

structure EdxResponse where
  statusCode : ℕ
  body : JsonBody
  /-- The URL after all redirects. -/
  url : String
  /-- The values of the parameter `code` in the query of the URL. -/
  code : List String
  deriving DecidableEq, Repr

inductive AuthError where
  | assertionError
  | overflowError
  | typeError
  | keyError (key : String)
  | jsonDecodeError
  /-- There is no answer. -/
  | requestException
  | httpError (response : EdxResponse)
  | openEdXOAuth2Error (msg : String)
  | noEdxApiAuthError
  | doesNotExist
  /-- `IntegrityError` or `DataError` -/
  | databaseError
  deriving DecidableEq, Repr

/-- The tokens of an answer. -/
structure IssuedTokens where
  refreshToken : Option String
  accessToken : Option String
  deriving DecidableEq, Repr

/-- The record of the user in the database, the number of requests that edX got, and the tokens of its
successful answers. -/
structure AuthState where
  stored : Option OpenEdxApiAuth
  requests : ℕ
  issued : List IssuedTokens

/-- What a call meets: the answers of edX to its requests, the time after so many requests, and the user. -/
structure AuthCall where
  answers : ℕ → Option EdxResponse
  now : ℕ → Microseconds
  /-- `user.openedx_users.filter(edx_username__isnull=False, has_been_synced=True).exists()` -/
  hasSyncedUser : Bool
  redirectUri : String

/-- Code of a call. -/
abbrev AuthCode := EStateM AuthError AuthState

/-- `transaction.atomic`: the record is restored. -/
def authAtomic {α : Type} : AuthCode α → AuthCode α :=
  Transactions.atomic fun s s' => { s' with stored := s.stored }

/-- `OPENEDX_AUTH_MAX_TTL_IN_SECONDS` -/
def openedxAuthMaxTtl : Microseconds := 60 * 60 * 1000000

/-- `OPENEDX_OAUTH2_ACCESS_TOKEN_EXPIRY_MARGIN_SECONDS` -/
def openedxOauth2AccessTokenExpiryMargin : Microseconds := 10 * 1000000

/-- The sum of an instant and a `timedelta`, in the years 1 to 9999. -/
def addTimedelta (instant delta : Microseconds) : AuthCode Microseconds :=
  let sum := instant + delta
  if -62135596800000000 ≤ sum ∧ sum < 253402300800000000 then pure sum else throw .overflowError

/-! ## The database -/

/-- The record is written. -/
def writeAuth (auth : OpenEdxApiAuth) : AuthCode Unit := modify fun s => { s with stored := some auth }

/-- `auth.save()`: the refresh token is not null, and both tokens fit their columns. -/
def saveAuth (tokens : IssuedTokens) (expiresOn : Microseconds) : AuthCode OpenEdxApiAuth :=
  match tokens.refreshToken with
  | none => throw .databaseError
  | some refreshToken =>
    if 128 < refreshToken.length ∨ (tokens.accessToken.any fun token => decide (128 < token.length)) then
      throw .databaseError
    else do
      writeAuth ⟨refreshToken, tokens.accessToken, some expiresOn⟩
      return ⟨refreshToken, tokens.accessToken, some expiresOn⟩

/-- `auth.save(update_fields=["refresh_token", "access_token"])` of the cleared tokens. -/
def clearTokens : AuthCode Unit :=
  modify fun s =>
    { s with stored := s.stored.map fun auth => { auth with refreshToken := "", accessToken := some "" } }

/-- `select_for_update().get_or_create(user=user)` -/
def getOrCreateAuth : AuthCode OpenEdxApiAuth := do
  match (← get).stored with
  | some auth => return auth
  | none =>
    writeAuth ⟨"", none, none⟩
    return ⟨"", none, none⟩

/-! ## Requests -/

variable (call : AuthCall)

/-- One request. -/
def requestEdx : AuthCode EdxResponse := do
  let s ← get
  set { s with requests := s.requests + 1 }
  match call.answers s.requests with
  | none => throw .requestException
  | some resp => return resp

/-- `raise_for_status` -/
def raiseForStatus (resp : EdxResponse) : AuthCode Unit :=
  if 400 ≤ resp.statusCode ∧ resp.statusCode < 600 then throw (.httpError resp) else return ()

/-- `resp.json()`, and the object that it has to be. -/
def jsonObject (resp : EdxResponse) : AuthCode TokenResult :=
  match resp.body with
  | .malformed => throw .jsonDecodeError
  | .other => throw .typeError
  | .object result => return result

/-- `result[key]` -/
def getKey {α : Type} (key : String) : Option α → AuthCode α
  | none => throw (.keyError key)
  | some value => return value

/-- The answer was successful. -/
def recordIssued (tokens : IssuedTokens) : AuthCode Unit :=
  modify fun s => { s with issued := s.issued ++ [tokens] }

/-- `_create_tokens_and_update_auth`. The record that it updates is the stored one. -/
def createTokensAndUpdateAuth : AuthCode OpenEdxApiAuth := do
  let resp ← requestEdx call
  raiseForStatus resp
  let result ← jsonObject resp
  match ← getKey "expires_in" result.expiresIn with
  | none => throw .typeError
  | some expiresIn =>
    let refreshToken ← getKey "refresh_token" result.refreshToken
    let accessToken ← getKey "access_token" result.accessToken
    recordIssued ⟨refreshToken, accessToken⟩
    let s ← get
    let expiresOn ← addTimedelta (call.now s.requests) (expiresIn - openedxOauth2AccessTokenExpiryMargin)
    saveAuth ⟨refreshToken, accessToken⟩ expiresOn

/-- `create_edx_auth_token` -/
def createEdxAuthToken : AuthCode (Option OpenEdxApiAuth) :=
  authAtomic do
    if call.hasSyncedUser = false then return none
    let auth ← getOrCreateAuth
    if auth.refreshToken ≠ "" ∧ auth.accessToken.any (· ≠ "") then return some auth
    let resp ← requestEdx call
    raiseForStatus resp
    let resp ← requestEdx call
    raiseForStatus resp
    if resp.url.startsWith call.redirectUri = false then
      throw (.openEdXOAuth2Error
        ("Redirected to '" ++ resp.url ++ "', expected: '" ++ call.redirectUri ++ "'"))
    if resp.code = [] then throw (.openEdXOAuth2Error "Did not receive access_token from Open edX")
    let auth ← createTokensAndUpdateAuth call
    return some auth

/-- `_is_dead_refresh_token_error`, of the response of an `HTTPError`. -/
def isDeadRefreshTokenError (response : EdxResponse) : Bool :=
  if response.statusCode ≠ 400 then false
  else
    match response.body with
    | .object result => result.error == some (some "invalid_grant")
    | _ => false

/-- The `except HTTPError` of `_refresh_edx_api_auth`. -/
def reauthorize (response : EdxResponse) : AuthCode OpenEdxApiAuth := do
  if isDeadRefreshTokenError response = false then throw (.httpError response)
  clearTokens
  match ← createEdxAuthToken call with
  | none => throw .noEdxApiAuthError
  | some newAuth => return newAuth

/-- `_refresh_edx_api_auth` -/
def refreshEdxApiAuth : AuthCode OpenEdxApiAuth :=
  tryCatch (createTokensAndUpdateAuth call) fun
    | .httpError response => reauthorize call response
    | e => throw e

/-- `access_token_expires_on > expires_after`, in the database: a null is not later. -/
def OpenEdxApiAuth.isValidAfter (auth : OpenEdxApiAuth) (expiresAfter : Microseconds) : Bool :=
  auth.accessTokenExpiresOn.any fun expiresOn => decide (expiresAfter < expiresOn)

/-- The transaction of `get_valid_edx_api_auth`. In Python a null cannot be compared. -/
def lockAndRefresh (expiresAfter : Microseconds) : AuthCode OpenEdxApiAuth :=
  authAtomic do
    match (← get).stored with
    | none => throw .doesNotExist
    | some auth =>
      match auth.accessTokenExpiresOn with
      | none => throw .typeError
      | some expiresOn => if expiresAfter < expiresOn then return auth else refreshEdxApiAuth call

/-- `get_valid_edx_api_auth` -/
def getValidEdxApiAuth (ttl : Microseconds) : AuthCode OpenEdxApiAuth := do
  if openedxAuthMaxTtl ≤ ttl then throw .assertionError
  let s ← get
  let expiresAfter ← addTimedelta (call.now s.requests) ttl
  match s.stored.filter fun auth => auth.isValidAfter expiresAfter with
  | some auth => return auth
  | none => lockAndRefresh call expiresAfter

/-!
## Refreshing tokens is atomic

Only a successful answer of the token endpoint changes the record for good; the cleared tokens are seen by
the authorization alone.
-/

open Std.Do Transactions

set_option mvcgen.warning false

/-- The record holds the tokens. -/
structure OpenEdxApiAuth.Holds (auth : OpenEdxApiAuth) (tokens : IssuedTokens) : Prop where
  refreshToken : some auth.refreshToken = tokens.refreshToken
  accessToken : auth.accessToken = tokens.accessToken

/-- The record is stored and holds the tokens of the last successful answer. -/
def Refreshed (auth : OpenEdxApiAuth) (s : AuthState) : Prop :=
  s.stored = some auth ∧ ∃ tokens, s.issued.getLast? = some tokens ∧ auth.Holds tokens

/-! ## One spec for each function -/

@[spec]
theorem writeAuth_spec (auth : OpenEdxApiAuth) (Q : PostCond Unit (.except AuthError (.arg AuthState .pure))) :
    Triple (writeAuth auth) (fun s => Q.1 () { s with stored := some auth }) Q := by
  mvcgen [writeAuth]

@[spec]
theorem clearTokens_spec (Q : PostCond Unit (.except AuthError (.arg AuthState .pure))) :
    Triple clearTokens (fun s => Q.1 () { s with
      stored := s.stored.map fun auth => { auth with refreshToken := "", accessToken := some "" } }) Q := by
  mvcgen [clearTokens]

@[spec]
theorem recordIssued_spec (tokens : IssuedTokens)
    (Q : PostCond Unit (.except AuthError (.arg AuthState .pure))) :
    Triple (recordIssued tokens) (fun s => Q.1 () { s with issued := s.issued ++ [tokens] }) Q := by
  mvcgen [recordIssued]

@[spec]
theorem requestEdx_spec (s₀ : AuthState) :
    ⦃fun s => ⌜s = s₀⌝⦄ requestEdx call
    ⦃post⟨fun _ s => ⌜s = { s₀ with requests := s₀.requests + 1 }⌝,
      fun _ s => ⌜s = { s₀ with requests := s₀.requests + 1 }⌝⟩⦄ := by
  mvcgen [requestEdx] <;> simp_all

@[spec]
theorem raiseForStatus_spec (resp : EdxResponse) (s₀ : AuthState) :
    ⦃fun s => ⌜s = s₀⌝⦄ raiseForStatus resp ⦃post⟨fun _ s => ⌜s = s₀⌝, fun _ s => ⌜s = s₀⌝⟩⦄ := by
  mvcgen [raiseForStatus]

@[spec]
theorem jsonObject_spec (resp : EdxResponse) (s₀ : AuthState) :
    ⦃fun s => ⌜s = s₀⌝⦄ jsonObject resp ⦃post⟨fun _ s => ⌜s = s₀⌝, fun _ s => ⌜s = s₀⌝⟩⦄ := by
  mvcgen [jsonObject]

@[spec]
theorem getKey_spec {α : Type} (key : String) (value : Option α) (s₀ : AuthState) :
    ⦃fun s => ⌜s = s₀⌝⦄ getKey key value ⦃post⟨fun _ s => ⌜s = s₀⌝, fun _ s => ⌜s = s₀⌝⟩⦄ := by
  mvcgen [getKey]

@[spec]
theorem addTimedelta_spec (instant delta : Microseconds) (s₀ : AuthState) :
    ⦃fun s => ⌜s = s₀⌝⦄ addTimedelta instant delta
    ⦃post⟨fun sum s => ⌜s = s₀ ∧ sum = instant + delta⌝, fun _ s => ⌜s = s₀⌝⟩⦄ := by
  mvcgen [addTimedelta]

/-- A record that is saved holds the tokens; otherwise nothing is written. -/
@[spec]
theorem saveAuth_spec (tokens : IssuedTokens) (expiresOn : Microseconds) (s₀ : AuthState) :
    ⦃fun s => ⌜s = s₀⌝⦄ saveAuth tokens expiresOn
    ⦃post⟨fun auth s => ⌜s = { s₀ with stored := some auth } ∧ auth.Holds tokens⌝,
      fun _ s => ⌜s = s₀⌝⟩⦄ := by
  mvcgen [saveAuth]
  rename_i refreshToken hrefresh _ s hs
  exact ⟨by rw [hs], ⟨hrefresh.symm, rfl⟩⟩

@[spec]
theorem createTokensAndUpdateAuth_spec (s₀ : AuthState) :
    ⦃fun s => ⌜s = s₀⌝⦄ createTokensAndUpdateAuth call
    ⦃post⟨fun auth s => ⌜Refreshed auth s⌝, fun _ s => ⌜s.stored = s₀.stored⌝⟩⦄ := by
  mvcgen [createTokensAndUpdateAuth]
  all_goals simp_all [Refreshed]

/-- The tokens are cleared, or there is no record. -/
def TokensCleared (s : AuthState) : Prop := ∀ auth, s.stored = some auth → auth.refreshToken = ""

@[spec]
theorem getOrCreateAuth_spec (s₀ : AuthState) (hcleared : TokensCleared s₀) :
    ⦃fun s => ⌜s = s₀⌝⦄ getOrCreateAuth ⦃post⟨fun auth _ => ⌜auth.refreshToken = ""⌝, fun _ _ => ⌜False⌝⟩⦄ := by
  mvcgen [getOrCreateAuth]
  rename_i s hs auth hstored
  rw [hs] at hstored
  exact hcleared auth hstored

/-- With cleared tokens, the authorization does not take the user for authorized already. -/
@[spec]
theorem createEdxAuthToken_spec (s₀ : AuthState) (hcleared : TokensCleared s₀) :
    ⦃fun s => ⌜s = s₀⌝⦄ createEdxAuthToken call
    ⦃post⟨fun auth s => ⌜∀ new, auth = some new → Refreshed new s⌝,
      fun _ s => ⌜s.stored = s₀.stored⌝⟩⦄ := by
  mvcgen [createEdxAuthToken, authAtomic]
  all_goals simp_all

@[spec]
theorem reauthorize_spec (response : EdxResponse) :
    ⦃fun _ => ⌜True⌝⦄ reauthorize call response
    ⦃post⟨fun auth s => ⌜Refreshed auth s⌝, fun _ _ => ⌜True⌝⟩⦄ := by
  mvcgen [reauthorize]
  · intro auth hauth
    obtain ⟨old, -, rfl⟩ := Option.map_eq_some_iff.mp hauth
    rfl
  · simp_all

@[spec]
theorem refreshEdxApiAuth_spec :
    ⦃fun _ => ⌜True⌝⦄ refreshEdxApiAuth call
    ⦃post⟨fun auth s => ⌜Refreshed auth s⌝, fun _ _ => ⌜True⌝⟩⦄ := by
  mvcgen [refreshEdxApiAuth]
  exact id

/-- What is expected of the record that is returned: it is the stored one, and either it was valid before or
it holds the tokens of the last successful answer. -/
structure ReturnsAuth (before : OpenEdxApiAuth) (expiresAfter : Microseconds) (auth : OpenEdxApiAuth)
    (s : AuthState) : Prop where
  stored : s.stored = some auth
  tokens : auth = before ∧ before.isValidAfter expiresAfter = true ∨
    ∃ tokens, s.issued.getLast? = some tokens ∧ auth.Holds tokens

@[spec]
theorem lockAndRefresh_spec (before : OpenEdxApiAuth) (expiresAfter : Microseconds) (s₀ : AuthState)
    (hstored : s₀.stored = some before) :
    ⦃fun s => ⌜s = s₀⌝⦄ lockAndRefresh call expiresAfter
    ⦃post⟨fun auth s => ⌜ReturnsAuth before expiresAfter auth s⌝,
      fun _ s => ⌜s.stored = some before⌝⟩⦄ := by
  mvcgen [lockAndRefresh, authAtomic]
  case vc3 s hs auth hauth expiresOn hexpires hlater =>
    -- the second check finds the tokens valid
    subst hs
    have hbefore : before = auth := Option.some.inj (hstored.symm.trans hauth)
    subst hbefore
    refine ⟨hstored, Or.inl ⟨rfl, ?_⟩⟩
    simpa [OpenEdxApiAuth.isValidAfter, hexpires] using hlater
  case vc4 auth s =>
    rintro ⟨hnew, htokens⟩
    exact ⟨hnew, Or.inr htokens⟩
  all_goals simp_all

/-- The state in which a call begins. -/
def AuthState.start (before : OpenEdxApiAuth) : AuthState := ⟨some before, 0, []⟩

/-- A call returns the stored record with tokens that were valid or were just issued, or it raises and leaves
the record as it was. -/
theorem getValidEdxApiAuth_atomic (call : AuthCall) (before : OpenEdxApiAuth) (ttl : Microseconds) :
    (∃ auth s, (getValidEdxApiAuth call ttl).run (.start before) = .ok auth s ∧
      ReturnsAuth before (call.now 0 + ttl) auth s) ∨
    ∃ e s, (getValidEdxApiAuth call ttl).run (.start before) = .error e s ∧ s.stored = some before := by
  have hspec : ⦃fun s => ⌜s = .start before⌝⦄ getValidEdxApiAuth call ttl
      ⦃post⟨fun auth s => ⌜ReturnsAuth before (call.now 0 + ttl) auth s⌝,
        fun _ s => ⌜s.stored = some before⌝⟩⦄ := by
    mvcgen [getValidEdxApiAuth]
    case vc2 s hs expiresAfter auth hvalid s' hsum =>
      -- the first check finds the tokens valid
      obtain ⟨rfl, rfl⟩ := hsum
      subst hs
      obtain ⟨hstored, hvalid⟩ := Option.filter_eq_some_iff.mp hvalid
      cases hstored
      exact ⟨rfl, Or.inl ⟨rfl, hvalid⟩⟩
    case vc3 s hs expiresAfter _ s' hsum auth s'' =>
      obtain ⟨-, rfl⟩ := hsum
      subst hs
      exact id
    all_goals simp_all [AuthState.start]
  exact run_of_triple hspec rfl

end MitxOnline

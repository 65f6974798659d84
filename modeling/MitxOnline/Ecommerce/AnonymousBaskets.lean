import MitxOnline.Ecommerce.Models
import MitxOnline.Lib.UniqueConstraint

/-!
# Anonymous baskets (`ecommerce/api.py`)

Whoever is not logged in has a basket under an id that is kept in the session. After the login that basket is
claimed, and takes the place of the one that the user had.
-/

namespace MitxOnline

abbrev AnonymousId := ℕ
abbrev SessionId := ℕ

/-- A row of `Basket`, with its items. -/
structure OwnedBasket where
  anonymousId : Option AnonymousId
  user : Option UserId
  basketItems : List BasketItem
  deriving DecidableEq, Repr

/-! ## Constraints of the table -/

/-- `basket_user_xor_anonymous_id` -/
def OwnedBasket.userXorAnonymousId (b : OwnedBasket) : Bool :=
  b.user.isSome && b.anonymousId.isNone || b.user.isNone && b.anonymousId.isSome

/-- `unique=True` of `anonymous_id`. -/
def uniqueAnonymousId : UniqueConstraint OwnedBasket (Option AnonymousId) :=
  ⟨fun b => b.anonymousId.isSome, OwnedBasket.anonymousId⟩

/-- The `OneToOneField` to the user. -/
def uniqueBasketUser : UniqueConstraint OwnedBasket (Option UserId) :=
  ⟨fun b => b.user.isSome, OwnedBasket.user⟩

/-- The constraints let the row stand beside the rows of the keys. -/
def admitsBasket (t : Table OwnedBasket) (others : List ℕ) (b : OwnedBasket) : Bool :=
  b.userXorAnonymousId &&
    others.all fun k => !uniqueAnonymousId.clash b (t.row k) && !uniqueBasketUser.clash b (t.row k)

/-- `basket.save()` -/
def saveBasket (t : Table OwnedBasket) (k : ℕ) (b : OwnedBasket) : Except Error (Table OwnedBasket) :=
  if admitsBasket t (t.keys.filter (· ≠ k)) b = true then .ok (t.set k b) else .error .integrityError

/-- `Basket.objects.create` -/
def createBasket (t : Table OwnedBasket) (b : OwnedBasket) : Except Error (Table OwnedBasket) :=
  if admitsBasket t t.keys b = true then .ok (t.create b) else .error .integrityError

/-- `Basket.objects.get`; `none` is `DoesNotExist`. -/
def getBasket (t : Table OwnedBasket) (test : OwnedBasket → Bool) : Except Error (Option ℕ) :=
  match t.keys.filter fun k => test (t.row k) with
  | [] => .ok none
  | [k] => .ok (some k)
  | _ => .error .multipleObjectsReturned

/-- `Basket.objects.get_or_create` -/
def getOrCreateBasket (t : Table OwnedBasket) (test : OwnedBasket → Bool) (b : OwnedBasket) :
    Except Error (Table OwnedBasket) :=
  match getBasket t test with
  | .error e => .error e
  | .ok (some _) => .ok t
  | .ok none => createBasket t b

/-! ## Requests -/

/-- The baskets, and the ids that are kept in the sessions. -/
structure BasketSessions where
  baskets : Table OwnedBasket
  anonymousBasketId : SessionId → Option AnonymousId

/-- No baskets and no ids. -/
def BasketSessions.empty : BasketSessions :=
  ⟨⟨[], fun _ => ⟨none, none, []⟩, Table.sorted_nil⟩, fun _ => none⟩

/-- What a session keeps after a request. -/
def BasketSessions.withId (s : BasketSessions) (session : SessionId) (anonymousId : Option AnonymousId) :
    BasketSessions :=
  { s with anonymousBasketId := fun session' =>
      if session' = session then anonymousId else s.anonymousBasketId session' }

/-- `establish_basket_for_request`, of a user or of nobody; `minted` is the id that is made where the
session has none. -/
def establishBasketForRequest (session : SessionId) (user : Option UserId) (minted : AnonymousId)
    (s : BasketSessions) : Except Error BasketSessions :=
  match user with
  | some user =>
    match getOrCreateBasket s.baskets (fun b => b.user == some user) ⟨none, some user, []⟩ with
    | .error e => .error e
    | .ok baskets => .ok { s with baskets }
  | none =>
    let anonymousId := (s.anonymousBasketId session).getD minted
    match getOrCreateBasket s.baskets (fun b => b.anonymousId == some anonymousId)
        ⟨some anonymousId, none, []⟩ with
    | .error e => .error e
    | .ok baskets => .ok ({ s with baskets }.withId session (some anonymousId))

/-- `claim_anonymous_basket` returns nothing or the claimed basket, or it raises. -/
inductive ClaimOutcome where
  | nothing
  | claimed (basket : ℕ)
  | raised (e : Error)
  deriving DecidableEq, Repr

/-- The transaction of `claim_anonymous_basket`. -/
def transferBasket (t : Table OwnedBasket) (user : UserId) (anonBasket : ℕ) :
    Except Error (Table OwnedBasket) :=
  let others := t.deleteWhere fun k b => b.user == some user && k != anonBasket
  saveBasket others anonBasket { t.row anonBasket with user := some user, anonymousId := none }

/-- `claim_anonymous_basket`; `discountError` is the exception of `apply_user_discounts`, if it raises one.
The session is saved if the request succeeds. -/
def claimAnonymousBasket (session : SessionId) (user : UserId) (discountError : Option Error)
    (s : BasketSessions) : BasketSessions × ClaimOutcome :=
  match s.anonymousBasketId session with
  | none => (s, .nothing)
  | some anonymousId =>
    match getBasket s.baskets fun b => b.anonymousId == some anonymousId with
    | .error e => (s, .raised e)
    | .ok none => (s, .nothing)
    | .ok (some anonBasket) =>
      match transferBasket s.baskets user anonBasket with
      | .error e => (s, .raised e)
      | .ok baskets =>
        match discountError with
        | some e => ({ s with baskets }, .raised e)
        | none => ({ s with baskets }.withId session none, .claimed anonBasket)

/-- What happens to baskets and sessions. -/
inductive BasketEvent where
  | establish (session : SessionId) (user : Option UserId) (minted : AnonymousId)
  | claim (session : SessionId) (user : UserId) (discountError : Option Error)
  /-- `AnonymousBasketHandoffMiddleware`, for nobody: an id of the URL is taken over. -/
  | handoff (session : SessionId) (anonymousId : AnonymousId)
  /-- The session is dropped. -/
  | forget (session : SessionId)
  /-- A view changes the items of a basket. -/
  | setItems (basket : ℕ) (basketItems : List BasketItem)
  /-- `cull_anonymous_baskets`, of the baskets that were not touched in a while. -/
  | cull (old : ℕ → Bool)
  /-- The basket of a user is deleted. -/
  | delete (user : UserId)

/-- The state after an event; one that raises leaves it as it was. -/
def basketStep (s : BasketSessions) : BasketEvent → BasketSessions
  | .establish session user minted =>
    match establishBasketForRequest session user minted s with
    | .error _ => s
    | .ok s' => s'
  | .claim session user discountError => (claimAnonymousBasket session user discountError s).1
  | .handoff session anonymousId =>
    match s.anonymousBasketId session with
    | none => s.withId session (some anonymousId)
    | some _ => s
  | .forget session => s.withId session none
  | .setItems k basketItems =>
    { s with baskets := s.baskets.set k { s.baskets.row k with basketItems } }
  | .cull old => { s with baskets := s.baskets.deleteWhere fun k b => b.anonymousId.isSome && old k }
  | .delete user => { s with baskets := s.baskets.deleteWhere fun _ b => b.user == some user }

end MitxOnline

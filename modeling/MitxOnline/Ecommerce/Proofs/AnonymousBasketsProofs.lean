import MitxOnline.Ecommerce.AnonymousBaskets
import MitxOnline.Lib.Trace
import MitxOnline.Lib.UniqueConstraint

/-!
# Who owns a basket

The constraints hold after every run, and they never get in the way of a claim: the other basket of the user
is deleted before the claimed one is given to them.
-/

namespace MitxOnline

open UniqueConstraint

variable {t : Table OwnedBasket} {b : OwnedBasket} {s : BasketSessions} {session : SessionId}
  {user : UserId} {anonymousId minted : AnonymousId} {discountError : Option Error} {k : ℕ}

/-- Every basket has one owner, a user or an anonymous id, and nobody has two. -/
structure BasketsOwned (t : Table OwnedBasket) : Prop where
  owner : ∀ k ∈ t.keys, (t.row k).userXorAnonymousId = true
  anonymousId : uniqueAnonymousId.HoldsIn t
  user : uniqueBasketUser.HoldsIn t

/-- What is expected of a claim: it raises only what `apply_user_discounts` raises, and if it returns a basket,
that is the one of the session's id, which is now the basket of the user with the same items, and there is no
basket of that id any more. -/
structure ClaimsBasket (s : BasketSessions) (session : SessionId) (user : UserId)
    (discountError : Option Error) : Prop where
  raises : ∀ e, (claimAnonymousBasket session user discountError s).2 = .raised e → discountError = some e
  transfers : ∀ k, (claimAnonymousBasket session user discountError s).2 = .claimed k →
    ∃ anonymousId, s.anonymousBasketId session = some anonymousId ∧
      k ∈ s.baskets.keys ∧ (s.baskets.row k).anonymousId = some anonymousId ∧
      let baskets := (claimAnonymousBasket session user discountError s).1.baskets
      k ∈ baskets.keys ∧ (baskets.row k).user = some user ∧
        (baskets.row k).basketItems = (s.baskets.row k).basketItems ∧
        ∀ k' ∈ baskets.keys, (baskets.row k').anonymousId ≠ some anonymousId

/-! ## Writes -/

theorem admitsBasket_iff {others : List ℕ} : admitsBasket t others b = true ↔
    b.userXorAnonymousId = true ∧ (∀ k ∈ others, uniqueAnonymousId.clash b (t.row k) = false) ∧
      ∀ k ∈ others, uniqueBasketUser.clash b (t.row k) = false := by
  simp only [admitsBasket, Bool.and_eq_true, List.all_eq_true, Bool.not_eq_true']
  refine and_congr_right fun _ => ?_
  constructor
  · intro hall
    exact ⟨fun k hk => (hall k hk).1, fun k hk => (hall k hk).2⟩
  · rintro ⟨hanonymous, huser⟩ k hk
    exact ⟨hanonymous k hk, huser k hk⟩

theorem BasketsOwned.deleteWhere (h : BasketsOwned t) (test : ℕ → OwnedBasket → Bool) :
    BasketsOwned (t.deleteWhere test) :=
  ⟨fun k hk => h.owner k ((t.mem_deleteWhere_keys).mp hk).1, h.anonymousId.deleteWhere test,
    h.user.deleteWhere test⟩

/-- A row that the constraints let in keeps them. -/
theorem BasketsOwned.create (h : BasketsOwned t) (hadmits : admitsBasket t t.keys b = true) :
    BasketsOwned (t.create b) := by
  obtain ⟨hxor, hanonymous, huser⟩ := admitsBasket_iff.mp hadmits
  refine ⟨fun k hk => ?_, h.anonymousId.create_iff.mpr hanonymous, h.user.create_iff.mpr huser⟩
  rcases (t.mem_create_keys b k).mp hk with hold | rfl
  · have hne : k ≠ t.nextKey := fun hk' => t.nextKey_not_mem (hk' ▸ hold)
    rw [Table.create_row_of_ne _ _ hne]
    exact h.owner k hold
  · rw [Table.create_row_self]
    exact hxor

theorem BasketsOwned.set (h : BasketsOwned t) (hk : k ∈ t.keys)
    (hadmits : admitsBasket t (t.keys.filter (· ≠ k)) b = true) : BasketsOwned (t.set k b) := by
  obtain ⟨hxor, hanonymous, huser⟩ := admitsBasket_iff.mp hadmits
  have hothers : ∀ i ∈ t.keys, i ≠ k → i ∈ t.keys.filter (· ≠ k) := fun i hi hne =>
    List.mem_filter.mpr ⟨hi, by simpa using hne⟩
  refine ⟨fun i hi => ?_, (h.anonymousId.set_iff hk).mpr fun i hi hne => hanonymous i (hothers i hi hne),
    (h.user.set_iff hk).mpr fun i hi hne => huser i (hothers i hi hne)⟩
  by_cases hik : i = k
  · subst hik
    rw [Table.set_row_self]
    exact hxor
  · rw [Table.set_row_of_ne _ _ hik]
    exact h.owner i hi

/-- A change of the items touches no constraint. -/
theorem BasketsOwned.setItems (h : BasketsOwned t) (basketItems : List BasketItem) :
    BasketsOwned (t.set k { t.row k with basketItems }) := by
  have hrow : ∀ i, ((t.set k { t.row k with basketItems }).row i).anonymousId = (t.row i).anonymousId ∧
      ((t.set k { t.row k with basketItems }).row i).user = (t.row i).user := by
    intro i
    by_cases hik : i = k
    · subst hik
      rw [Table.set_row_self]
      exact ⟨rfl, rfl⟩
    · rw [Table.set_row_of_ne _ _ hik]
      exact ⟨rfl, rfl⟩
  constructor
  · intro i hi
    have howner := h.owner i hi
    rw [OwnedBasket.userXorAnonymousId, (hrow i).1, (hrow i).2]
    exact howner
  · refine holdsIn_iff.mpr fun i hi j hj hij => ?_
    have hfree := holdsIn_iff.mp h.anonymousId i hi j hj hij
    simp only [clash, uniqueAnonymousId, (hrow i).1, (hrow j).1] at hfree ⊢
    exact hfree
  · refine holdsIn_iff.mpr fun i hi j hj hij => ?_
    have hfree := holdsIn_iff.mp h.user i hi j hj hij
    simp only [clash, uniqueBasketUser, (hrow i).2, (hrow j).2] at hfree ⊢
    exact hfree

/-! ## Lookups -/

theorem clash_anonymousId {a b : OwnedBasket} (ha : (a.anonymousId == some anonymousId) = true)
    (hb : (b.anonymousId == some anonymousId) = true) : uniqueAnonymousId.clash a b = true := by
  simp only [beq_iff_eq] at ha hb
  simp [clash, uniqueAnonymousId, ha, hb]

/-- With the constraints, a basket of an anonymous id is found if there is one, and never two. -/
theorem getBasket_anonymousId (h : BasketsOwned t) (anonymousId : AnonymousId) :
    getBasket t (fun b => b.anonymousId == some anonymousId) = .ok none ∨
      ∃ k ∈ t.keys, (t.row k).anonymousId = some anonymousId ∧
        getBasket t (fun b => b.anonymousId == some anonymousId) = .ok (some k) := by
  unfold getBasket
  rcases h.anonymousId.filter_cases fun _ _ => clash_anonymousId with hnone | ⟨k, hone, hk, hrow⟩
  · rw [hnone]
    exact Or.inl rfl
  · rw [hone]
    exact Or.inr ⟨k, hk, by simpa using hrow, rfl⟩

theorem BasketsOwned.getOrCreate (h : BasketsOwned t) {test : OwnedBasket → Bool} {t' : Table OwnedBasket}
    (hbasket : getOrCreateBasket t test b = .ok t') : BasketsOwned t' := by
  unfold getOrCreateBasket at hbasket
  rcases hget : getBasket t test with e | _ | k
  · rw [hget] at hbasket
    cases hbasket
  · rw [hget] at hbasket
    dsimp only [createBasket] at hbasket
    split_ifs at hbasket with hadmits
    cases hbasket
    exact h.create hadmits
  · rw [hget] at hbasket
    cases hbasket
    exact h

/-! ## The claim -/

/-- Nothing stands in the way of the transfer: the basket loses its id, and the user has no other one. -/
theorem transferBasket_eq (h : BasketsOwned t) (hk : k ∈ t.keys) (user : UserId) :
    ∃ t', transferBasket t user k = .ok t' ∧ BasketsOwned t' ∧ k ∈ t'.keys ∧
      t'.row k = { t.row k with user := some user, anonymousId := none } ∧
      ∀ k' ∈ t'.keys, k' ≠ k → k' ∈ t.keys ∧ t'.row k' = t.row k' := by
  have hothers := h.deleteWhere fun i b => b.user == some user && i != k
  have hmem : ∀ i, i ∈ (t.deleteWhere fun i b => b.user == some user && i != k).keys ↔
      i ∈ t.keys ∧ (i = k ∨ (t.row i).user ≠ some user) := by
    intro i
    rw [t.mem_deleteWhere_keys, Bool.and_eq_false_iff, beq_eq_false_iff_ne, bne_eq_false_iff_eq, or_comm]
  have hk' := (hmem k).mpr ⟨hk, Or.inl rfl⟩
  have hadmits : admitsBasket (t.deleteWhere fun i b => b.user == some user && i != k)
      ((t.deleteWhere fun i b => b.user == some user && i != k).keys.filter (· ≠ k))
      { t.row k with user := some user, anonymousId := none } = true := by
    refine admitsBasket_iff.mpr ⟨rfl, fun i _ => rfl, fun i hi => ?_⟩
    obtain ⟨hi', hne⟩ := List.mem_filter.mp hi
    have huser := ((hmem i).mp hi').2.resolve_left (by simpa using hne)
    rw [Bool.eq_false_iff]
    intro hclash
    exact huser (clash_iff.mp hclash).2.2.symm
  refine ⟨_, if_pos hadmits, hothers.set hk' hadmits, hk', Table.set_row_self _ _ _, ?_⟩
  intro i hi hne
  exact ⟨((hmem i).mp hi).1, Table.set_row_of_ne _ _ hne⟩

variable (session user discountError) in
/-- Everything that a claim can do. -/
theorem claimAnonymousBasket_cases (h : BasketsOwned s.baskets) :
    claimAnonymousBasket session user discountError s = (s, .nothing) ∨
    ∃ anonymousId k t', s.anonymousBasketId session = some anonymousId ∧ k ∈ s.baskets.keys ∧
      (s.baskets.row k).anonymousId = some anonymousId ∧ transferBasket s.baskets user k = .ok t' ∧
      ((∃ e, discountError = some e ∧
          claimAnonymousBasket session user discountError s = ({ s with baskets := t' }, .raised e)) ∨
        claimAnonymousBasket session user discountError s =
          ({ s with baskets := t' }.withId session none, .claimed k)) := by
  rcases hsession : s.anonymousBasketId session with _ | anonymousId
  · exact Or.inl (by simp [claimAnonymousBasket, hsession])
  rcases getBasket_anonymousId h anonymousId with hnone | ⟨k, hk, hrow, hone⟩
  · exact Or.inl (by simp [claimAnonymousBasket, hsession, hnone])
  · obtain ⟨t', htransfer, -⟩ := transferBasket_eq h hk user
    refine Or.inr ⟨anonymousId, k, t', rfl, hk, hrow, htransfer, ?_⟩
    rcases discountError with _ | e
    · exact Or.inr (by simp [claimAnonymousBasket, hsession, hone, htransfer])
    · exact Or.inl ⟨e, rfl, by simp [claimAnonymousBasket, hsession, hone, htransfer]⟩

/-- With the constraints, every claim does what is expected of it. -/
theorem claimsBasket_of_owned (h : BasketsOwned s.baskets) (session : SessionId) (user : UserId)
    (discountError : Option Error) : ClaimsBasket s session user discountError := by
  have hcases := claimAnonymousBasket_cases session user discountError h
  constructor
  · intro e he
    rcases hcases with hclaim | ⟨_, k, t', -, -, -, -, ⟨e', herror, hclaim⟩ | hclaim⟩
    · rw [hclaim] at he
      cases he
    · rw [hclaim] at he
      cases he
      exact herror
    · rw [hclaim] at he
      cases he
  · intro k hk
    rcases hcases with hclaim | ⟨anonymousId, k', t', hsession, hmem, hrow, htransfer, ⟨e', -, hclaim⟩ | hclaim⟩
    · rw [hclaim] at hk
      cases hk
    · rw [hclaim] at hk
      cases hk
    · rw [hclaim] at hk
      cases hk
      obtain ⟨t'', htransfer', -, hkey, hnew, hothers⟩ := transferBasket_eq h hmem user
      cases htransfer.symm.trans htransfer'
      refine ⟨anonymousId, hsession, hmem, hrow, ?_⟩
      rw [hclaim]
      show k ∈ t'.keys ∧ (t'.row k).user = some user ∧
        (t'.row k).basketItems = (s.baskets.row k).basketItems ∧
          ∀ i ∈ t'.keys, (t'.row i).anonymousId ≠ some anonymousId
      refine ⟨hkey, by rw [hnew], by rw [hnew], fun i hi hsame => ?_⟩
      by_cases hik : i = k
      · subst hik
        rw [hnew] at hsame
        cases hsame
      · obtain ⟨hi', hrow'⟩ := hothers i hi hik
        rw [hrow'] at hsame
        exact hik (h.anonymousId.eq_of_clash hi' hmem
          (clash_anonymousId (beq_iff_eq.mpr hsame) (beq_iff_eq.mpr hrow)))

/-! ## Runs -/

theorem BasketsOwned.claim (h : BasketsOwned s.baskets) :
    BasketsOwned (claimAnonymousBasket session user discountError s).1.baskets := by
  rcases claimAnonymousBasket_cases session user discountError h with
    hclaim | ⟨_, k, t', -, hmem, -, htransfer, hclaim⟩
  · rw [hclaim]
    exact h
  · obtain ⟨t'', htransfer', howned, -⟩ := transferBasket_eq h hmem user
    cases htransfer.symm.trans htransfer'
    rcases hclaim with ⟨e, -, hclaim⟩ | hclaim
    · rw [hclaim]
      exact howned
    · rw [hclaim]
      exact howned

theorem BasketsOwned.establish (h : BasketsOwned s.baskets) {user : Option UserId} {s' : BasketSessions}
    (hestablish : establishBasketForRequest session user minted s = .ok s') : BasketsOwned s'.baskets := by
  unfold establishBasketForRequest at hestablish
  rcases user with _ | user
  · dsimp only at hestablish
    split at hestablish
    · cases hestablish
    · rename_i hbasket
      cases hestablish
      exact h.getOrCreate hbasket
  · dsimp only at hestablish
    split at hestablish
    · cases hestablish
    · rename_i hbasket
      cases hestablish
      exact h.getOrCreate hbasket

theorem BasketsOwned.step (h : BasketsOwned s.baskets) (event : BasketEvent) :
    BasketsOwned (basketStep s event).baskets := by
  cases event with
  | establish session user minted =>
    dsimp only [basketStep]
    rcases hestablish : establishBasketForRequest session user minted s with e | s'
    · exact h
    · exact h.establish hestablish
  | claim session user discountError => exact h.claim
  | handoff session anonymousId =>
    dsimp only [basketStep]
    rcases s.anonymousBasketId session with _ | _
    · exact h
    · exact h
  | forget session => exact h
  | setItems k basketItems => exact h.setItems basketItems
  | cull old => exact h.deleteWhere fun k b => b.anonymousId.isSome && old k
  | delete user => exact h.deleteWhere fun _ b => b.user == some user

theorem basketsOwned_empty : BasketsOwned BasketSessions.empty.baskets :=
  ⟨fun _ hk => absurd hk List.not_mem_nil, List.Pairwise.nil, List.Pairwise.nil⟩

/-- After every sequence of requests every basket belongs to a user or to an anonymous id and not to both, no
user and no id has more than one, and every claim gives the user the basket of the session's id. -/
theorem baskets_owned_and_claimed (events : List BasketEvent) :
    let s := Trace.run basketStep .empty events
    (∀ k ∈ s.baskets.keys, Xor ((s.baskets.row k).user.isSome = true)
        ((s.baskets.row k).anonymousId.isSome = true)) ∧
      (∀ user, ∀ k ∈ s.baskets.keys, ∀ k' ∈ s.baskets.keys, (s.baskets.row k).user = some user →
        (s.baskets.row k').user = some user → k = k') ∧
      ∀ session user discountError, ClaimsBasket s session user discountError := by
  intro s
  have h : BasketsOwned s.baskets :=
    Trace.run_of_invariant (fun s : BasketSessions => BasketsOwned s.baskets)
      (fun _ event h => h.step event) basketsOwned_empty events
  refine ⟨fun k hk => ?_, fun user k hk k' hk' huser huser' => ?_, claimsBasket_of_owned h⟩
  · have howner := h.owner k hk
    unfold OwnedBasket.userXorAnonymousId at howner
    generalize (s.baskets.row k).user = user at howner ⊢
    generalize (s.baskets.row k).anonymousId = anonymousId at howner ⊢
    rcases user with _ | user <;> rcases anonymousId with _ | anonymousId <;> simp_all [Xor]
  · refine h.user.eq_of_clash hk hk' (clash_iff.mpr ⟨?_, ?_, huser.trans huser'.symm⟩)
    · exact Option.isSome_of_eq_some huser
    · exact Option.isSome_of_eq_some huser'

end MitxOnline

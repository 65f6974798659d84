import MitxOnline.HubspotSync.TargetedDeals
import MitxOnline.Lib.Autocommit

/-!
# When the sync of an order creates no duplicates

A search that fails is read as one that finds nothing, unless it was turned down for its rate; the search
for a product is not. So an object is created a second time only if the search for it fails in this way.
-/

namespace MitxOnline

open Autocommit

variable {formatAppId : AppKey → Text} {order : ResultOrder} {account account' : TargetAccount}
  {o : TargetOrder} {l : TargetLine} {f : CallFaults} {fault : Option HubspotError} {appId : Text}
  {α : Type} {t : Table α} {test : α → Bool} {k : ℕ}

/-! ## Searches -/

/-- A search with a result has found an object that it is for. -/
theorem doSearch_some (h : doSearch order t test = some k) : k ∈ t.keys ∧ test (t.row k) = true := by
  have hmem := List.mem_of_head? h
  exact List.mem_filter.mp ((order.results_perm _).mem_iff.mp hmem)

/-- A search without a result means that there is no object that it is for. -/
theorem doSearch_none (h : doSearch order t test = none) : t.count test = 0 := by
  have hnil : order.results (t.keys.filter fun k => test (t.row k)) = [] := List.head?_eq_none_iff.mp h
  have hnone : (t.keys.filter fun k => test (t.row k)) = [] := by
    have hperm := order.results_perm (t.keys.filter fun k => test (t.row k))
    rw [hnil] at hperm
    exact hperm.nil_eq.symm
  refine Table.count_eq_zero.mpr fun k hk => ?_
  have hnot := List.filter_eq_nil_iff.mp hnone k hk
  simpa using hnot

/-- A search finds something or fails, if there is something and it does not fail silently. -/
theorem searchOrNone_ok_none (hfault : t.count test ≠ 0 → fault ≠ some .other)
    (h : searchOrNone fault (doSearch order t test) = .ok none) : t.count test = 0 := by
  by_contra hcount
  have hloud := hfault hcount
  unfold searchOrNone at h
  split at h
  · exact hcount (doSearch_none (Except.ok.inj h))
  · cases h
  · exact hloud rfl

theorem searchOrNone_ok_some (h : searchOrNone fault (doSearch order t test) = .ok (some k)) :
    k ∈ t.keys ∧ test (t.row k) = true := by
  unfold searchOrNone at h
  split at h
  · exact doSearch_some (Except.ok.inj h)
  · cases h
  · cases h

/-! ## Requests -/

section Requests

variable {r : TargetAccount → TargetAccount → Prop} (hr : IsFrame r)

include hr

theorem keeps_request {write : TargetAccount → TargetAccount} (h : ∀ account, r account (write account)) :
    Keeps r (request fault write) := by
  intro account
  unfold request
  split
  · exact h account
  · exact hr.refl account

theorem keeps_createUnlessFound {found : Except HubspotError (Option ℕ)}
    {create : Action TargetAccount HubspotError} (h : found = .ok none → r account (create account).state) :
    r account (createUnlessFound found create account).state := by
  unfold createUnlessFound
  split
  · exact hr.refl account
  · exact hr.refl account
  · exact h rfl

end Requests

/-- At most one more, and no more where there is one already. -/
def AtMostOne (count : TargetAccount → ℕ) (account account' : TargetAccount) : Prop :=
  count account' ≤ max (count account) 1

theorem isFrame_atMostOne (count : TargetAccount → ℕ) : IsFrame (AtMostOne count) := by
  constructor
  · intro account
    exact Nat.le_max_left _ _
  · intro s t u hst htu
    unfold AtMostOne at hst htu ⊢
    omega

theorem atMostOne_of_eq {count : TargetAccount → ℕ} (h : count account' = count account) :
    AtMostOne count account account' := (le_of_eq h).trans (Nat.le_max_left _ _)

/-- Where only one action changes a part of the account, what it adds to the part the sequence adds. -/
theorem atMostOne_seq {β : Type} (part : TargetAccount → β) (number : β → ℕ)
    {before after : List (Action TargetAccount HubspotError)} {a : Action TargetAccount HubspotError}
    (hbefore : ∀ b ∈ before, Keeps (fun account account' => part account' = part account) b)
    (hafter : ∀ b ∈ after, Keeps (fun account account' => part account' = part account) b)
    (h : ∀ s, part s = part account → AtMostOne (fun account => number (part account)) s (a s).state) :
    AtMostOne (fun account => number (part account)) account
      (seq (before ++ a :: after) account).state := by
  rcases seq_append_cons (isFrame_eq part) hbefore hafter account with hskipped | ⟨s, hs, hend⟩
  · exact atMostOne_of_eq (congrArg number hskipped)
  · have hround := h s hs
    unfold AtMostOne at hround ⊢
    dsimp only at hround ⊢
    rw [hend, ← hs]
    exact hround

/-- Creating an object that is not there. -/
theorem count_create_le (a : α) (h : test a = true → t.count test = 0) :
    (t.create a).count test ≤ max (t.count test) 1 := by
  rw [Table.count_create]
  split
  · rename_i ha
    have hzero := h ha
    omega
  · omega

/-! ## Products -/

/-- The number of products with an id. -/
def TargetAccount.productCount (appId : Text) (account : TargetAccount) : ℕ :=
  account.products.count (·.hasAppId appId)

@[simp] theorem hasAppId_some {appId' : Text} :
    (⟨some appId'⟩ : TargetObject).hasAppId appId = true ↔ appId' = appId := by
  simp [TargetObject.hasAppId]

/-- A product is created only if there is none with its id, for the search for it does not fail silently. -/
theorem keeps_product (hformat : ∀ key, formatAppId key ≠ []) (appId : Text) (f : ProductFaults)
    (l : TargetLine) : Keeps (AtMostOne (·.productCount appId))
      (ensureTargetHubspotProductForLine formatAppId order f l) := by
  intro account
  have hrefl := (isFrame_atMostOne (·.productCount appId)).refl account
  unfold ensureTargetHubspotProductForLine
  cases l.product with
  | none => exact hrefl
  | some product =>
    dsimp only
    rw [if_pos (hformat _)]
    refine keeps_createUnlessFound (isFrame_atMostOne _) fun hnone => ?_
    unfold request
    split
    · refine count_create_le _ fun happ => ?_
      rw [hasAppId_some.mp happ] at hnone
      unfold search at hnone
      split at hnone
      · exact doSearch_none (Except.ok.inj hnone)
      · cases hnone
    · exact hrefl

/-- Nothing but products is written for a product. -/
theorem keeps_others_product (f : ProductFaults) (l : TargetLine) :
    Keeps (fun account account' => (account'.deals, account'.lineItems) =
      (account.deals, account.lineItems)) (ensureTargetHubspotProductForLine formatAppId order f l) := by
  have hframe : IsFrame fun account account' : TargetAccount =>
      (account'.deals, account'.lineItems) = (account.deals, account.lineItems) := isFrame_eq _
  intro account
  unfold ensureTargetHubspotProductForLine
  cases l.product with
  | none => rfl
  | some product =>
    have hcreate : Keeps (fun account account' : TargetAccount =>
        (account'.deals, account'.lineItems) = (account.deals, account.lineItems))
        (request f.create fun account =>
          { account with
            products := account.products.create ⟨some (formatAppId (.object product))⟩ }) :=
      keeps_request hframe fun _ => rfl
    dsimp only
    split
    · exact keeps_createUnlessFound hframe fun _ => hcreate account
    · exact hcreate account

/-! ## Line items -/

/-- The number of line items with an id. -/
def TargetAccount.lineItemCount (appId : Text) (account : TargetAccount) : ℕ :=
  account.lineItems.count (·.hasAppId appId)

/-- Nothing but line items is written after the products. -/
theorem keeps_others_lineItem (f : LineFaults) (l : TargetLine) :
    Keeps (fun account account' => (account'.deals, account'.products) =
      (account.deals, account.products)) (findOrCreateLineItem formatAppId order f l) := by
  have hframe : IsFrame fun account account' : TargetAccount =>
      (account'.deals, account'.products) = (account.deals, account.products) := isFrame_eq _
  have hcreate : Keeps (fun account account' : TargetAccount =>
      (account'.deals, account'.products) = (account.deals, account.products))
      (request f.create fun account =>
        { account with
          lineItems := account.lineItems.create ⟨some (l.uniqueAppId formatAppId)⟩ }) :=
    keeps_request hframe fun _ => rfl
  intro account
  unfold findOrCreateLineItem
  dsimp only
  split
  · exact keeps_createUnlessFound hframe fun _ => hcreate account
  · exact hcreate account

/-- A line item is created only if there is none with its id, if the search for one that is there does not
fail silently. -/
theorem findOrCreateLineItem_self (hformat : ∀ key, formatAppId key ≠ []) (f : LineFaults)
    (l : TargetLine) (h : account.lineItemCount (l.uniqueAppId formatAppId) ≠ 0 →
      f.search ≠ some .other) :
    AtMostOne (·.lineItemCount (l.uniqueAppId formatAppId)) account
      (findOrCreateLineItem formatAppId order f l account).state := by
  have hframe := isFrame_atMostOne (·.lineItemCount (l.uniqueAppId formatAppId))
  have hfilled : l.uniqueAppId formatAppId ≠ [] := hformat _
  unfold findOrCreateLineItem
  dsimp only
  rw [if_pos hfilled]
  refine keeps_createUnlessFound hframe fun hnone => ?_
  unfold request
  split
  · exact count_create_le _ fun _ => searchOrNone_ok_none h hnone
  · exact hframe.refl account

/-- A line item for another id is not counted. -/
theorem keeps_lineItemCount_other {f : LineFaults} (hne : l.uniqueAppId formatAppId ≠ appId) :
    Keeps (fun account account' : TargetAccount =>
      account'.lineItemCount appId = account.lineItemCount appId)
      (findOrCreateLineItem formatAppId order f l) := by
  have hframe : IsFrame fun account account' : TargetAccount =>
      account'.lineItemCount appId = account.lineItemCount appId := isFrame_eq _
  have hcreate : Keeps (fun account account' : TargetAccount =>
      account'.lineItemCount appId = account.lineItemCount appId)
      (request f.create fun account =>
        { account with
          lineItems := account.lineItems.create ⟨some (l.uniqueAppId formatAppId)⟩ }) := by
    refine keeps_request hframe fun account => ?_
    show (account.lineItems.create _).count _ = account.lineItems.count _
    rw [Table.count_create, if_neg (fun happ => hne (hasAppId_some.mp happ)), Nat.add_zero]
  intro account
  unfold findOrCreateLineItem
  dsimp only
  split
  · exact keeps_createUnlessFound hframe fun _ => hcreate account
  · exact hcreate account

/-- What keeps the line items keeps their number. -/
theorem keeps_lineItemCount {a : Action TargetAccount HubspotError} (appId : Text)
    (h : Keeps (fun account account' => (account'.deals, account'.lineItems) =
      (account.deals, account.lineItems)) a) :
    Keeps (fun account account' : TargetAccount =>
      account'.lineItemCount appId = account.lineItemCount appId) a := by
  intro account
  have hsame := h account
  unfold TargetAccount.lineItemCount
  rw [(Prod.mk.injEq ..).mp hsame |>.2]

theorem keeps_id {r : TargetAccount → TargetAccount → Prop} (hr : IsFrame r) :
    Keeps r (request fault id) := keeps_request hr hr.refl

/-- The requests for a line before the search for its line item. -/
def lineMessage (formatAppId : AppKey → Text) (order : ResultOrder) (f : LineFaults) (l : TargetLine) :
    List (Action TargetAccount HubspotError) :=
  [request f.message id, ensureTargetHubspotProductForLine formatAppId order f.product l,
    request f.normalize id]

theorem ensureTargetLineItemForLine_eq (f : LineFaults) (l : TargetLine) :
    ensureTargetLineItemForLine formatAppId order f l =
      seq (lineMessage formatAppId order f l ++ findOrCreateLineItem formatAppId order f l :: []) := rfl

/-- They leave deals and line items as they are. -/
theorem keeps_lineMessage {f : LineFaults} {l : TargetLine} {a : Action TargetAccount HubspotError}
    (ha : a ∈ lineMessage formatAppId order f l) :
    Keeps (fun account account' => (account'.deals, account'.lineItems) =
      (account.deals, account.lineItems)) a := by
  simp only [lineMessage, List.mem_cons, List.not_mem_nil, or_false] at ha
  rcases ha with rfl | rfl | rfl
  · exact keeps_id (isFrame_eq _)
  · exact keeps_others_product f.product l
  · exact keeps_id (isFrame_eq _)

/-- The round for a line creates a line item only if there is none. -/
theorem ensureTargetLineItem_self (hformat : ∀ key, formatAppId key ≠ []) (order : ResultOrder)
    (f : LineFaults) (l : TargetLine) (h : account.lineItemCount (l.uniqueAppId formatAppId) ≠ 0 →
      f.search ≠ some .other) :
    AtMostOne (·.lineItemCount (l.uniqueAppId formatAppId)) account
      (ensureTargetLineItemForLine formatAppId order f l account).state := by
  rw [ensureTargetLineItemForLine_eq]
  refine atMostOne_seq (·.lineItemCount (l.uniqueAppId formatAppId)) id
    (fun a ha => keeps_lineItemCount _ (keeps_lineMessage ha)) (fun b hb => absurd hb List.not_mem_nil)
    fun s hs => ?_
  exact findOrCreateLineItem_self hformat f l fun hcount => h (hs ▸ hcount)

/-- The round for another line does not change the number of line items with an id. -/
theorem keeps_ensureTargetLineItem_other {f : LineFaults}
    (hne : l.uniqueAppId formatAppId ≠ appId) :
    Keeps (fun account account' : TargetAccount =>
      account'.lineItemCount appId = account.lineItemCount appId)
      (ensureTargetLineItemForLine formatAppId order f l) := by
  rw [ensureTargetLineItemForLine_eq]
  refine keeps_seq (isFrame_eq _) fun a ha => ?_
  rcases List.mem_append.mp ha with hbefore | hlast
  · exact keeps_lineItemCount appId (keeps_lineMessage hbefore)
  · rw [List.mem_singleton.mp hlast]
    exact keeps_lineItemCount_other hne

/-- The round for a line leaves the deals. -/
theorem keeps_deals_lineItem (f : LineFaults) (l : TargetLine) :
    Keeps (fun account account' : TargetAccount => account'.deals = account.deals)
      (ensureTargetLineItemForLine formatAppId order f l) := by
  rw [ensureTargetLineItemForLine_eq]
  refine keeps_seq (isFrame_eq _) fun a ha => ?_
  rcases List.mem_append.mp ha with hbefore | hlast
  · exact fun account => (Prod.mk.injEq ..).mp (keeps_lineMessage hbefore account) |>.1
  · rw [List.mem_singleton.mp hlast]
    exact fun account => (Prod.mk.injEq ..).mp (keeps_others_lineItem f l account) |>.1

/-- The round for a line creates a product only if there is none. -/
theorem keeps_product_lineItem (hformat : ∀ key, formatAppId key ≠ []) (appId : Text) (f : LineFaults)
    (l : TargetLine) : Keeps (AtMostOne (·.productCount appId))
      (ensureTargetLineItemForLine formatAppId order f l) := by
  have hframe := isFrame_atMostOne (·.productCount appId)
  refine keeps_seq hframe fun a ha => ?_
  simp only [List.mem_cons, List.not_mem_nil, or_false] at ha
  rcases ha with rfl | rfl | rfl | rfl
  · exact keeps_id hframe
  · exact keeps_product hformat appId f.product l
  · exact keeps_id hframe
  · intro account
    have hsame : ((findOrCreateLineItem formatAppId order f l account).state).products =
        account.products := (Prod.mk.injEq ..).mp (keeps_others_lineItem f l account) |>.2
    exact atMostOne_of_eq (congrArg (fun t : Table TargetObject => t.count (·.hasAppId appId)) hsame)

/-! ## Deals -/

/-- The number of deals with a name. -/
def TargetAccount.dealCount (dealname : Text) (account : TargetAccount) : ℕ :=
  account.deals.count (·.isNamed dealname)

/-- The search for the id makes up for the one for the name: it returns, and finds a deal of the name. -/
def FoundByAppId (formatAppId : AppKey → Text) (f : CallFaults) (o : TargetOrder)
    (account : TargetAccount) : Prop :=
  f.searchByAppId = none ∧ account.deals.count (·.hasAppId (o.uniqueAppId formatAppId)) ≠ 0 ∧
    ∀ k ∈ account.deals.keys, (account.deals.row k).hasAppId (o.uniqueAppId formatAppId) = true →
      (account.deals.row k).isNamed o.dealname = true

/-- A deal carries the name but the search for it fails silently, and the one for the id neither stops the
call nor makes up for it. -/
def MissesDeal (formatAppId : AppKey → Text) (f : CallFaults) (o : TargetOrder)
    (account : TargetAccount) : Prop :=
  account.dealCount o.dealname ≠ 0 ∧ f.searchByDealname = some .other ∧
    f.searchByAppId ≠ some .tooManyRequests ∧ ¬ FoundByAppId formatAppId f o account

/-- What the search for the id comes to after the one for the name has failed silently. -/
theorem searchByAppId_cases {found : Option ℕ} (h : ¬ MissesDeal formatAppId f o account)
    (hname : f.searchByDealname = some .other)
    (hfound : searchOrNone f.searchByAppId
      (doSearch f.order account.deals (·.hasAppId (o.uniqueAppId formatAppId))) = .ok found) :
    account.dealCount o.dealname = 0 ∨
      ∃ k, found = some k ∧ (account.deals.row k).isNamed o.dealname = true := by
  by_cases hcount : account.dealCount o.dealname = 0
  · exact Or.inl hcount
  · right
    have hreturned : f.searchByAppId ≠ some .tooManyRequests := by
      intro hlimited
      rw [hlimited] at hfound
      cases hfound
    have hfinds : FoundByAppId formatAppId f o account := by
      by_contra hnot
      exact h ⟨hcount, hname, hreturned, hnot⟩
    obtain ⟨hnone, hthere, hnamed⟩ := hfinds
    rw [hnone] at hfound
    cases hsearch : doSearch f.order account.deals (·.hasAppId (o.uniqueAppId formatAppId)) with
    | none => exact absurd (doSearch_none hsearch) hthere
    | some k =>
      have hk := doSearch_some hsearch
      rw [hsearch] at hfound
      exact ⟨k, (Except.ok.inj hfound).symm, hnamed k hk.1 hk.2⟩

/-- The deal that is found carries the name, or no deal does, if the searches do not miss it. -/
theorem findTargetDeal_cases {found : Option ℕ} (hformat : ∀ key, formatAppId key ≠ [])
    (h : ¬ MissesDeal formatAppId f o account)
    (hfound : findTargetDeal formatAppId f o account = .ok found) :
    account.dealCount o.dealname = 0 ∨
      ∃ k, found = some k ∧ (account.deals.row k).isNamed o.dealname = true := by
  have hfilled : o.uniqueAppId formatAppId ≠ [] := by
    unfold TargetOrder.uniqueAppId
    split
    · exact hformat _
    · exact hformat _
  unfold findTargetDeal at hfound
  rw [if_pos hfilled] at hfound
  split at hfound
  · cases hfound
  · rename_i k hname
    exact Or.inr ⟨k, (Except.ok.inj hfound).symm, (searchOrNone_ok_some hname).2⟩
  · rename_i hname
    by_cases hsilent : f.searchByDealname = some .other
    · exact searchByAppId_cases h hsilent hfound
    · exact Or.inl (searchOrNone_ok_none (fun _ => hsilent) hname)

/-- A deal gets the name only if none carries it. -/
theorem writeTargetDeal_count (hformat : ∀ key, formatAppId key ≠ [])
    (h : ¬ MissesDeal formatAppId f o account) :
    AtMostOne (·.dealCount o.dealname) account (writeTargetDeal formatAppId f o account).state := by
  have hrefl := (isFrame_atMostOne (·.dealCount o.dealname)).refl account
  unfold writeTargetDeal
  dsimp only
  split
  · exact hrefl
  · rename_i k hfound
    unfold request
    split
    · rcases findTargetDeal_cases hformat h hfound with hnone | ⟨k', hk, hnamed⟩
      · have hset := Table.count_set_le account.deals (·.isNamed o.dealname) k
          ⟨some o.dealname, some (o.uniqueAppId formatAppId)⟩
        unfold TargetAccount.dealCount at hnone
        show (account.deals.set k _).count _ ≤ max (account.deals.count _) 1
        omega
      · obtain rfl := Option.some.inj hk
        exact (Table.count_set_of_test _ hnamed).trans (Nat.le_max_left _ _)
    · exact hrefl
  · rename_i hfound
    unfold request
    split
    · rcases findTargetDeal_cases hformat h hfound with hnone | ⟨k', hk, -⟩
      · exact count_create_le _ fun _ => hnone
      · cases hk
    · exact hrefl

/-- Nothing but deals is written for a deal. -/
theorem keeps_others_deal (f : CallFaults) (o : TargetOrder) :
    Keeps (fun account account' => (account'.lineItems, account'.products) =
      (account.lineItems, account.products)) (writeTargetDeal formatAppId f o) := by
  intro account
  unfold writeTargetDeal request
  dsimp only
  split
  · rfl
  · split <;> rfl
  · split <;> rfl

end MitxOnline

import MitxOnline.HubspotSync.Proofs.TargetedDealsProofs

/-!
# Calls for an order, one after the other

What one call adds to an account, and from it what a run of calls adds, whichever of their requests fail.
-/

namespace MitxOnline

open Autocommit

variable {formatAppId : AppKey → Text} {account : TargetAccount} {o : TargetOrder} {f : CallFaults}

/-! ## Duplicates -/

/-- One more deal, line item or product at most, and none where there was one. -/
structure NoDuplicates (formatAppId : AppKey → Text) (o : TargetOrder)
    (account account' : TargetAccount) : Prop where
  deal : AtMostOne (·.dealCount o.dealname) account account'
  lineItem : ∀ l ∈ o.lines, AtMostOne (·.lineItemCount (l.uniqueAppId formatAppId)) account account'
  product : ∀ appId, AtMostOne (·.productCount appId) account account'

/-- The searches of the call for deals and line items do not overlook what the account holds. -/
structure SearchesSee (formatAppId : AppKey → Text) (o : TargetOrder) (f : CallFaults)
    (account : TargetAccount) : Prop where
  deal : ¬ MissesDeal formatAppId f o account
  lineItem : ∀ l ∈ o.lines, account.lineItemCount (l.uniqueAppId formatAppId) ≠ 0 →
    (f.line l.id).search ≠ some .other

theorem isFrame_noDuplicates : IsFrame (NoDuplicates formatAppId o) := by
  constructor
  · intro account
    exact ⟨(isFrame_atMostOne _).refl account, fun l _ => (isFrame_atMostOne _).refl account,
      fun appId => (isFrame_atMostOne _).refl account⟩
  · intro s t u hst htu
    constructor
    · exact (isFrame_atMostOne _).trans _ _ _ hst.deal htu.deal
    · intro l hl
      exact (isFrame_atMostOne _).trans _ _ _ (hst.lineItem l hl) (htu.lineItem l hl)
    · intro appId
      exact (isFrame_atMostOne _).trans _ _ _ (hst.product appId) (htu.product appId)

/-! ## One call -/

/-- What a call does before it comes to the deal. -/
def beforeDeal (formatAppId : AppKey → Text) (f : CallFaults) (o : TargetOrder) :
    List (Action TargetAccount HubspotError) :=
  [request f.message id,
    seq (o.lines.map fun l => ensureTargetHubspotProductForLine formatAppId f.order (f.product l.id) l)]

/-- A call for a user of no contract. -/
theorem syncDeal_eq (h : o.isB2bUser = false) :
    syncDealWithHubspotTargeted formatAppId f o =
      seq (beforeDeal formatAppId f o ++
        writeTargetDeal formatAppId f o :: [ensureTargetLineItems formatAppId f o]) := by
  unfold syncDealWithHubspotTargeted
  rw [if_neg (by simp [h])]
  rfl

/-- What the products of all lines keep, the requests before the deal keep. -/
theorem keeps_beforeDeal {r : TargetAccount → TargetAccount → Prop} (hr : IsFrame r)
    (hproduct : ∀ faults l, Keeps r (ensureTargetHubspotProductForLine formatAppId f.order faults l))
    {a : Action TargetAccount HubspotError} (ha : a ∈ beforeDeal formatAppId f o) : Keeps r a := by
  simp only [beforeDeal, List.mem_cons, List.not_mem_nil, or_false] at ha
  rcases ha with rfl | rfl
  · exact keeps_id hr
  · refine keeps_seq hr fun b hb => ?_
    obtain ⟨l, -, rfl⟩ := List.mem_map.mp hb
    exact hproduct _ l

/-- What the rounds of all lines keep, the line items of a call keep. -/
theorem keeps_ensureTargetLineItems {r : TargetAccount → TargetAccount → Prop} (hr : IsFrame r)
    (hround : ∀ l ∈ o.lines, Keeps r
      (ensureTargetLineItemForLine formatAppId f.order (f.line l.id) l)) :
    Keeps r (ensureTargetLineItems formatAppId f o) := by
  unfold ensureTargetLineItems
  split
  · exact keeps_skip hr
  · exact keeps_raise hr _
  · refine keeps_seq hr fun b hb => ?_
    obtain ⟨l, hl, rfl⟩ := List.mem_map.mp hb
    exact hround l hl

/-- A call adds a deal of the name only if there is none. -/
theorem syncDeal_deal (hformat : ∀ key, formatAppId key ≠ []) (hb2b : o.isB2bUser = false)
    (h : ¬ MissesDeal formatAppId f o account) :
    AtMostOne (·.dealCount o.dealname) account
      (syncDealWithHubspotTargeted formatAppId f o account).state := by
  have hframe : IsFrame fun account account' : TargetAccount => account'.deals = account.deals :=
    isFrame_eq _
  have hbefore : ∀ a ∈ beforeDeal formatAppId f o,
      Keeps (fun account account' : TargetAccount => account'.deals = account.deals) a := by
    intro a ha
    refine keeps_beforeDeal hframe (fun faults l account => ?_) ha
    exact (Prod.mk.injEq ..).mp (keeps_others_product faults l account) |>.1
  have hafter : ∀ a ∈ [ensureTargetLineItems formatAppId f o],
      Keeps (fun account account' : TargetAccount => account'.deals = account.deals) a := by
    intro a ha
    rw [List.mem_singleton.mp ha]
    exact keeps_ensureTargetLineItems hframe fun l _ => keeps_deals_lineItem _ l
  rw [syncDeal_eq hb2b]
  refine atMostOne_seq (·.deals) (·.count (·.isNamed o.dealname)) hbefore hafter fun s hs => ?_
  -- the account differs at the search only in its products
  have hmiss : ¬ MissesDeal formatAppId f o s := by
    unfold MissesDeal FoundByAppId TargetAccount.dealCount at h ⊢
    rw [hs]
    exact h
  exact writeTargetDeal_count hformat hmiss

/-- What the requests before the line items keep. -/
theorem keeps_beforeLineItems {r : TargetAccount → TargetAccount → Prop} (hr : IsFrame r)
    (hproduct : ∀ faults l, Keeps r (ensureTargetHubspotProductForLine formatAppId f.order faults l))
    (hdeal : Keeps r (writeTargetDeal formatAppId f o)) {a : Action TargetAccount HubspotError}
    (ha : a ∈ beforeDeal formatAppId f o ++ [writeTargetDeal formatAppId f o]) : Keeps r a := by
  rcases List.mem_append.mp ha with hbefore | hlast
  · exact keeps_beforeDeal hr hproduct hbefore
  · rw [List.mem_singleton.mp hlast]
    exact hdeal

/-- The rounds of a call add a line item for a line only if there is none. -/
theorem ensureTargetLineItems_self (hformat : ∀ key, formatAppId key ≠ [])
    (hinjective : ∀ a b, formatAppId (.object a) = formatAppId (.object b) → a = b)
    {l : TargetLine} (hl : l ∈ o.lines)
    (h : account.lineItemCount (l.uniqueAppId formatAppId) ≠ 0 →
      (f.line l.id).search ≠ some .other) :
    AtMostOne (·.lineItemCount (l.uniqueAppId formatAppId)) account
      (ensureTargetLineItems formatAppId f o account).state := by
  have hrefl := (isFrame_atMostOne (·.lineItemCount (l.uniqueAppId formatAppId))).refl account
  unfold ensureTargetLineItems
  cases f.contact with
  | missing => exact hrefl
  | rateLimited => exact hrefl
  | found =>
    -- the line stands once among the lines, and no other has its id
    obtain ⟨before, after, hlines⟩ := List.append_of_mem hl
    have hnodup := o.lines_nodup
    rw [hlines, List.map_append, List.map_cons, List.nodup_append] at hnodup
    obtain ⟨-, hcons, hdisjoint⟩ := hnodup
    have hfresh := (List.nodup_cons.mp hcons).1
    have hothers : ∀ l' ∈ before ++ after,
        l'.uniqueAppId formatAppId ≠ l.uniqueAppId formatAppId := by
      intro l' hl' happ
      have hid : l'.id = l.id := hinjective _ _ happ
      rcases List.mem_append.mp hl' with hbefore | hafter
      · exact hdisjoint _ (List.mem_map.mpr ⟨l', hbefore, rfl⟩) _ List.mem_cons_self hid
      · exact hfresh (List.mem_map.mpr ⟨l', hafter, hid⟩)
    have hround : ∀ part ⊆ before ++ after, ∀ a ∈ part.map fun l' =>
        ensureTargetLineItemForLine formatAppId f.order (f.line l'.id) l',
        Keeps (fun account account' : TargetAccount =>
          account'.lineItemCount (l.uniqueAppId formatAppId) =
            account.lineItemCount (l.uniqueAppId formatAppId)) a := by
      intro part hpart a ha
      obtain ⟨l', hl', rfl⟩ := List.mem_map.mp ha
      exact keeps_ensureTargetLineItem_other (hothers l' (hpart hl'))
    have hbefore := hround before (List.subset_append_left before after)
    have hafter := hround after (List.subset_append_right before after)
    rw [hlines, List.map_append, List.map_cons]
    refine atMostOne_seq (·.lineItemCount (l.uniqueAppId formatAppId)) id hbefore hafter fun s hs => ?_
    exact ensureTargetLineItem_self hformat f.order (f.line l.id) l fun hcount => h (hs ▸ hcount)

/-- A call adds a line item for a line only if there is none. -/
theorem syncDeal_lineItem (hformat : ∀ key, formatAppId key ≠ [])
    (hinjective : ∀ a b, formatAppId (.object a) = formatAppId (.object b) → a = b)
    (hb2b : o.isB2bUser = false) {l : TargetLine} (hl : l ∈ o.lines)
    (h : account.lineItemCount (l.uniqueAppId formatAppId) ≠ 0 →
      (f.line l.id).search ≠ some .other) :
    AtMostOne (·.lineItemCount (l.uniqueAppId formatAppId)) account
      (syncDealWithHubspotTargeted formatAppId f o account).state := by
  have hframe : IsFrame fun account account' : TargetAccount =>
      account'.lineItems = account.lineItems := isFrame_eq _
  have hbefore : ∀ a ∈ beforeDeal formatAppId f o ++ [writeTargetDeal formatAppId f o],
      Keeps (fun account account' : TargetAccount => account'.lineItems = account.lineItems) a := by
    intro a ha
    refine keeps_beforeLineItems hframe (fun faults l account => ?_) (fun account => ?_) ha
    · exact (Prod.mk.injEq ..).mp (keeps_others_product faults l account) |>.2
    · exact (Prod.mk.injEq ..).mp (keeps_others_deal f o account) |>.1
  have hsplit : beforeDeal formatAppId f o ++
      writeTargetDeal formatAppId f o :: [ensureTargetLineItems formatAppId f o] =
      (beforeDeal formatAppId f o ++ [writeTargetDeal formatAppId f o]) ++
        ensureTargetLineItems formatAppId f o :: [] := by simp
  rw [syncDeal_eq hb2b, hsplit]
  refine atMostOne_seq (·.lineItems) (·.count (·.hasAppId (l.uniqueAppId formatAppId))) hbefore
    (fun b hb => absurd hb List.not_mem_nil) fun s hs => ?_
  have hcount : s.lineItemCount (l.uniqueAppId formatAppId) =
      account.lineItemCount (l.uniqueAppId formatAppId) := by
    unfold TargetAccount.lineItemCount
    rw [hs]
  exact ensureTargetLineItems_self hformat hinjective hl fun hthere => h (hcount ▸ hthere)

/-- A call adds a product only if there is none: the search for it does not fail silently. -/
theorem syncDeal_product (hformat : ∀ key, formatAppId key ≠ []) (appId : Text)
    (hb2b : o.isB2bUser = false) :
    Keeps (AtMostOne (·.productCount appId)) (syncDealWithHubspotTargeted formatAppId f o) := by
  have hframe := isFrame_atMostOne (·.productCount appId)
  rw [syncDeal_eq hb2b]
  refine keeps_seq hframe fun a ha => ?_
  rcases List.mem_append.mp ha with hbefore | hlast
  · exact keeps_beforeDeal hframe (keeps_product hformat appId) hbefore
  · simp only [List.mem_cons, List.not_mem_nil, or_false] at hlast
    rcases hlast with rfl | rfl
    · intro account
      have hsame : (writeTargetDeal formatAppId f o account).state.products = account.products :=
        (Prod.mk.injEq ..).mp (keeps_others_deal f o account) |>.2
      exact atMostOne_of_eq (congrArg (fun t : Table TargetObject => t.count (·.hasAppId appId)) hsame)
    · exact keeps_ensureTargetLineItems hframe fun l _ => keeps_product_lineItem hformat appId _ l

/-- One call creates no duplicates, if its searches overlook nothing. -/
theorem syncDeal_noDuplicates (hformat : ∀ key, formatAppId key ≠ [])
    (hinjective : ∀ a b, formatAppId (.object a) = formatAppId (.object b) → a = b)
    (h : SearchesSee formatAppId o f account) :
    NoDuplicates formatAppId o account (syncDealWithHubspotTargeted formatAppId f o account).state := by
  cases hb2b : o.isB2bUser with
  | true =>
    have hskip : syncDealWithHubspotTargeted formatAppId f o account = ⟨account, none⟩ := by
      unfold syncDealWithHubspotTargeted
      rw [if_pos hb2b]
      rfl
    rw [hskip]
    exact isFrame_noDuplicates.refl account
  | false =>
    constructor
    · exact syncDeal_deal hformat hb2b h.deal
    · exact fun l hl => syncDeal_lineItem hformat hinjective hb2b hl (h.lineItem l hl)
    · exact fun appId => syncDeal_product hformat appId hb2b account

/-! ## Runs -/

@[simp] theorem syncDeals_cons (calls : List CallFaults) :
    syncDeals formatAppId o (f :: calls) account =
      syncDeals formatAppId o calls (syncDealWithHubspotTargeted formatAppId f o account).state := rfl

/-- A run of calls creates no duplicates, whatever else of it fails, if no search of a call overlooks what
the account holds by then. -/
theorem syncDeals_noDuplicates_of_searchesSee (hformat : ∀ key, formatAppId key ≠ [])
    (hinjective : ∀ a b, formatAppId (.object a) = formatAppId (.object b) → a = b)
    (o : TargetOrder) (calls : List CallFaults) (account : TargetAccount)
    (hsee : ∀ before f after, calls = before ++ f :: after →
      SearchesSee formatAppId o f (syncDeals formatAppId o before account)) :
    NoDuplicates formatAppId o account (syncDeals formatAppId o calls account) := by
  induction calls generalizing account with
  | nil => exact isFrame_noDuplicates.refl account
  | cons f calls ih =>
    have hfirst : NoDuplicates formatAppId o account _ :=
      syncDeal_noDuplicates hformat hinjective (hsee [] f calls rfl)
    rw [syncDeals_cons]
    refine isFrame_noDuplicates.trans _ _ _ hfirst (ih _ fun before f' after hcalls => ?_)
    exact hsee (f :: before) f' after (by rw [hcalls, List.cons_append])

/-! ## An order of one line -/

/-- Ids with a prefix for the application. -/
def prefixedAppId : AppKey → Text
  | .object id => "mitxonline-".toList ++ intText id
  | .purchase globalId model objectId =>
    "mitxonline-".toList ++ globalId ++ '-' :: model ++ '-' :: intText objectId

theorem prefixedAppId_filled (key : AppKey) : prefixedAppId key ≠ [] := by
  cases key with
  | object id => exact List.append_ne_nil_of_right_ne_nil _ Nat.toDigits_ne_nil
  | purchase globalId model objectId =>
    exact List.append_ne_nil_of_right_ne_nil _ (List.cons_ne_nil '-' _)

theorem prefixedAppId_injective (a b : ℕ)
    (h : prefixedAppId (.object a) = prefixedAppId (.object b)) : a = b := by
  have hdigits : Nat.toDigits 10 a = Nat.toDigits 10 b := List.append_cancel_left h
  have hread : Nat.ofDigitChars 10 (Nat.toDigits 10 a) 0 = a := Nat.ofDigitChars_ten_toDigits
  rw [← hread, hdigits]
  exact Nat.ofDigitChars_ten_toDigits

/-- A call of which nothing fails. -/
def smoothCall : CallFaults where
  order := ⟨id, fun _ => List.Perm.refl _⟩
  message := none
  product := fun _ => ⟨none, none⟩
  searchByDealname := none
  searchByAppId := none
  write := none
  contact := .found
  line := fun _ => ⟨none, ⟨none, none⟩, none, none, none⟩

/-- An order of a course run. -/
def orderOfOneLine : TargetOrder where
  id := 1
  isB2bUser := false
  globalId := "a".toList
  purchase := some ("courserun".toList, 7)
  lines := [⟨3, some 5⟩]
  lines_nodup := by simp

/-- An account that holds nothing. -/
def emptyAccount : TargetAccount where
  deals := ⟨[], fun _ => ⟨none, none⟩, Table.sorted_nil⟩
  lineItems := ⟨[], fun _ => ⟨none⟩, Table.sorted_nil⟩
  products := ⟨[], fun _ => ⟨none⟩, Table.sorted_nil⟩

/-- The searches of a call of which nothing fails see everything, and so do those of one whose deal is not
written. -/
theorem smoothCall_searchesSee {f : CallFaults}
    (hf : f ∈ [{ smoothCall with write := some .other }, smoothCall, smoothCall]) :
    SearchesSee prefixedAppId orderOfOneLine f account := by
  have hloud : f.searchByDealname = none ∧ ∀ k, (f.line k).search = none := by
    simp only [List.mem_cons, List.not_mem_nil, or_false] at hf
    rcases hf with rfl | rfl | rfl <;> exact ⟨rfl, fun _ => rfl⟩
  constructor
  · rintro ⟨-, hsilent, -⟩
    rw [hloud.1] at hsilent
    cases hsilent
  · intro l _ _ hsilent
    rw [hloud.2] at hsilent
    cases hsilent

/-- A call that fails at the deal, and two that do not. -/
theorem syncDeals_noDuplicates_failedWrite : NoDuplicates prefixedAppId orderOfOneLine emptyAccount
    (syncDeals prefixedAppId orderOfOneLine
      [{ smoothCall with write := some .other }, smoothCall, smoothCall] emptyAccount) := by
  refine syncDeals_noDuplicates_of_searchesSee prefixedAppId_filled prefixedAppId_injective
    orderOfOneLine _ _ fun before f after hcalls => ?_
  refine smoothCall_searchesSee ?_
  rw [hcalls]
  exact List.mem_append_cons_self

/-- The searches for a deal that is there fail, and it is created again. -/
theorem silentSearch_duplicates_deal : ¬ ∀ (formatAppId : AppKey → Text) (o : TargetOrder)
    (calls : List CallFaults) (account : TargetAccount), (∀ key, formatAppId key ≠ []) →
    (∀ a b, formatAppId (.object a) = formatAppId (.object b) → a = b) →
    NoDuplicates formatAppId o account (syncDeals formatAppId o calls account) := by
  intro h
  have hdeal := (h prefixedAppId orderOfOneLine
    [smoothCall, { smoothCall with searchByDealname := some .other, searchByAppId := some .other }]
    emptyAccount prefixedAppId_filled prefixedAppId_injective).deal
  revert hdeal
  unfold AtMostOne
  decide

end MitxOnline

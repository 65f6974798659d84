import MitxOnline.Ecommerce.PendingResolution
import MitxOnline.Ecommerce.Proofs.PaymentsProofs

/-!
# What the resolution of pending orders accounts for

The results that the gateways give are for different orders, so every one of them gets a round of its own.
A round works on its order, if that is still pending, and adds one to one of the counts.
-/

namespace MitxOnline

open Autocommit

variable {f : OrderId → Faults} {cat : Catalog} {now : Instant} {g : GatewayAnswers} {s : Store}
  {refnos pending orders : List OrderId} {checkStatus skipFulfillment : Bool} {o : OrderId}
  {results : List RetrievedResult} {b : Buckets}

/-! ## Results -/

/-- The documented behaviour of `find_and_get_transactions`: it answers for reference numbers it was asked
for, each with the payload of that number. -/
structure GatewayAnswers.Documented (g : GatewayAnswers) : Prop where
  payloads : ∀ orders found, g.findAndGetTransactions orders = .ok found →
    ∀ entry ∈ found.entries, entry.1 ∈ orders ∧ entry.2.reqReferenceNumber = entry.1

/-- The results of Cybersource for some orders. -/
def cybersourceResults (g : GatewayAnswers) (orders : List OrderId) :
    Except Error (List RetrievedResult) :=
  if orders.length = 0 then .ok []
  else
    match g.findAndGetTransactions orders with
    | .error e => .error e
    | .ok found => .ok ((found.entries.map Prod.snd).map CybersourcePayload.result)

/-- The results of Stripe for some orders. -/
def stripeResults (g : GatewayAnswers) (s : Store) : List OrderId → Except Error (List RetrievedResult)
  | [] => .ok []
  | o :: orders =>
    match stripeResult g s o, stripeResults g s orders with
    | .error e, _ => .error e
    | .ok _, .error e => .error e
    | .ok r, .ok results => .ok (r.toList ++ results)

/-- All results, or the exception of a gateway. Without asking, every order counts as paid for. -/
def retrievedResults (g : GatewayAnswers) (s : Store) (pending : List OrderId) (checkStatus : Bool) :
    Except Error (List RetrievedResult) :=
  if checkStatus = true then
    match cybersourceResults g (pending.filter fun o => (s.order o).gatewayType == .cybersource),
      stripeResults g s (pending.filter fun o => (s.order o).gatewayType == .stripe) with
    | .error e, _ => .error e
    | .ok _, .error e => .error e
    | .ok cs, .ok stripe => .ok (cs ++ stripe)
  else .ok (pending.map fun o => ⟨o, true, adminFulfilledPaymentData⟩)

/-- The orders and payloads of results. -/
def payloads (results : List RetrievedResult) : List (OrderId × PaymentData) :=
  results.map fun r => (r.order, r.payload)

theorem payloads_orders (results : List RetrievedResult) :
    (payloads results).map Prod.fst = results.map (·.order) := by
  simp [payloads]

theorem payloads_append (a b : List RetrievedResult) :
    payloads (a ++ b) = payloads a ++ payloads b := by
  simp [payloads]

/-! ## Sorting -/

theorem foldl_sort (results : List RetrievedResult) (b : Buckets) :
    results.foldl Buckets.sort b =
      ⟨b.completed.setAll (payloads (results.filter (·.completed))),
        b.cancelled.setAll (payloads (results.filter (!·.completed)))⟩ := by
  induction results generalizing b with
  | nil => rfl
  | cons r results ih =>
    rw [List.foldl_cons, ih]
    unfold Buckets.sort
    cases hr : r.completed <;> simp [payloads, hr, Dict.setAll]

theorem retrievePendingCybersourceOrders_eq (g : GatewayAnswers) (orders : List OrderId) :
    retrievePendingCybersourceOrders g orders =
      (cybersourceResults g orders).map fun results => results.foldl Buckets.sort .empty := by
  unfold retrievePendingCybersourceOrders cybersourceResults
  split
  · rfl
  · cases g.findAndGetTransactions orders with
    | error e => rfl
    | ok found =>
      simp only [Except.map, List.foldl_map]

theorem retrievePendingStripeOrders_eq (g : GatewayAnswers) (s : Store) (orders : List OrderId)
    (b : Buckets) :
    retrievePendingStripeOrders g s orders b =
      (stripeResults g s orders).map fun results => results.foldl Buckets.sort b := by
  induction orders generalizing b with
  | nil => rfl
  | cons o orders ih =>
    unfold retrievePendingStripeOrders stripeResults
    rcases stripeResult g s o with e | _ | r
    · rfl
    · dsimp only
      rw [ih]
      cases stripeResults g s orders <;> rfl
    · dsimp only
      rw [ih]
      cases stripeResults g s orders <;> rfl

/-! ## Every result is for an order of its own -/

theorem stripeResult_order {r : RetrievedResult} (h : stripeResult g s o = .ok (some r)) :
    r.order = o := by
  unfold stripeResult at h
  grind

theorem stripeResults_orders (h : stripeResults g s orders = .ok results) :
    (results.map (·.order)).Sublist orders := by
  induction orders generalizing results with
  | nil =>
    cases h
    exact List.Sublist.refl _
  | cons o orders ih =>
    unfold stripeResults at h
    rcases hr : stripeResult g s o with e | _ | r <;> rw [hr] at h <;>
      rcases hrest : stripeResults g s orders with e' | rest <;> rw [hrest] at h <;> cases h
    · exact (ih hrest).cons o
    · rw [Option.toList_some, List.singleton_append, List.map_cons, stripeResult_order hr]
      exact (ih hrest).cons_cons o

theorem cybersourceResults_orders (hg : g.Documented) (h : cybersourceResults g orders = .ok results) :
    (results.map (·.order)).Nodup ∧ ∀ r ∈ results, r.order ∈ orders := by
  unfold cybersourceResults at h
  split at h
  · cases h
    simp
  · cases hfind : g.findAndGetTransactions orders with
    | error e =>
      rw [hfind] at h
      cases h
    | ok found =>
      rw [hfind] at h
      cases h
      have hentries := hg.payloads orders found hfind
      have horders : ((found.entries.map Prod.snd).map CybersourcePayload.result).map (·.order) =
          found.entries.map Prod.fst := by
        rw [List.map_map, List.map_map]
        exact List.map_congr_left fun entry hentry => (hentries entry hentry).2
      refine ⟨horders ▸ found.nodup, fun r hr => ?_⟩
      have hkey : r.order ∈ found.entries.map Prod.fst := horders ▸ List.mem_map_of_mem hr
      obtain ⟨entry, hentry, hkey⟩ := List.mem_map.mp hkey
      exact hkey ▸ (hentries entry hentry).1

theorem retrievedResults_orders (hg : g.Documented) (hpending : pending.Nodup)
    (h : retrievedResults g s pending checkStatus = .ok results) :
    (results.map (·.order)).Nodup ∧ ∀ r ∈ results, r.order ∈ pending := by
  unfold retrievedResults at h
  split at h
  · cases hcs : cybersourceResults g (pending.filter fun o => (s.order o).gatewayType == .cybersource) with
    | error e =>
      rw [hcs] at h
      cases h
    | ok cs =>
      cases hstripe : stripeResults g s (pending.filter fun o => (s.order o).gatewayType == .stripe) with
      | error e =>
        rw [hcs, hstripe] at h
        cases h
      | ok stripe =>
        rw [hcs, hstripe] at h
        cases h
        obtain ⟨hnodup, hasked⟩ := cybersourceResults_orders hg hcs
        have hsub := stripeResults_orders hstripe
        have hcybersource : ∀ r ∈ cs, r.order ∈ pending ∧ (s.order r.order).gatewayType = .cybersource := by
          intro r hr
          simpa using hasked r hr
        have hof : ∀ r ∈ stripe, r.order ∈ pending ∧ (s.order r.order).gatewayType = .stripe := by
          intro r hr
          simpa using hsub.mem (List.mem_map_of_mem hr)
        constructor
        · rw [List.map_append, List.nodup_append]
          refine ⟨hnodup, hsub.nodup (hpending.filter _), ?_⟩
          rintro _ ha _ hb rfl
          obtain ⟨r, hr, hro⟩ := List.mem_map.mp ha
          obtain ⟨r', hr', hro'⟩ := List.mem_map.mp hb
          have htype := (hcybersource r hr).2
          have htype' := (hof r' hr').2
          rw [hro, ← hro', htype'] at htype
          cases htype
        · intro r hr
          rcases List.mem_append.mp hr with hr | hr
          · exact (hcybersource r hr).1
          · exact (hof r hr).1
  · cases h
    refine ⟨?_, ?_⟩
    · rw [List.map_map]
      simpa [Function.comp_def] using hpending
    · intro r hr
      obtain ⟨o, ho, rfl⟩ := List.mem_map.mp hr
      exact ho

/-- Sorting the results of two gateways and merging the buckets sorts all results. -/
theorem merge_sorted (cs stripe : List RetrievedResult)
    (hnodup : ((cs ++ stripe).map (·.order)).Nodup) :
    ((cs.foldl Buckets.sort .empty).merge (stripe.foldl Buckets.sort .empty)).completed.entries =
        payloads ((cs ++ stripe).filter (·.completed)) ∧
      ((cs.foldl Buckets.sort .empty).merge (stripe.foldl Buckets.sort .empty)).cancelled.entries =
        payloads ((cs ++ stripe).filter (!·.completed)) := by
  have hpart : ∀ p : RetrievedResult → Bool,
      ((payloads (cs.filter p) ++ payloads (stripe.filter p)).map Prod.fst).Nodup := by
    intro p
    rw [← payloads_append, ← List.filter_append, payloads_orders]
    exact hnodup.sublist (List.filter_sublist.map _)
  rw [foldl_sort, foldl_sort, List.filter_append, List.filter_append, payloads_append,
    payloads_append]
  exact ⟨Dict.merge_entries _ _ (hpart _), Dict.merge_entries _ _ (hpart _)⟩

/-- The two dictionaries hold the results, those that are paid for and those that are cancelled. -/
theorem ordersToResolve_entries (h : retrievedResults g s pending checkStatus = .ok results)
    (hnodup : (results.map (·.order)).Nodup) :
    ∃ b, ordersToResolve g s pending checkStatus = .ok b ∧
      b.completed.entries = payloads (results.filter (·.completed)) ∧
      b.cancelled.entries = payloads (results.filter (!·.completed)) := by
  unfold retrievedResults at h
  unfold ordersToResolve
  split
  · rename_i hcheck
    rw [if_pos hcheck] at h
    rw [retrievePendingCybersourceOrders_eq, retrievePendingStripeOrders_eq]
    rcases hcs : cybersourceResults g _ with e | cs <;> rw [hcs] at h
    · cases h
    · rcases hstripe : stripeResults g s _ with e | stripe <;> rw [hstripe] at h <;> cases h
      exact ⟨_, rfl, merge_sorted cs stripe hnodup⟩
  · rename_i hcheck
    rw [if_neg hcheck] at h
    cases h
    have hpaid : ∀ r ∈ pending.map fun o => RetrievedResult.mk o true adminFulfilledPaymentData,
        r.completed = true := by
      intro r hr
      obtain ⟨o, -, rfl⟩ := List.mem_map.mp hr
      rfl
    have hadmin : payloads (pending.map fun o => ⟨o, true, adminFulfilledPaymentData⟩) =
        pending.map fun o => (o, adminFulfilledPaymentData) := by
      rw [payloads, List.map_map]
      rfl
    refine ⟨_, rfl, ?_, ?_⟩
    · rw [List.filter_eq_self.mpr hpaid, hadmin]
      refine Dict.setAll_entries _ _ ?_
      rw [← hadmin, payloads_orders]
      exact hnodup
    · rw [List.filter_eq_nil_iff.mpr fun r hr => by simp [hpaid r hr]]
      rfl

theorem ordersToResolve_error {e : Error}
    (h : retrievedResults g s pending checkStatus = .error e) :
    ordersToResolve g s pending checkStatus = .error e := by
  unfold retrievedResults at h
  unfold ordersToResolve
  split
  · rename_i hcheck
    rw [if_pos hcheck] at h
    rw [retrievePendingCybersourceOrders_eq, retrievePendingStripeOrders_eq]
    rcases hcs : cybersourceResults g _ with e' | cs <;> rw [hcs] at h
    · cases h
      rfl
    · rcases hstripe : stripeResults g s _ with e' | stripe <;> rw [hstripe] at h <;> cases h
      rfl
  · rename_i hcheck
    rw [if_neg hcheck] at h
    cases h

/-! ## Rounds -/

/-- The state of an order that was resolved. -/
def ResolutionKind.target : ResolutionKind → OrderStatus
  | .fulfillment => .fulfilled
  | .cancellation => .canceled

/-- The round that a message is about. -/
def ResolutionMessage.round : ResolutionMessage → ResolutionKind × OrderId
  | .resolved kind o => (kind, o)
  | .failed kind o => (kind, o)

/-- The message says that the order was resolved. -/
def ResolutionMessage.isResolved (kind : ResolutionKind) : ResolutionMessage → Bool
  | .resolved kind' _ => kind' == kind
  | .failed _ _ => false

/-- The message says that an exception ended the round. -/
def ResolutionMessage.isFailed : ResolutionMessage → Bool
  | .resolved _ _ => false
  | .failed _ _ => true

/-- Some rounds were made, about which there are these messages: they are counted, only pending orders of
theirs were changed, and those that are resolved have the state they were to get. -/
structure RoundsMade (rounds : List (ResolutionKind × OrderId)) (messages : List ResolutionMessage)
    (acc acc' : Resolution) : Prop where
  log : acc'.log = acc.log ++ messages
  about : messages.map ResolutionMessage.round = rounds
  fulfilledCount : acc'.fulfilledCount =
    acc.fulfilledCount + messages.countP (·.isResolved .fulfillment)
  cancelCount : acc'.cancelCount = acc.cancelCount + messages.countP (·.isResolved .cancellation)
  errorCount : acc'.errorCount = acc.errorCount + messages.countP (·.isFailed)
  keys : acc'.store.orders.keys = acc.store.orders.keys
  others : ∀ o, o ∉ rounds.map Prod.snd → acc'.store.order o = acc.store.order o
  pending : ∀ o, acc'.store.order o ≠ acc.store.order o →
    o ∈ acc.store.orders.keys ∧ (acc.store.order o).state = .pending
  target : ∀ kind o, .resolved kind o ∈ messages → (acc'.store.order o).state = kind.target

theorem roundsMade_nil (acc : Resolution) : RoundsMade [] [] acc acc :=
  ⟨by simp, rfl, rfl, rfl, rfl, rfl, fun _ _ => rfl, fun _ h => absurd rfl h, by simp⟩

/-- A round and the rounds after it, which are for other orders. -/
theorem RoundsMade.trans {kind : ResolutionKind} {rounds : List (ResolutionKind × OrderId)}
    {message : ResolutionMessage} {messages : List ResolutionMessage} {acc acc₁ acc₂ : Resolution}
    (h : RoundsMade [(kind, o)] [message] acc acc₁) (hrest : RoundsMade rounds messages acc₁ acc₂)
    (hnew : o ∉ rounds.map Prod.snd) :
    RoundsMade ((kind, o) :: rounds) (message :: messages) acc acc₂ := by
  have habout : message.round = (kind, o) := by simpa using h.about
  constructor
  · rw [hrest.log, h.log, List.append_assoc, List.singleton_append]
  · rw [List.map_cons, habout, hrest.about]
  · rw [hrest.fulfilledCount, h.fulfilledCount, List.countP_cons, List.countP_cons, List.countP_nil]
    omega
  · rw [hrest.cancelCount, h.cancelCount, List.countP_cons, List.countP_cons, List.countP_nil]
    omega
  · rw [hrest.errorCount, h.errorCount, List.countP_cons, List.countP_cons, List.countP_nil]
    omega
  · rw [hrest.keys, h.keys]
  · intro o' ho'
    rw [List.map_cons, List.mem_cons, not_or] at ho'
    rw [hrest.others o' ho'.2, h.others o' (by simpa using ho'.1)]
  · intro o' hchanged
    by_cases hsame : o' = o
    · subst hsame
      rw [hrest.others o' hnew] at hchanged
      exact h.pending o' hchanged
    · have hfirst : acc₁.store.order o' = acc.store.order o' := h.others o' (by simpa using hsame)
      rw [← hfirst] at hchanged ⊢
      rw [← h.keys]
      exact hrest.pending o' hchanged
  · intro kind' o' hmem
    rcases List.mem_cons.mp hmem with hhead | hmem
    · have hround : (kind', o') = (kind, o) := by rw [← habout, ← hhead]; rfl
      cases hround
      rw [hrest.others _ hnew]
      exact h.target _ _ (List.mem_singleton.mpr hhead)
    · exact hrest.target kind' o' hmem

theorem resolveCode_touchesOnly (f : Faults) (kind : ResolutionKind) (payload : PaymentData) :
    Keeps (TouchesOnly o) (resolveCode f cat now skipFulfillment kind o payload) := by
  have hr := touchesOnly_frame o
  cases kind with
  | fulfillment =>
    exact keeps_seq_cons hr (fulfill_touchesOnly _ false)
      (keeps_seq_cons hr (keeps_mayFail hr) (keeps_seq_nil hr))
  | cancellation =>
    exact keeps_seq_cons hr (cancel_touchesOnly _)
      (keeps_seq_cons hr (keeps_mayFail hr) (keeps_seq_nil hr))

theorem callTransition_target {f : Faults} {t : StateFlow.Transition OrderStatus} {body : Code}
    (h : (seq [callTransition f t o body, mayFail f .syncHubspotDeal] s).error = none) :
    ((seq [callTransition f t o body, mayFail f .syncHubspotDeal] s).state.order o).state =
      t.target := by
  have hreturns := (seq_cons_error h).1
  rw [order_of_ordersKept (syncHubspotDeal_orders _ s)]
  rcases callTransition_cases f t o body s with ⟨-, hrefused⟩ | ⟨-, -, -, hraises⟩ | ⟨-, hdone⟩
  · rw [hrefused] at hreturns
    cases hreturns
  · exact absurd hreturns hraises
  · rw [hdone]
    simp

theorem resolveCode_target {f : Faults} {kind : ResolutionKind} {payload : PaymentData}
    (h : (resolveCode f cat now skipFulfillment kind o payload s).error = none) :
    ((resolveCode f cat now skipFulfillment kind o payload s).state.order o).state = kind.target := by
  cases kind with
  | fulfillment => exact callTransition_target h
  | cancellation => exact callTransition_target h

/-- The rounds without their counts are those in which payments reach orders. -/
theorem attempt_resolvePending (f : Faults) (payload : PaymentData) :
    attempt (resolvePending o (resolveCode f cat now skipFulfillment .fulfillment o payload)) =
        resolveSuccess f cat now skipFulfillment o payload ∧
      attempt (resolvePending o (resolveCode f cat now skipFulfillment .cancellation o payload)) =
        resolveCancel f o payload :=
  ⟨rfl, rfl⟩

/-- A code that works on one order works on it only if it is there and pending. -/
theorem resolvePending_touchesOnly {code : Code} (h : Keeps (TouchesOnly o) code) :
    Keeps (TouchesOnly o) (resolvePending o code) := by
  intro s
  unfold resolvePending
  split
  · exact h s
  · exact (touchesOnly_frame o).refl s

theorem resolvePending_changed {code : Code} (h : Keeps (TouchesOnly o) code) {o' : OrderId}
    (hchanged : (resolvePending o code s).state.order o' ≠ s.order o') :
    o' ∈ s.orders.keys ∧ (s.order o').state = .pending := by
  have hsame : o' = o := by
    by_contra hne
    exact hchanged ((resolvePending_touchesOnly h s).others o' hne)
  subst hsame
  by_contra hnot
  rw [resolvePending, if_neg hnot] at hchanged
  exact hchanged rfl

theorem resolvePending_of_returns {code : Code} (h : (resolvePending o code s).error = none) :
    resolvePending o code s = code s := by
  unfold resolvePending at h ⊢
  split
  · rfl
  · rename_i hnot
    rw [if_neg hnot] at h
    cases h

/-- A round. -/
theorem resolutionRound_made (kind : ResolutionKind) (acc : Resolution)
    (r : OrderId × PaymentData) :
    ∃ message, RoundsMade [(kind, r.1)] [message] acc
      (resolutionRound f cat now skipFulfillment kind acc r) := by
  obtain ⟨o, payload⟩ := r
  dsimp only
  have hcode : Keeps (TouchesOnly o) (resolveCode (f o) cat now skipFulfillment kind o payload) :=
    resolveCode_touchesOnly (f o) kind payload
  have htouches := resolvePending_touchesOnly hcode acc.store
  have hpending : ∀ o', (resolvePending o
      (resolveCode (f o) cat now skipFulfillment kind o payload) acc.store).state.order o' ≠
        acc.store.order o' → o' ∈ acc.store.orders.keys ∧ (acc.store.order o').state = .pending :=
    fun _ => resolvePending_changed hcode
  have hothers : ∀ o', o' ∉ [(kind, o)].map Prod.snd → (resolvePending o
      (resolveCode (f o) cat now skipFulfillment kind o payload) acc.store).state.order o' =
        acc.store.order o' := by
    intro o' ho'
    exact htouches.others o' (by simpa using ho')
  unfold resolutionRound
  dsimp only
  cases herror : (resolvePending o
      (resolveCode (f o) cat now skipFulfillment kind o payload) acc.store).error with
  | none =>
    have hrun := resolvePending_of_returns herror
    have htargets : ∀ kind' o', ResolutionMessage.resolved kind' o' ∈ [.resolved kind o] →
        ((resolvePending o (resolveCode (f o) cat now skipFulfillment kind o payload)
          acc.store).state.order o').state = kind'.target := by
      intro kind' o' hmem
      cases List.mem_singleton.mp hmem
      rw [hrun] at herror ⊢
      exact resolveCode_target herror
    refine ⟨.resolved kind o, ?_⟩
    cases kind <;>
      exact ⟨rfl, rfl, rfl, rfl, rfl, htouches.keys, hothers, hpending, htargets⟩
  | some e =>
    refine ⟨.failed kind o, rfl, rfl, rfl, rfl, rfl, htouches.keys, hothers, hpending, ?_⟩
    simp

variable (f cat now skipFulfillment) in
/-- The rounds of both loops, one after the other. -/
theorem foldl_resolutionRound_made (rounds : List (ResolutionKind × OrderId × PaymentData))
    (hnodup : (rounds.map fun r => r.2.1).Nodup) (acc : Resolution) :
    ∃ messages, RoundsMade (rounds.map fun r => (r.1, r.2.1)) messages acc
      (rounds.foldl (fun acc r => resolutionRound f cat now skipFulfillment r.1 acc r.2) acc) := by
  induction rounds generalizing acc with
  | nil => exact ⟨[], roundsMade_nil acc⟩
  | cons r rounds ih =>
    rw [List.map_cons, List.nodup_cons] at hnodup
    obtain ⟨message, hfirst⟩ := resolutionRound_made r.1 acc r.2
    obtain ⟨messages, hrest⟩ := ih hnodup.2 (resolutionRound f cat now skipFulfillment r.1 acc r.2)
    refine ⟨message :: messages, hfirst.trans hrest ?_⟩
    rw [List.map_map]
    exact hnodup.1

/-! ## The resolution -/

/-- The order that a message is about. -/
def ResolutionMessage.order (message : ResolutionMessage) : OrderId := message.round.2

/-- The counts add up to the number of results, each of which was handled once; only pending orders that
were requested have changed; and an order that counts as fulfilled or as cancelled is left so, and does
not count as the other. -/
structure AccountsForResults (s : Store) (refnos : List OrderId) (results : List RetrievedResult)
    (res : Resolution) : Prop where
  counted : res.fulfilledCount + res.cancelCount + res.errorCount = results.length
  handled : (res.log.map ResolutionMessage.order).Perm (results.map (·.order))
  handledOnce : (res.log.map ResolutionMessage.order).Nodup
  fulfilled : res.fulfilledCount = res.log.countP (·.isResolved .fulfillment)
  cancelled : res.cancelCount = res.log.countP (·.isResolved .cancellation)
  errored : res.errorCount = res.log.countP (·.isFailed)
  changed : ∀ o, res.store.order o ≠ s.order o →
    o ∈ s.orders.keys ∧ (s.order o).state = .pending ∧ (refnos = [] ∨ o ∈ refnos)
  left : ∀ kind o, .resolved kind o ∈ res.log → (res.store.order o).state = kind.target
  notBoth : ∀ o, ¬(.resolved .fulfillment o ∈ res.log ∧ .resolved .cancellation o ∈ res.log)

theorem messages_counted (messages : List ResolutionMessage) :
    messages.countP (·.isResolved .fulfillment) + messages.countP (·.isResolved .cancellation) +
      messages.countP (·.isFailed) = messages.length := by
  induction messages with
  | nil => rfl
  | cons message messages ih =>
    rw [List.countP_cons, List.countP_cons, List.countP_cons, List.length_cons]
    have hone : ((if message.isResolved .fulfillment = true then 1 else 0) +
        (if message.isResolved .cancellation = true then 1 else 0) +
          if message.isFailed = true then 1 else 0) = 1 := by
      rcases message with ⟨kind, o⟩ | ⟨kind, o⟩
      · cases kind <;> rfl
      · rfl
    omega

theorem mem_pendingOrders : o ∈ pendingOrders s refnos ↔
    o ∈ s.orders.keys ∧ (s.order o).state = .pending ∧ (refnos = [] ∨ o ∈ refnos) := by
  unfold pendingOrders
  rw [List.mem_filter]
  simp

theorem pendingOrders_nodup (s : Store) (refnos : List OrderId) : (pendingOrders s refnos).Nodup :=
  s.orders.keys_nodup.filter _

/-- The rounds of the two loops. -/
def roundsOf (results : List RetrievedResult) : List (ResolutionKind × OrderId × PaymentData) :=
  (payloads (results.filter (·.completed))).map (fun r => (.fulfillment, r)) ++
    (payloads (results.filter (!·.completed))).map fun r => (.cancellation, r)

theorem roundsOf_orders (results : List RetrievedResult) :
    ((roundsOf results).map fun r => r.2.1).Perm (results.map (·.order)) := by
  have horders : (roundsOf results).map (fun r => r.2.1) =
      (results.filter (·.completed) ++ results.filter (!·.completed)).map (·.order) := by
    simp [roundsOf, payloads, Function.comp_def]
  rw [horders]
  exact (List.filter_append_perm _ results).map _

/-- Without pending orders there is nothing to ask and to resolve. -/
theorem resolvePendingOrders_eq (f : OrderId → Faults) (cat : Catalog) (now : Instant)
    (g : GatewayAnswers) (refnos : List OrderId) (checkStatus skipFulfillment : Bool) (s : Store) :
    resolvePendingOrders f cat now g refnos checkStatus skipFulfillment s =
      (ordersToResolve g s (pendingOrders s refnos) checkStatus).map fun b =>
        b.cancelled.entries.foldl (resolutionRound f cat now skipFulfillment .cancellation)
          (b.completed.entries.foldl (resolutionRound f cat now skipFulfillment .fulfillment)
            ⟨s, 0, 0, 0, []⟩) := by
  unfold resolvePendingOrders
  split
  · rename_i hnone
    rw [List.length_eq_zero_iff.mp hnone]
    cases checkStatus <;> rfl
  · cases ordersToResolve g s (pendingOrders s refnos) checkStatus <;> rfl

variable (f cat now skipFulfillment) in
/-- The two loops make the rounds of the results. -/
theorem foldl_entries_made (hnodup : (results.map (·.order)).Nodup)
    (hcompleted : b.completed.entries = payloads (results.filter (·.completed)))
    (hcancelled : b.cancelled.entries = payloads (results.filter (!·.completed)))
    (acc : Resolution) :
    ∃ messages, RoundsMade ((roundsOf results).map fun r => (r.1, r.2.1)) messages acc
      (b.cancelled.entries.foldl (resolutionRound f cat now skipFulfillment .cancellation)
        (b.completed.entries.foldl (resolutionRound f cat now skipFulfillment .fulfillment) acc)) := by
  have hloops : b.cancelled.entries.foldl (resolutionRound f cat now skipFulfillment .cancellation)
      (b.completed.entries.foldl (resolutionRound f cat now skipFulfillment .fulfillment) acc) =
      (roundsOf results).foldl
        (fun acc r => resolutionRound f cat now skipFulfillment r.1 acc r.2) acc := by
    rw [roundsOf, List.foldl_append, List.foldl_map, List.foldl_map, hcompleted, hcancelled]
  rw [hloops]
  exact foldl_resolutionRound_made f cat now skipFulfillment (roundsOf results)
    ((roundsOf_orders results).nodup_iff.mpr hnodup) acc

/-- The rounds of some results for different pending orders account for them. -/
theorem accountsForResults_of_made {messages : List ResolutionMessage} {res : Resolution}
    (hnodup : (results.map (·.order)).Nodup)
    (hasked : ∀ r ∈ results, r.order ∈ pendingOrders s refnos)
    (hmade : RoundsMade ((roundsOf results).map fun r => (r.1, r.2.1)) messages ⟨s, 0, 0, 0, []⟩ res) :
    AccountsForResults s refnos results res := by
  have hperm := roundsOf_orders results
  have hlog := hmade.log
  rw [List.nil_append] at hlog
  have horders : (messages.map ResolutionMessage.order).Perm (results.map (·.order)) := by
    have habout : messages.map ResolutionMessage.order =
        (messages.map ResolutionMessage.round).map Prod.snd := by
      rw [List.map_map]
      rfl
    rw [habout, hmade.about, List.map_map]
    exact hperm
  have honce : (messages.map ResolutionMessage.order).Nodup := horders.nodup_iff.mpr hnodup
  have hfulfilled := hmade.fulfilledCount
  have hcancel := hmade.cancelCount
  have herror := hmade.errorCount
  rw [Nat.zero_add] at hfulfilled hcancel herror
  constructor
  · rw [hfulfilled, hcancel, herror, messages_counted, ← List.length_map (f := ResolutionMessage.order),
      horders.length_eq, List.length_map]
  · rw [hlog]
    exact horders
  · rw [hlog]
    exact honce
  · rw [hlog]
    exact hfulfilled
  · rw [hlog]
    exact hcancel
  · rw [hlog]
    exact herror
  · intro o hchanged
    have hround : o ∈ ((roundsOf results).map fun r => (r.1, r.2.1)).map Prod.snd := by
      by_contra hnot
      exact hchanged (hmade.others o hnot)
    rw [List.map_map] at hround
    obtain ⟨r, hr, rfl⟩ := List.mem_map.mp (hperm.mem_iff.mp hround)
    exact mem_pendingOrders.mp (hasked r hr)
  · intro kind o hmem
    rw [hlog] at hmem
    exact hmade.target kind o hmem
  · rintro o ⟨hfulfilled, hcancelled⟩
    rw [hlog] at hfulfilled hcancelled
    have hsame := List.inj_on_of_nodup_map honce hfulfilled hcancelled rfl
    cases hsame

/-- Whatever the gateways answer, the resolution accounts for their results, and it raises only if they
do. -/
theorem resolution_accounts (hg : g.Documented) (f : OrderId → Faults) (cat : Catalog) (now : Instant)
    (refnos : List OrderId) (checkStatus skipFulfillment : Bool) (s : Store) :
    (∀ e, retrievedResults g s (pendingOrders s refnos) checkStatus = .error e →
      resolvePendingOrders f cat now g refnos checkStatus skipFulfillment s = .error e) ∧
    ∀ results, retrievedResults g s (pendingOrders s refnos) checkStatus = .ok results →
      ∃ res, resolvePendingOrders f cat now g refnos checkStatus skipFulfillment s = .ok res ∧
        AccountsForResults s refnos results res := by
  rw [resolvePendingOrders_eq]
  constructor
  · intro e h
    rw [ordersToResolve_error h]
    rfl
  · intro results h
    obtain ⟨hnodup, hasked⟩ := retrievedResults_orders hg (pendingOrders_nodup s refnos) h
    obtain ⟨b, hb, hcompleted, hcancelled⟩ := ordersToResolve_entries h hnodup
    obtain ⟨messages, hmade⟩ := foldl_entries_made f cat now skipFulfillment hnodup hcompleted
      hcancelled ⟨s, 0, 0, 0, []⟩
    rw [hb]
    exact ⟨_, rfl, accountsForResults_of_made hnodup hasked hmade⟩

/-- A gateway that knows a payment for order 1. -/
def onePayment : GatewayAnswers where
  findAndGetTransactions orders :=
    if 1 ∈ orders then .ok ⟨[(1, ⟨1, 100, zeroPaymentData⟩)], List.nodup_singleton 1⟩ else .ok .empty
  retrieve _ := .error .connectionError

theorem onePayment_documented : onePayment.Documented := by
  constructor
  intro orders found hfound entry hentry
  unfold onePayment at hfound
  dsimp only at hfound
  split at hfound
  · rename_i hasked
    cases hfound
    obtain rfl := List.mem_singleton.mp hentry
    exact ⟨hasked, rfl⟩
  · cases hfound
    cases hentry

/-- A pending order at Cybersource. -/
def pendingCybersourceOrder : Order := Order.new 1 .cybersource

theorem resolution_accounts_onePayment :
    ∃ res, resolvePendingOrders (fun _ => Faults.none) hundredDollarCatalog 0 onePayment [] true false
        (storeWith pendingCybersourceOrder) = .ok res ∧
      AccountsForResults (storeWith pendingCybersourceOrder) [] [⟨1, true, zeroPaymentData⟩] res :=
  (resolution_accounts onePayment_documented (fun _ => Faults.none) hundredDollarCatalog 0 [] true false
    (storeWith pendingCybersourceOrder)).2 _ rfl

end MitxOnline

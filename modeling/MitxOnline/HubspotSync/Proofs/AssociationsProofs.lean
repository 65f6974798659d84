import MitxOnline.HubspotSync.Associations
import MitxOnline.Lib.Batches

/-!
# Which associations are sent

Every association is added to a batch. The batches are sent when one of them is full and after each line of
the last order; if that has no lines, what came after the last full batch is not sent.
-/

namespace MitxOnline

open Batches

variable {ids : HubspotIds} {s : Store} {orderIds : List OrderId} {requests : List AssociationRequest}
  {b : Lanes PublicAssociation PublicAssociation} {a : PublicAssociation} {o : OrderId}

/-- The association is in a request for the types of its two objects. -/
def Submitted (requests : List AssociationRequest) (a : PublicAssociation) : Prop :=
  match a.type with
  | .lineDeal => ∃ inputs, ⟨.lines, .deals, inputs⟩ ∈ requests ∧ a ∈ inputs
  | .dealContact => ∃ inputs, ⟨.deals, .contacts, inputs⟩ ∈ requests ∧ a ∈ inputs

/-- A line of one of the orders and its deal, or a deal with a line and its contact, all of known ids. -/
inductive Wanted (ids : HubspotIds) (s : Store) (orderIds : List OrderId) : PublicAssociation → Prop where
  | lineDeal {o : OrderId} {l : Line} {lineId dealId : HubspotId} (ho : o ∈ orderIds)
    (hl : l ∈ (s.order o).lines.rows) (hline : ids.line o l = some lineId) (hdeal : ids.deal o = some dealId) :
    Wanted ids s orderIds ⟨lineId, dealId, .lineDeal⟩
  | dealContact {o : OrderId} {dealId contactId : HubspotId} (ho : o ∈ orderIds)
    (hlines : (s.order o).lines.rows ≠ []) (hdeal : ids.deal o = some dealId)
    (hcontact : ids.contact (s.order o).purchaser = some contactId) :
    Wanted ids s orderIds ⟨dealId, contactId, .dealContact⟩

/-- Exactly the wanted associations are sent, at most a hundred at a time. -/
structure LosesNothing (ids : HubspotIds) (s : Store) (orderIds : List OrderId)
    (requests : List AssociationRequest) : Prop where
  submitted : ∀ a, Wanted ids s orderIds a → Submitted requests a
  wanted : ∀ request ∈ requests, ∀ a ∈ request.inputs, Wanted ids s orderIds a
  atMost : ∀ request ∈ requests, request.inputs.length ≤ 100

/-- The lines of the orders, in the order in which the loops come to them. -/
def allLines (s : Store) (orderIds : List OrderId) : List (OrderId × Line) := orderIds.flatMap (dealLines s)

/-- No association is found only after the last full batch. -/
def RestRepeats (ids : HubspotIds) (s : Store) (orderIds : List OrderId) : Prop :=
  ∃ before rest, allLines s orderIds = before ++ rest ∧
    FillsBatches 100 (contactAssociation ids s) (lineAssociation ids) before ∧
    FillsNone 100 (contactAssociation ids s) (lineAssociation ids) rest ∧
    (∀ a ∈ rest.filterMap (contactAssociation ids s), a ∈ before.filterMap (contactAssociation ids s)) ∧
    ∀ a ∈ rest.filterMap (lineAssociation ids), a ∈ before.filterMap (lineAssociation ids)

/-! ## What is wanted -/

theorem mem_allLines {l : Line} : (o, l) ∈ allLines s orderIds ↔
    o ∈ orderIds ∧ l ∈ (s.order o).lines.rows := by
  simp [allLines, dealLines, and_left_comm]

theorem contactAssociation_eq_some {l : OrderId × Line} : contactAssociation ids s l = some a ↔
    ∃ contactId dealId, ids.contact (s.order l.1).purchaser = some contactId ∧ ids.deal l.1 = some dealId ∧
      a = ⟨dealId, contactId, .dealContact⟩ := by
  unfold contactAssociation
  rcases ids.contact (s.order l.1).purchaser with _ | contactId
  · simp
  · rcases ids.deal l.1 with _ | dealId <;> simp [eq_comm]

theorem lineAssociation_eq_some {l : OrderId × Line} : lineAssociation ids l = some a ↔
    ∃ lineId dealId, ids.line l.1 l.2 = some lineId ∧ ids.deal l.1 = some dealId ∧
      a = ⟨lineId, dealId, .lineDeal⟩ := by
  unfold lineAssociation
  rcases ids.line l.1 l.2 with _ | lineId
  · simp
  · rcases ids.deal l.1 with _ | dealId <;> simp [eq_comm]

/-- What is wanted is what the lines add to the batches. -/
theorem wanted_iff : Wanted ids s orderIds a ↔
    a ∈ (allLines s orderIds).filterMap (contactAssociation ids s) ∨
      a ∈ (allLines s orderIds).filterMap (lineAssociation ids) := by
  simp only [List.mem_filterMap, Prod.exists]
  constructor
  · rintro (⟨ho, hl, hline, hdeal⟩ | ⟨ho, hlines, hdeal, hcontact⟩)
    · exact .inr ⟨_, _, mem_allLines.mpr ⟨ho, hl⟩, lineAssociation_eq_some.mpr ⟨_, _, hline, hdeal, rfl⟩⟩
    · obtain ⟨l, hl⟩ := List.exists_mem_of_ne_nil _ hlines
      exact .inl ⟨_, l, mem_allLines.mpr ⟨ho, hl⟩,
        contactAssociation_eq_some.mpr ⟨_, _, hcontact, hdeal, rfl⟩⟩
  · rintro (⟨o, l, hmem, ha⟩ | ⟨o, l, hmem, ha⟩)
    · obtain ⟨ho, hl⟩ := mem_allLines.mp hmem
      obtain ⟨contactId, dealId, hcontact, hdeal, rfl⟩ := contactAssociation_eq_some.mp ha
      exact .dealContact ho (List.ne_nil_of_mem hl) hdeal hcontact
    · obtain ⟨ho, hl⟩ := mem_allLines.mp hmem
      obtain ⟨lineId, dealId, hline, hdeal, rfl⟩ := lineAssociation_eq_some.mp ha
      exact .lineDeal ho hl hline hdeal

/-! ## What is sent -/

theorem mem_sendBatches {flushed : List (List PublicAssociation × List PublicAssociation)}
    {request : AssociationRequest} : request ∈ flushed.flatMap sendBatches ↔ ∃ batches ∈ flushed,
      request = ⟨.lines, .deals, batches.2⟩ ∨ request = ⟨.deals, .contacts, batches.1⟩ := by
  simp [sendBatches]

/-- The associations of contacts are sent with the first batch of a pair, those of lines with the second. -/
theorem submitted_iff {flushed : List (List PublicAssociation × List PublicAssociation)} :
    Submitted (flushed.flatMap sendBatches) a ↔
      match a.type with
      | .lineDeal => a ∈ flushed.flatMap (·.2)
      | .dealContact => a ∈ flushed.flatMap (·.1) := by
  unfold Submitted
  cases a.type with
  | lineDeal =>
    constructor
    · rintro ⟨inputs, hrequest, ha⟩
      obtain ⟨batches, hbatches, h | h⟩ := mem_sendBatches.mp hrequest
      · cases h
        exact List.mem_flatMap.mpr ⟨batches, hbatches, ha⟩
      · cases h
    · intro h
      obtain ⟨batches, hbatches, ha⟩ := List.mem_flatMap.mp h
      exact ⟨batches.2, mem_sendBatches.mpr ⟨batches, hbatches, .inl rfl⟩, ha⟩
  | dealContact =>
    constructor
    · rintro ⟨inputs, hrequest, ha⟩
      obtain ⟨batches, hbatches, h | h⟩ := mem_sendBatches.mp hrequest
      · cases h
      · cases h
        exact List.mem_flatMap.mpr ⟨batches, hbatches, ha⟩
    · intro h
      obtain ⟨batches, hbatches, ha⟩ := List.mem_flatMap.mp h
      exact ⟨batches.1, mem_sendBatches.mpr ⟨batches, hbatches, .inr rfl⟩, ha⟩

theorem type_of_contactAssociation {lines : List (OrderId × Line)}
    (h : a ∈ lines.filterMap (contactAssociation ids s)) : a.type = .dealContact := by
  obtain ⟨l, -, ha⟩ := List.mem_filterMap.mp h
  obtain ⟨contactId, dealId, -, -, rfl⟩ := contactAssociation_eq_some.mp ha
  rfl

theorem type_of_lineAssociation {lines : List (OrderId × Line)}
    (h : a ∈ lines.filterMap (lineAssociation ids)) : a.type = .lineDeal := by
  obtain ⟨l, -, ha⟩ := List.mem_filterMap.mp h
  obtain ⟨lineId, dealId, -, -, rfl⟩ := lineAssociation_eq_some.mp ha
  rfl

/-- Nothing is lost exactly if all that was added to the batches was sent. -/
theorem losesNothing_iff_flushed (hwithin : b.Within 100)
    (hfirsts : b.firsts = (allLines s orderIds).filterMap (contactAssociation ids s))
    (hseconds : b.seconds = (allLines s orderIds).filterMap (lineAssociation ids)) :
    LosesNothing ids s orderIds (b.flushed.flatMap sendBatches) ↔
      (∀ a ∈ b.first, a ∈ b.flushed.flatMap (·.1)) ∧ ∀ a ∈ b.second, a ∈ b.flushed.flatMap (·.2) := by
  constructor
  · intro h
    refine ⟨fun a ha => ?_, fun a ha => ?_⟩
    · have hmem : a ∈ (allLines s orderIds).filterMap (contactAssociation ids s) :=
        hfirsts ▸ List.mem_append_right _ ha
      have hsubmitted := submitted_iff.mp (h.submitted a (wanted_iff.mpr (.inl hmem)))
      rwa [type_of_contactAssociation hmem] at hsubmitted
    · have hmem : a ∈ (allLines s orderIds).filterMap (lineAssociation ids) :=
        hseconds ▸ List.mem_append_right _ ha
      have hsubmitted := submitted_iff.mp (h.submitted a (wanted_iff.mpr (.inr hmem)))
      rwa [type_of_lineAssociation hmem] at hsubmitted
  · rintro ⟨hfirst, hsecond⟩
    refine ⟨fun a ha => ?_, fun request hrequest a ha => ?_, fun request hrequest => ?_⟩
    · rw [submitted_iff]
      rcases wanted_iff.mp ha with hmem | hmem
      · rw [type_of_contactAssociation hmem]
        rw [← hfirsts] at hmem
        exact (List.mem_append.mp hmem).elim id (hfirst a)
      · rw [type_of_lineAssociation hmem]
        rw [← hseconds] at hmem
        exact (List.mem_append.mp hmem).elim id (hsecond a)
    · rw [wanted_iff, ← hfirsts, ← hseconds]
      obtain ⟨batches, hbatches, rfl | rfl⟩ := mem_sendBatches.mp hrequest
      · exact .inr (List.mem_append_left _ (List.mem_flatMap.mpr ⟨batches, hbatches, ha⟩))
      · exact .inl (List.mem_append_left _ (List.mem_flatMap.mpr ⟨batches, hbatches, ha⟩))
    · obtain ⟨batches, hbatches, rfl | rfl⟩ := mem_sendBatches.mp hrequest
      · exact (hwithin.flushed batches hbatches).2
      · exact (hwithin.flushed batches hbatches).1

/-! ## The loop over the orders -/

/-- The last order is the only one whose lines are all followed by a request. -/
theorem addDeals_concat (front : List OrderId) (last : OrderId) :
    addDeals ids s b (front ++ [last]) =
      addDeal ids s true ((allLines s front).foldl
        (take 100 (contactAssociation ids s) (lineAssociation ids) false) b) last := by
  induction front generalizing b with
  | nil => rfl
  | cons o rest ih =>
    have hmore : (rest ++ [last]).isEmpty = false := by simp
    rw [List.cons_append, addDeals, hmore, ih, allLines, allLines, List.flatMap_cons, List.foldl_append]
    rfl

theorem allLines_concat (front : List OrderId) (last : OrderId) :
    allLines s (front ++ [last]) = allLines s front ++ dealLines s last := by
  simp [allLines]

/-- What the batches hold after all orders, sent or not. -/
theorem addDeals_spec (ids : HubspotIds) (s : Store) (orderIds : List OrderId) :
    (addDeals ids s Lanes.empty orderIds).Within 100 ∧
      (addDeals ids s Lanes.empty orderIds).firsts =
        (allLines s orderIds).filterMap (contactAssociation ids s) ∧
      (addDeals ids s Lanes.empty orderIds).seconds =
        (allLines s orderIds).filterMap (lineAssociation ids) := by
  have hstart : (Lanes.empty : Lanes PublicAssociation PublicAssociation).Within 100 :=
    within_empty (by omega)
  rcases List.eq_nil_or_concat orderIds with rfl | ⟨front, last, rfl⟩
  · exact ⟨hstart, rfl, rfl⟩
  · rw [List.concat_eq_append, addDeals_concat, allLines_concat, addDeal]
    refine ⟨(hstart.foldl _).foldl _, ?_, ?_⟩
    · rw [foldl_take_firsts, foldl_take_firsts, List.filterMap_append]
      rfl
    · rw [foldl_take_seconds, foldl_take_seconds, List.filterMap_append]
      rfl

/-- After an order with lines nothing is left in the batches. -/
theorem addDeals_of_lines {front : List OrderId} {last : OrderId}
    (hlines : (s.order last).lines.rows ≠ []) :
    (addDeals ids s Lanes.empty (front ++ [last])).first = [] ∧
      (addDeals ids s Lanes.empty (front ++ [last])).second = [] := by
  rw [addDeals_concat]
  exact foldl_take_always (by simpa [dealLines] using hlines)

/-- If the last order has none, all other lines went the same way. -/
theorem addDeals_of_no_lines {front : List OrderId} {last : OrderId}
    (hlines : (s.order last).lines.rows = []) :
    addDeals ids s Lanes.empty (front ++ [last]) = (allLines s (front ++ [last])).foldl
      (take 100 (contactAssociation ids s) (lineAssociation ids) false) Lanes.empty := by
  have hnone : dealLines s last = [] := by rw [dealLines, hlines, List.map_nil]
  rw [addDeals_concat, allLines_concat, addDeal, hnone, List.append_nil]
  rfl

/-- Nothing is lost exactly if the last order has a line, or each association that is found after the last
full batch was found before it too. -/
theorem losesNothing_iff (ids : HubspotIds) (s : Store) (orderIds : List OrderId) :
    LosesNothing ids s orderIds (batchUpsertAssociationsChunked ids s orderIds) ↔
      (∀ last ∈ orderIds.getLast?, (s.order last).lines.rows ≠ []) ∨ RestRepeats ids s orderIds := by
  obtain ⟨hwithin, hfirsts, hseconds⟩ := addDeals_spec ids s orderIds
  have hiff := losesNothing_iff_flushed hwithin hfirsts hseconds
  rw [batchUpsertAssociationsChunked, hiff]
  rcases List.eq_nil_or_concat orderIds with rfl | ⟨front, last, rfl⟩
  · exact iff_of_true ⟨nofun, nofun⟩ (.inl nofun)
  rw [List.concat_eq_append, List.getLast?_concat]
  simp only [Option.mem_some_iff, forall_eq']
  by_cases hlines : (s.order last).lines.rows = []
  · rw [addDeals_of_no_lines hlines]
    simp only [hlines, ne_eq, not_true_eq_false, false_or]
    constructor
    · rintro ⟨hfirst, hsecond⟩
      obtain ⟨before, rest, hsplit, hbefore, hrest⟩ := exists_fillsBatches (Nat.succ_pos 99)
        (contactAssociation ids s) (lineAssociation ids) (allLines s (front ++ [last]))
      obtain ⟨heq, heq', hflushed, hflushed'⟩ := foldl_take_of_split (Nat.succ_pos 99) hbefore hrest
      rw [hsplit, heq, hflushed] at hfirst
      rw [hsplit, heq', hflushed'] at hsecond
      exact ⟨before, rest, hsplit, hbefore, hrest, hfirst, hsecond⟩
    · rintro ⟨before, rest, hsplit, hbefore, hrest, hfirst, hsecond⟩
      obtain ⟨heq, heq', hflushed, hflushed'⟩ := foldl_take_of_split (Nat.succ_pos 99) hbefore hrest
      rw [hsplit, heq, heq', hflushed, hflushed']
      exact ⟨hfirst, hsecond⟩
  · have hlanes : (addDeals ids s Lanes.empty (front ++ [last])).first = [] ∧
        (addDeals ids s Lanes.empty (front ++ [last])).second = [] := addDeals_of_lines hlines
    rw [hlanes.1, hlanes.2]
    exact iff_of_true ⟨nofun, nofun⟩ (.inl hlines)

/-! ## A last order without lines -/

theorem ordersOneTwo_sorted : [1, 2].Pairwise (fun o o' : OrderId => o < o') := by decide

/-- Order 1 has a line, and order 2 has none. -/
def onlyFirstHasLine : Store :=
  { Store.empty with
    orders := ⟨[1, 2], fun o => ⟨.fulfilled, 7, 0, .stripe,
      if o = 1 then
        ⟨[⟨⟨1, 1, ⟨.courseRun, 1, ⟨0⟩, true⟩⟩, 1, some .courseRun, some 1⟩], List.pairwise_singleton _ _⟩
      else Lines.empty, [], []⟩, ordersOneTwo_sorted⟩ }

/-- HubSpot has all objects. -/
def allKnown : HubspotIds := ⟨fun user => some user, fun o => some o, fun o _ => some o⟩

/-- The associations of order 1 are not sent. -/
theorem not_losesNothing : ¬ ∀ (ids : HubspotIds) (s : Store) (orderIds : List OrderId),
    LosesNothing ids s orderIds (batchUpsertAssociationsChunked ids s orderIds) := by
  intro h
  have hwanted : Wanted allKnown onlyFirstHasLine [1, 2] ⟨1, 7, .dealContact⟩ :=
    .dealContact (o := 1) (by simp) (by simp [onlyFirstHasLine, Store.order]) rfl rfl
  have hnone : batchUpsertAssociationsChunked allKnown onlyFirstHasLine [1, 2] = [] := rfl
  obtain ⟨inputs, hmem, -⟩ := (h allKnown onlyFirstHasLine [1, 2]).submitted _ hwanted
  rw [hnone] at hmem
  cases hmem

end MitxOnline

import MitxOnline.B2b.EmailStatus
import MitxOnline.Lib.LatestWins

/-!
# The stored delivery status is that of the latest event

The status of an assignment with its timestamp is a register that keeps the latest write. Calls that
are dropped write nothing, and no call changes a message id, so every call for an assignment finds it.
-/

namespace MitxOnline

open FixedPoint LatestWins

/-- The stored status as a register. -/
def EmailedAssignment.register (row : EmailedAssignment) : Register Microseconds String :=
  ⟨row.emailStatus, row.emailStatusEventTimestamp⟩

/-- What a call writes into the status, if it gets that far. -/
def storedEvent (hexdigest : String → String → String) (settings : MailgunSettings)
    (payload : Option MailgunWebhookPayload) : Option (Write Microseconds String) :=
  (acceptedEvent hexdigest settings payload).bind fun event =>
    match fromTimestamp event.timestamp with
    | .ok timestamp => some ⟨event.event, timestamp⟩
    | .error _ => none

variable {hexdigest : String → String → String} {settings : MailgunSettings}
  {assignments assignments' : Table EmailedAssignment} {k : ℕ}
  {payload : Option MailgunWebhookPayload} {deliveries : List (Option MailgunWebhookPayload)}

/-! ## One row -/

theorem receive_eq (row : EmailedAssignment) (status : String) (timestamp : Microseconds) :
    row.receive status timestamp =
      { row with
        emailStatus := (row.register.write ⟨status, timestamp⟩).value
        emailStatusEventTimestamp := (row.register.write ⟨status, timestamp⟩).time } := by
  unfold EmailedAssignment.receive Register.write Register.reaches EmailedAssignment.register
  dsimp only
  split_ifs <;> rfl

@[simp] theorem receive_emailMessageId (row : EmailedAssignment) (status : String)
    (timestamp : Microseconds) :
    (row.receive status timestamp).emailMessageId = row.emailMessageId := by
  rw [receive_eq]

@[simp] theorem receive_register (row : EmailedAssignment) (status : String)
    (timestamp : Microseconds) :
    (row.receive status timestamp).register = row.register.write ⟨status, timestamp⟩ := by
  rw [receive_eq]
  rfl

/-- A row is its message id and its register. -/
theorem emailedAssignment_ext {row row' : EmailedAssignment}
    (hid : row.emailMessageId = row'.emailMessageId) (hreg : row.register = row'.register) :
    row = row' := by
  cases row
  cases row'
  simp only [EmailedAssignment.register, Register.mk.injEq] at hid hreg
  simp [hid, hreg]

/-! ## The table -/

/-- The same assignments with the same message ids. -/
structure SameMessageIds (assignments assignments' : Table EmailedAssignment) : Prop where
  keys : assignments'.keys = assignments.keys
  emailMessageId : ∀ i, (assignments'.row i).emailMessageId = (assignments.row i).emailMessageId

theorem SameMessageIds.refl (assignments : Table EmailedAssignment) :
    SameMessageIds assignments assignments :=
  ⟨rfl, fun _ => rfl⟩

theorem SameMessageIds.getByMessageId (h : SameMessageIds assignments assignments')
    (messageId : String) :
    getByMessageId assignments' messageId = getByMessageId assignments messageId := by
  simp only [MitxOnline.getByMessageId, h.keys, h.emailMessageId]

/-- The assignment that is looked up for an accepted event is `k`. -/
def IsFor (hexdigest : String → String → String) (settings : MailgunSettings)
    (assignments : Table EmailedAssignment) (k : ℕ) (payload : Option MailgunWebhookPayload) : Prop :=
  ∀ event ∈ acceptedEvent hexdigest settings payload,
    getByMessageId assignments event.messageId = .ok k

theorem IsFor.of_sameMessageIds (h : IsFor hexdigest settings assignments k payload)
    (hsame : SameMessageIds assignments assignments') :
    IsFor hexdigest settings assignments' k payload := by
  intro event hevent
  rw [hsame.getByMessageId]
  exact h event hevent

/-- A call for an assignment writes what it stores into the row of the assignment. -/
theorem processMailgunWebhook_of_isFor (h : IsFor hexdigest settings assignments k payload) :
    (processMailgunWebhook hexdigest settings assignments payload).1 =
      match storedEvent hexdigest settings payload with
      | none => assignments
      | some w => assignments.set k ((assignments.row k).receive w.value w.time) := by
  unfold processMailgunWebhook storedEvent
  rcases hevent : acceptedEvent hexdigest settings payload with _ | event
  · rfl
  · dsimp only [Option.bind_some]
    rw [h event hevent]
    rcases fromTimestamp event.timestamp with e | timestamp <;> rfl

/-- One call: the message ids stay, and the register of the row takes the write. -/
theorem processMailgunWebhook_step (h : IsFor hexdigest settings assignments k payload) :
    SameMessageIds assignments (processMailgunWebhook hexdigest settings assignments payload).1 ∧
      ((processMailgunWebhook hexdigest settings assignments payload).1.row k).register =
        (assignments.row k).register.writes (storedEvent hexdigest settings payload).toList := by
  rw [processMailgunWebhook_of_isFor h]
  rcases storedEvent hexdigest settings payload with _ | w
  · exact ⟨SameMessageIds.refl assignments, rfl⟩
  · refine ⟨⟨rfl, fun i => ?_⟩, ?_⟩
    · by_cases hi : i = k
      · rw [hi, Table.set_row_self, receive_emailMessageId]
      · rw [Table.set_row_of_ne _ _ hi]
    · rw [Table.set_row_self, receive_register]
      rfl

/-- All calls: the register takes the writes in the order of the calls. -/
theorem processMailgunWebhooks_run
    (h : ∀ payload ∈ deliveries, IsFor hexdigest settings assignments k payload) :
    SameMessageIds assignments (processMailgunWebhooks hexdigest settings assignments deliveries) ∧
      ((processMailgunWebhooks hexdigest settings assignments deliveries).row k).register =
        (assignments.row k).register.writes
          (deliveries.filterMap (storedEvent hexdigest settings)) := by
  induction deliveries generalizing assignments with
  | nil => exact ⟨SameMessageIds.refl assignments, rfl⟩
  | cons payload deliveries ih =>
    obtain ⟨hsame, hreg⟩ := processMailgunWebhook_step (h payload (List.mem_cons_self ..))
    obtain ⟨hsame', hreg'⟩ := ih fun payload' hmem =>
      (h payload' (List.mem_cons_of_mem _ hmem)).of_sameMessageIds hsame
    refine ⟨⟨hsame'.keys.trans hsame.keys, fun i =>
      (hsame'.emailMessageId i).trans (hsame.emailMessageId i)⟩, ?_⟩
    rw [processMailgunWebhooks, List.foldl_cons]
    refine hreg'.trans ?_
    rw [hreg]
    rcases hstored : storedEvent hexdigest settings payload with _ | w
    · rw [List.filterMap_cons_none hstored]
      rfl
    · rw [List.filterMap_cons_some hstored]
      rfl

/-- Whatever the order and the repetitions, an assignment ends with the status and timestamp of the
latest accepted event, unless it already stores one that is at least as late; without an accepted
event it does not change. Events are told apart by their timestamps in microseconds. -/
theorem emailStatus_latest (hexdigest : String → String → String) (settings : MailgunSettings)
    (assignments : Table EmailedAssignment) (k : ℕ)
    (events deliveries : List (Option MailgunWebhookPayload))
    (hfor : ∀ payload ∈ events, IsFor hexdigest settings assignments k payload)
    (hdistinct : ∀ payload ∈ events, ∀ payload' ∈ events,
      ∀ w ∈ storedEvent hexdigest settings payload, ∀ w' ∈ storedEvent hexdigest settings payload',
        w.time = w'.time → payload = payload')
    (hsub : deliveries ⊆ events) (hall : events ⊆ deliveries) :
    (∀ latest ∈ events, ∀ w ∈ storedEvent hexdigest settings latest,
      (∀ payload ∈ events, ∀ w' ∈ storedEvent hexdigest settings payload, w'.time ≤ w.time) →
      (processMailgunWebhooks hexdigest settings assignments deliveries).row k =
        if ((assignments.row k).emailStatusEventTimestamp.any fun saved => decide (w.time ≤ saved)) =
            true then assignments.row k
        else { assignments.row k with emailStatus := w.value, emailStatusEventTimestamp := some w.time }) ∧
    ((∀ payload ∈ events, storedEvent hexdigest settings payload = none) →
      (processMailgunWebhooks hexdigest settings assignments deliveries).row k = assignments.row k) := by
  obtain ⟨hsame, hreg⟩ := processMailgunWebhooks_run fun payload hmem => hfor payload (hsub hmem)
  constructor
  · intro latest hlatest w hw hmax
    have hwrites : w ∈ deliveries.filterMap (storedEvent hexdigest settings) :=
      List.mem_filterMap.mpr ⟨latest, hall hlatest, hw⟩
    have hle : ∀ w' ∈ deliveries.filterMap (storedEvent hexdigest settings), w'.time ≤ w.time := by
      intro w' hw'
      obtain ⟨payload, hmem, hstored⟩ := List.mem_filterMap.mp hw'
      exact hmax payload (hsub hmem) w' hstored
    have hlast : ∀ w' ∈ deliveries.filterMap (storedEvent hexdigest settings),
        w'.time = w.time → w' = w := by
      intro w' hw' htime
      obtain ⟨payload, hmem, hstored⟩ := List.mem_filterMap.mp hw'
      obtain rfl := hdistinct payload (hsub hmem) latest hlatest w' hstored w hw htime
      exact Option.mem_unique hstored hw
    apply emailedAssignment_ext
    · rw [hsame.emailMessageId]
      split_ifs <;> rfl
    · rw [hreg, writes_eq hwrites hle hlast]
      unfold Register.reaches EmailedAssignment.register
      split_ifs <;> rfl
  · intro hnone
    apply emailedAssignment_ext (hsame.emailMessageId k)
    rw [hreg, List.filterMap_eq_nil_iff.mpr fun payload hmem => hnone payload (hsub hmem)]
    rfl

/-! ## Two events in one microsecond -/

/-- A call for the assignment with message id `m` about an event at the given time. -/
def webhookCall (event : String) (timestamp : ℚ) : Option MailgunWebhookPayload :=
  some ⟨⟨"", "", ""⟩, ⟨event, [enrollmentCodeAssingmentTag], "m", none, timestamp⟩⟩

/-- One assignment, whose email was sent and has no status yet. -/
def pendingAssignment : Table EmailedAssignment := Table.single 1 ⟨"m", "pending", none⟩

/-- An example with a late call and repeated calls. -/
theorem emailStatus_latest_example :
    ((processMailgunWebhooks (fun _ _ => "") ⟨"", false⟩ pendingAssignment
        [webhookCall "opened" 20, webhookCall "delivered" 10, webhookCall "opened" 20,
          webhookCall "unsubscribed" 30]).row 1).emailStatus = "opened" := by
  have hlatest := (emailStatus_latest (fun _ _ => "") ⟨"", false⟩ pendingAssignment 1
    [webhookCall "delivered" 10, webhookCall "opened" 20, webhookCall "unsubscribed" 30]
    [webhookCall "opened" 20, webhookCall "delivered" 10, webhookCall "opened" 20,
      webhookCall "unsubscribed" 30]
    (by unfold IsFor; decide +kernel) (by decide +kernel) (by decide +kernel) (by decide +kernel)).1
    (webhookCall "opened" 20) (by decide +kernel) ⟨"opened", 20000000⟩ (by decide +kernel)
    (by decide +kernel)
  rw [hlatest]
  decide +kernel

/-- Two timestamps that differ by a quarter of a microsecond are stored as one: the event that arrives
first stays, although the other one is later. -/
theorem not_emailStatus_latest :
    ¬ ∀ (hexdigest : String → String → String) (settings : MailgunSettings)
      (assignments : Table EmailedAssignment) (k : ℕ)
      (events deliveries : List (Option MailgunWebhookPayload)),
      (∀ payload ∈ events, IsFor hexdigest settings assignments k payload) →
      (∀ payload ∈ events, ∀ payload' ∈ events,
        ∀ event ∈ acceptedEvent hexdigest settings payload,
        ∀ event' ∈ acceptedEvent hexdigest settings payload',
          event.timestamp = event'.timestamp → payload = payload') →
      deliveries ⊆ events → events ⊆ deliveries →
      (assignments.row k).emailStatusEventTimestamp = none →
      ∀ latest ∈ events, ∀ event ∈ acceptedEvent hexdigest settings latest,
        (∀ payload ∈ events, ∀ event' ∈ acceptedEvent hexdigest settings payload,
          event'.timestamp ≤ event.timestamp) →
        ((processMailgunWebhooks hexdigest settings assignments deliveries).row k).emailStatus =
          event.event := by
  intro h
  have hopened := h (fun _ _ => "") ⟨"", false⟩ pendingAssignment 1
    [webhookCall "delivered" 1700000000, webhookCall "opened" (1700000000 + 1 / 4194304)]
    [webhookCall "delivered" 1700000000, webhookCall "opened" (1700000000 + 1 / 4194304)]
    (by unfold IsFor; decide +kernel) (by decide +kernel) (by decide +kernel) (by decide +kernel) rfl
    (webhookCall "opened" (1700000000 + 1 / 4194304)) (by decide +kernel)
    ⟨"opened", [enrollmentCodeAssingmentTag], "m", none, 1700000000 + 1 / 4194304⟩ (by decide +kernel)
    (by decide +kernel)
  revert hopened
  decide +kernel

end MitxOnline

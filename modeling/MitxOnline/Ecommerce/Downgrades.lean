import MitxOnline.Courses.Enrollments
import MitxOnline.Courses.Proofs.EnrollmentNotificationsProofs

/-!
# Downgrading a learner after a refund (`downgrade_learner_from_order`)

A refund can ask for the learner to be put back into audit mode in the runs that the order was for. The
function that enrolls is called for them once more, in audit mode.
-/

namespace MitxOnline

open Autocommit

/-- `Order.purchased_runs` -/
def Order.purchasedRuns (o : Order) : List RunId :=
  o.lines.rows.filterMap fun l =>
    match l.purchasedContentType, l.purchasedObjectId with
    | some .courseRun, some r => some r
    | _, _ => none

/-- `downgrade_learner_from_order` -/
def downgradeLearnerFromOrder (f : Faults) (cat : Catalog) (now : Instant) (o : OrderId) : Code := fun s =>
  if o ∈ s.orders.keys then
    createRunEnrollments f cat now (s.order o).purchaser (s.order o).purchasedRuns none true .audit s
  else ⟨s, some .doesNotExist⟩

/-!
## When a downgrade only takes access away

The function that enrolls reads the first of the runs it is given, and it reactivates enrollments.
-/

open EnrollmentLoop

variable {answer : List RunId → Option Error} {cat : Catalog} {now : Instant} {user : UserId} {s : Store}
  {o : OrderId} {changeStatus : Option String} {mode : EnrollmentMode} {r first : RunId}
  {rest runs : List RunId}

/-- edX is not asked for a run, or its answer is handled. -/
def Handled (answer : List RunId → Option Error) (cat : Catalog) (runs : List RunId) : Prop :=
  (∃ first ∈ runs.head?, (cat.courseRun first).isFakeCourseRun = true) ∨ answer runs = none ∨
    answer runs = some .edxError

/-- What is expected of a downgrade: it raises nothing, puts the purchased runs into audit mode, and leaves
inactive enrollments inactive. -/
structure OnlyDowngrades (s : Store) (o : OrderId) (outcome : Outcome Store Error) : Prop where
  returns : outcome.error = none
  audit : ∀ r ∈ (s.order o).purchasedRuns, ∃ e,
    outcome.state.enrollments (s.order o).purchaser r = some e ∧ e.enrollmentMode = .audit
  inactive : ∀ r e, s.enrollments (s.order o).purchaser r = some e → e.active = false →
    ∃ e', outcome.state.enrollments (s.order o).purchaser r = some e' ∧ e'.active = false

/-! ## Enrolling with failed enrollments kept -/

theorem recordRunEnrollments_edx (success : Bool) :
    seq (runs.map (recordRunEnrollment (Faults.edx answer) cat now user changeStatus mode success)) s =
      ⟨(EnrollmentLoop.run Faults.none cat now user changeStatus mode success runs s).store, none⟩ := by
  have herror : (seq (runs.map (recordRunEnrollment Faults.none cat now user changeStatus mode success))
      s).error = none := by
    refine seq_error (fun a ha t => ?_) s
    obtain ⟨r, -, rfl⟩ := List.mem_map.mp ha
    exact recordRunEnrollment_error t
  rw [run_store, ← herror]
  rfl

variable (answer cat now user s changeStatus mode first rest) in
/-- Where the answer of edX is handled, all rounds of the loop are run; otherwise nothing is written. -/
theorem createRunEnrollments_edx :
    (Handled answer cat (first :: rest) ∧ ∃ success,
      createRunEnrollments (Faults.edx answer) cat now user (first :: rest) changeStatus true mode s =
        ⟨(EnrollmentLoop.run Faults.none cat now user changeStatus mode success (first :: rest) s).store,
          none⟩) ∨
    (¬Handled answer cat (first :: rest) ∧ ∃ e,
      createRunEnrollments (Faults.edx answer) cat now user (first :: rest) changeStatus true mode s =
        ⟨s, some e⟩) := by
  unfold createRunEnrollments
  dsimp only
  by_cases hfake : (cat.courseRun first).isFakeCourseRun = true
  · rw [if_pos hfake, recordRunEnrollments_edx]
    exact Or.inl ⟨Or.inl ⟨first, rfl, hfake⟩, true, rfl⟩
  · rw [if_neg hfake]
    have hnot : ¬∃ first' ∈ (first :: rest).head?, (cat.courseRun first').isFakeCourseRun = true := by
      rintro ⟨first', hfirst, hfake'⟩
      cases hfirst
      exact hfake hfake'
    have hedx : Faults.edx answer (.edxEnroll (first :: rest)) = answer (first :: rest) := rfl
    rw [hedx]
    rcases hanswer : answer (first :: rest) with _ | e
    · exact Or.inl ⟨Or.inr (Or.inl hanswer), true, recordRunEnrollments_edx true⟩
    · cases e with
      | edxError =>
        exact Or.inl ⟨Or.inr (Or.inr hanswer), false, recordRunEnrollments_edx false⟩
      | _ =>
        refine Or.inr ⟨?_, _, rfl⟩
        rintro (hfirst | hnone | hhandled)
        · exact hnot hfirst
        · cases hanswer.symm.trans hnone
        · cases hanswer.symm.trans hhandled

/-! ## The downgrade -/

theorem downgradeLearnerFromOrder_of_mem (hmem : o ∈ s.orders.keys) {f : Faults} :
    downgradeLearnerFromOrder f cat now o s =
      createRunEnrollments f cat now (s.order o).purchaser (s.order o).purchasedRuns none true .audit s :=
  if_pos hmem

/-- After the loop the enrollments in its runs are active and in audit mode, and the others are as they
were. -/
theorem onlyDowngrades_of_loop {success : Bool} :
    OnlyDowngrades s o ⟨(EnrollmentLoop.run Faults.none cat now (s.order o).purchaser none .audit success
        (s.order o).purchasedRuns s).store, none⟩ ↔
      ∀ r ∈ (s.order o).purchasedRuns, isInactive (s.enrollments (s.order o).purchaser r) = false := by
  have hloop := run_loopSoFar cat now (s.order o).purchaser none .audit success s (s.order o).purchasedRuns
  constructor
  · intro h r hr
    rw [Bool.eq_false_iff]
    intro hinactive
    obtain ⟨e, hrow, hnot⟩ := (Option.any_eq_true _ _).mp hinactive
    obtain ⟨e', hrow', hinactive'⟩ := h.inactive r e hrow (by simpa using hnot)
    obtain ⟨e'', hrow'', hactive, -⟩ := hloop.recorded r hr
    cases hrow'.symm.trans hrow''
    rw [hactive] at hinactive'
    cases hinactive'
  · intro hactive
    refine ⟨rfl, fun r hr => ?_, fun r e hrow hnot => ?_⟩
    · obtain ⟨e, hrow, -, hmode⟩ := hloop.recorded r hr
      exact ⟨e, hrow, hmode⟩
    · refine ⟨e, ?_, hnot⟩
      rw [← hrow]
      refine hloop.untouched r fun hr => ?_
      have hinactive := hactive r hr
      rw [hrow] at hinactive
      simp [isInactive, hnot] at hinactive

/-- A downgrade is right exactly if the order is there and has runs, what edX answers is handled, and no
enrollment in the runs is inactive. -/
theorem onlyDowngrades_iff (answer : List RunId → Option Error) (cat : Catalog) (now : Instant)
    (o : OrderId) (s : Store) :
    OnlyDowngrades s o (downgradeLearnerFromOrder (Faults.edx answer) cat now o s) ↔
      o ∈ s.orders.keys ∧ (s.order o).purchasedRuns ≠ [] ∧
        Handled answer cat (s.order o).purchasedRuns ∧
        ∀ r ∈ (s.order o).purchasedRuns,
          isInactive (s.enrollments (s.order o).purchaser r) = false := by
  by_cases hmem : o ∈ s.orders.keys
  · rw [downgradeLearnerFromOrder_of_mem hmem, and_iff_right hmem]
    rcases hruns : (s.order o).purchasedRuns with _ | ⟨first, rest⟩
    · refine iff_of_false (fun h => ?_) fun h => h.1 rfl
      cases h.returns
    · rw [and_iff_right (List.cons_ne_nil first rest)]
      rcases createRunEnrollments_edx answer cat now (s.order o).purchaser s none .audit first rest
        with ⟨hhandled, success, hcall⟩ | ⟨hnot, e, hcall⟩
      · rw [hcall, and_iff_right hhandled, ← hruns]
        exact onlyDowngrades_of_loop
      · rw [hcall]
        refine iff_of_false (fun h => ?_) fun h => hnot h.1
        cases h.returns
  · refine iff_of_false (fun h => ?_) fun h => hmem h.1
    have hreturns := h.returns
    unfold downgradeLearnerFromOrder at hreturns
    rw [if_neg hmem] at hreturns
    cases hreturns

/-- A fulfilled order for a program only. -/
def programOrder : Store :=
  { Store.empty with
    orders := Table.single 1 ⟨.fulfilled, 7, 0, .stripe,
      ⟨[⟨⟨1, 1, ⟨.program, 1, ⟨0⟩, true⟩⟩, 1, some .program, some 1⟩], List.pairwise_singleton _ _⟩,
      [], []⟩ }

/-- The first run of the order is read, and there is none. -/
theorem not_onlyDowngrades :
    ¬ ∀ (answer : List RunId → Option Error) (cat : Catalog) (now : Instant) (o : OrderId)
        (s : Store),
      o ∈ s.orders.keys → (s.order o).state = .fulfilled →
      OnlyDowngrades s o (downgradeLearnerFromOrder (Faults.edx answer) cat now o s) := by
  intro h
  have hreturns := (h (fun _ => none) (Catalog.ofPrices fun _ => ⟨0⟩) 0 1 programOrder (by decide)
    rfl).returns
  cases hreturns

end MitxOnline

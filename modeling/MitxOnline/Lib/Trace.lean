import Mathlib.Init

/-!
# Runs of a system that takes one event after the other
`step` is what one event does to the state. `run` is the state after a list of events, `Along P` says
that `P` held of every event of the list and the state it met.
-/

namespace Trace

variable {σ α : Type}

/-- The state after the events. -/
def run (step : σ → α → σ) (s : σ) (events : List α) : σ := events.foldl step s

/-- `P` holds at every event of the run, of the state just before it and the event. -/
def Along (step : σ → α → σ) (P : σ → α → Prop) : σ → List α → Prop
  | _, [] => True
  | s, e :: rest => P s e ∧ Along step P (step s e) rest

/-! ## Rules for runs

An invariant kept by every event holds after every run; two descriptions of one step that agree in
every state that satisfies the invariant agree along every run. -/

variable {step : σ → α → σ} {P C : σ → α → Prop}

/-- What every event keeps holds after every run. -/
theorem run_of_invariant (Inv : σ → Prop) (hstep : ∀ s e, Inv s → Inv (step s e)) {s : σ} (hs : Inv s)
    (events : List α) : Inv (run step s events) := by
  induction events generalizing s with
  | nil => exact hs
  | cons e rest ih => exact ih (hstep s e hs)

@[simp] theorem along_cons (s : σ) (e : α) (rest : List α) :
    Along step P s (e :: rest) ↔ P s e ∧ Along step P (step s e) rest := Iff.rfl

theorem run_concat (s : σ) (events : List α) (e : α) :
    run step s (events ++ [e]) = step (run step s events) e := by
  simp [run]

theorem along_concat {s : σ} {events : List α} {e : α} :
    Along step P s (events ++ [e]) ↔ Along step P s events ∧ P (run step s events) e := by
  induction events generalizing s with
  | nil => simp [Along, run]
  | cons a rest ih =>
    rw [List.cons_append, along_cons, along_cons, ih, and_assoc]
    exact Iff.rfl

theorem along_of_forall {D : α → Prop} {s : σ} {events : List α} (h : ∀ e ∈ events, D e) :
    Along step (fun _ e => D e) s events := by
  induction events generalizing s with
  | nil => trivial
  | cons e rest ih =>
    exact ⟨h e List.mem_cons_self, ih fun e' he' => h e' (List.mem_cons_of_mem e he')⟩

/-- What every event keeps under the condition holds after a run along which the condition holds. -/
theorem run_of_along (Inv : σ → Prop) (hstep : ∀ s e, Inv s → C s e → Inv (step s e)) {s : σ} (hs : Inv s)
    {events : List α} (hC : Along step C s events) : Inv (run step s events) := by
  induction events generalizing s with
  | nil => exact hs
  | cons e rest ih => exact ih (hstep s e hs hC.1) hC.2

/-- What the condition gives of one step in a state with the invariant, it gives of all steps of a
run. -/
theorem along_of_invariant (Inv : σ → Prop) (hstep : ∀ s e, Inv s → C s e → Inv (step s e))
    (h : ∀ s e, Inv s → C s e → P s e) {s : σ} (hs : Inv s) {events : List α}
    (hC : Along step C s events) : Along step P s events := by
  induction events generalizing s with
  | nil => trivial
  | cons e rest ih => exact ⟨h s e hs hC.1, ih (hstep s e hs hC.1) hC.2⟩

/-- Where the condition says of every single step whether the property holds, it says so of runs. -/
theorem along_iff_of_invariant (Inv : σ → Prop) (hstep : ∀ s e, Inv s → C s e → Inv (step s e))
    (h : ∀ s e, Inv s → (P s e ↔ C s e)) {s : σ} (hs : Inv s) {events : List α} :
    Along step P s events ↔ Along step C s events := by
  induction events generalizing s with
  | nil => exact Iff.rfl
  | cons e rest ih =>
    rw [along_cons, along_cons, h s e hs]
    constructor
    · rintro ⟨hC, hrest⟩
      exact ⟨hC, (ih (hstep s e hs hC)).mp hrest⟩
    · rintro ⟨hC, hrest⟩
      exact ⟨hC, (ih (hstep s e hs hC)).mpr hrest⟩

/-- What holds after a run and not before it became true at one of the events. -/
theorem exists_turn {Q : σ → Prop} {s : σ} {events : List α} (hs : ¬Q s) (h : Q (run step s events)) :
    ∃ before e after, events = before ++ e :: after ∧ ¬Q (run step s before) ∧
      Q (step (run step s before) e) := by
  induction events generalizing s with
  | nil => exact absurd h hs
  | cons e rest ih =>
    by_cases hfirst : Q (step s e)
    · exact ⟨[], e, rest, rfl, hs, hfirst⟩
    · obtain ⟨before, e', after, rfl, hnot, hturn⟩ := ih hfirst h
      exact ⟨e :: before, e', after, rfl, hnot, hturn⟩

/-- Where every event works on the cell of its key only, a run does to a cell what its own events do. -/
theorem run_cell {κ β : Type} [DecidableEq κ] {view : σ → κ → β} {key : α → κ}
    (cellStep : κ → β → α → β) (Inv : σ → Prop) (hstep : ∀ s e, Inv s → Inv (step s e))
    (hself : ∀ s e, Inv s → view (step s e) (key e) = cellStep (key e) (view s (key e)) e)
    (hother : ∀ s e k, Inv s → k ≠ key e → view (step s e) k = view s k) {s : σ} (hs : Inv s)
    (events : List α) (k : κ) :
    view (run step s events) k = (events.filter fun e => key e = k).foldl (cellStep k) (view s k) := by
  induction events generalizing s with
  | nil => rfl
  | cons e rest ih =>
    show view (run step (step s e) rest) k = _
    rw [ih (hstep s e hs)]
    by_cases hk : key e = k
    · subst hk
      rw [List.filter_cons_of_pos (by simp), List.foldl_cons, hself s e hs]
    · rw [List.filter_cons_of_neg (by simpa using hk), hother s e k hs (Ne.symm hk)]

/-- A run of a system that keeps more than another one is a run of the other. -/
theorem along_map {τ : Type} {step' : τ → α → τ} {P' : τ → α → Prop} {proj : σ → τ}
    (hstep : ∀ s e, proj (step s e) = step' (proj s) e) {s : σ} {events : List α} :
    Along step (fun s e => P' (proj s) e) s events ↔ Along step' P' (proj s) events := by
  induction events generalizing s with
  | nil => exact Iff.rfl
  | cons e rest ih => rw [along_cons, along_cons, ih, hstep]

end Trace

import Mathlib.Init

/-!
# Code whose writes are committed one by one

Outside a transaction every statement is committed as soon as it is executed: an exception ends the
code, but the writes made before it stay. `atomic` is a transaction: an exception takes back the
writes made inside.
-/

namespace Autocommit

/-- What a piece of code leaves behind. -/
structure Outcome (σ ε : Type) where
  /-- What the database holds afterwards. -/
  state : σ
  /-- The exception that ended the code, if one did. -/
  error : Option ε

/-- Code that reads and writes states in `σ` and may raise exceptions in `ε`. -/
abbrev Action (σ ε : Type) := σ → Outcome σ ε

variable {σ ε : Type}

/-- Do nothing. -/
def skip : Action σ ε := fun s => ⟨s, none⟩

/-- Raise an exception. -/
def raise (e : ε) : Action σ ε := fun s => ⟨s, some e⟩

/-- One statement: it takes effect as a whole or raises. -/
def statement (f : σ → Except ε σ) : Action σ ε := fun s =>
  match f s with
  | .ok s' => ⟨s', none⟩
  | .error e => ⟨s, some e⟩

/-- Run `a`, then, unless it raised, `b`. -/
def andThen (a b : Action σ ε) : Action σ ε := fun s =>
  match (a s).error with
  | none => b (a s).state
  | some e => ⟨(a s).state, some e⟩

/-- Run a list of actions one after the other until one raises. -/
def seq : List (Action σ ε) → Action σ ε
  | [] => skip
  | a :: rest => andThen a (seq rest)

/-- `transaction.atomic`: an exception undoes the writes. -/
def atomic (a : Action σ ε) : Action σ ε := fun s =>
  match (a s).error with
  | none => ⟨(a s).state, none⟩
  | some e => ⟨s, some e⟩

/-- `try: a / except Exception: log`: the exception is gone, the writes are not. -/
def attempt (a : Action σ ε) : Action σ ε := fun s => ⟨(a s).state, none⟩

/-- The states before and after `a` are related by `r`, whether `a` raises or not. -/
def Keeps (r : σ → σ → Prop) (a : Action σ ε) : Prop := ∀ s, r s (a s).state

/-!
## Rules for code whose writes are committed one by one

A relation between states that every step keeps is kept by the whole, in whichever place it stops.
-/

@[simp] theorem skip_apply (s : σ) : (skip : Action σ ε) s = ⟨s, none⟩ := rfl

theorem statement_ok {f : σ → Except ε σ} {s s' : σ} (h : f s = .ok s') :
    statement f s = ⟨s', none⟩ := by
  simp [statement, h]

theorem statement_error {f : σ → Except ε σ} {s : σ} {e : ε} (h : f s = .error e) :
    statement f s = ⟨s, some e⟩ := by
  simp [statement, h]

theorem andThen_of_ok {a b : Action σ ε} {s : σ} (h : (a s).error = none) :
    andThen a b s = b (a s).state := by
  simp [andThen, h]

theorem andThen_of_error {a b : Action σ ε} {s : σ} {e : ε} (h : (a s).error = some e) :
    andThen a b s = ⟨(a s).state, some e⟩ := by
  simp [andThen, h]

@[simp] theorem seq_nil : (seq [] : Action σ ε) = skip := rfl

theorem seq_cons (a : Action σ ε) (rest : List (Action σ ε)) :
    seq (a :: rest) = andThen a (seq rest) := rfl

@[simp] theorem seq_singleton (a : Action σ ε) : seq [a] = a := by
  funext s
  rw [seq_cons, seq_nil]
  cases h : (a s).error with
  | none => rw [andThen_of_ok h, skip_apply, ← h]
  | some e => rw [andThen_of_error h, ← h]

/-- A sequence returns when all of it does. -/
theorem seq_cons_error {a : Action σ ε} {rest : List (Action σ ε)} {s : σ}
    (h : (seq (a :: rest) s).error = none) :
    (a s).error = none ∧ (seq rest (a s).state).error = none := by
  rw [seq_cons] at h
  cases he : (a s).error with
  | none =>
    rw [andThen_of_ok he] at h
    exact ⟨rfl, h⟩
  | some e =>
    rw [andThen_of_error he] at h
    cases h

theorem seq_error {steps : List (Action σ ε)} (h : ∀ a ∈ steps, ∀ s, (a s).error = none) (s : σ) :
    (seq steps s).error = none := by
  induction steps generalizing s with
  | nil => rfl
  | cons a rest ih =>
    have hrest : ∀ b ∈ rest, ∀ s, (b s).error = none := fun b hb => h b (List.mem_cons_of_mem a hb)
    rw [seq_cons, andThen_of_ok (h a List.mem_cons_self s)]
    exact ih hrest _

/-- A sequence is its first actions and then the rest. -/
theorem seq_append (before after : List (Action σ ε)) (s : σ) :
    seq (before ++ after) s = andThen (seq before) (seq after) s := by
  induction before generalizing s with
  | nil => rfl
  | cons a before ih =>
    rw [List.cons_append, seq_cons, seq_cons]
    cases h : (a s).error with
    | none =>
      have hbefore : andThen a (seq before) s = seq before (a s).state := andThen_of_ok h
      rw [andThen_of_ok h, ih]
      unfold andThen at hbefore ⊢
      rw [hbefore]
    | some e =>
      have hbefore : andThen a (seq before) s = ⟨(a s).state, some e⟩ := andThen_of_error h
      rw [andThen_of_error h, andThen_of_error (congrArg Outcome.error hbefore), hbefore]

/-- A sequence that returns has returned from its first actions. -/
theorem seq_append_error {before after : List (Action σ ε)} {s : σ}
    (h : (seq (before ++ after) s).error = none) : (seq before s).error = none := by
  rw [seq_append] at h
  cases hbefore : (seq before s).error with
  | none => rfl
  | some e =>
    rw [andThen_of_error hbefore] at h
    cases h

/-- A loop in a loop goes through all items of all rounds. -/
theorem seq_map_seq {ι κ : Type} (rounds : List ι) (items : ι → List κ) (act : ι → κ → Action σ ε) (s : σ) :
    seq (rounds.map fun i => seq ((items i).map (act i))) s =
      seq ((rounds.flatMap fun i => (items i).map fun k => (i, k)).map fun p => act p.1 p.2) s := by
  induction rounds generalizing s with
  | nil => rfl
  | cons i rounds ih =>
    have hitems : ((items i).map fun k => (i, k)).map (fun p => act p.1 p.2) = (items i).map (act i) := by
      rw [List.map_map]
      rfl
    rw [List.map_cons, seq_cons, List.flatMap_cons, List.map_append, seq_append, hitems]
    unfold andThen
    cases (seq ((items i).map (act i)) s).error with
    | none => exact ih _
    | some e => rfl

/-- A loop goes through all items, or it ends at one that raises. -/
theorem seq_map_cases {ι : Type} (act : ι → Action σ ε) (items : List ι) (s : σ) :
    ∃ done rest, items = done ++ rest ∧
      (seq (items.map act) s).state = done.foldl (fun s i => (act i s).state) s ∧
      ((seq (items.map act) s).error = none ∧ rest = [] ∨
        ∃ before i e, done = before ++ [i] ∧ (seq (items.map act) s).error = some e ∧
          (act i (before.foldl (fun s i => (act i s).state) s)).error = some e) := by
  induction items generalizing s with
  | nil => exact ⟨[], [], rfl, rfl, Or.inl ⟨rfl, rfl⟩⟩
  | cons i items ih =>
    rw [List.map_cons, seq_cons]
    cases h : (act i s).error with
    | none =>
      rw [andThen_of_ok h]
      obtain ⟨done, rest, hitems, hstate, hend⟩ := ih (act i s).state
      refine ⟨i :: done, rest, by rw [hitems, List.cons_append], hstate, ?_⟩
      rcases hend with hall | ⟨before, j, e, rfl, herror, hraise⟩
      · exact Or.inl hall
      · exact Or.inr ⟨i :: before, j, e, rfl, herror, hraise⟩
    | some e =>
      rw [andThen_of_error h]
      exact ⟨[i], items, rfl, rfl, Or.inr ⟨[], i, e, rfl, rfl, h⟩⟩

@[simp] theorem attempt_state (a : Action σ ε) (s : σ) : (attempt a s).state = (a s).state := rfl

/-- What is left of a transaction that raised is the state it began in. -/
theorem atomic_of_error {a : Action σ ε} {s : σ} {e : ε} (h : (a s).error = some e) :
    atomic a s = ⟨s, some e⟩ := by
  simp [atomic, h]

theorem atomic_of_ok {a : Action σ ε} {s : σ} (h : (a s).error = none) :
    atomic a s = ⟨(a s).state, none⟩ := by
  simp [atomic, h]

section Keeps

/-- A relation between states that code can keep: reflexive and transitive. -/
structure IsFrame (r : σ → σ → Prop) : Prop where
  refl : ∀ s, r s s
  trans : ∀ s t u, r s t → r t u → r s u

/-- Leaving a part of the state as it is. -/
theorem isFrame_eq {β : Type} (part : σ → β) : IsFrame fun s s' => part s' = part s := by
  constructor
  · intro s
    rfl
  · intro s t u h h'
    exact h'.trans h

/-- Preserving a property of the state. -/
theorem isFrame_preserves (P : σ → Prop) : IsFrame fun s s' => P s → P s' := by
  constructor
  · intro s hs
    exact hs
  · intro s t u h h' hs
    exact h' (h hs)

/-- What code keeps while a condition holds, if it keeps the condition too. -/
theorem isFrame_guarded {P : σ → Prop} {r : σ → σ → Prop} (hr : IsFrame r) :
    IsFrame fun s s' => P s → r s s' ∧ P s' := by
  constructor
  · intro s hs
    exact ⟨hr.refl s, hs⟩
  · intro s t u hst htu hs
    obtain ⟨hrel, ht⟩ := hst hs
    obtain ⟨hrel', hu⟩ := htu ht
    exact ⟨hr.trans _ _ _ hrel hrel', hu⟩

variable {r : σ → σ → Prop} (hr : IsFrame r)

include hr

theorem keeps_skip : Keeps r (skip : Action σ ε) := hr.refl

theorem keeps_raise (e : ε) : Keeps r (raise e : Action σ ε) := hr.refl

theorem keeps_statement {f : σ → Except ε σ} (h : ∀ s s', f s = .ok s' → r s s') :
    Keeps r (statement f) := by
  intro s
  cases hf : f s with
  | ok s' =>
    rw [statement_ok hf]
    exact h s s' hf
  | error e =>
    rw [statement_error hf]
    exact hr.refl s

theorem keeps_andThen {a b : Action σ ε} (ha : Keeps r a) (hb : Keeps r b) :
    Keeps r (andThen a b) := by
  intro s
  cases h : (a s).error with
  | none =>
    rw [andThen_of_ok h]
    exact hr.trans _ _ _ (ha s) (hb _)
  | some e =>
    rw [andThen_of_error h]
    exact ha s

theorem keeps_seq_nil : Keeps r (seq ([] : List (Action σ ε))) := hr.refl

theorem keeps_seq_cons {a : Action σ ε} {rest : List (Action σ ε)} (ha : Keeps r a)
    (hrest : Keeps r (seq rest)) : Keeps r (seq (a :: rest)) :=
  keeps_andThen hr ha hrest

/-- What the rest of a sequence keeps is kept from the end of its first action on. -/
theorem seq_cons_after {a : Action σ ε} {rest : List (Action σ ε)} (hrest : Keeps r (seq rest))
    (s : σ) : r (a s).state (seq (a :: rest) s).state := by
  rw [seq_cons]
  cases h : (a s).error with
  | none =>
    rw [andThen_of_ok h]
    exact hrest _
  | some e =>
    rw [andThen_of_error h]
    exact hr.refl _

theorem keeps_seq {steps : List (Action σ ε)} (h : ∀ a ∈ steps, Keeps r a) : Keeps r (seq steps) := by
  induction steps with
  | nil => exact keeps_seq_nil hr
  | cons a rest ih =>
    have hrest : ∀ b ∈ rest, Keeps r b := fun b hb => h b (List.mem_cons_of_mem a hb)
    exact keeps_seq_cons hr (h a List.mem_cons_self) (ih hrest)

/-- In a loop over distinct items, what the other items' rounds keep is kept up to the round of an item
and from its end on. -/
theorem seq_once {ι : Type} {round : ι → Action σ ε} {items : List ι} {i : ι} (hmem : i ∈ items)
    (hnodup : items.Nodup) (hreturns : ∀ j ∈ items, ∀ s, (round j s).error = none)
    (hothers : ∀ j ∈ items, j ≠ i → Keeps r (round j)) (s : σ) :
    ∃ s', r s s' ∧ r (round i s').state (seq (items.map round) s).state := by
  induction items generalizing s with
  | nil => exact absurd hmem List.not_mem_nil
  | cons j rest ih =>
    obtain ⟨hj, hrest⟩ := List.nodup_cons.mp hnodup
    by_cases hij : i = j
    · subst hij
      have hkeeps : Keeps r (seq (rest.map round)) := by
        refine keeps_seq hr fun a ha => ?_
        obtain ⟨k, hk, rfl⟩ := List.mem_map.mp ha
        exact hothers k (List.mem_cons_of_mem i hk) fun h => hj (h ▸ hk)
      exact ⟨s, hr.refl s, seq_cons_after hr hkeeps s⟩
    · have hmem' : i ∈ rest := (List.mem_cons.mp hmem).resolve_left hij
      have hround := hothers j List.mem_cons_self (Ne.symm hij) s
      obtain ⟨s', hbefore, hafter⟩ := ih hmem' hrest
        (fun k hk => hreturns k (List.mem_cons_of_mem j hk))
        (fun k hk => hothers k (List.mem_cons_of_mem j hk)) (round j s).state
      rw [List.map_cons, seq_cons, andThen_of_ok (hreturns j List.mem_cons_self s)]
      exact ⟨s', hr.trans _ _ _ hround hbefore, hafter⟩

/-- If what comes before and after an action keeps a relation, then either the action is not reached, or it
runs in a state that is related to the first one, and the last one to what it leaves. -/
theorem seq_append_cons {before after : List (Action σ ε)} {a : Action σ ε}
    (hbefore : ∀ b ∈ before, Keeps r b) (hafter : ∀ b ∈ after, Keeps r b) (s : σ) :
    r s (seq (before ++ a :: after) s).state ∨
      ∃ s', r s s' ∧ r (a s').state (seq (before ++ a :: after) s).state := by
  induction before generalizing s with
  | nil =>
    exact Or.inr ⟨s, hr.refl s, seq_cons_after hr (keeps_seq hr hafter) s⟩
  | cons b rest ih =>
    have hb : r s (b s).state := hbefore b List.mem_cons_self s
    rw [List.cons_append, seq_cons]
    cases h : (b s).error with
    | none =>
      rw [andThen_of_ok h]
      have hrest := ih (fun b' hb' => hbefore b' (List.mem_cons_of_mem b hb')) (b s).state
      rcases hrest with hskipped | ⟨s', hs', hafter'⟩
      · exact Or.inl (hr.trans _ _ _ hb hskipped)
      · exact Or.inr ⟨s', hr.trans _ _ _ hb hs', hafter'⟩
    | some e =>
      rw [andThen_of_error h]
      exact Or.inl hb

/-- What every action keeps in the state in which it is reached, the sequence keeps. -/
theorem seq_of_reached {steps : List (Action σ ε)} {s : σ}
    (h : ∀ before a after, steps = before ++ a :: after → (seq before s).error = none →
      r (seq before s).state (a (seq before s).state).state) : r s (seq steps s).state := by
  induction steps generalizing s with
  | nil => exact hr.refl s
  | cons a rest ih =>
    have hfirst : r s (a s).state := h [] a rest rfl rfl
    rw [seq_cons]
    cases he : (a s).error with
    | none =>
      rw [andThen_of_ok he]
      refine hr.trans _ _ _ hfirst (ih fun before b after hrest herror => ?_)
      have hreached : seq (a :: before) s = seq before (a s).state := by
        rw [seq_cons, andThen_of_ok he]
      have hnext := h (a :: before) b after (by rw [hrest, List.cons_append])
      rw [hreached] at hnext
      exact hnext herror
    | some e =>
      rw [andThen_of_error he]
      exact hfirst

theorem seq_map_of_reached {α : Type*} {step : α → Action σ ε} {xs : List α} {s : σ}
    (h : ∀ before x after, xs = before ++ x :: after → (seq (before.map step) s).error = none →
      r (seq (before.map step) s).state (step x (seq (before.map step) s).state).state) :
    r s (seq (xs.map step) s).state := by
  refine seq_of_reached hr fun before a after hsteps herror => ?_
  obtain ⟨before, rest, hxs, rfl, hrest⟩ := List.map_eq_append_iff.mp hsteps
  obtain ⟨x, after, rfl, rfl, -⟩ := List.map_eq_cons_iff.mp hrest
  exact h before x after hxs herror

theorem keeps_atomic {a : Action σ ε} (ha : Keeps r a) : Keeps r (atomic a) := by
  intro s
  cases h : (a s).error with
  | none =>
    rw [atomic_of_ok h]
    exact ha s
  | some e =>
    rw [atomic_of_error h]
    exact hr.refl s

omit hr in
theorem keeps_attempt {a : Action σ ε} (ha : Keeps r a) : Keeps r (attempt a) := ha

end Keeps

end Autocommit

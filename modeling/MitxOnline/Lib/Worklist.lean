import Mathlib.Algebra.GroupWithZero.Nat

/-!
# Worklists

A loop over a list to which its own body appends. `drain` takes the items in their order: an item changes the
state and adds items at the end, or raises and ends the loop.
-/

namespace Worklist

variable {σ α ε : Type}

/-- The loop: the state that it leaves and how it ended, or `none` if the fuel ran out before. -/
def drain (handle : σ → α → σ × Except ε (List α)) : ℕ → σ → List α → Option (σ × Except ε Unit)
  | _, s, [] => some (s, .ok ())
  | 0, _, _ :: _ => none
  | fuel + 1, s, a :: queue =>
    match handle s a with
    | (s', .error e) => some (s', .error e)
    | (s', .ok added) => drain handle fuel s' (queue ++ added)

/-! ## Rules -/

variable {handle : σ → α → σ × Except ε (List α)} {fuel : ℕ} {s s' : σ} {queue : List α}

theorem drain_cons_of_ok {a : α} {added : List α} (h : handle s a = (s', .ok added)) :
    drain handle (fuel + 1) s (a :: queue) = drain handle fuel s' (queue ++ added) := by
  simp only [drain, h]

theorem drain_cons_of_error {a : α} {e : ε} (h : handle s a = (s', .error e)) :
    drain handle (fuel + 1) s (a :: queue) = some (s', .error e) := by
  simp only [drain, h]

/-- The loop ends where the items that an item adds weigh less than the item. -/
theorem drain_isSome (Inv : σ → Prop) (weight : α → ℕ) (hweight : ∀ a, 0 < weight a)
    (hstep : ∀ s a s' added, Inv s → handle s a = (s', .ok added) →
      Inv s' ∧ (added.map weight).sum < weight a)
    (hs : Inv s) (hfuel : (queue.map weight).sum ≤ fuel) : (drain handle fuel s queue).isSome = true := by
  induction fuel generalizing s queue with
  | zero =>
    cases queue with
    | nil => rfl
    | cons a queue =>
      have hpos := hweight a
      rw [List.map_cons, List.sum_cons] at hfuel
      omega
  | succ fuel ih =>
    cases queue with
    | nil => rfl
    | cons a queue =>
      rcases hhandle : handle s a with ⟨s1, e | added⟩
      · rw [drain_cons_of_error hhandle]
        rfl
      · obtain ⟨hs1, hadded⟩ := hstep s a s1 added hs hhandle
        rw [drain_cons_of_ok hhandle]
        refine ih hs1 ?_
        rw [List.map_cons, List.sum_cons] at hfuel
        rw [List.map_append, List.sum_append]
        omega

/-- What each item keeps of the state and of the rest of the queue holds when the queue is empty, and what
an item that raises leaves is left by the loop. -/
theorem drain_of_step (J : σ → List α → Prop) (E : σ → Prop)
    (hok : ∀ s a queue s' added, J s (a :: queue) → handle s a = (s', .ok added) → J s' (queue ++ added))
    (herror : ∀ s a queue s' e, J s (a :: queue) → handle s a = (s', .error e) → E s')
    {result : Except ε Unit} (h : drain handle fuel s queue = some (s', result)) (hs : J s queue) :
    (result = .ok () ∧ J s' []) ∨ ((∃ e, result = .error e) ∧ E s') := by
  induction fuel generalizing s queue with
  | zero =>
    cases queue with
    | nil =>
      obtain ⟨rfl, rfl⟩ := Prod.mk.inj (Option.some.inj h)
      exact Or.inl ⟨rfl, hs⟩
    | cons a queue => cases h
  | succ fuel ih =>
    cases queue with
    | nil =>
      obtain ⟨rfl, rfl⟩ := Prod.mk.inj (Option.some.inj h)
      exact Or.inl ⟨rfl, hs⟩
    | cons a queue =>
      rcases hhandle : handle s a with ⟨s1, e | added⟩
      · rw [drain_cons_of_error hhandle] at h
        obtain ⟨rfl, rfl⟩ := Prod.mk.inj (Option.some.inj h)
        exact Or.inr ⟨⟨e, rfl⟩, herror s a queue s1 e hs hhandle⟩
      · rw [drain_cons_of_ok hhandle] at h
        exact ih h (hok s a queue s1 added hs hhandle)

end Worklist

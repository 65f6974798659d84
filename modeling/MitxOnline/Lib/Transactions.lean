import Mathlib.Init
import Mathlib

/-!
# Code that returns a value, and transactions

Code reads and writes a state and returns a value or raises an exception; what it wrote before it raised
stays written.
-/

namespace Transactions

variable {σ ε α : Type}

/-- `transaction.atomic`: `undo s s'` is what is left of `s'` when the writes since `s` are taken back. A
record of what was sent elsewhere is not taken back. -/
def atomic (undo : σ → σ → σ) (code : EStateM ε σ α) : EStateM ε σ α := fun s =>
  match code s with
  | .ok a s' => .ok a s'
  | .error e s' => .error e (undo s s')

/-!
## Rules for transactions

What is to hold after a transaction has to hold after its code; after an exception it has to hold of the
state in which the writes are taken back.
-/

open Std.Do

theorem wp_atomic (undo : σ → σ → σ) (code : EStateM ε σ α)
    (Q : PostCond α (.except ε (.arg σ .pure))) (s : σ) :
    (wp⟦atomic undo code⟧ Q s) = (wp⟦code⟧ (Q.1, fun e s' => Q.2.1 e (undo s s'), Q.2.2) s) := by
  simp only [WP.wp, PredTrans.apply, EStateM.run, atomic]
  cases code s <;> rfl

@[spec]
theorem atomic_spec (undo : σ → σ → σ) (code : EStateM ε σ α)
    (Q : PostCond α (.except ε (.arg σ .pure))) :
    Triple (atomic undo code)
      (fun s => wp⟦code⟧ (Q.1, fun e s' => Q.2.1 e (undo s s'), Q.2.2) s) Q := by
  rw [Triple.iff]
  intro s
  rw [wp_atomic]

/-- What a triple says of a run. -/
theorem run_of_triple {code : EStateM ε σ α} {P : σ → Prop} {Q : α → σ → Prop} {E : ε → σ → Prop}
    (h : ⦃fun s => ⌜P s⌝⦄ code ⦃post⟨fun a s => ⌜Q a s⌝, fun e s => ⌜E e s⌝⟩⦄) {s : σ} (hs : P s) :
    (∃ a s', code.run s = .ok a s' ∧ Q a s') ∨ ∃ e s', code.run s = .error e s' ∧ E e s' := by
  rw [Triple.iff] at h
  have hrun := h s hs
  simp only [WP.wp, PredTrans.apply] at hrun
  rcases hcode : code.run s with ⟨a, s'⟩ | ⟨e, s'⟩
  · rw [hcode] at hrun
    exact Or.inl ⟨a, s', rfl, hrun⟩
  · rw [hcode] at hrun
    exact Or.inr ⟨e, s', rfl, hrun⟩

end Transactions

import MitxOnline.Lib.Autocommit

/-!
# State flows
A flow drives a stored state through declared transitions. Calling a transition whose sources do not
include the current state raises and does nothing. Otherwise its body runs, and when the body
returns the new state is saved; a body that raises leaves the stored state as it was.
-/

namespace StateFlow

open Autocommit

/-- A declared transition. -/
structure Transition (S : Type) where
  /-- The states it may be called in; `none` is any state. -/
  source : Option (List S)
  /-- The state it leads to. -/
  target : S

variable {S σ ε : Type} [DecidableEq S]

/-- The transition may be called in state `s`. -/
def Transition.allows (t : Transition S) (s : S) : Bool :=
  match t.source with
  | none => true
  | some sources => decide (s ∈ sources)

/-- Call a transition of the state that `get` reads and `save` writes. -/
def Transition.call (t : Transition S) (get : σ → S) (save : S → σ → σ) (notAllowed : ε)
    (body : Action σ ε) : Action σ ε := fun s =>
  if t.allows (get s) then andThen body (fun s' => ⟨save t.target s', none⟩) s
  else ⟨s, some notAllowed⟩

/-! ## What calling a transition does to the stored state -/

variable {t : Transition S} (get : σ → S) {save : S → σ → σ}
  {notAllowed : ε} {body : Action σ ε} {s : σ}

theorem call_of_not_allowed (h : t.allows (get s) = false) :
    t.call get save notAllowed body s = ⟨s, some notAllowed⟩ := by
  simp [Transition.call, h]

theorem call_of_error (h : t.allows (get s) = true) {e : ε} (he : (body s).error = some e) :
    t.call get save notAllowed body s = ⟨(body s).state, some e⟩ := by
  simp [Transition.call, h, andThen_of_error he]

theorem call_of_ok (h : t.allows (get s) = true) (he : (body s).error = none) :
    t.call get save notAllowed body s = ⟨save t.target (body s).state, none⟩ := by
  simp [Transition.call, h, andThen_of_ok he]

end StateFlow

import Mathlib.Order.Basic
import Mathlib.Tactic.SplitIfs
import MitxOnline.Openedx.AccountCreation

/-!
# One call of the account creation loop

Between two answers a call waits, with a name of its own in its row, or it is over. Each answer leads on
to one more request or ends the call; the attempts are counted from the last name that was generated
locally.
-/

namespace MitxOnline

variable {input : AccountRequest} {c : AccountCall} {answer : EdxAnswer}
  {answers : ℕ → EdxAnswer} {users : OpenEdxUsers} {user : UserId} {name : String} {n : ℕ}

/-! ## Names -/

/-- A user's own row does not matter for what others have taken. -/
theorem takenByOther_set (row : OpenEdxUser) (edxUsername : Option String) :
    takenByOther (users.set user row) user edxUsername = takenByOther users user edxUsername := by
  unfold takenByOther
  rw [Table.set_keys, Bool.eq_iff_iff, List.any_eq_true, List.any_eq_true]
  have hrow : ∀ k, (k != user && ((users.set user row).row k).edxUsername == edxUsername) =
      (k != user && (users.row k).edxUsername == edxUsername) := by
    intro k
    by_cases hk : k = user
    · simp [hk]
    · rw [Table.set_row_of_ne _ _ hk]
  simp only [hrow]

/-- A generated name is in no row. -/
theorem generateUniqueUsername_some {draws : Fin 5 → ℕ} {base : String}
    (h : generateUniqueUsername users draws base = some name) :
    ∀ k ∈ users.keys, (users.row k).edxUsername ≠ some name := by
  intro k hk heq
  have hnone := List.find?_some h
  rw [Bool.not_eq_true', List.any_eq_false] at hnone
  exact hnone k hk (by simp [heq])

theorem not_takenByOther_of_not_used (h : ∀ k ∈ users.keys, (users.row k).edxUsername ≠ some name) :
    takenByOther users user (some name) = false := by
  rw [takenByOther, List.any_eq_false]
  intro k hk
  simp [h k hk]

/-- A suggestion that is chosen is not taken by another user. -/
theorem handleUsernameCollision_suggested {draws : Fin 5 → ℕ} {username : String}
    {resp : RegistrationResponse} {suggestions : List String} {extracted : Bool}
    (h : handleUsernameCollision users draws user username resp suggestions extracted =
      .suggested name) : takenByOther users user (some name) = false := by
  unfold handleUsernameCollision at h
  dsimp only at h
  split_ifs at h
  all_goals
    split at h
    · rename_i first rest havailable
      obtain rfl : first = name := by simpa using h
      have hmem := List.mem_filter.mp (havailable ▸ List.mem_cons_self : first ∈ List.filter _ _)
      simpa using hmem.2
    · split at h <;> cases h

/-- A generated name is in no row. -/
theorem handleUsernameCollision_generated {draws : Fin 5 → ℕ} {username : String}
    {resp : RegistrationResponse} {suggestions : List String} {extracted : Bool}
    (h : handleUsernameCollision users draws user username resp suggestions extracted =
      .generated name) : ∀ k ∈ users.keys, (users.row k).edxUsername ≠ some name := by
  unfold handleUsernameCollision at h
  dsimp only at h
  split_ifs at h
  all_goals
    split at h
    · cases h
    · split at h
      · rename_i generated hgenerated
        obtain rfl : generated = name := by simpa using h
        exact generateUniqueUsername_some hgenerated
      · cases h

/-- A name that the user may have: no other user has it, and it fits its column. -/
def Saveable (input : AccountRequest) (name : String) : Prop :=
  takenByOther input.users input.user (some name) = false ∧ name.length ≤ openedxUsernameMaxLen

namespace AccountCall

/-! ## Answers -/

variable (input) in
/-- The answer makes another attempt possible. -/
def leadsOn (c : AccountCall) (answer : EdxAnswer) : Bool :=
  match c.react input answer with
  | .ends _ => false
  | .leaves _ => false
  | .retries _ => true
  | .suggested name _ => decide (name.length ≤ openedxUsernameMaxLen)
  | .generated name _ => decide (name.length ≤ openedxUsernameMaxLen)

variable (input) in
/-- The answer makes the call generate a name. -/
def fallsBack (c : AccountCall) (answer : EdxAnswer) : Bool :=
  match c.react input answer with
  | .generated _ _ => true
  | _ => false

theorem react_suggested {resp : RegistrationResponse}
    (h : c.react input answer = .suggested name resp) :
    takenByOther c.users input.user (some name) = false := by
  unfold react at h
  split at h
  · cases h
  · split_ifs at h
    · split at h
      · cases h
      · split_ifs at h
    · split at h
      · cases h
      · rename_i hcollision
        obtain ⟨rfl, -⟩ : _ = name ∧ _ = resp := by simpa using h
        exact handleUsernameCollision_suggested hcollision
      · cases h

theorem react_generated {resp : RegistrationResponse}
    (h : c.react input answer = .generated name resp) :
    ∀ k ∈ c.users.keys, (c.users.row k).edxUsername ≠ some name := by
  unfold react at h
  split at h
  · cases h
  · split_ifs at h
    · split at h
      · cases h
      · split_ifs at h
    · split at h
      · cases h
      · cases h
      · rename_i hcollision
        obtain ⟨rfl, -⟩ : _ = name ∧ _ = resp := by simpa using h
        exact handleUsernameCollision_generated hcollision

/-! ## Waiting and over -/

/-- A call that waits for the answer to its request number `n + 1`. -/
structure Waits (input : AccountRequest) (n : ℕ) (c : AccountCall) : Prop where
  waiting : c.outcome = none
  requests : c.requests.length = n + 1
  attempt_pos : 0 < c.attempt
  attempt_le : c.attempt ≤ maxAttempts
  others : ∀ name, takenByOther c.users input.user name = takenByOther input.users input.user name
  member : input.user ∈ c.users.keys
  row : c.users.row input.user =
    { input.users.row input.user with edxUsername := some c.currentUsername }
  saved : ∀ name ∈ c.saved, Saveable input name
  currentSaved : c.currentUsername ∈ c.saved
  rejectedSaved : ∀ name ∈ c.rejected, name ∈ c.saved
  userData : input.userDataError = none

/-- A call that is over after at most `n` requests and holds no lock. -/
structure Over (input : AccountRequest) (n : ℕ) (c : AccountCall) : Prop where
  ended : c.outcome ≠ none
  requests : c.requests.length ≤ n
  saved : ∀ name ∈ c.saved, Saveable input name
  released : c.lockHeld = false

/-- What is kept from the answer to the next request: all of `Waits` but the name and the attempt. -/
structure Prepared (input : AccountRequest) (n : ℕ) (c : AccountCall) : Prop where
  waiting : c.outcome = none
  requests : c.requests.length = n
  attempt_lt : c.attempt < maxAttempts
  others : ∀ name, takenByOther c.users input.user name = takenByOther input.users input.user name
  member : input.user ∈ c.users.keys
  row : ∃ edxUsername, c.users.row input.user =
    { input.users.row input.user with edxUsername := edxUsername }
  saved : ∀ name ∈ c.saved, Saveable input name
  rejectedSaved : ∀ name ∈ c.rejected, name ∈ c.saved

theorem saveUsername_of_saveable (hothers : takenByOther users user (some name) = false)
    (hlength : name.length ≤ openedxUsernameMaxLen) :
    saveUsername users user name =
      .ok (users.set user { users.row user with edxUsername := some name }) := by
  rw [saveUsername, hothers, if_neg (by simp), if_neg (not_lt.mpr hlength)]

theorem saveUsername_of_not_saveable
    (h : ¬ (takenByOther users user (some name) = false ∧ name.length ≤ openedxUsernameMaxLen)) :
    ∃ e, saveUsername users user name = .error e := by
  unfold saveUsername
  split_ifs with htaken hlength
  · exact ⟨_, rfl⟩
  · exact ⟨_, rfl⟩
  · exact absurd ⟨by simpa using htaken, not_lt.mp hlength⟩ h

/-- Finishing a prepared call. -/
theorem Over.finish {users : OpenEdxUsers} {outcome : Except Error (Option Bool)}
    (hrequests : c.requests.length ≤ n) (hsaved : ∀ name ∈ c.saved, Saveable input name) :
    Over input n (c.finish users outcome) :=
  ⟨Option.some_ne_none _, hrequests, hsaved, rfl⟩

theorem Over.leaveLoop {resp : RegistrationResponse}
    (hrequests : c.requests.length ≤ n) (hsaved : ∀ name ∈ c.saved, Saveable input name) :
    Over input n (c.leaveLoop input resp) := by
  unfold AccountCall.leaveLoop
  split_ifs
  · exact Over.finish hrequests hsaved
  · exact Over.finish hrequests hsaved
  · exact Over.finish hrequests hsaved

/-- A name that cannot be saved ends the call. -/
theorem Prepared.fails (hc : Prepared input n c) (h : ¬ Saveable input c.currentUsername) :
    Over input n (c.sendRequest input) := by
  obtain ⟨e, herror⟩ := saveUsername_of_not_saveable
    (by rw [hc.others]; exact h)
  rw [sendRequest, herror]
  exact Over.finish hc.requests.le hc.saved

/-- A name that can be saved is saved, and then the call waits for an answer or is over. -/
theorem Prepared.send (hc : Prepared input n c) (h : Saveable input c.currentUsername) :
    (input.userDataError ≠ none ∧ Over input n (c.sendRequest input)) ∨
      (input.userDataError = none ∧ Waits input n (c.sendRequest input) ∧
        (c.sendRequest input).attempt = c.attempt + 1 ∧
        (c.sendRequest input).currentUsername = c.currentUsername ∧
        (c.sendRequest input).rejected = c.rejected) := by
  have hsave := saveUsername_of_saveable (by rw [hc.others]; exact h.1) h.2
  have hsaved : ∀ name ∈ c.currentUsername :: c.saved, Saveable input name := by
    intro name hname
    rcases List.mem_cons.mp hname with rfl | hname
    · exact h
    · exact hc.saved name hname
  rw [sendRequest, hsave]
  cases hdata : input.userDataError with
  | some e => exact .inl ⟨Option.some_ne_none e, Over.finish hc.requests.le hsaved⟩
  | none =>
    refine .inr ⟨rfl, ?_, rfl, rfl, rfl⟩
    exact
      { waiting := hc.waiting
        requests := by rw [List.length_cons, hc.requests]
        attempt_pos := Nat.succ_pos _
        attempt_le := hc.attempt_lt
        others := fun name => by rw [takenByOther_set, hc.others]
        member := by rw [Table.set_keys]; exact hc.member
        row := by
          obtain ⟨edxUsername, hrow⟩ := hc.row
          rw [Table.set_row_self, hrow]
        saved := hsaved
        currentSaved := List.mem_cons_self
        rejectedSaved := fun name hname => List.mem_cons_of_mem _ (hc.rejectedSaved name hname)
        userData := hdata }

/-! ## One answer -/

/-- The next attempt of a waiting call, with a name that no other user has. -/
theorem Waits.next (hc : Waits input n c) (attempt : ℕ) (tried : Bool) {rejected : List String}
    (resp : RegistrationResponse) (hname : takenByOther input.users input.user (some name) = false)
    (hrejected : ∀ name ∈ rejected, name ∈ c.saved) :
    let c' := { c with currentUsername := name, attempt := attempt, triedDuplicateEmailFix := tried,
                       rejected := rejected }.nextAttempt input resp
    (Waits input (n + 1) c' ∧ attempt < maxAttempts ∧ name.length ≤ openedxUsernameMaxLen ∧
        c'.attempt = attempt + 1 ∧ c'.currentUsername = name ∧ c'.rejected = rejected) ∨
      (Over input (n + 1) c' ∧
        (attempt = maxAttempts ∨ maxAttempts < attempt ∨ openedxUsernameMaxLen < name.length)) := by
  intro c'
  by_cases hattempt : attempt < maxAttempts
  · have hprepared : Prepared input (n + 1) { c with
        currentUsername := name, attempt := attempt, triedDuplicateEmailFix := tried,
        rejected := rejected } :=
      { waiting := hc.waiting
        requests := hc.requests
        attempt_lt := hattempt
        others := hc.others
        member := hc.member
        row := ⟨_, hc.row⟩
        saved := hc.saved
        rejectedSaved := hrejected }
    have hnext : c' = { c with
        currentUsername := name, attempt := attempt, triedDuplicateEmailFix := tried,
        rejected := rejected }.sendRequest input := if_pos hattempt
    rw [hnext]
    by_cases hlength : name.length ≤ openedxUsernameMaxLen
    · rcases hprepared.send ⟨hname, hlength⟩ with ⟨hdata, -⟩ | ⟨-, hwaits, hcount, hcurrent, hreject⟩
      · exact absurd hc.userData hdata
      · exact .inl ⟨hwaits, hattempt, hlength, hcount, hcurrent, hreject⟩
    · exact .inr ⟨hprepared.fails fun hsaveable => hlength hsaveable.2, .inr (.inr (not_le.mp hlength))⟩
  · have hnext : c' = { c with
        currentUsername := name, attempt := attempt, triedDuplicateEmailFix := tried,
        rejected := rejected }.leaveLoop input resp := if_neg hattempt
    rw [hnext]
    refine .inr ⟨Over.leaveLoop hc.requests.le hc.saved, ?_⟩
    rcases (not_lt.mp hattempt).eq_or_lt with heq | hlt
    · exact .inl heq.symm
    · exact .inr (.inl hlt)

/-- What an answer that leads on does to the attempts and to the names. -/
structure LedOn (input : AccountRequest) (c : AccountCall) (answer : EdxAnswer) (c' : AccountCall) :
    Prop where
  leads : c.leadsOn input answer = true
  attempt : c'.attempt = if c.fallsBack input answer then 1 else c.attempt + 1
  names : (∃ resp, c.react input answer = .retries resp ∧ c'.currentUsername = c.currentUsername ∧
      c'.rejected = c.rejected) ∨
    ∃ name resp, ((c.react input answer = .suggested name resp ∧ c.attempt < maxAttempts) ∨
        c.react input answer = .generated name resp) ∧
      c'.currentUsername = name ∧ c'.rejected = c.currentUsername :: c.rejected

theorem step_of_waiting (h : c.outcome = none) :
    c.step input answer =
      match c.react input answer with
      | .ends outcome => c.finish (c.usersAtEnd input outcome) outcome
      | .leaves resp => c.leaveLoop input resp
      | .retries resp => { c with triedDuplicateEmailFix := true }.nextAttempt input resp
      | .suggested name resp => (c.withName name).nextAttempt input resp
      | .generated name resp => { c.withName name with attempt := 0 }.nextAttempt input resp := by
  unfold AccountCall.step
  split
  · rename_i heq
    rw [h] at heq
    cases heq
  · rfl

/-- An answer leads on to one more request, or ends the call: because it does not lead on or because it
was the answer to the last attempt. -/
theorem Waits.step (hc : Waits input n c) (answer : EdxAnswer) :
    (Waits input (n + 1) (c.step input answer) ∧ LedOn input c answer (c.step input answer)) ∨
      (Over input (n + 1) (c.step input answer) ∧ (c.leadsOn input answer = false ∨
        (c.fallsBack input answer = false ∧ c.attempt = maxAttempts))) := by
  have hcurrent : Saveable input c.currentUsername := hc.saved _ hc.currentSaved
  have hrejected : ∀ name ∈ c.currentUsername :: c.rejected, name ∈ c.saved := by
    intro name hname
    rcases List.mem_cons.mp hname with rfl | hname
    · exact hc.currentSaved
    · exact hc.rejectedSaved name hname
  cases hreact : c.react input answer with
  | ends outcome =>
    refine .inr ⟨?_, .inl (by rw [leadsOn, hreact])⟩
    rw [step_of_waiting hc.waiting, hreact]
    exact Over.finish hc.requests.le hc.saved
  | leaves resp =>
    refine .inr ⟨?_, .inl (by rw [leadsOn, hreact])⟩
    rw [step_of_waiting hc.waiting, hreact]
    exact Over.leaveLoop hc.requests.le hc.saved
  | retries resp =>
    have hfalls : c.fallsBack input answer = false := by rw [fallsBack, hreact]
    rw [step_of_waiting hc.waiting, hreact]
    rcases hc.next c.attempt true resp hcurrent.1 hc.rejectedSaved with
      ⟨hwaits, -, -, hcount, hname, hreject⟩ | ⟨hover, hwhy⟩
    · refine .inl ⟨hwaits, by rw [leadsOn, hreact], ?_, .inl ⟨resp, hreact, hname, hreject⟩⟩
      rw [hfalls]
      exact hcount
    · refine .inr ⟨hover, .inr ⟨hfalls, ?_⟩⟩
      rcases hwhy with heq | hlt | hlength
      · exact heq
      · exact absurd hc.attempt_le (not_le.mpr hlt)
      · exact absurd hcurrent.2 (not_le.mpr hlength)
  | suggested name resp =>
    have hfalls : c.fallsBack input answer = false := by rw [fallsBack, hreact]
    have hname := react_suggested hreact
    rw [hc.others] at hname
    rw [step_of_waiting hc.waiting, hreact]
    rcases hc.next c.attempt c.triedDuplicateEmailFix resp hname hrejected with
      ⟨hwaits, hlt, hlength, hcount, hcurrentName, hreject⟩ | ⟨hover, hwhy⟩
    · refine .inl ⟨hwaits, ?_, ?_, .inr ⟨name, resp, .inl ⟨hreact, hlt⟩, hcurrentName, hreject⟩⟩
      · rw [leadsOn, hreact]
        exact decide_eq_true hlength
      · rw [hfalls]
        exact hcount
    · refine .inr ⟨hover, ?_⟩
      rcases hwhy with heq | hlt | hlength
      · exact .inr ⟨hfalls, heq⟩
      · exact absurd hc.attempt_le (not_le.mpr hlt)
      · refine .inl ?_
        rw [leadsOn, hreact]
        exact decide_eq_false (not_le.mpr hlength)
  | generated name resp =>
    have hfalls : c.fallsBack input answer = true := by rw [fallsBack, hreact]
    have hname : takenByOther c.users input.user (some name) = false :=
      not_takenByOther_of_not_used (react_generated hreact)
    rw [hc.others] at hname
    rw [step_of_waiting hc.waiting, hreact]
    rcases hc.next 0 c.triedDuplicateEmailFix resp hname hrejected with
      ⟨hwaits, hlt, hlength, hcount, hcurrentName, hreject⟩ | ⟨hover, hwhy⟩
    · refine .inl ⟨hwaits, ?_, ?_, .inr ⟨name, resp, .inr hreact, hcurrentName, hreject⟩⟩
      · rw [leadsOn, hreact]
        exact decide_eq_true hlength
      · rw [hfalls]
        exact hcount
    · refine .inr ⟨hover, .inl ?_⟩
      rcases hwhy with heq | hlt | hlength
      · cases heq
      · cases hlt
      · rw [leadsOn, hreact]
        exact decide_eq_false (not_le.mpr hlength)

end AccountCall

end MitxOnline

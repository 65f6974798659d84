import Mathlib.Order.Nat
import MitxOnline.Openedx.Proofs.AccountCreationProofs

/-!
# The requests of a whole call

A call ends after an answer that does not lead on, or after four answers in a row without a name that
was generated locally. So edX's answers alone decide how many requests are made.
-/

namespace MitxOnline

namespace AccountCall

variable {input : AccountRequest} {c : AccountCall} {answers : ℕ → EdxAnswer} {name : String}
  {bound k m n : ℕ}

variable (input) in
/-- If the call gets the lock, the user's row is there and not synced yet. -/
def Unsynced : Prop :=
  getAttemptableUsername input.usersBefore input.draws input.user input.desiredEdxUsername ≠ none →
    input.acquired = true →
      input.user ∈ input.users.keys ∧ (input.users.row input.user).hasBeenSynced = false

/-! ## The beginning -/

theorem refused_over : Over input 0 (refused input) where
  ended := Option.some_ne_none _
  requests := le_rfl
  saved _ hname := absurd hname List.not_mem_nil
  released := rfl

/-- A call that gets the lock for a user who is not synced waits for an answer, or its first name cannot
be saved. -/
theorem begin_of_unsynced (h : Unsynced input) :
    (Waits input 0 (begin input) ∧ (begin input).attempt = 1 ∧ (begin input).rejected = []) ∨
      Over input 0 (begin input) := by
  unfold begin
  cases hname : getAttemptableUsername input.usersBefore input.draws input.user
      input.desiredEdxUsername with
  | none => exact .inr refused_over
  | some name =>
    cases hacquired : input.acquired with
    | false => exact .inr refused_over
    | true =>
      obtain ⟨hmember, hsynced⟩ := h (by rw [hname]; exact Option.some_ne_none _) hacquired
      have hlocked : Prepared input 0 (locked input name) :=
        { waiting := rfl
          requests := rfl
          attempt_lt := Nat.succ_pos 3
          others := fun _ => rfl
          member := hmember
          row := ⟨_, rfl⟩
          saved := fun _ hname => absurd hname List.not_mem_nil
          rejectedSaved := fun _ hname => absurd hname List.not_mem_nil }
      dsimp only
      rw [if_neg (by simp), if_neg (not_not_intro hmember), if_neg (by simp [hsynced])]
      by_cases hsaveable : Saveable input name
      · rcases hlocked.send hsaveable with ⟨-, hover⟩ | ⟨-, hwaits, hcount, -, hreject⟩
        · exact .inr hover
        · exact .inl ⟨hwaits, hcount, hreject⟩
      · exact .inr (hlocked.fails hsaveable)

/-- A call that finds the user synced, or no row, returns or raises with the lock held. -/
theorem begin_of_not_unsynced (h : ¬ Unsynced input) :
    (begin input).outcome ≠ none ∧ (begin input).lockHeld = true := by
  unfold Unsynced at h
  push Not at h
  obtain ⟨hname, hacquired, hsynced⟩ := h
  obtain ⟨name, hname⟩ := Option.ne_none_iff_exists'.mp hname
  unfold begin
  rw [hname]
  dsimp only
  rw [if_neg (by simp [hacquired])]
  by_cases hmember : input.user ∈ input.users.keys
  · rw [if_neg (not_not_intro hmember), if_pos (by simpa using hsynced hmember)]
    exact ⟨Option.some_ne_none _, rfl⟩
  · rw [if_pos hmember]
    exact ⟨Option.some_ne_none _, rfl⟩

/-! ## The answers one after the other -/

/-- A call that is over reads no answer. -/
theorem step_of_over {answer : EdxAnswer} (h : c.outcome ≠ none) : c.step input answer = c := by
  obtain ⟨outcome, houtcome⟩ := Option.ne_none_iff_exists'.mp h
  unfold AccountCall.step
  rw [houtcome]

theorem after_of_over (h : (after input answers m).outcome ≠ none) (hmn : m ≤ n) :
    after input answers n = after input answers m := by
  induction n, hmn using Nat.le_induction with
  | base => rfl
  | succ n _ ih =>
    rw [after, ih]
    exact step_of_over h

/-- At any time the call waits or is over. -/
theorem after_cases (h : Unsynced input) (answers : ℕ → EdxAnswer) (n : ℕ) :
    Waits input n (after input answers n) ∨ Over input n (after input answers n) := by
  induction n with
  | zero =>
    rcases begin_of_unsynced h with ⟨hwaits, -⟩ | hover
    · exact .inl hwaits
    · exact .inr hover
  | succ n ih =>
    rcases ih with hwaits | hover
    · rcases hwaits.step (answers n) with ⟨hnext, -⟩ | ⟨hnext, -⟩
      · exact .inl hnext
      · exact .inr hnext
    · rw [after, step_of_over hover.ended]
      exact .inr { hover with requests := hover.requests.trans (Nat.le_succ n) }

/-- A call that waits has waited before. -/
theorem waits_of_waits_succ (h : Unsynced input) (hn : Waits input (n + 1) (after input answers (n + 1))) :
    Waits input n (after input answers n) ∧
      LedOn input (after input answers n) (answers n) (after input answers (n + 1)) := by
  rcases after_cases h answers n with hwaits | hover
  · rcases hwaits.step (answers n) with ⟨-, hled⟩ | ⟨hnext, -⟩
    · exact ⟨hwaits, hled⟩
    · exact absurd hn.waiting hnext.ended
  · have hsame : after input answers (n + 1) = after input answers n := step_of_over hover.ended
    rw [hsame] at hn
    exact absurd hn.waiting hover.ended

/-! ## How many requests are made -/

variable (input) in
/-- The answer number `k` ends the call: it does not lead on, or it is the fourth in a row that does not
make the call generate a name. -/
def EndsAt (answers : ℕ → EdxAnswer) (k : ℕ) : Prop :=
  (after input answers k).leadsOn input (answers k) = false ∨
    (3 ≤ k ∧ ∀ i, k ≤ i + 3 → i ≤ k → (after input answers i).fallsBack input (answers i) = false)

/-- The attempts are counted from the last generated name. -/
theorem not_fallsBack_of_lt_attempt (h : Unsynced input) (hn : Waits input n (after input answers n))
    {j : ℕ} (hj : j < (after input answers n).attempt) :
    j ≤ n ∧ ∀ i, n ≤ i + j → i < n → (after input answers i).fallsBack input (answers i) = false := by
  induction n generalizing j with
  | zero =>
    rcases begin_of_unsynced h with ⟨-, hattempt, -⟩ | hover
    · have hzero : j < 1 := hattempt ▸ hj
      exact ⟨Nat.le_of_lt_succ hzero, fun i _ hi => absurd hi (Nat.not_lt_zero i)⟩
    · exact absurd hn.waiting hover.ended
  | succ n ih =>
    obtain ⟨hwaits, hled⟩ := waits_of_waits_succ h hn
    cases j with
    | zero => exact ⟨Nat.zero_le _, fun i hle hlt => absurd hlt (not_lt.mpr hle)⟩
    | succ j =>
      cases hfalls : (after input answers n).fallsBack input (answers n) with
      | true =>
        rw [hled.attempt, hfalls, if_pos rfl] at hj
        omega
      | false =>
        rw [hled.attempt, hfalls, if_neg (by simp)] at hj
        obtain ⟨hle, hbefore⟩ := ih hwaits (Nat.lt_of_succ_lt_succ hj)
        refine ⟨Nat.succ_le_succ hle, fun i hi hin => ?_⟩
        rcases Nat.lt_succ_iff_lt_or_eq.mp hin with hlt | rfl
        · exact hbefore i (by omega) hlt
        · exact hfalls

/-- Answers in a row without a generated name are counted. -/
theorem lt_attempt_of_not_fallsBack (h : Unsynced input) (hn : Waits input n (after input answers n))
    {j : ℕ} (hj : j ≤ n)
    (hbefore : ∀ i, n ≤ i + j → i < n → (after input answers i).fallsBack input (answers i) = false) :
    j < (after input answers n).attempt := by
  induction j generalizing n with
  | zero => exact hn.attempt_pos
  | succ j ih =>
    obtain ⟨n, rfl⟩ : ∃ n', n = n' + 1 := ⟨n - 1, by omega⟩
    obtain ⟨hwaits, hled⟩ := waits_of_waits_succ h hn
    have hfalls := hbefore n (by omega) (Nat.lt_succ_self n)
    have hlt := ih hwaits (Nat.le_of_succ_le_succ hj) fun i hi hin => hbefore i (by omega) (by omega)
    rw [hled.attempt, hfalls, if_neg (by simp)]
    exact Nat.succ_lt_succ hlt

/-- A call that waits is over after the answer exactly if the answer ends it. -/
theorem over_succ_iff (h : Unsynced input) (hk : Waits input k (after input answers k)) :
    Over input (k + 1) (after input answers (k + 1)) ↔ EndsAt input answers k := by
  constructor
  · intro hover
    rcases hk.step (answers k) with ⟨hwaits, -⟩ | ⟨-, hleads | ⟨hfalls, hattempt⟩⟩
    · exact absurd hwaits.waiting hover.ended
    · exact .inl hleads
    · have hthree : 3 < (after input answers k).attempt := by
        rw [hattempt]
        exact Nat.lt_succ_self 3
      obtain ⟨hle, hbefore⟩ := not_fallsBack_of_lt_attempt h hk hthree
      refine .inr ⟨hle, fun i hi hik => ?_⟩
      rcases hik.lt_or_eq with hlt | rfl
      · exact hbefore i hi hlt
      · exact hfalls
  · intro hends
    rcases after_cases h answers (k + 1) with hwaits | hover
    · obtain ⟨-, hled⟩ := waits_of_waits_succ h hwaits
      rcases hends with hleads | ⟨hk3, hfalls⟩
      · rw [hled.leads] at hleads
        cases hleads
      · have hfour : 4 < (after input answers (k + 1)).attempt :=
          lt_attempt_of_not_fallsBack h hwaits (Nat.succ_le_succ hk3) fun i hi hik =>
            hfalls i (by omega) (Nat.le_of_lt_succ hik)
        exact absurd hwaits.attempt_le (not_le.mpr hfour)
    · exact hover

/-- At most `bound` requests are made exactly if the call is over by then. -/
theorem requests_le_iff (h : Unsynced input) :
    (∀ n, (after input answers n).requests.length ≤ bound) ↔
      ∃ m ≤ bound, Over input m (after input answers m) := by
  constructor
  · intro hle
    rcases after_cases h answers bound with hwaits | hover
    · have hlength := hle bound
      rw [hwaits.requests] at hlength
      exact absurd hlength (Nat.not_succ_le_self bound)
    · exact ⟨bound, le_rfl, hover⟩
  · rintro ⟨m, hm, hover⟩ n
    rcases Nat.lt_or_ge n m with hlt | hge
    · rcases after_cases h answers n with hwaits | hnext
      · rw [hwaits.requests]
        exact (Nat.succ_le_of_lt hlt).trans hm
      · exact hnext.requests.trans (hlt.le.trans hm)
    · rw [after_of_over hover.ended hge]
      exact hover.requests.trans hm

/-- The call is over by then exactly if an answer before ends it or it makes no request at all. -/
theorem over_iff (h : Unsynced input) :
    (∃ m ≤ bound, Over input m (after input answers m)) ↔
      (begin input).outcome ≠ none ∨ ∃ k < bound, EndsAt input answers k := by
  constructor
  · rintro ⟨m, hm, hover⟩
    induction m with
    | zero => exact .inl hover.ended
    | succ k ih =>
      rcases after_cases h answers k with hwaits | hbefore
      · exact .inr ⟨k, hm, (over_succ_iff h hwaits).mp hover⟩
      · exact ih (Nat.le_of_succ_le hm) hbefore
  · rintro (hbegin | ⟨k, hk, hends⟩)
    · rcases after_cases h answers 0 with hwaits | hover
      · exact absurd hwaits.waiting hbegin
      · exact ⟨0, Nat.zero_le _, hover⟩
    · rcases after_cases h answers k with hwaits | hover
      · exact ⟨k + 1, hk, (over_succ_iff h hwaits).mpr hends⟩
      · exact ⟨k, hk.le, hover⟩

/-! ## What a call should keep -/

variable (input) in
/-- At most `bound` requests are made, none of them with a name that was answered as taken before; no
name of another user is saved; and a call that is over holds no lock. -/
structure Sound (bound : ℕ) (answers : ℕ → EdxAnswer) : Prop where
  bounded : ∀ n, (after input answers n).requests.length ≤ bound
  fresh : ∀ n, (after input answers n).outcome = none →
    (after input answers n).currentUsername ∉ (after input answers n).rejected
  owned : ∀ n, ∀ name ∈ (after input answers n).saved,
    takenByOther input.users input.user (some name) = false
  released : ∀ n, (after input answers n).outcome ≠ none → (after input answers n).lockHeld = false

variable (input) in
/-- The user is not synced when the lock is acquired; one of the first `bound` answers ends the call;
and no suggestion that is followed, and no generated name, was answered as taken before. -/
structure Favourable (bound : ℕ) (answers : ℕ → EdxAnswer) : Prop where
  unsynced : Unsynced input
  ends : (begin input).outcome ≠ none ∨ ∃ k < bound, EndsAt input answers k
  suggestions : ∀ n name resp, (after input answers n).outcome = none →
    (after input answers n).react input (answers n) = .suggested name resp →
      (after input answers n).attempt < maxAttempts →
        name ∉ (after input answers n).currentUsername :: (after input answers n).rejected
  generated : ∀ n name resp, (after input answers n).outcome = none →
    (after input answers n).react input (answers n) = .generated name resp →
      name ∉ (after input answers n).rejected

theorem waits_of_outcome (h : Unsynced input) (hn : (after input answers n).outcome = none) :
    Waits input n (after input answers n) := by
  rcases after_cases h answers n with hwaits | hover
  · exact hwaits
  · exact absurd hn hover.ended

/-- A name that was answered as taken, and is chosen again with an attempt left, is submitted again. -/
theorem resubmits (h : Unsynced input) (hn : (after input answers n).outcome = none)
    {resp : RegistrationResponse}
    (hreact : ((after input answers n).react input (answers n) = .suggested name resp ∧
        (after input answers n).attempt < maxAttempts) ∨
      (after input answers n).react input (answers n) = .generated name resp)
    (hname : name ∈ (after input answers n).currentUsername :: (after input answers n).rejected) :
    (after input answers (n + 1)).outcome = none ∧
      (after input answers (n + 1)).currentUsername ∈ (after input answers (n + 1)).rejected := by
  have hwaits := waits_of_outcome h hn
  have hsaved : name ∈ (after input answers n).saved := by
    rcases List.mem_cons.mp hname with rfl | hname
    · exact hwaits.currentSaved
    · exact hwaits.rejectedSaved name hname
  have hleads : (after input answers n).leadsOn input (answers n) = true := by
    rcases hreact with ⟨hreact, -⟩ | hreact
    · rw [leadsOn, hreact]
      exact decide_eq_true (hwaits.saved name hsaved).2
    · rw [leadsOn, hreact]
      exact decide_eq_true (hwaits.saved name hsaved).2
  rcases hwaits.step (answers n) with ⟨hnext, hled⟩ | ⟨-, hfalse | ⟨hfalls, hattempt⟩⟩
  · refine ⟨hnext.waiting, ?_⟩
    rcases hled.names with ⟨resp', hretries, -⟩ | ⟨name', resp', hreact', hcurrent, hrejected⟩
    · rcases hreact with ⟨hreact, -⟩ | hreact
      · rw [hreact] at hretries
        cases hretries
      · rw [hreact] at hretries
        cases hretries
    · have hsame : name' = name := by
        rcases hreact with ⟨hreact, -⟩ | hreact <;> rcases hreact' with ⟨hreact', -⟩ | hreact' <;>
          rw [hreact] at hreact' <;> cases hreact' <;> rfl
      change (AccountCall.step input _ _).currentUsername ∈ (AccountCall.step input _ _).rejected
      rw [hcurrent, hrejected, hsame]
      exact hname
  · rw [hleads] at hfalse
    cases hfalse
  · rcases hreact with ⟨-, hlt⟩ | hreact
    · exact absurd hattempt hlt.ne
    · rw [fallsBack, hreact] at hfalls
      cases hfalls

theorem Favourable.fresh (h : Favourable input bound answers)
    (hn : (after input answers n).outcome = none) :
    (after input answers n).currentUsername ∉ (after input answers n).rejected := by
  induction n with
  | zero =>
    rcases begin_of_unsynced h.unsynced with ⟨-, -, hrejected⟩ | hover
    · rw [after, hrejected]
      exact List.not_mem_nil
    · exact absurd hn hover.ended
  | succ n ih =>
    obtain ⟨hwaits, hled⟩ := waits_of_waits_succ h.unsynced (waits_of_outcome h.unsynced hn)
    rcases hled.names with ⟨resp, -, hcurrent, hrejected⟩ | ⟨name, resp, hreact, hcurrent, hrejected⟩
    · rw [hcurrent, hrejected]
      exact ih hwaits.waiting
    · rw [hcurrent, hrejected]
      rcases hreact with ⟨hreact, hlt⟩ | hreact
      · exact h.suggestions n name resp hwaits.waiting hreact hlt
      · -- a generated name is not the one in the user's own row
        refine List.not_mem_cons_of_ne_of_not_mem ?_ (h.generated n name resp hwaits.waiting hreact)
        rintro rfl
        exact react_generated hreact input.user hwaits.member (by rw [hwaits.row])

/-- A call makes at most `bound` requests, never submits a name again that edX answered as taken, saves
no name of another user and releases its lock, exactly if edX's answers and the user's row are
favourable. -/
theorem createEdxUserRequest_sound_iff (bound : ℕ) (input : AccountRequest) (answers : ℕ → EdxAnswer) :
    Sound input bound answers ↔ Favourable input bound answers := by
  constructor
  · intro h
    have hunsynced : Unsynced input := by
      by_contra hsynced
      obtain ⟨hover, hheld⟩ := begin_of_not_unsynced hsynced
      have hreleased := h.released 0 hover
      rw [after, hheld] at hreleased
      cases hreleased
    refine ⟨hunsynced, ?_, ?_, ?_⟩
    · exact (over_iff hunsynced).mp ((requests_le_iff hunsynced).mp h.bounded)
    · intro n name resp hn hreact hlt hname
      obtain ⟨hnext, hagain⟩ := resubmits hunsynced hn (.inl ⟨hreact, hlt⟩) hname
      exact h.fresh (n + 1) hnext hagain
    · intro n name resp hn hreact hname
      obtain ⟨hnext, hagain⟩ := resubmits hunsynced hn (.inr hreact) (List.mem_cons_of_mem _ hname)
      exact h.fresh (n + 1) hnext hagain
  · intro h
    refine ⟨?_, fun n hn => h.fresh hn, ?_, ?_⟩
    · exact (requests_le_iff h.unsynced).mpr ((over_iff h.unsynced).mpr h.ends)
    · intro n name hname
      rcases after_cases h.unsynced answers n with hwaits | hover
      · exact (hwaits.saved name hname).1
      · exact (hover.saved name hname).1
    · intro n hn
      rcases after_cases h.unsynced answers n with hwaits | hover
      · exact absurd hwaits.waiting hn
      · exact hover.released

/-! ## An edX that takes no name -/

/-- edX has every name and suggests none. -/
def nameTaken : EdxAnswer := ⟨.ok ⟨409, ⟨some "duplicate-username", []⟩⟩, .ok 200, fun _ => 0⟩

/-- The only local user, who wants the name `a` and is not synced. -/
def onlyUser : AccountRequest where
  user := 1
  username := "a@b.c"
  desiredEdxUsername := some "a"
  usersBefore := .single 1 ⟨some "a", some "a", false, false, none⟩
  draws := fun _ => 0
  acquired := true
  users := .single 1 ⟨some "a", some "a", false, false, none⟩
  userDataError := none

theorem onlyUser_unsynced : Unsynced onlyUser := fun _ _ => ⟨by decide, rfl⟩

/-- Some generated name is not the one in the row. -/
theorem generateUniqueUsername_onlyUser (hc : Waits onlyUser n c) :
    ∃ name, generateUniqueUsername c.users nameTaken.draws "a" = some name ∧
      name.length ≤ openedxUsernameMaxLen := by
  have hused : ∀ name, (c.users.keys.any fun k => (c.users.row k).edxUsername == some name) = true →
      name = c.currentUsername := by
    intro name hname
    obtain ⟨k, hk, heq⟩ := List.any_eq_true.mp hname
    by_cases hk1 : k = onlyUser.user
    · rw [hk1, hc.row] at heq
      exact (Option.some.inj (by simpa using heq)).symm
    · have hother : takenByOther c.users onlyUser.user (some name) = true :=
        List.any_eq_true.mpr ⟨k, hk, by simpa [hk1] using heq⟩
      rw [hc.others] at hother
      simp [takenByOther, onlyUser, Table.single] at hother
  cases hgenerated : generateUniqueUsername c.users nameTaken.draws "a" with
  | none =>
    have hall := List.find?_eq_none.mp hgenerated
    have hfirst := hused "a_0" (by simpa using hall "a_0" (by decide))
    have hsecond := hused "a_10" (by simpa using hall "a_10" (by decide))
    rw [← hfirst] at hsecond
    exact absurd hsecond (by decide)
  | some name =>
    refine ⟨name, rfl, ?_⟩
    have hmem := List.mem_of_find?_eq_some hgenerated
    clear hgenerated
    revert name
    decide

/-- Without suggestions, the call generates a name. -/
theorem react_nameTaken (hc : Waits onlyUser n c)
    (hname : generateUniqueUsername c.users nameTaken.draws "a" = some name) :
    c.react onlyUser nameTaken = .generated name ⟨409, ⟨some "duplicate-username", []⟩⟩ := by
  have hdesired : (c.users.row onlyUser.user).desiredEdxUsername = some "a" := by
    rw [hc.row]
    rfl
  have hcollision : handleUsernameCollision c.users nameTaken.draws onlyUser.user onlyUser.username
      ⟨409, ⟨some "duplicate-username", []⟩⟩ [] false = .generated name := by
    unfold handleUsernameCollision
    rw [if_neg (by decide), hdesired]
    simp [extractUsernameSuggestions, hname]
  simp only [react, nameTaken] at hcollision ⊢
  rw [if_neg (by decide), if_neg (by simp [RegistrationResponse.isDuplicateEmailError]), hcollision]

/-- Each answer makes the call generate a name and ask again. -/
theorem waits_nameTaken (n : ℕ) : Waits onlyUser n (after onlyUser (fun _ => nameTaken) n) := by
  induction n with
  | zero =>
    refine waits_of_outcome onlyUser_unsynced ?_
    decide
  | succ n ih =>
    rcases after_cases onlyUser_unsynced (fun _ => nameTaken) (n + 1) with hwaits | hover
    · exact hwaits
    · obtain ⟨name, hname, hlength⟩ := generateUniqueUsername_onlyUser ih
      have hreact := react_nameTaken ih hname
      rcases (over_succ_iff onlyUser_unsynced ih).mp hover with hleads | ⟨-, hfalls⟩
      · rw [leadsOn, hreact] at hleads
        exact absurd hlength (of_decide_eq_false hleads)
      · have hlast := hfalls n (Nat.le_add_right n 3) le_rfl
        rw [fallsBack, hreact] at hlast
        cases hlast

/-- There is no bound on the requests of a call. -/
theorem not_createEdxUserRequest_sound :
    ¬ ∃ bound, ∀ (input : AccountRequest) (answers : ℕ → EdxAnswer), Sound input bound answers := by
  rintro ⟨bound, hsound⟩
  have hbounded := (hsound onlyUser fun _ => nameTaken).bounded bound
  rw [(waits_nameTaken bound).requests] at hbounded
  exact Nat.not_succ_le_self bound hbounded

end AccountCall

end MitxOnline

import Mathlib.Tactic.SplitIfs
import MitxOnline.Lib.NumberedNames
import MitxOnline.Openedx.Proofs.AccountCreationProofs
import MitxOnline.Openedx.Usernames

/-!
# Whether generated usernames are recognisable

A name that is too long is cut to as many characters as it has too many. That leaves the longest prefix with
room for the number only if there are as many as that prefix has.
-/

namespace MitxOnline

open NumberedNames

variable {users : OpenEdxUsers} {user : UserId} {draws : Fin 5 → ℕ} {maxLength n : ℕ} {base name : String}
  {profile : NamedUser} {desired : Option String}
  {usernameify : String → String → ℕ → Except Error String}

/-- What `generate_unique_username` returns is not taken, short enough and starts with the longest prefix of
the base name that leaves room for the number. -/
def GeneratesWell (users : OpenEdxUsers) (draws : Fin 5 → ℕ) (base : String) (maxLength : ℕ) : Prop :=
  ∀ name, generateUniqueUsernameWithin users draws base maxLength = some name →
    usernameExists users name = false ∧ Recognisable maxLength base.toList name.toList

/-- The user has no edX username. -/
def HasNoUsername (users : OpenEdxUsers) (user : UserId) : Prop :=
  user ∈ users.keys → (users.row user).edxUsername.getD "" = ""

/-- If the user has an edX username, no other record has it, it has no `@` and it is short enough. -/
def LegalUsername (users : OpenEdxUsers) (user : UserId) : Prop :=
  ∀ name, (users.row user).edxUsername = some name → name ≠ "" →
    (∀ k ∈ users.keys, k ≠ user → (users.row k).edxUsername ≠ some name) ∧ '@' ∉ name.toList ∧
      name.length ≤ openedxUsernameMaxLen

/-- The name fits with the number as it is, or it exceeds the length by no more than the longest prefix that
leaves room has, and the number repeats what of that prefix is cut off. -/
def EnoughRoom (maxLength : ℕ) (base : String) (randomInt : ℕ) : Prop :=
  let suffix := '-' :: (toString randomInt).toList
  base.length + suffix.length ≤ maxLength ∨
    base.length + 2 * suffix.length ≤ 2 * maxLength ∧
      (base.toList.take (maxLength - suffix.length)).drop (base.length + suffix.length - maxLength) <+: suffix

/-! ## Names that are tried -/

/-- `generate_unique_username` with its default length. -/
theorem generateUniqueUsername_eq (users : OpenEdxUsers) (draws : Fin 5 → ℕ) (base : String) :
    generateUniqueUsername users draws base =
      generateUniqueUsernameWithin users draws base openedxUsernameMaxLen := rfl

theorem isDigit_of_mem_toString {c : Char} (h : c ∈ (toString n).toList) : c.isDigit = true := by
  have hdigits : (toString n).toList = Nat.toDigits 10 n := Nat.toList_repr
  rw [hdigits] at h
  exact Nat.isDigit_of_mem_toDigits (by decide) (by decide) h

theorem usernameToTryWithin_toList (maxLength : ℕ) (base : String) (n : ℕ) :
    (usernameToTryWithin maxLength base n).toList =
      if maxLength < base.length + (1 + (toString n).toList.length) then
        base.toList.take (base.length + (1 + (toString n).toList.length) - maxLength) ++
          '-' :: (toString n).toList
      else base.toList ++ '_' :: (toString n).toList := by
  have hlength : (base ++ "_" ++ toString n).length = base.length + (1 + (toString n).toList.length) := by
    have hsep : "_".length = 1 := rfl
    rw [String.length_append, String.length_append, hsep, String.length_toList]
    omega
  unfold usernameToTryWithin
  dsimp only
  rw [hlength]
  split_ifs <;> simp

theorem recognisable_usernameToTryWithin_iff :
    Recognisable maxLength base.toList (usernameToTryWithin maxLength base n).toList ↔
      EnoughRoom maxLength base n := by
  have hdigits : ∀ c ∈ (toString n).toList, c.isDigit = true := fun _ => isDigit_of_mem_toString
  rw [usernameToTryWithin_toList]
  unfold EnoughRoom
  dsimp only
  rw [List.length_cons, Nat.add_comm (toString n).toList.length 1]
  generalize (toString n).toList = digits at hdigits ⊢
  split_ifs with h
  · rw [or_iff_right (by omega)]
    by_cases hcut : base.length + (1 + digits.length) - maxLength ≤ base.toList.length
    · rw [recognisable_cut_iff rfl hdigits hcut]
      refine and_congr_left' ?_
      rw [String.length_toList] at hcut
      constructor <;> intro hle <;> omega
    · -- there is no room for the number alone
      rw [String.length_toList] at hcut
      refine iff_of_false (fun hrec => ?_) fun henough => ?_
      · have hfits := hrec.fits
        rw [List.length_append, List.length_cons, List.length_take, String.length_toList] at hfits
        omega
      · have hle := henough.1
        omega
  · exact iff_of_true (recognisable_append (by rw [String.length_toList]; omega)) (.inl (by omega))

/-- The name that is generated is the one of the first number whose name is not taken. -/
theorem generateUniqueUsernameWithin_eq (users : OpenEdxUsers) (draws : Fin 5 → ℕ) (base : String)
    (maxLength : ℕ) : generateUniqueUsernameWithin users draws base maxLength =
      ((randomInts draws).find? fun n => !usernameExists users (usernameToTryWithin maxLength base n)).map
        (usernameToTryWithin maxLength base) := by
  unfold generateUniqueUsernameWithin
  rw [List.find?_map]
  rfl

theorem generatesWell_iff : GeneratesWell users draws base maxLength ↔
    ∀ n, ((randomInts draws).find? fun n => !usernameExists users (usernameToTryWithin maxLength base n)) =
      some n → EnoughRoom maxLength base n := by
  unfold GeneratesWell
  rw [generateUniqueUsernameWithin_eq]
  constructor
  · intro h n hn
    refine recognisable_usernameToTryWithin_iff.mp (h _ ?_).2
    rw [hn]
    rfl
  · intro h name hname
    obtain ⟨n, hn, rfl⟩ := Option.map_eq_some_iff.mp hname
    have hfree := List.find?_some hn
    exact ⟨by simpa using hfree, recognisable_usernameToTryWithin_iff.mpr (h n hn)⟩

/-! ## Names that are reconciled -/

theorem usernameToTryWithin_no_at (h : '@' ∉ base.toList) :
    '@' ∉ (usernameToTryWithin maxLength base n).toList := by
  have hdigits : '@' ∉ (toString n).toList := fun hmem =>
    absurd (isDigit_of_mem_toString hmem) (by decide)
  rw [usernameToTryWithin_toList]
  split_ifs
  · intro hmem
    rcases List.mem_append.mp hmem with hmem | hmem
    · exact h (List.mem_of_mem_take hmem)
    · rcases List.mem_cons.mp hmem with hmem | hmem
      · exact absurd hmem (by decide)
      · exact hdigits hmem
  · intro hmem
    rcases List.mem_append.mp hmem with hmem | hmem
    · exact h hmem
    · rcases List.mem_cons.mp hmem with hmem | hmem
      · exact absurd hmem (by decide)
      · exact hdigits hmem

theorem generateUniqueUsername_no_at (h : '@' ∉ base.toList)
    (hname : generateUniqueUsername users draws base = some name) : '@' ∉ name.toList := by
  rw [generateUniqueUsername_eq, generateUniqueUsernameWithin_eq] at hname
  obtain ⟨n, -, rfl⟩ := Option.map_eq_some_iff.mp hname
  exact usernameToTryWithin_no_at h

/-- The name that is tried first has no `@`, whichever source it has. -/
theorem firstEdxUsername_no_at
    (hlegal : ∀ fullName email maxLength name, usernameify fullName email maxLength = .ok name →
      '@' ∉ name.toList) (h : firstEdxUsername usernameify profile desired = .ok name) :
    '@' ∉ name.toList := by
  unfold firstEdxUsername at h
  dsimp only at h
  split_ifs at h with hdesired hblocked hempty hempty
  · cases h
    exact hdesired.2
  · exact absurd rfl hempty
  · exact hlegal _ _ _ _ h
  · cases h
    rw [String.toList_ofList]
    exact fun hmem => hblocked (.inl (List.mem_of_mem_take hmem))
  · exact hlegal _ _ _ _ h

theorem legalUsername_of_getD (h : (users.row user).edxUsername.getD "" = "") : LegalUsername users user := by
  intro name hname hne
  rw [hname] at h
  exact absurd h hne

/-- A name that is saved is no other's and fits its column; one that is refused leaves the rows. -/
theorem saveBothUsernames_legal (hat : '@' ∉ name.toList) (hnone : (users.row user).edxUsername.getD "" = "") :
    LegalUsername (saveBothUsernames users user name).1 user := by
  unfold saveBothUsernames saveUsername
  split_ifs with htaken hlong
  · exact legalUsername_of_getD hnone
  · exact legalUsername_of_getD hnone
  · intro saved hsaved _
    dsimp only at hsaved ⊢
    rw [Table.set_row_self, Table.set_row_self] at hsaved
    obtain rfl : name = saved := Option.some.inj hsaved
    refine ⟨fun k hk hku => ?_, hat, not_lt.mp hlong⟩
    have hfree := List.any_eq_false.mp (Bool.not_eq_true _ ▸ htaken) k hk
    rw [Table.set_row_of_ne _ _ hku, Table.set_row_of_ne _ _ hku]
    intro heq
    exact hfree (by simp [hku, heq])

theorem getOrCreate_noUsername (h : HasNoUsername users user) :
    ((getOrCreateOpenEdxUser users user).row user).edxUsername.getD "" = "" := by
  unfold getOrCreateOpenEdxUser
  split_ifs with hmem
  · exact h hmem
  · rw [Table.put_row_self]
    rfl

/-- Whatever the source of the name and however long it is, the user is left without a name or with a legal
one. -/
theorem reconcileEdxUsername_legal
    (hlegal : ∀ fullName email maxLength name, usernameify fullName email maxLength = .ok name →
      '@' ∉ name.toList) (h : HasNoUsername users user) :
    LegalUsername (reconcileEdxUsername usernameify users draws user profile desired).1 user := by
  have hnone := getOrCreate_noUsername h
  unfold reconcileEdxUsername
  dsimp only
  rw [if_neg (not_not_intro hnone)]
  cases hfirst : firstEdxUsername usernameify profile desired with
  | error e => exact legalUsername_of_getD hnone
  | ok first =>
    have hat := firstEdxUsername_no_at hlegal hfirst
    dsimp only
    split_ifs with hexists
    · exact saveBothUsernames_legal hat hnone
    · cases hgenerated : generateUniqueUsername (getOrCreateOpenEdxUser users user) draws first with
      | none => exact legalUsername_of_getD hnone
      | some name => exact saveBothUsernames_legal (generateUniqueUsername_no_at hat hgenerated) hnone

/-! ## The two together -/

/-- Generated names are recognisable exactly if there is enough room for the number that is used, and
reconciled ones are legal in any case. -/
theorem generatedUsernames_iff
    (hlegal : ∀ fullName email maxLength name, usernameify fullName email maxLength = .ok name →
      '@' ∉ name.toList) :
    (GeneratesWell users draws base maxLength ∧ (HasNoUsername users user →
      LegalUsername (reconcileEdxUsername usernameify users draws user profile desired).1 user)) ↔
    ∀ n, ((randomInts draws).find? fun n => !usernameExists users (usernameToTryWithin maxLength base n)) =
      some n → EnoughRoom maxLength base n := by
  rw [generatesWell_iff]
  exact and_iff_left (reconcileEdxUsername_legal hlegal)

/-- What is made of the name Bob Jones. -/
def bobJones (fullName _email : String) (_maxLength : ℕ) : Except Error String :=
  if fullName = "Bob Jones" then .ok "bob-jones" else .error (.valueError "Username could not be generated")

theorem bobJones_legal (fullName email : String) (maxLength : ℕ) (name : String)
    (h : bobJones fullName email maxLength = .ok name) : '@' ∉ name.toList := by
  unfold bobJones at h
  split_ifs at h
  cases h
  decide

/-- No row yet. -/
def noOpenEdxUsers : OpenEdxUsers := ⟨[], fun _ => ⟨none, none, false, false, none⟩, Table.sorted_nil⟩

/-- A short name keeps all its characters. -/
theorem generatedUsernames_short :
    GeneratesWell noOpenEdxUsers (fun _ => 0) "bob" 30 ∧ (HasNoUsername noOpenEdxUsers 1 →
      LegalUsername (reconcileEdxUsername bobJones noOpenEdxUsers (fun _ => 0) 1
        ⟨"bobjones@place.email", "Bob Jones", "bobjones@place.email"⟩ none).1 1) := by
  refine (generatedUsernames_iff bobJones_legal).mpr fun n hn => ?_
  have hfirst : (randomInts fun _ => 0).find?
      (fun n => !usernameExists noOpenEdxUsers (usernameToTryWithin 30 "bob" n)) = some 0 := rfl
  rw [hfirst] at hn
  cases hn
  exact .inl (by decide)

/-- Of thirty characters two are left. -/
theorem not_generatedUsernames :
    ¬∀ usernameify : String → String → ℕ → Except Error String,
      (∀ fullName email maxLength name, usernameify fullName email maxLength = .ok name →
        '@' ∉ name.toList) →
      ∀ users user draws base maxLength profile desired,
        GeneratesWell users draws base maxLength ∧ (HasNoUsername users user →
          LegalUsername (reconcileEdxUsername usernameify users draws user profile desired).1 user) := by
  intro h
  have hwell := (h bobJones bobJones_legal noOpenEdxUsers 1 (fun _ => 0) "abcdefghijklmnopqrstuvwxyzabcd" 30
    ⟨"bobjones@place.email", "Bob Jones", "bobjones@place.email"⟩ none).1
  have hstarts := (hwell "ab-0" rfl).2.startsWith "abc".toList
  have hpre : LeavesRoom 30 "abcdefghijklmnopqrstuvwxyzabcd".toList (trailingDigits "ab-0".toList)
      "abc".toList := ⟨by decide, by decide⟩
  exact absurd (hstarts hpre) (by decide)

end MitxOnline

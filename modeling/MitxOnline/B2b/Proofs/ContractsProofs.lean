import MitxOnline.B2b.Contracts
import MitxOnline.Lib.Autocommit

/-!
# What the code of contracts and organizations writes

For each function, the writes it is made of: a relation between databases that these writes keep is
kept by the function, wherever it stops.
-/

namespace MitxOnline

open Autocommit

variable {r : Store → Store → Prop} {f : Faults} {cat : Catalog} {user : UserId}
  {now : Instant}

/-- The state after code that can only fail is the state before. -/
@[simp] theorem mayFail_state (f : Faults) (point : Point) (s : Store) :
    (mayFail f point s).state = s := by
  unfold mayFail fallible
  cases f point <;> rfl

theorem fallible_of_fault {point : Point} {a : Code} {s : Store} (h : f point ≠ none) :
    ∃ e, fallible f point a s = ⟨s, some e⟩ := by
  obtain ⟨e, he⟩ := Option.ne_none_iff_exists'.mp h
  exact ⟨e, by simp [fallible, he]⟩

theorem fault_of_returns {point : Point} {a : Code} {s : Store}
    (h : (fallible f point a s).error = none) : f point = none := by
  unfold fallible at h
  cases hpoint : f point with
  | none => rfl
  | some e =>
    rw [hpoint] at h
    cases h

theorem keeps_update {g : Store → Store} (h : ∀ s, r s (g s)) : Keeps r (update g) := h

section

variable (hr : IsFrame r)

include hr

theorem keeps_fallible {point : Point} {a : Code} (h : Keeps r a) :
    Keeps r (fallible f point a) := by
  intro s
  unfold fallible
  cases f point with
  | none => exact h s
  | some e => exact hr.refl s

theorem keeps_mayFail {point : Point} : Keeps r (mayFail f point) :=
  keeps_fallible hr (keeps_skip hr)

theorem keeps_write {point : Point} {g : Store → Store} (h : ∀ s, r s (g s)) :
    Keeps r (fallible f point (update g)) :=
  keeps_fallible hr (keeps_update h)

theorem keeps_addUserContracts {o : OrgId}
    (hauto : ∀ c ∈ autoContracts cat now o, ∀ s, r s (addContract user c s)) :
    Keeps r (addUserContracts f cat now o user) := by
  apply keeps_seq hr
  intro a ha
  obtain ⟨c, hc, rfl⟩ := List.mem_map.mp ha
  exact keeps_write hr (hauto c (List.mem_of_mem_filter hc))

theorem keeps_attachUser (o : OrgId) : Keeps r (attachUser f cat o) := by
  unfold attachUser
  split
  · exact keeps_skip hr
  · split
    · exact keeps_skip hr
    · exact keeps_raise hr _
    · exact keeps_skip hr

theorem keeps_processAddOrgMembership {o : OrgId} {keepUntilSeen : Bool}
    (horg : ∀ keep s, r s (setUserOrganization user o (some keep) s))
    (hauto : ∀ c ∈ autoContracts cat now o, ∀ s, r s (addContract user c s)) :
    Keeps r (processAddOrgMembership f cat now user o keepUntilSeen) := by
  have hadd := keeps_addUserContracts hr (f := f) hauto
  have hattach : Keeps r (seq [attachUser f cat o, addUserContracts f cat now o user]) :=
    keeps_seq_cons hr (keeps_attachUser hr o) (keeps_seq_cons hr hadd (keeps_seq_nil hr))
  intro s
  unfold processAddOrgMembership
  split
  · exact keeps_mayFail hr s
  · refine keeps_seq_cons hr ?_ (keeps_seq_cons hr ?_ hattach) s
    · exact keeps_write hr (horg false)
    · exact keeps_write hr (horg keepUntilSeen)

end

theorem inUserContracts_iff {s : Store} {c : ContractId} :
    inUserContracts cat s now user c = true ↔
      user ∈ s.contractUsers c ∧ (cat.contract c).isActiveObject now = true := by
  simp [inUserContracts]

/-! ## Seats -/

/-- The users of contracts stay as they are, but that `user` may be added to contracts in `P`; the
organizations that the user is in are kept. -/
structure Adds (user : UserId) (P : ContractId → Prop) (s s' : Store) : Prop where
  users : ∀ c, s'.contractUsers c = s.contractUsers c ∨
    P c ∧ s'.contractUsers c = insert user (s.contractUsers c)
  orgs : ∀ o, s'.userOrganizations user o = none → s.userOrganizations user o = none

theorem Adds.subset {P : ContractId → Prop} {s s' : Store} (h : Adds user P s s') (c : ContractId) :
    s.contractUsers c ⊆ s'.contractUsers c := by
  rcases h.users c with hc | ⟨-, hc⟩
  · rw [hc]
  · rw [hc]
    exact Finset.subset_insert _ _

/-- Redeeming a code changes the redemptions only. -/
theorem redeem_cases {s s' : Store} {d : DiscountId} {c : ContractId}
    (h : redeem d c user s = .ok s') : ∃ rows, s' = { s with contractRedemptions := rows } := by
  unfold redeem at h
  split at h
  · cases h
    exact ⟨_, rfl⟩
  · cases h
    exact ⟨_, rfl⟩
  · cases h

end MitxOnline

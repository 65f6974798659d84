import Mathlib.Data.List.Basic

/-!
# Offers that displace each other
Offers come in some order. The first is taken, and each of the others is taken if it displaces the one
that is held. What is held in the end can depend on the order: any offer can be held at the end of a chain
of offers, each of which displaces the one before, if a member of the chain refuses each offer that is
left out.
-/

namespace Displacement

variable {α : Type}

/-- What is held after the offers of a list. -/
def hold (displaces : α → α → Bool) (held : α) : List α → α
  | [] => held
  | a :: rest => hold displaces (if displaces held a = true then a else held) rest

/-- What is held after the offers of a list, if there are any. -/
def settle (displaces : α → α → Bool) : List α → Option α
  | [] => none
  | a :: rest => some (hold displaces a rest)

/-- Each member of a chain displaces the one before it, and the last is `final`. -/
def Chain (displaces : α → α → Bool) (first : α) : List α → α → Prop
  | [], final => first = final
  | a :: chain, final => displaces first a = true ∧ Chain displaces a chain final

/-- The offers are those of a chain that ends with `final` and offers that a member of it refuses. -/
def Lasts (displaces : α → α → Bool) (offers : List α) (final : α) : Prop :=
  ∃ first chain refused, offers.Perm (first :: (chain ++ refused)) ∧ Chain displaces first chain final ∧
    ∀ a ∈ refused, ∃ b ∈ first :: chain, displaces b a = false

/-! ## What is held in the end

The offers that are held in the end, over all orders, are those that last. -/

variable {displaces : α → α → Bool} {held first final : α} {chain refused offers : List α}

/-- Offers that are all refused change nothing. -/
theorem hold_append_of_refused (h : ∀ a ∈ refused, displaces held a = false) (rest : List α) :
    hold displaces held (refused ++ rest) = hold displaces held rest := by
  induction refused with
  | nil => rfl
  | cons a refused ih =>
    rw [List.cons_append, hold, h a List.mem_cons_self]
    exact ih fun b hb => h b (List.mem_cons_of_mem a hb)

/-- The offers that were taken are a chain, and whoever was held when another came refused it. -/
theorem exists_chain (displaces : α → α → Bool) (held : α) (offers : List α) :
    ∃ chain refused, offers.Perm (chain ++ refused) ∧
      Chain displaces held chain (hold displaces held offers) ∧
        ∀ a ∈ refused, ∃ b ∈ held :: chain, displaces b a = false := by
  induction offers generalizing held with
  | nil => exact ⟨[], [], List.Perm.refl _, rfl, by simp⟩
  | cons a offers ih =>
    rw [hold]
    by_cases ha : displaces held a = true
    · rw [if_pos ha]
      obtain ⟨chain, refused, hperm, hchain, hrefused⟩ := ih a
      refine ⟨a :: chain, refused, hperm.cons a, ⟨ha, hchain⟩, fun v hv => ?_⟩
      obtain ⟨b, hb, hrefuses⟩ := hrefused v hv
      exact ⟨b, List.mem_cons_of_mem held hb, hrefuses⟩
    · rw [if_neg ha]
      obtain ⟨chain, refused, hperm, hchain, hrefused⟩ := ih held
      refine ⟨chain, a :: refused, (hperm.cons a).trans List.perm_middle.symm, hchain, fun v hv => ?_⟩
      rcases List.mem_cons.mp hv with rfl | hv
      · exact ⟨held, List.mem_cons_self, by simpa using ha⟩
      · exact hrefused v hv

/-- A chain can be offered so that it is taken: each refused offer comes while a member that refuses it is
held. -/
theorem exists_order (hchain : Chain displaces first chain final)
    (hrefused : ∀ a ∈ refused, ∃ b ∈ first :: chain, displaces b a = false) :
    ∃ order, order.Perm (chain ++ refused) ∧ hold displaces first order = final := by
  induction chain generalizing first refused with
  | nil =>
    refine ⟨refused, List.Perm.refl _, ?_⟩
    have hall : ∀ a ∈ refused, displaces first a = false := by
      intro a ha
      obtain ⟨b, hb, hrefuses⟩ := hrefused a ha
      obtain rfl := List.mem_singleton.mp hb
      exact hrefuses
    have hhold := hold_append_of_refused hall []
    rw [List.append_nil] at hhold
    exact hhold.trans hchain
  | cons a chain ih =>
    obtain ⟨hdisplaces, hchain⟩ := hchain
    have hlater : ∀ v ∈ refused.filter fun v => displaces first v,
        ∃ b ∈ a :: chain, displaces b v = false := by
      intro v hv
      obtain ⟨hv, htaken⟩ := List.mem_filter.mp hv
      obtain ⟨b, hb, hrefuses⟩ := hrefused v hv
      rcases List.mem_cons.mp hb with rfl | hb
      · rw [htaken] at hrefuses
        cases hrefuses
      · exact ⟨b, hb, hrefuses⟩
    obtain ⟨order, hperm, hhold⟩ := ih hchain hlater
    have hnow : ∀ v ∈ refused.filter fun v => !displaces first v, displaces first v = false := by
      intro v hv
      simpa using (List.mem_filter.mp hv).2
    have hparts : (refused.filter (fun v => !displaces first v) ++ order).Perm (chain ++ refused) := by
      refine List.perm_append_comm.trans ((hperm.append_right _).trans ?_)
      rw [List.append_assoc]
      exact (List.filter_append_perm _ refused).append_left chain
    refine ⟨refused.filter (fun v => !displaces first v) ++ a :: order,
      List.perm_middle.trans (hparts.cons a), ?_⟩
    rw [hold_append_of_refused hnow, hold, if_pos hdisplaces]
    exact hhold

/-- An offer is held in the end in some order exactly if it lasts. -/
theorem exists_settle_iff :
    (∃ order, order.Perm offers ∧ settle displaces order = some final) ↔
      Lasts displaces offers final := by
  constructor
  · rintro ⟨order, hperm, hsettle⟩
    cases order with
    | nil => cases hsettle
    | cons first order =>
      obtain rfl := Option.some.inj hsettle
      obtain ⟨chain, refused, hoffers, hchain, hrefused⟩ := exists_chain displaces first order
      exact ⟨first, chain, refused, hperm.symm.trans (hoffers.cons first), hchain, hrefused⟩
  · rintro ⟨first, chain, refused, hperm, hchain, hrefused⟩
    obtain ⟨order, horder, hhold⟩ := exists_order hchain hrefused
    exact ⟨first :: order, (horder.cons first).trans hperm.symm, by rw [settle, hhold]⟩

/-! ## The best offer -/

/-- An offer that none displaces is held to the end of a chain. -/
theorem Chain.eq_of_mem {best : α} (hkeeps : ∀ a ∈ chain, a ≠ best → displaces best a = false)
    (hbest : best ∈ first :: chain) (hchain : Chain displaces first chain final) : final = best := by
  induction chain generalizing first with
  | nil =>
    obtain rfl := List.mem_singleton.mp hbest
    exact hchain.symm
  | cons a chain ih =>
    obtain ⟨hdisplaces, hchain⟩ := hchain
    have hlater : ∀ b ∈ chain, b ≠ best → displaces best b = false := fun b hb =>
      hkeeps b (List.mem_cons_of_mem a hb)
    rcases List.mem_cons.mp hbest with rfl | hbest
    · by_cases ha : a = best
      · exact ih hlater (ha ▸ List.mem_cons_self) hchain
      · rw [hkeeps a List.mem_cons_self ha] at hdisplaces
        cases hdisplaces
    · exact ih hlater hbest hchain

/-- An offer that displaces all others and that none displaces is the only one that lasts. -/
theorem Lasts.eq_best {best : α} (hbest : best ∈ offers)
    (hbeats : ∀ a ∈ offers, a ≠ best → displaces a best = true)
    (hkeeps : ∀ a ∈ offers, a ≠ best → displaces best a = false)
    (h : Lasts displaces offers final) : final = best := by
  obtain ⟨first, chain, refused, hperm, hchain, hrefused⟩ := h
  have hmem : ∀ a, a ∈ offers ↔ a ∈ first :: chain ∨ a ∈ refused := fun a => by
    rw [hperm.mem_iff, ← List.cons_append, List.mem_append]
  have hsub : ∀ a ∈ first :: chain, a ∈ offers := fun a ha => (hmem a).mpr (Or.inl ha)
  have htaken : best ∈ first :: chain := by
    rcases (hmem best).mp hbest with h | h
    · exact h
    · obtain ⟨b, hb, hrefuses⟩ := hrefused best h
      by_cases hne : b = best
      · exact hne ▸ hb
      · rw [hbeats b (hsub b hb) hne] at hrefuses
        cases hrefuses
  exact hchain.eq_of_mem (fun a ha => hkeeps a (hsub a (List.mem_cons_of_mem first ha))) htaken

end Displacement

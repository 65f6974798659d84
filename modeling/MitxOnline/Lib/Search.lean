import Mathlib.Data.List.Basic

/-!
# Searches that stop at the first hit
A loop over a list that looks at one element after the other, returns at the first that has a result, and
ends with an exception if looking at an element raises one.
-/

namespace Search

variable {α β ε : Type}

/-- The result of the first element that has one. -/
def search (check : α → Except ε (Option β)) : List α → Except ε (Option β)
  | [] => .ok none
  | a :: rest =>
    match check a with
    | .ok none => search check rest
    | .ok (some b) => .ok (some b)
    | .error e => .error e

/-- The search gets to the element `a`: no element before it ends the search. -/
def Reaches (check : α → Except ε (Option β)) (l : List α) (a : α) : Prop :=
  ∃ pre post, l = pre ++ a :: post ∧ ∀ b ∈ pre, check b = .ok none

/-! ## What a search finds

A search ends with the answer of the one element that it reaches and that has an answer. -/

variable {check check' : α → Except ε (Option β)} {l : List α} {a b : α}

theorem search_cons_of_none (h : check a = .ok none) : search check (a :: l) = search check l := by
  rw [search, h]

theorem search_cons_of_ne_none (h : check a ≠ .ok none) : search check (a :: l) = check a := by
  rw [search]
  rcases hcheck : check a with e | _ | b
  · rfl
  · exact absurd hcheck h
  · rfl

theorem reaches_head : Reaches check (a :: l) a := ⟨[], l, rfl, by simp⟩

theorem reaches_cons (h : check b = .ok none) (hl : Reaches check l a) :
    Reaches check (b :: l) a := by
  obtain ⟨pre, post, rfl, hpre⟩ := hl
  refine ⟨b :: pre, post, rfl, fun c hc => ?_⟩
  rcases List.mem_cons.mp hc with rfl | hc
  · exact h
  · exact hpre c hc

theorem Reaches.mem (h : Reaches check l a) : a ∈ l := by
  obtain ⟨pre, post, rfl, -⟩ := h
  simp

theorem Reaches.append (h : Reaches check l a) (rest : List α) : Reaches check (l ++ rest) a := by
  obtain ⟨pre, post, rfl, hpre⟩ := h
  exact ⟨pre, post ++ rest, by simp, hpre⟩

/-- A search that passes over more elements gets at least as far. -/
theorem Reaches.imp (h : Reaches check l a) (himp : ∀ b, check b = .ok none → check' b = .ok none) :
    Reaches check' l a := by
  obtain ⟨pre, post, hl, hpre⟩ := h
  exact ⟨pre, post, hl, fun b hb => himp b (hpre b hb)⟩

/-- The search has the answer of an element it reaches. -/
theorem search_eq_of_reaches (h : Reaches check l a) (ha : check a ≠ .ok none) :
    search check l = check a := by
  obtain ⟨pre, post, rfl, hpre⟩ := h
  induction pre with
  | nil => exact search_cons_of_ne_none ha
  | cons b pre ih =>
    rw [List.cons_append, search_cons_of_none (hpre b (List.mem_cons_self ..))]
    exact ih fun c hc => hpre c (List.mem_cons_of_mem _ hc)

/-- Either no element has an answer, or the search reaches one that has. -/
theorem search_cases (check : α → Except ε (Option β)) (l : List α) :
    (search check l = .ok none ∧ ∀ a ∈ l, check a = .ok none) ∨
      ∃ a, Reaches check l a ∧ check a ≠ .ok none ∧ search check l = check a := by
  induction l with
  | nil => exact Or.inl ⟨rfl, by simp⟩
  | cons b l ih =>
    by_cases hb : check b = .ok none
    · rw [search_cons_of_none hb]
      rcases ih with ⟨hnone, hall⟩ | ⟨a, hreach, ha, heq⟩
      · refine Or.inl ⟨hnone, fun c hc => ?_⟩
        rcases List.mem_cons.mp hc with rfl | hc
        · exact hb
        · exact hall c hc
      · exact Or.inr ⟨a, reaches_cons hb hreach, ha, heq⟩
    · exact Or.inr ⟨b, reaches_head, hb, search_cons_of_ne_none hb⟩

/-- A search that ends with an exception reaches an element that raises it. -/
theorem search_eq_error {e : ε} (h : search check l = .error e) :
    ∃ a, Reaches check l a ∧ check a = .error e := by
  rcases search_cases check l with ⟨hnone, -⟩ | ⟨a, hreach, -, heq⟩
  · rw [hnone] at h
    cases h
  · exact ⟨a, hreach, heq ▸ h⟩

/-- A search that finds something reaches an element that has it. -/
theorem search_eq_some {b : β} (h : search check l = .ok (some b)) :
    ∃ a, Reaches check l a ∧ check a = .ok (some b) := by
  rcases search_cases check l with ⟨hnone, -⟩ | ⟨a, hreach, -, heq⟩
  · rw [hnone] at h
    cases h
  · exact ⟨a, hreach, heq ▸ h⟩

/-- A search that meets no exception finds something, if there is something to find. -/
theorem search_isSome {x : β} (herror : ∀ c ∈ l, ∀ e, check c ≠ .error e) (ha : a ∈ l)
    (hcheck : check a = .ok (some x)) : ∃ y, search check l = .ok (some y) := by
  rcases search_cases check l with ⟨-, hall⟩ | ⟨c, hreach, hc, heq⟩
  · rw [hall a ha] at hcheck
    cases hcheck
  · rcases hfound : check c with e | _ | y
    · exact absurd hfound (herror c hreach.mem e)
    · exact absurd hfound hc
    · exact ⟨y, heq.trans hfound⟩

/-- The only element that passes the test is found. -/
theorem find?_eq_some_of_unique {p : α → Bool} {x : α} (hx : x ∈ l)
    (hp : p x = true) (huniq : ∀ y ∈ l, p y = true → y = x) : l.find? p = some x := by
  rcases hfind : l.find? p with _ | y
  · exact absurd hp (by simpa using List.find?_eq_none.mp hfind x hx)
  · rw [huniq y (List.mem_of_find?_eq_some hfind) (List.find?_some hfind)]

end Search

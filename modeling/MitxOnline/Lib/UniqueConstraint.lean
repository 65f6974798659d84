import Mathlib.Data.List.Pairwise
import MitxOnline.Lib.Table

/-!
# Unique constraints
A unique constraint is about the rows that satisfy its condition: no two of them have the same fields.
Nulls are not distinct: two rows with a null in the same field agree in that field.
-/

/-- A constraint on the rows in `α`, with fields in `κ`. -/
structure UniqueConstraint (α κ : Type) where
  condition : α → Bool
  fields : α → κ

namespace UniqueConstraint

variable {α κ : Type} [DecidableEq κ]

/-- Two rows that the constraint does not let stand beside each other. -/
def clash (c : UniqueConstraint α κ) (a b : α) : Bool :=
  c.condition a && c.condition b && c.fields a == c.fields b

/-- The constraint holds in a table. -/
def HoldsIn (c : UniqueConstraint α κ) (t : Table α) : Prop :=
  t.keys.Pairwise fun k k' => c.clash (t.row k) (t.row k') = false

instance (c : UniqueConstraint α κ) (t : Table α) : Decidable (c.HoldsIn t) :=
  inferInstanceAs (Decidable (t.keys.Pairwise _))

/-! ## What a write does to a unique constraint

A constraint that holds in a table goes on to hold after a row is replaced or created exactly if the new
row clashes with none of the others. -/

variable {c : UniqueConstraint α κ} {t : Table α} {a b : α} {k k' : ℕ}

theorem clash_iff :
    c.clash a b = true ↔ c.condition a = true ∧ c.condition b = true ∧ c.fields a = c.fields b := by
  simp only [clash, Bool.and_eq_true, beq_iff_eq, and_assoc]

theorem clash_comm : c.clash a b = c.clash b a := by
  rw [Bool.eq_iff_iff, clash_iff, clash_iff]
  constructor
  · rintro ⟨ha, hb, hfields⟩
    exact ⟨hb, ha, hfields.symm⟩
  · rintro ⟨hb, ha, hfields⟩
    exact ⟨ha, hb, hfields.symm⟩

/-- No two rows clash. -/
theorem holdsIn_iff :
    c.HoldsIn t ↔ ∀ k ∈ t.keys, ∀ k' ∈ t.keys, k ≠ k' → c.clash (t.row k) (t.row k') = false := by
  constructor
  · intro h k hk k' hk' hne
    have hsymm : Std.Symm fun k k' => c.clash (t.row k) (t.row k') = false :=
      ⟨fun _ _ hclash => clash_comm.trans hclash⟩
    exact List.Pairwise.forall h hk hk' hne
  · intro h
    have hnodup := t.keys_nodup
    refine hnodup.imp_of_mem fun hk hk' hne => h _ hk _ hk' hne

theorem HoldsIn.eq_of_clash (h : c.HoldsIn t) (hk : k ∈ t.keys) (hk' : k' ∈ t.keys)
    (hclash : c.clash (t.row k) (t.row k') = true) : k = k' := by
  by_contra hne
  rw [holdsIn_iff.mp h k hk k' hk' hne] at hclash
  cases hclash

/-- A constraint goes on to hold after rows are deleted. -/
theorem HoldsIn.deleteWhere (h : c.HoldsIn t) (test : ℕ → α → Bool) : c.HoldsIn (t.deleteWhere test) :=
  h.filter _

/-- At most one row satisfies a test if any two rows that do would clash. -/
theorem HoldsIn.filter_cases (h : c.HoldsIn t) {test : α → Bool}
    (hclash : ∀ a b, test a = true → test b = true → c.clash a b = true) :
    (t.keys.filter fun k => test (t.row k)) = [] ∨
      ∃ k, (t.keys.filter fun k => test (t.row k)) = [k] ∧ k ∈ t.keys ∧ test (t.row k) = true := by
  rcases hkeys : t.keys.filter fun k => test (t.row k) with _ | ⟨k, rest⟩
  · exact Or.inl rfl
  · have hmem : ∀ i ∈ k :: rest, i ∈ t.keys ∧ test (t.row i) = true := by
      intro i hi
      rw [← hkeys] at hi
      exact List.mem_filter.mp hi
    obtain ⟨hk, htest⟩ := hmem k List.mem_cons_self
    have hnodup : (k :: rest).Nodup := hkeys ▸ t.keys_nodup.filter _
    have hrest : rest = [] := by
      refine List.eq_nil_iff_forall_not_mem.mpr fun i hi => ?_
      obtain ⟨hi', htest'⟩ := hmem i (List.mem_cons_of_mem k hi)
      have hsame := h.eq_of_clash hk hi' (hclash _ _ htest htest')
      exact (List.nodup_cons.mp hnodup).1 (hsame ▸ hi)
    exact Or.inr ⟨k, by rw [hrest], hk, htest⟩

/-- After a row is replaced, the constraint holds if the new row clashes with no other. -/
theorem HoldsIn.set_iff (h : c.HoldsIn t) (hk : k ∈ t.keys) :
    c.HoldsIn (t.set k a) ↔ ∀ k' ∈ t.keys, k' ≠ k → c.clash a (t.row k') = false := by
  rw [holdsIn_iff]
  constructor
  · intro hset k' hk' hne
    have hfree := hset k hk k' hk' hne.symm
    rwa [Table.set_row_self, Table.set_row_of_ne _ _ hne] at hfree
  · intro hfree i hi j hj hij
    by_cases hik : i = k
    · subst hik
      rw [Table.set_row_self, Table.set_row_of_ne _ _ hij.symm]
      exact hfree j hj hij.symm
    · rw [Table.set_row_of_ne _ _ hik]
      by_cases hjk : j = k
      · subst hjk
        rw [Table.set_row_self, clash_comm]
        exact hfree i hi hij
      · rw [Table.set_row_of_ne _ _ hjk]
        exact holdsIn_iff.mp h i hi j hj hij

/-- After a row is created, the constraint holds if the new row clashes with none. -/
theorem HoldsIn.create_iff (h : c.HoldsIn t) :
    c.HoldsIn (t.create a) ↔ ∀ k ∈ t.keys, c.clash a (t.row k) = false := by
  have hold : ∀ k ∈ t.keys, k ≠ t.nextKey := by
    rintro k hk rfl
    exact t.nextKey_not_mem hk
  rw [holdsIn_iff]
  constructor
  · intro hcreate k hk
    have hfree := hcreate t.nextKey ((t.mem_create_keys a _).mpr (.inr rfl)) k
      ((t.mem_create_keys a k).mpr (.inl hk)) (hold k hk).symm
    rwa [Table.create_row_self, Table.create_row_of_ne _ _ (hold k hk)] at hfree
  · intro hfree i hi j hj hij
    rcases (t.mem_create_keys a i).mp hi with hi | rfl <;>
      rcases (t.mem_create_keys a j).mp hj with hj | rfl
    · rw [Table.create_row_of_ne _ _ (hold i hi), Table.create_row_of_ne _ _ (hold j hj)]
      exact holdsIn_iff.mp h i hi j hj hij
    · rw [Table.create_row_of_ne _ _ (hold i hi), Table.create_row_self, clash_comm]
      exact hfree i hi
    · rw [Table.create_row_self, Table.create_row_of_ne _ _ (hold j hj)]
      exact hfree j hj
    · exact absurd rfl hij

end UniqueConstraint

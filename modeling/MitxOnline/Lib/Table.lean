import Mathlib.Data.List.Perm.Subperm

/-!
# Tables

A table gives every primary key a row and lists the keys that are in use, in increasing order. A
foreign key is a key of the other table, so following it always gives a row.
-/

/-- A table with rows in `α`. -/
structure Table (α : Type) where
  /-- The primary keys in use. -/
  keys : List ℕ
  /-- The row of a key; what it says of a key that is not in use does not matter. -/
  row : ℕ → α
  /-- Keys are listed in increasing order, so none is listed twice. -/
  sorted : keys.Pairwise (· < ·)

namespace Table

variable {α : Type}

theorem sorted_nil : ([] : List ℕ).Pairwise (· < ·) := List.Pairwise.nil

/-- The table with one row. -/
def single (k : ℕ) (a : α) : Table α := ⟨[k], fun _ => a, List.pairwise_singleton _ _⟩

/-- The largest key of a list of keys. -/
def maxKey (keys : List ℕ) : ℕ := keys.foldr max 0

/-- The key that the next row gets: larger than all keys in use. -/
def nextKey (t : Table α) : ℕ := maxKey t.keys + 1

theorem le_maxKey {keys : List ℕ} {k : ℕ} (h : k ∈ keys) : k ≤ maxKey keys := by
  induction keys with
  | nil => simp at h
  | cons a keys ih =>
    rcases List.mem_cons.mp h with rfl | h
    · exact Nat.le_max_left _ _
    · exact Nat.le_trans (ih h) (Nat.le_max_right _ _)

theorem maxKey_lt {keys : List ℕ} {m : ℕ} (hm : 0 < m) (h : ∀ k ∈ keys, k < m) : maxKey keys < m := by
  induction keys with
  | nil => exact hm
  | cons a keys ih =>
    have hkeys : maxKey keys < m := ih fun k hk => h k (List.mem_cons_of_mem _ hk)
    exact Nat.max_lt.mpr ⟨h a (List.mem_cons_self ..), hkeys⟩

theorem lt_nextKey (t : Table α) {k : ℕ} (h : k ∈ t.keys) : k < t.nextKey :=
  Nat.lt_succ_of_le (le_maxKey h)

theorem nextKey_not_mem (t : Table α) : t.nextKey ∉ t.keys :=
  fun h => absurd (t.lt_nextKey h) (Nat.lt_irrefl _)

/-- `UPDATE`: replace the row of a key. -/
def set (t : Table α) (k : ℕ) (a : α) : Table α :=
  { t with row := fun i => if i = k then a else t.row i }

/-- `INSERT`: a new row under the next key. -/
def create (t : Table α) (a : α) : Table α where
  keys := t.keys ++ [t.nextKey]
  row i := if i = t.nextKey then a else t.row i
  sorted := List.pairwise_append.mpr
    ⟨t.sorted, List.pairwise_singleton _ _, fun k hk l hl => by
      obtain rfl := List.mem_singleton.mp hl
      exact t.lt_nextKey hk⟩

/-- `INSERT` of several rows, under increasing keys. -/
def createAll (t : Table α) (rows : List α) : Table α := rows.foldl create t

/-- `INSERT` under the key of a row of another table. -/
def put (t : Table α) (k : ℕ) (a : α) : Table α where
  keys := t.keys.filter (· < k) ++ k :: t.keys.filter (k < ·)
  row i := if i = k then a else t.row i
  sorted := by
    refine List.pairwise_append.mpr ⟨t.sorted.filter _, List.pairwise_cons.mpr ⟨fun j hj => ?_,
      t.sorted.filter _⟩, fun i hi j hj => ?_⟩
    · exact of_decide_eq_true (List.mem_filter.mp hj).2
    · have hik : i < k := of_decide_eq_true (List.mem_filter.mp hi).2
      rcases List.mem_cons.mp hj with rfl | hj
      · exact hik
      · exact Nat.lt_trans hik (of_decide_eq_true (List.mem_filter.mp hj).2)

/-- `DELETE`: without the row of a key. -/
def erase (t : Table α) (k : ℕ) : Table α :=
  { t with
    keys := t.keys.filter (· != k)
    sorted := t.sorted.filter _ }

/-- `DELETE … WHERE`: without the rows that satisfy a test. -/
def deleteWhere (t : Table α) (test : ℕ → α → Bool) : Table α :=
  { t with
    keys := t.keys.filter fun k => !test k (t.row k)
    sorted := t.sorted.filter _ }

/-- `UPDATE … WHERE`: change the rows that satisfy a test. -/
def updateWhere (t : Table α) (test : ℕ → α → Bool) (f : α → α) : Table α :=
  { t with row := fun k => if k ∈ t.keys ∧ test k (t.row k) = true then f (t.row k) else t.row k }

/-- `SELECT … WHERE`: the keys of the rows that satisfy a test, in increasing order. -/
def keysWhere (t : Table α) (test : ℕ → α → Bool) : List ℕ := t.keys.filter fun k => test k (t.row k)

/-- `SELECT … ORDER BY pk LIMIT 1`: the first key whose row satisfies a test. -/
def first (t : Table α) (test : ℕ → α → Bool) : Option ℕ := t.keys.find? fun k => test k (t.row k)

/-- `SELECT COUNT(*)`: the number of rows that satisfy a test. -/
def count (t : Table α) (test : α → Bool) : ℕ := t.keys.countP fun k => test (t.row k)

@[simp] theorem set_keys (t : Table α) (k : ℕ) (a : α) : (t.set k a).keys = t.keys := rfl

@[simp] theorem set_row_self (t : Table α) (k : ℕ) (a : α) : (t.set k a).row k = a := by
  simp [set]

theorem set_row_of_ne (t : Table α) {i k : ℕ} (a : α) (h : i ≠ k) : (t.set k a).row i = t.row i := by
  simp [set, h]

theorem create_keys (t : Table α) (a : α) : (t.create a).keys = t.keys ++ [t.nextKey] := rfl

@[simp] theorem create_row_self (t : Table α) (a : α) : (t.create a).row t.nextKey = a := by
  simp [create]

theorem create_row_of_ne (t : Table α) {i : ℕ} (a : α) (h : i ≠ t.nextKey) :
    (t.create a).row i = t.row i := by
  simp [create, h]

@[simp] theorem mem_create_keys (t : Table α) (a : α) (k : ℕ) :
    k ∈ (t.create a).keys ↔ k ∈ t.keys ∨ k = t.nextKey := by
  simp [create]

@[simp] theorem put_row_self (t : Table α) (k : ℕ) (a : α) : (t.put k a).row k = a := by
  simp [put]

/-- The new keys have the new rows, in their order, and the others stay as they are. -/
theorem createAll_spec (t : Table α) (rows : List α) : ∃ new : List ℕ,
    (t.createAll rows).keys = t.keys ++ new ∧ new.map (t.createAll rows).row = rows ∧
      ∀ k ∈ t.keys, (t.createAll rows).row k = t.row k := by
  induction rows generalizing t with
  | nil => exact ⟨[], (List.append_nil _).symm, rfl, fun _ _ => rfl⟩
  | cons a rest ih =>
    obtain ⟨new, hkeys, hrows, hkept⟩ := ih (t.create a)
    have hnew : t.nextKey ∈ (t.create a).keys := (t.mem_create_keys a _).mpr (.inr rfl)
    refine ⟨t.nextKey :: new, ?_, ?_, fun k hk => ?_⟩
    · show ((t.create a).createAll rest).keys = _
      rw [hkeys]
      simp [create]
    · show ((t.create a).createAll rest).row t.nextKey :: new.map ((t.create a).createAll rest).row = _
      rw [hrows, hkept _ hnew, create_row_self]
    · have hold : k ≠ t.nextKey := by
        rintro rfl
        exact t.nextKey_not_mem hk
      show ((t.create a).createAll rest).row k = _
      rw [hkept k ((t.mem_create_keys a k).mpr (.inl hk)), create_row_of_ne _ _ hold]

theorem mem_erase_keys (t : Table α) {i k : ℕ} : i ∈ (t.erase k).keys ↔ i ∈ t.keys ∧ i ≠ k := by
  simp [erase]

@[simp] theorem deleteWhere_row (t : Table α) (test : ℕ → α → Bool) :
    (t.deleteWhere test).row = t.row := rfl

theorem mem_deleteWhere_keys (t : Table α) {test : ℕ → α → Bool} {k : ℕ} :
    k ∈ (t.deleteWhere test).keys ↔ k ∈ t.keys ∧ test k (t.row k) = false := by
  simp [deleteWhere]

theorem mem_keysWhere {t : Table α} {test : ℕ → α → Bool} {k : ℕ} :
    k ∈ t.keysWhere test ↔ k ∈ t.keys ∧ test k (t.row k) = true := List.mem_filter

@[simp] theorem updateWhere_keys (t : Table α) (test : ℕ → α → Bool) (f : α → α) :
    (t.updateWhere test f).keys = t.keys := rfl

theorem updateWhere_row_of {t : Table α} {test : ℕ → α → Bool} (f : α → α) {k : ℕ} (hk : k ∈ t.keys)
    (h : test k (t.row k) = true) : (t.updateWhere test f).row k = f (t.row k) := if_pos ⟨hk, h⟩

theorem updateWhere_row_of_not {t : Table α} {test : ℕ → α → Bool} (f : α → α) {k : ℕ}
    (h : test k (t.row k) = false) : (t.updateWhere test f).row k = t.row k :=
  if_neg fun hand => by
    rw [h] at hand
    cases hand.2

/-- What an update does not write can be said of the rows before it. -/
theorem updateWhere_row_part {β : Type} (t : Table α) (test : ℕ → α → Bool) {f : α → α} (part : α → β)
    (h : ∀ a, part (f a) = part a) (k : ℕ) : part ((t.updateWhere test f).row k) = part (t.row k) := by
  unfold updateWhere
  dsimp only
  split
  · exact h _
  · rfl

theorem keysWhere_updateWhere (t : Table α) (test : ℕ → α → Bool) {f : α → α} {test' : ℕ → α → Bool}
    (h : ∀ k a, test' k (f a) = test' k a) :
    (t.updateWhere test f).keysWhere test' = t.keysWhere test' := by
  unfold keysWhere
  refine List.filter_congr fun k _ => ?_
  exact updateWhere_row_part t test (test' k) (h k) k

/-- An update that has been made changes nothing. -/
theorem updateWhere_eq_self {t : Table α} {test : ℕ → α → Bool} {f : α → α}
    (h : ∀ k ∈ t.keys, test k (t.row k) = true → f (t.row k) = t.row k) : t.updateWhere test f = t := by
  have hrow : (t.updateWhere test f).row = t.row := by
    funext k
    unfold updateWhere
    dsimp only
    split
    · rename_i hk
      exact h k hk.1 hk.2
    · rfl
  show { t with row := (t.updateWhere test f).row } = t
  rw [hrow]

/-- Saving a row that has not changed. -/
theorem set_row_eq (t : Table α) (k : ℕ) : t.set k (t.row k) = t := by
  have hrow : (fun i => if i = k then t.row k else t.row i) = t.row := by
    funext i
    by_cases hi : i = k
    · rw [if_pos hi, hi]
    · rw [if_neg hi]
  unfold set
  rw [hrow]

theorem keys_nodup (t : Table α) : t.keys.Nodup := t.sorted.imp fun h => Nat.ne_of_lt h

theorem count_eq_zero {t : Table α} {test : α → Bool} :
    t.count test = 0 ↔ ∀ k ∈ t.keys, test (t.row k) = false := by
  unfold count
  rw [List.countP_eq_zero]
  exact forall₂_congr fun _ _ => Bool.not_eq_true _ ▸ Iff.rfl

theorem count_create (t : Table α) (test : α → Bool) (a : α) :
    (t.create a).count test = t.count test + if test a = true then 1 else 0 := by
  have hold : t.keys.countP (fun k => test ((t.create a).row k)) = t.count test := by
    refine List.countP_congr fun k hk => ?_
    rw [create_row_of_ne _ _ (Nat.ne_of_lt (t.lt_nextKey hk))]
  have hkeys : (t.create a).keys = t.keys ++ [t.nextKey] := rfl
  have hnew : (t.create a).row t.nextKey = a := create_row_self t a
  unfold count at hold ⊢
  rw [hkeys, List.countP_append, hold, List.countP_singleton, hnew]

/-- Replacing a row lets the count grow by one at most. -/
theorem count_set_le (t : Table α) (test : α → Bool) (k : ℕ) (a : α) :
    (t.set k a).count test ≤ t.count test + 1 := by
  have hone : t.keys.countP (· == k) ≤ 1 := List.nodup_iff_count.mp t.keys_nodup k
  have hsplit : t.keys.countP (fun i => test ((t.set k a).row i)) ≤
      t.keys.countP (fun i => test (t.row i) || i == k) := by
    refine List.countP_mono_left fun i _ hi => ?_
    by_cases hik : i = k
    · simp [hik]
    · rw [set_row_of_ne _ _ hik] at hi
      simp [hi]
  have hor : ∀ keys : List ℕ, keys.countP (fun i => test (t.row i) || i == k) ≤
      keys.countP (fun i => test (t.row i)) + keys.countP (· == k) := by
    intro keys
    induction keys with
    | nil => simp
    | cons i rest ih =>
      simp only [List.countP_cons]
      cases test (t.row i) <;> cases i == k <;> simp <;> omega
  have hle := hor t.keys
  show t.keys.countP (fun i => test ((t.set k a).row i)) ≤ t.keys.countP _ + 1
  omega

/-- Replacing a row that satisfies the test does not let it grow. -/
theorem count_set_of_test {t : Table α} {test : α → Bool} {k : ℕ} (a : α)
    (h : test (t.row k) = true) : (t.set k a).count test ≤ t.count test := by
  refine List.countP_mono_left fun i _ hi => ?_
  by_cases hik : i = k
  · rw [hik]
    exact h
  · rwa [set_row_of_ne _ _ hik] at hi

/-- Where the rows that satisfy the test still do, the count does not go down. -/
theorem count_le_count {t t' : Table α} {test : α → Bool}
    (h : ∀ k ∈ t.keys, test (t.row k) = true → k ∈ t'.keys ∧ test (t'.row k) = true) :
    t.count test ≤ t'.count test := by
  have hsubset : (t.keys.filter fun k => test (t.row k)) ⊆ t'.keys.filter fun k => test (t'.row k) := by
    intro k hk
    obtain ⟨hmem, htest⟩ := List.mem_filter.mp hk
    exact List.mem_filter.mpr (h k hmem htest)
  unfold count
  rw [List.countP_eq_length_filter, List.countP_eq_length_filter]
  exact (List.Nodup.subperm (t.keys_nodup.filter _) hsubset).length_le

/-- Where all other rows satisfied the test before, the count goes up by one at most. -/
theorem count_le_succ {t t' : Table α} {test : α → Bool} (k : ℕ)
    (h : ∀ i ∈ t'.keys, i ≠ k → test (t'.row i) = true → i ∈ t.keys ∧ test (t.row i) = true) :
    t'.count test ≤ t.count test + 1 := by
  have hsubset : (t'.keys.filter fun i => test (t'.row i)) ⊆
      k :: t.keys.filter fun i => test (t.row i) := by
    intro i hi
    obtain ⟨hmem, htest⟩ := List.mem_filter.mp hi
    by_cases hik : i = k
    · rw [hik]
      exact List.mem_cons_self
    · exact List.mem_cons_of_mem k (List.mem_filter.mpr (h i hmem hik htest))
  unfold count
  rw [List.countP_eq_length_filter, List.countP_eq_length_filter]
  exact (List.Nodup.subperm (t'.keys_nodup.filter _) hsubset).length_le

theorem first_eq_some {t : Table α} {test : ℕ → α → Bool} {k : ℕ} (h : t.first test = some k) :
    k ∈ t.keys ∧ test k (t.row k) = true :=
  ⟨List.mem_of_find?_eq_some h, by simpa using List.find?_some h⟩

end Table

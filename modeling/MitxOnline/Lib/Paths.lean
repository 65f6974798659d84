import Mathlib.Data.List.Basic

/-!
# Trees stored with materialised paths

A node of a tree is stored as a row with the path to it: the path of its parent and one step more.
Siblings have different steps. The depth of a node is the length of its path, its ancestors are the rows
whose paths are proper prefixes of its path, and a tree is listed by listing each node before its
children.
-/

namespace Paths

variable {α : Type}

/-- A tree with values in `α`. -/
inductive PathTree (α : Type) where
  | node (value : α) (children : List (PathTree α))

/-- A row of a stored tree. -/
structure Row (α : Type) where
  path : List ℕ
  value : α
  deriving DecidableEq

/-- The number of nodes on the way from the root. -/
def Row.depth (r : Row α) : ℕ := r.path.length

/-- `path.startswith(prefix)` -/
def startsWith (path before : List ℕ) : Bool := before.isPrefixOf path

mutual

/-- The rows of a tree whose root has the given path. -/
def PathTree.rows (path : List ℕ) : PathTree α → List (Row α)
  | .node value children => ⟨path, value⟩ :: rowsOf path 1 children

/-- The rows of the children from the given step on. -/
def rowsOf (path : List ℕ) (step : ℕ) : List (PathTree α) → List (Row α)
  | [] => []
  | t :: rest => t.rows (path ++ [step]) ++ rowsOf path (step + 1) rest

end

def PathTree.value : PathTree α → α
  | .node value _ => value

def PathTree.children : PathTree α → List (PathTree α)
  | .node _ children => children

/-!
## Rows of stored trees

The path of a row starts with the path its tree is stored under. So siblings are told apart by one step,
a path belongs to one row, and the parent of a row is stored too.
-/

variable {p : List ℕ} {i : ℕ} {t : PathTree α} {ts : List (PathTree α)} {r r' : Row α}

/-- Induction over a tree, with the hypothesis for every child. -/
theorem PathTree.inductionOn {motive : PathTree α → Prop} (t : PathTree α)
    (node : ∀ value children, (∀ u ∈ children, motive u) → motive (.node value children)) :
    motive t :=
  match t with
  | .node value children => node value children fun u _ => u.inductionOn node

theorem startsWith_iff {path before : List ℕ} : startsWith path before = true ↔ before <+: path := by
  simp [startsWith]

theorem rows_eq (t : PathTree α) (p : List ℕ) :
    t.rows p = ⟨p, t.value⟩ :: rowsOf p 1 t.children := by
  cases t
  rfl

/-- A row below a path is a row of one of the trees there. -/
theorem mem_rowsOf :
    r ∈ rowsOf p i ts ↔ ∃ j, ∃ h : j < ts.length, r ∈ (ts[j]).rows (p ++ [i + j]) := by
  induction ts generalizing i with
  | nil => simp [rowsOf]
  | cons t ts ih =>
    rw [rowsOf, List.mem_append, ih]
    constructor
    · rintro (h | ⟨j, hj, h⟩)
      · exact ⟨0, by simp, by simpa using h⟩
      · refine ⟨j + 1, by simpa using hj, ?_⟩
        rw [show i + (j + 1) = i + 1 + j by omega]
        exact h
    · rintro ⟨j, hj, h⟩
      cases j with
      | zero => exact Or.inl (by simpa using h)
      | succ j =>
        refine Or.inr ⟨j, by simpa using hj, ?_⟩
        rw [show i + (j + 1) = i + 1 + j by omega] at h
        exact h

theorem prefix_of_mem_rows (h : r ∈ t.rows p) : p <+: r.path := by
  induction t using PathTree.inductionOn generalizing p with
  | node value children ih =>
    rw [PathTree.rows] at h
    rcases List.mem_cons.mp h with rfl | h
    · exact List.prefix_refl p
    · obtain ⟨j, hj, h⟩ := mem_rowsOf.mp h
      exact (List.prefix_append p _).trans (ih _ (List.getElem_mem hj) h)

theorem prefix_of_mem_rowsOf (h : r ∈ rowsOf p i ts) : ∃ j, i ≤ j ∧ p ++ [j] <+: r.path := by
  obtain ⟨j, hj, h⟩ := mem_rowsOf.mp h
  exact ⟨i + j, Nat.le_add_right i j, prefix_of_mem_rows h⟩

/-- A row below a path is deeper than the path. -/
theorem length_lt_of_mem_rowsOf (h : r ∈ rowsOf p i ts) : p.length < r.path.length := by
  obtain ⟨j, -, hprefix⟩ := prefix_of_mem_rowsOf h
  have hlength := hprefix.length_le
  simp only [List.length_append, List.length_singleton] at hlength
  omega

/-- Two paths that start with one step each below a path and are equal take the same step. -/
theorem step_eq_of_prefix {q : List ℕ} {j k : ℕ} (hj : p ++ [j] <+: q) (hk : p ++ [k] <+: q) :
    j = k := by
  have h := List.prefix_of_prefix_length_le hj hk (by simp)
  have heq := h.eq_of_length (by simp)
  simpa using List.append_cancel_left heq

/-- A path belongs to one row. -/
theorem eq_of_path_eq_rows (h : r ∈ t.rows p) (h' : r' ∈ t.rows p) (hpath : r.path = r'.path) :
    r = r' := by
  induction t using PathTree.inductionOn generalizing p with
  | node value children ih =>
    rw [PathTree.rows] at h h'
    rcases List.mem_cons.mp h with rfl | h <;> rcases List.mem_cons.mp h' with rfl | h'
    · rfl
    · have := length_lt_of_mem_rowsOf h'
      rw [← hpath] at this
      exact absurd this (Nat.lt_irrefl _)
    · have := length_lt_of_mem_rowsOf h
      rw [hpath] at this
      exact absurd this (Nat.lt_irrefl _)
    · obtain ⟨j, hj, h⟩ := mem_rowsOf.mp h
      obtain ⟨k, hk, h'⟩ := mem_rowsOf.mp h'
      have hstep : 1 + j = 1 + k :=
        step_eq_of_prefix (prefix_of_mem_rows h) (hpath ▸ prefix_of_mem_rows h')
      obtain rfl : j = k := by omega
      exact ih _ (List.getElem_mem hj) h h'

theorem eq_of_path_eq (h : r ∈ rowsOf p i ts) (h' : r' ∈ rowsOf p i ts) (hpath : r.path = r'.path) :
    r = r' := by
  obtain ⟨j, hj, h⟩ := mem_rowsOf.mp h
  obtain ⟨k, hk, h'⟩ := mem_rowsOf.mp h'
  have hstep : i + j = i + k :=
    step_eq_of_prefix (prefix_of_mem_rows h) (hpath ▸ prefix_of_mem_rows h')
  obtain rfl : j = k := by omega
  exact eq_of_path_eq_rows h h' hpath

/-- Every row has an ancestor, or is itself, one step below the path. -/
theorem exists_top (h : r ∈ rowsOf p i ts) :
    ∃ q ∈ rowsOf p i ts, q.path.length = p.length + 1 ∧ q.path <+: r.path := by
  obtain ⟨j, hj, h⟩ := mem_rowsOf.mp h
  refine ⟨⟨p ++ [i + j], (ts[j]).value⟩, mem_rowsOf.mpr ⟨j, hj, ?_⟩, by simp, prefix_of_mem_rows h⟩
  rw [rows_eq]
  exact List.mem_cons_self ..

end Paths

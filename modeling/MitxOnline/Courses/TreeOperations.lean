import Mathlib.Data.List.MinMax
import MitxOnline.Courses.RequirementTrees
import MitxOnline.Lib.PathMaps

/-!
# Operations on materialised paths

A tree library that can be run. It puts a node on the step after the one that the target has in memory, and
moves the children from there on one step to the right, up to the first gap. It does not look whether the
node is in its place already, which changes steps but no order.
-/

namespace MitxOnline

open Paths PathMap

variable {D : Type}

namespace TreeOperations

/-- The path of the new parent, and the step that the new place comes after. -/
def place (target : TreeNode D) : Position → List ℕ × ℕ
  | .right => (target.path.dropLast, target.path.getLastD 0)
  | .firstSibling => (target.path.dropLast, 0)
  | .firstChild => (target.path, 0)

def occupied (rows : TreeRows D) (p : List ℕ) (s : ℕ) : Bool :=
  rows.keys.any fun i => (rows.row i).path == p ++ [s]

/-- The step of a child after the children next to the place have moved. -/
def shift (rows : TreeRows D) (p : List ℕ) (m s : ℕ) : ℕ :=
  if m < s ∧ ∀ t ≤ s, m < t → occupied rows p t = true then s + 1 else s

/-- The rows after the branch, if any, was put behind step `m` below `p`. -/
def relocateRows (rows : TreeRows D) (branch : Option (List ℕ)) (p : List ℕ) (m : ℕ) : TreeRows D :=
  { rows with
    row := fun i =>
      { rows.row i with path := relocate branch p (m + 1) (shift rows p m) (rows.row i).path } }

def insert (rows : TreeRows D) (target : TreeNode D) (pos : Position) (program : ProgramId) (data : D) :
    TreeRows D × TreeNode D :=
  let (p, m) := place target pos
  let row : TreeRow D := ⟨p ++ [m + 1], program, data⟩
  ((relocateRows rows none p m).create row, { row with id := rows.nextKey })

def move (rows : TreeRows D) (node target : TreeNode D) (pos : Position) :
    Except TreeError (TreeRows D) :=
  let (p, m) := place target pos
  if node.path <+: p then .error .invalidMoveToDescendant
  else .ok (relocateRows rows (some node.path) p m)

def isChild (rows : TreeRows D) (node : TreeNode D) (i : ℕ) : Bool :=
  (rows.row i).path == node.path ++ [(rows.row i).path.getLastD 0]

def getFirstChild (rows : TreeRows D) (node : TreeNode D) : Option (TreeNode D) :=
  ((rows.keys.filter (isChild rows node)).argmin fun i => (rows.row i).path.getLastD 0).bind rows.load

def getDescendants (rows : TreeRows D) (node : TreeNode D) : List ℕ :=
  rows.keys.filter fun i => node.path <+: (rows.row i).path ∧ node.path ≠ (rows.row i).path

/-- Whether a node is one of those listed, or below one of them. -/
def isDeleted (rows : TreeRows D) (ids : List ℕ) (i : ℕ) : Bool :=
  ids.any fun d => d == i ||
    decide (d ∈ rows.keys ∧ (rows.row d).path <+: (rows.row i).path ∧ (rows.row d).path ≠ (rows.row i).path)

def delete (rows : TreeRows D) (ids : List ℕ) : TreeRows D :=
  { rows with
    keys := rows.keys.filter fun i => !isDeleted rows ids i
    sorted := rows.sorted.filter _ }

end TreeOperations

/-- The library as the serializer calls it. -/
def treeOperations : MpNode D where
  getFirstChild := TreeOperations.getFirstChild
  addChild rows parent program data := .ok (TreeOperations.insert rows parent .firstChild program data)
  addSibling rows target pos program data := .ok (TreeOperations.insert rows target pos program data)
  move := TreeOperations.move
  getDescendants := TreeOperations.getDescendants
  delete := TreeOperations.delete

/-!
## Operations on materialised paths

The operations do what is documented of the library. What there is to show is that the step after the target
is free once the children next to it have moved.
-/

open TreeRows

variable {rows : TreeRows D} {q n i m s t : ℕ} {p : List ℕ} {target node : TreeNode D}
  {pos : Position}

namespace TreeOperations

/-! ## Rows -/

theorem paths_of_mem (hi : i ∈ rows.keys) : rows.paths i = some (rows.row i).path := by
  simp [TreeRows.paths, TreeRows.get, hi]

theorem mem_of_paths {x : List ℕ} (h : rows.paths i = some x) :
    i ∈ rows.keys ∧ (rows.row i).path = x := by
  obtain ⟨r, hr, hpath⟩ := paths_eq_some.mp h
  obtain ⟨hmem, rfl⟩ := get_eq_some.mp hr
  exact ⟨hmem, hpath⟩

/-- What is below a node, in terms of the rows. -/
theorem below_iff : Below rows.paths q i ↔ q ∈ rows.keys ∧ i ∈ rows.keys ∧
    (rows.row q).path <+: (rows.row i).path ∧ (rows.row q).path ≠ (rows.row i).path := by
  constructor
  · rintro ⟨p, x, hp, hx, hstart, hne⟩
    obtain ⟨hq, rfl⟩ := mem_of_paths hp
    obtain ⟨hi, rfl⟩ := mem_of_paths hx
    exact ⟨hq, hi, hstart, hne⟩
  · rintro ⟨hq, hi, hstart, hne⟩
    exact ⟨_, _, paths_of_mem hq, paths_of_mem hi, hstart, hne⟩

/-- A table is well formed if its rows are. -/
theorem wellFormed_of (hinj : ∀ i ∈ rows.keys, ∀ j ∈ rows.keys, (rows.row i).path = (rows.row j).path → i = j)
    (hrows : ∀ i ∈ rows.keys, (rows.row i).path ≠ [] ∧ (∀ s ∈ (rows.row i).path, 0 < s) ∧
      ((rows.row i).path.dropLast = [] ∨
        ∃ q ∈ rows.keys, (rows.row q).path = (rows.row i).path.dropLast)) :
    rows.paths.WellFormed where
  inj := by
    intro i j p hi hj
    obtain ⟨hmem, rfl⟩ := mem_of_paths hi
    obtain ⟨hmem', hpath⟩ := mem_of_paths hj
    exact hinj i hmem j hmem' hpath.symm
  parent := by
    intro i p s hi hp
    obtain ⟨hmem, hpath⟩ := mem_of_paths hi
    have hlast : (rows.row i).path.dropLast = p := by rw [hpath, List.dropLast_concat]
    rcases (hrows i hmem).2.2 with hnil | ⟨q, hq, hparent⟩
    · exact absurd (hlast.symm.trans hnil) hp
    · exact ⟨q, by rw [paths_of_mem hq, hparent, hlast]⟩
  ne_nil := by
    intro i p hi
    obtain ⟨hmem, rfl⟩ := mem_of_paths hi
    exact (hrows i hmem).1
  pos := by
    intro i p s hi hs
    obtain ⟨hmem, rfl⟩ := mem_of_paths hi
    exact (hrows i hmem).2.1 s hs

/-! ## The place -/

theorem place_of_names (h : Names rows.paths target pos q m) :
    ∃ p, rows.paths q = some p ∧ place target pos = (p, m) := by
  cases h with
  | right hchild hle hq hpath => exact ⟨_, hq, by simp [place, hpath]⟩
  | firstSibling hchild hfirst hpath =>
    obtain ⟨p, hq, hi⟩ := hchild
    have htarget : target.path = p ++ [_] := Option.some.inj (hpath.symm.trans hi)
    exact ⟨p, hq, by simp [place, htarget]⟩
  | firstChild hpath hnone => exact ⟨_, hpath, rfl⟩

theorem occupied_iff (hq : rows.paths q = some p) :
    occupied rows p s = true ↔ ∃ i, ChildAt rows.paths q i s := by
  rw [occupied, List.any_eq_true]
  constructor
  · rintro ⟨i, hi, hpath⟩
    exact ⟨i, p, hq, eq_of_beq hpath ▸ paths_of_mem hi⟩
  · rintro ⟨i, p', hq', hi⟩
    obtain rfl := Option.some.inj (hq.symm.trans hq')
    obtain ⟨hmem, hpath⟩ := mem_of_paths hi
    exact ⟨i, hmem, by simp [hpath]⟩

theorem shift_of_le (h : s ≤ m) : shift rows p m s = s := by
  rw [shift, if_neg]
  omega

theorem le_shift : s ≤ shift rows p m s := by
  unfold shift
  split <;> omega

theorem shift_le : shift rows p m s ≤ s + 1 := by
  unfold shift
  split <;> omega

/-- The child at the place moves. -/
theorem shift_next (h : occupied rows p (m + 1) = true) : shift rows p m (m + 1) = m + 2 := by
  rw [shift, if_pos]
  refine ⟨by omega, fun t hle hlt => ?_⟩
  obtain rfl : t = m + 1 := by omega
  exact h

/-- The next child moves too, if there is no gap. -/
theorem shift_lt_shift (hlt : s < t) (ht : occupied rows p t = true) :
    shift rows p m s < shift rows p m t := by
  by_cases hs : m < s ∧ ∀ u ≤ s, m < u → occupied rows p u = true
  · rcases Nat.lt_or_ge (s + 1) t with hgap | hnext
    · have hle : s + 1 < shift rows p m t := Nat.lt_of_lt_of_le hgap le_shift
      exact Nat.lt_of_le_of_lt shift_le hle
    · obtain rfl : t = s + 1 := by omega
      have hall : m < s + 1 ∧ ∀ u ≤ s + 1, m < u → occupied rows p u = true := by
        refine ⟨by omega, fun u hle hmu => ?_⟩
        rcases Nat.lt_or_ge s u with hsu | hus
        · obtain rfl : u = s + 1 := by omega
          exact ht
        · exact hs.2 u hus hmu
      rw [shift, if_pos hs, shift, if_pos hall]
      omega
  · rw [shift, if_neg hs]
    exact Nat.lt_of_lt_of_le hlt le_shift

/-- The step after the target is free for a node, once the children next to it have moved. -/
theorem slot (hq : rows.paths q = some p) (n m : ℕ) :
    Slot rows.paths q n m (m + 1) (shift rows p m) where
  pos := Nat.succ_pos m
  left := by
    intro i s _ _ hle
    exact ⟨shift_of_le hle, by omega⟩
  right := by
    intro i s _ hchild hlt
    refine ⟨le_shift, ?_⟩
    rcases Nat.lt_or_ge (m + 1) s with hafter | hle
    · exact Nat.lt_of_lt_of_le hafter le_shift
    · obtain rfl : s = m + 1 := by omega
      rw [shift_next ((occupied_iff hq).mpr ⟨i, hchild⟩)]
      omega
  mono := by
    intro i j s t _ _ _ ht hlt
    exact shift_lt_shift hlt ((occupied_iff hq).mpr ⟨j, ht⟩)
  down := by
    intro s _ hlt
    omega

/-! ## The rows -/

theorem get_relocateRows (branch : Option (List ℕ)) :
    (relocateRows rows branch p m).get i = (rows.get i).map fun r =>
      { r with path := relocate branch p (m + 1) (shift rows p m) r.path } := by
  by_cases h : i ∈ rows.keys
  · simp [TreeRows.get, relocateRows, h]
  · simp [TreeRows.get, relocateRows, h]

theorem paths_relocateRows (branch : Option (List ℕ)) : (relocateRows rows branch p m).paths i =
    (rows.paths i).map (relocate branch p (m + 1) (shift rows p m)) := by
  rw [TreeRows.paths, get_relocateRows, Option.map_map, TreeRows.paths, Option.map_map]
  rfl

theorem columns_relocateRows (branch : Option (List ℕ)) :
    (relocateRows rows branch p m).columns i = rows.columns i := by
  rw [TreeRows.columns, get_relocateRows, Option.map_map, TreeRows.columns]
  rfl

theorem get_create (r : TreeRow D) :
    TreeRows.get (rows.create r) i = if i = rows.nextKey then some r else rows.get i := by
  by_cases h : i = rows.nextKey
  · subst h
    simp [TreeRows.get]
  · simp [TreeRows.get, h, Table.create_row_of_ne rows r h]

theorem get_nextKey : rows.get rows.nextKey = none := by
  simp [TreeRows.get, rows.nextKey_not_mem]

/-! ## What the operations do -/

theorem insert_inserted (h : Names rows.paths target pos q m) (program : ProgramId) (data : D) :
    Inserted rows (insert rows target pos program data).1 q m program data
      (insert rows target pos program data).2 := by
  obtain ⟨p, hq, hplace⟩ := place_of_names h
  have hkey : (relocateRows rows none p m).nextKey = rows.nextKey := rfl
  have hget : ∀ i, TreeRows.get (insert rows target pos program data).1 i =
      if i = rows.nextKey then some ⟨p ++ [m + 1], program, data⟩
      else (relocateRows rows none p m).get i := by
    intro i
    simp only [insert, hplace, get_create, hkey]
  have hid : (insert rows target pos program data).2.id = rows.nextKey := by simp only [insert, hplace]
  have hpath : (insert rows target pos program data).2.path = p ++ [m + 1] := by
    simp only [insert, hplace]
  have hfresh : rows.paths rows.nextKey = none := paths_eq_none.mpr get_nextKey
  refine ⟨hid ▸ get_nextKey, ⟨p, m + 1, shift rows p m, hq, slot hq _ m, fun i => ?_⟩, ?_, fun i => ?_⟩
  · rw [hid, hfresh, TreeRows.paths, hget]
    by_cases hi : i = rows.nextKey
    · rw [if_pos hi, if_pos hi, Option.map_some]
    · rw [if_neg hi, if_neg hi, ← paths_relocateRows, TreeRows.paths]
  · rw [hid, hpath, TreeRows.paths, hget, if_pos rfl, Option.map_some]
  · rw [hid, TreeRows.columns, hget]
    by_cases hi : i = rows.nextKey
    · rw [if_pos hi, if_pos hi, Option.map_some]
    · rw [if_neg hi, if_neg hi, ← columns_relocateRows (m := m) (p := p) none, TreeRows.columns]

theorem move_placed (hnode : rows.paths node.id = some node.path) (h : Names rows.paths target pos q m)
    (hoff : OffPath rows.paths node.id q) : ∃ rows', move rows node target pos = .ok rows' ∧
      Placed rows.paths rows'.paths q node.id m ∧ ∀ i, rows'.columns i = rows.columns i := by
  obtain ⟨p, hq, hplace⟩ := place_of_names h
  refine ⟨relocateRows rows (some node.path) p m, ?_, ⟨p, m + 1, shift rows p m, hq, slot hq _ m,
    fun i => ?_⟩, fun i => columns_relocateRows _⟩
  · simp only [move, hplace]
    exact if_neg (hoff hnode hq)
  · rw [hnode, paths_relocateRows]
    by_cases hi : i = node.id
    · have hself : relocate (some node.path) p (m + 1) (shift rows p m) (node.path ++ []) = p ++ [m + 1] :=
        relocate_branch
      rw [List.append_nil] at hself
      rw [if_pos hi, hi, hnode, Option.map_some, hself]
    · rw [if_neg hi]

theorem isChild_iff (hi : i ∈ rows.keys) (hnode : rows.paths node.id = some node.path) :
    isChild rows node i = true ↔ ChildAt rows.paths node.id i ((rows.row i).path.getLastD 0) := by
  have hpath := paths_of_mem hi
  rw [isChild, beq_iff_eq]
  constructor
  · intro h
    exact ⟨node.path, hnode, by rw [hpath, ← h]⟩
  · rintro ⟨p, hp, hchild⟩
    obtain rfl := Option.some.inj (hnode.symm.trans hp)
    exact Option.some.inj (hpath.symm.trans hchild)

/-- Each child is listed with its step. -/
theorem step_of_childAt (h : ChildAt rows.paths q i s) :
    i ∈ rows.keys ∧ (rows.row i).path.getLastD 0 = s := by
  obtain ⟨p, -, hi⟩ := h
  obtain ⟨hmem, hpath⟩ := mem_of_paths hi
  exact ⟨hmem, by simp [hpath]⟩

theorem getFirstChild_none (hnode : rows.paths node.id = some node.path)
    (h : getFirstChild rows node = none) : ∀ i s, ¬ ChildAt rows.paths node.id i s := by
  intro i s hchild
  obtain ⟨hi, rfl⟩ := step_of_childAt hchild
  have hmem : i ∈ rows.keys.filter (isChild rows node) :=
    List.mem_filter.mpr ⟨hi, (isChild_iff hi hnode).mpr hchild⟩
  rw [getFirstChild] at h
  cases hleast : (rows.keys.filter (isChild rows node)).argmin
      fun i => (rows.row i).path.getLastD 0 with
  | none =>
    rw [List.argmin_eq_none.mp hleast] at hmem
    cases hmem
  | some j =>
    rw [hleast, Option.bind_some, TreeRows.load, Option.map_eq_none_iff, TreeRows.get, if_pos] at h
    · cases h
    · exact (List.mem_filter.mp (List.argmin_mem hleast)).1

theorem getFirstChild_some {child : TreeNode D} (hnode : rows.paths node.id = some node.path)
    (h : getFirstChild rows node = some child) : rows.paths child.id = some child.path ∧
      ∃ s, ChildAt rows.paths node.id child.id s ∧ ∀ i t, ChildAt rows.paths node.id i t → s ≤ t := by
  obtain ⟨j, hleast, hload⟩ := Option.bind_eq_some_iff.mp h
  obtain ⟨rfl, hpath⟩ := load_eq_some hload
  obtain ⟨hmem, hchild⟩ := List.mem_filter.mp (List.argmin_mem hleast)
  refine ⟨hpath, _, (isChild_iff hmem hnode).mp hchild, fun i t hi => ?_⟩
  obtain ⟨hi', rfl⟩ := step_of_childAt hi
  exact List.le_of_mem_argmin (List.mem_filter.mpr ⟨hi', (isChild_iff hi' hnode).mpr hi⟩) hleast

theorem mem_getDescendants (hnode : rows.paths node.id = some node.path) :
    i ∈ getDescendants rows node ↔ Below rows.paths node.id i := by
  obtain ⟨hmem, hpath⟩ := mem_of_paths hnode
  rw [getDescendants, List.mem_filter, below_iff, hpath]
  simp [hmem]

theorem isDeleted_iff {ids : List ℕ} (hi : i ∈ rows.keys) :
    isDeleted rows ids i = true ↔ ∃ d ∈ ids, d = i ∨ Below rows.paths d i := by
  simp only [isDeleted, List.any_eq_true, Bool.or_eq_true, beq_iff_eq, decide_eq_true_iff, below_iff]
  simp [hi]

theorem get_delete {ids : List ℕ} : (delete rows ids).get i =
    if isDeleted rows ids i = true then none else rows.get i := by
  by_cases hi : i ∈ rows.keys <;> by_cases h : isDeleted rows ids i = true <;>
    simp [TreeRows.get, delete, hi, h]

end TreeOperations

open TreeOperations in
theorem treeOperations_documented : (treeOperations : MpNode D).Documented where
  getFirstChild_none _ hnode h := getFirstChild_none hnode h
  getFirstChild_some _ hnode h := getFirstChild_some hnode h
  addChild _ h program data := Or.inr ⟨_, _, rfl, insert_inserted h program data⟩
  addSibling _ h _ program data := Or.inr ⟨_, _, rfl, insert_inserted h program data⟩
  move _ hnode h _ hoff := Or.inr (move_placed hnode h hoff)
  mem_getDescendants hnode := mem_getDescendants hnode
  get_delete := by
    intro rows ids i
    by_cases h : isDeleted rows ids i = true
    · exact Or.inl (get_delete.trans (if_pos h))
    · exact Or.inr (get_delete.trans (if_neg h))
  get_delete_eq_none := by
    intro rows ids i hi
    have hmem : i ∈ rows.keys := by
      by_contra hnot
      exact hi (if_neg hnot)
    rw [← isDeleted_iff hmem]
    change (delete rows ids).get i = none ↔ _
    rw [get_delete]
    by_cases h : isDeleted rows ids i = true <;> simp [h, hi]

end MitxOnline

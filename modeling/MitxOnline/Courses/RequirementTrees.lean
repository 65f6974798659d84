import MitxOnline.Catalog
import MitxOnline.Lib.PathMaps
import MitxOnline.Lib.Table

/-!
# Saving requirement trees (`courses/serializers/base.py`)

The admin form submits the tree of a program as a forest of nodes, some of them with the ids of nodes that
are stored already, and the serializer edits the stored tree in place: it walks over the forest, moves or
inserts each node after the one before it, and deletes what it has not met. The moves are those of the
library that stores trees with materialised paths. They go by the paths that the objects have in memory,
and a move changes the stored path of a node but not the object.
-/

namespace MitxOnline

open Paths PathMap

variable {D : Type}

/-! ## Rows and objects -/

/-- A row of `ProgramRequirement`, its data columns taken together. -/
structure TreeRow (D : Type) where
  path : List ℕ
  program : ProgramId
  data : D

abbrev TreeRows (D : Type) := Table (TreeRow D)

/-- An object in memory, with the columns as they were when it was loaded or last set. -/
structure TreeNode (D : Type) extends TreeRow D where
  id : ℕ

namespace TreeRows

def get (rows : TreeRows D) (id : ℕ) : Option (TreeRow D) :=
  if id ∈ rows.keys then some (rows.row id) else none

/-- `ProgramRequirement.objects.filter(id=node_id).first()` -/
def load (rows : TreeRows D) (id : ℕ) : Option (TreeNode D) :=
  (rows.get id).map fun r => { r with id := id }

/-- The path of each node. -/
def paths (rows : TreeRows D) : PathMap ℕ := fun id => (rows.get id).map (·.path)

/-- The columns of each node that the serializer sets. -/
def columns (rows : TreeRows D) (id : ℕ) : Option (ProgramId × D) :=
  (rows.get id).map fun r => (r.program, r.data)

variable {rows rows' : TreeRows D}

theorem get_eq_some {i : ℕ} {r : TreeRow D} : rows.get i = some r ↔ i ∈ rows.keys ∧ rows.row i = r := by
  by_cases h : i ∈ rows.keys <;> simp [get, h]

theorem paths_eq_some {i : ℕ} {p : List ℕ} :
    rows.paths i = some p ↔ ∃ r, rows.get i = some r ∧ r.path = p := Option.map_eq_some_iff

theorem columns_eq_some {i : ℕ} {c : ProgramId × D} :
    rows.columns i = some c ↔ ∃ r, rows.get i = some r ∧ (r.program, r.data) = c :=
  Option.map_eq_some_iff

theorem paths_eq_none {i : ℕ} : rows.paths i = none ↔ rows.get i = none := Option.map_eq_none_iff

/-- A row is its path and its columns. -/
theorem get_eq_of {i : ℕ} (hpath : rows'.paths i = rows.paths i)
    (hcolumns : rows'.columns i = rows.columns i) : rows'.get i = rows.get i := by
  unfold paths at hpath
  unfold columns at hcolumns
  cases h : rows.get i with
  | none => simpa [h] using hpath
  | some r =>
    rw [h] at hpath hcolumns
    obtain ⟨r', hr', hp⟩ := Option.map_eq_some_iff.mp hpath
    rw [hr'] at hcolumns
    obtain ⟨hprogram, hdata⟩ := Prod.mk.inj (Option.some.inj hcolumns)
    rw [hr']
    cases r
    cases r'
    simp_all

theorem load_eq_some {i : ℕ} {node : TreeNode D} (h : rows.load i = some node) :
    node.id = i ∧ rows.paths i = some node.path := by
  obtain ⟨r, hr, rfl⟩ := Option.map_eq_some_iff.mp h
  exact ⟨rfl, paths_eq_some.mpr ⟨r, hr, rfl⟩⟩

theorem exists_load {i : ℕ} (h : rows.paths i ≠ none) :
    ∃ node, rows.load i = some node ∧ node.id = i ∧ rows.paths i = some node.path := by
  obtain ⟨p, hp⟩ := Option.ne_none_iff_exists'.mp h
  obtain ⟨r, hr, -⟩ := paths_eq_some.mp hp
  have hload : rows.load i = some { r with id := i } := by rw [load, hr]; rfl
  exact ⟨_, hload, load_eq_some hload⟩

theorem get_set {k i : ℕ} {r : TreeRow D} (hk : rows.get k ≠ none) :
    TreeRows.get (rows.set k r) i = if i = k then some r else rows.get i := by
  have hmem : k ∈ rows.keys := by
    by_contra hnot
    exact hk (if_neg hnot)
  by_cases hi : i = k
  · subst hi
    simp [TreeRows.get, hmem]
  · simp [TreeRows.get, hi, Table.set_row_of_ne]

end TreeRows

inductive TreeError where
  /-- `ProgramRequirement.DoesNotExist` -/
  | doesNotExist
  /-- `DatabaseError`: a save with `update_fields` that did not affect any row. -/
  | databaseError
  /-- `InvalidMoveToDescendant` -/
  | invalidMoveToDescendant
  /-- There is no room left for a path. -/
  | pathOverflow
  deriving DecidableEq, Repr

def refreshFromDb (rows : TreeRows D) (node : TreeNode D) : Except TreeError (TreeNode D) :=
  match rows.load node.id with
  | none => .error .doesNotExist
  | some node => .ok node

/-- `save(update_fields=data.keys())` -/
def saveData (rows : TreeRows D) (node : TreeNode D) : Except TreeError (TreeRows D) :=
  match rows.get node.id with
  | none => .error .databaseError
  | some r => .ok (rows.set node.id { r with program := node.program, data := node.data })

/-! ## The tree library -/

/-- Where a node is put, seen from the target. -/
inductive Position where
  | right
  | firstSibling
  | firstChild
  deriving DecidableEq, Repr

/-- The methods of `MP_Node` that the serializer calls. -/
structure MpNode (D : Type) where
  getFirstChild : TreeRows D → TreeNode D → Option (TreeNode D)
  addChild : TreeRows D → TreeNode D → ProgramId → D → Except TreeError (TreeRows D × TreeNode D)
  addSibling : TreeRows D → TreeNode D → Position → ProgramId → D →
    Except TreeError (TreeRows D × TreeNode D)
  move : TreeRows D → TreeNode D → TreeNode D → Position → Except TreeError (TreeRows D)
  getDescendants : TreeRows D → TreeNode D → List ℕ
  delete : TreeRows D → List ℕ → TreeRows D

/-- A target and a position name a place among the children of `q`: the one after the children up to step
`m`. Of a target on the left it is the path in memory that counts, as long as the target is still stored
under `q`, and no further right than that. -/
inductive Names (f : PathMap ℕ) (target : TreeNode D) : Position → ℕ → ℕ → Prop where
  | right {q s m : ℕ} {p : List ℕ} (hchild : ChildAt f q target.id s) (hle : s ≤ m)
      (hq : f q = some p) (hpath : target.path = p ++ [m]) : Names f target .right q m
  | firstSibling {q s : ℕ} (hchild : ChildAt f q target.id s)
      (hfirst : ∀ i t, ChildAt f q i t → s ≤ t) (hpath : f target.id = some target.path) :
      Names f target .firstSibling q 0
  | firstChild (hpath : f target.id = some target.path) (hnone : ∀ i s, ¬ ChildAt f target.id i s) :
      Names f target .firstChild target.id 0

/-- A new node was put among the children of `q`, after step `m`. -/
structure Inserted (rows rows' : TreeRows D) (q m : ℕ) (program : ProgramId) (data : D)
    (node : TreeNode D) : Prop where
  fresh : rows.get node.id = none
  placed : Placed rows.paths rows'.paths q node.id m
  path : rows'.paths node.id = some node.path
  columns : ∀ i, rows'.columns i = if i = node.id then some (program, data) else rows.columns i

/-- What the library does, on tables of well-formed trees. -/
structure MpNode.Documented (ops : MpNode D) : Prop where
  getFirstChild_none : ∀ {rows node}, rows.paths.WellFormed →
    rows.paths node.id = some node.path → ops.getFirstChild rows node = none →
    ∀ i s, ¬ ChildAt rows.paths node.id i s
  getFirstChild_some : ∀ {rows node child}, rows.paths.WellFormed →
    rows.paths node.id = some node.path → ops.getFirstChild rows node = some child →
    rows.paths child.id = some child.path ∧ ∃ s, ChildAt rows.paths node.id child.id s ∧
      ∀ i t, ChildAt rows.paths node.id i t → s ≤ t
  addChild : ∀ {rows parent q m}, rows.paths.WellFormed → Names rows.paths parent .firstChild q m →
    ∀ program data, ops.addChild rows parent program data = .error .pathOverflow ∨
      ∃ rows' node, ops.addChild rows parent program data = .ok (rows', node) ∧
        Inserted rows rows' q m program data node
  addSibling : ∀ {rows target pos q m}, rows.paths.WellFormed → Names rows.paths target pos q m →
    pos ≠ .firstChild → ∀ program data,
    ops.addSibling rows target pos program data = .error .pathOverflow ∨
      ∃ rows' node, ops.addSibling rows target pos program data = .ok (rows', node) ∧
        Inserted rows rows' q m program data node
  move : ∀ {rows node target pos q m}, rows.paths.WellFormed →
    rows.paths node.id = some node.path → Names rows.paths target pos q m →
    (pos = .right → node.id ≠ target.id) → OffPath rows.paths node.id q →
    ops.move rows node target pos = .error .pathOverflow ∨
      ∃ rows', ops.move rows node target pos = .ok rows' ∧
        Placed rows.paths rows'.paths q node.id m ∧ ∀ i, rows'.columns i = rows.columns i
  mem_getDescendants : ∀ {rows node i}, rows.paths node.id = some node.path →
    (i ∈ ops.getDescendants rows node ↔ Below rows.paths node.id i)
  get_delete : ∀ {rows ids i}, (ops.delete rows ids).get i = none ∨
    (ops.delete rows ids).get i = rows.get i
  get_delete_eq_none : ∀ {rows ids i}, rows.get i ≠ none → ((ops.delete rows ids).get i = none ↔
    ∃ d ∈ ids, d = i ∨ Below rows.paths d i)

/-! ## `BaseProgramRequirementTreeSerializer.update` -/

/-- A node of the submitted forest: without an id, or with the id of a stored node. -/
structure SubmittedNode (D : Type) where
  id : Option ℕ
  data : D

/-- `_get_existing` -/
def getExisting (rows : TreeRows D) (nodeId : Option ℕ) : Option (TreeNode D) :=
  match nodeId with
  | none => none
  | some id => if id = 0 then none else rows.load id

/-- The insertion of a new node. -/
def insertNode (ops : MpNode D) (rows : TreeRows D) (parent : TreeNode D)
    (lastUpdatedChild firstChild : Option (TreeNode D)) (program : ProgramId) (data : D) :
    Except TreeError (TreeRows D × TreeNode D) :=
  match lastUpdatedChild, firstChild with
  | some last, _ => ops.addSibling rows last .right program data
  | none, some first => ops.addSibling rows first .firstSibling program data
  | none, none => ops.addChild rows parent program data

/-- The move of an existing node. -/
def moveNode (ops : MpNode D) (rows : TreeRows D) (parent : TreeNode D)
    (lastUpdatedChild firstChild : Option (TreeNode D)) (node : TreeNode D) :
    Except TreeError (TreeRows D) :=
  match lastUpdatedChild, firstChild with
  | some last, _ => ops.move rows node last .right
  | none, some first => ops.move rows node first .firstSibling
  | none, none => ops.move rows node parent .firstChild

/-- The insertion or the move of a submitted node, and its object: for a node that was moved, the one that
was loaded before the move. -/
def placeNode (ops : MpNode D) (program : ProgramId) (rows : TreeRows D) (parent : TreeNode D)
    (lastUpdatedChild : Option (TreeNode D)) (submitted : SubmittedNode D) :
    Except TreeError (TreeRows D × TreeNode D) :=
  let firstChild := ops.getFirstChild rows parent
  match getExisting rows submitted.id with
  | none => insertNode ops rows parent lastUpdatedChild firstChild program submitted.data
  | some existing => do
    let rows ← moveNode ops rows parent lastUpdatedChild firstChild existing
    let node := { existing with program := program, data := submitted.data }
    let rows ← saveData rows node
    .ok (rows, node)

/-- Where the loop over the children of a node is. -/
structure Progress (D : Type) where
  rows : TreeRows D
  parent : TreeNode D
  lastUpdatedChild : Option (TreeNode D)
  keepNodeIds : List ℕ

mutual

/-- One round of the loop of `_update`. -/
def updateNode (ops : MpNode D) (program : ProgramId) (s : Progress D) :
    PathTree (SubmittedNode D) → Except TreeError (Progress D)
  | .node submitted children => do
    let parent ← refreshFromDb s.rows s.parent
    let (rows, node) ← placeNode ops program s.rows parent s.lastUpdatedChild submitted
    -- the recursive call refreshes the object that it takes as the parent, if there are children
    let below ← updateNodes ops program ⟨rows, node, none, s.keepNodeIds ++ [node.id]⟩ children
    .ok ⟨below.rows, parent, some below.parent, below.keepNodeIds⟩

/-- `_update` -/
def updateNodes (ops : MpNode D) (program : ProgramId) (s : Progress D) :
    List (PathTree (SubmittedNode D)) → Except TreeError (Progress D)
  | [] => .ok s
  | t :: rest => do
    let s ← updateNode ops program s t
    updateNodes ops program s rest

end

/-- `BaseProgramRequirementTreeSerializer.update` -/
def updateRequirementTree (ops : MpNode D) (rows : TreeRows D) (root : TreeNode D)
    (forest : List (PathTree (SubmittedNode D))) : Except TreeError (TreeRows D × TreeNode D) := do
  let s ← updateNodes ops root.program ⟨rows, root, none, []⟩ forest
  let unkept := (ops.getDescendants s.rows s.parent).filter fun id => id ∉ s.keepNodeIds
  let rows := ops.delete s.rows unkept
  let root ← refreshFromDb rows s.parent
  .ok (rows, root)

/-! ## What a save is to do -/

/-- The ids that were submitted. -/
def givenIds (forest : List (PathTree (SubmittedNode D))) : List ℕ := (nodes forest).filterMap (·.id)

/-- A stored forest is the submitted one: the same shape, order and data, and the ids that were given. -/
inductive SavedAs : List (PathTree (SubmittedNode D)) → List (PathTree (ℕ × D)) → Prop where
  | nil : SavedAs [] []
  | cons {submitted : SubmittedNode D} {a : ℕ × D} {children rest : List (PathTree (SubmittedNode D))}
      {children' rest' : List (PathTree (ℕ × D))} (hid : ∀ i ∈ submitted.id, a.1 = i)
      (hdata : a.2 = submitted.data) (hchildren : SavedAs children children')
      (hrest : SavedAs rest rest') :
      SavedAs (.node submitted children :: rest) (.node a children' :: rest')

/-- The table holds the requirement tree of a program: its nodes are the root and what is below it. -/
structure IsRequirementTree (rows : TreeRows D) (root : TreeNode D) : Prop where
  wellFormed : rows.paths.WellFormed
  loaded : rows.get root.id = some root.toTreeRow
  program : ∀ {i r}, rows.get i = some r →
    (r.program = root.program ↔ i = root.id ∨ Below rows.paths root.id i)
  pos : rows.get 0 = none

/-- The stored tree is the submitted one, it is all there is of the program, and the nodes of the other
programs are as they were. -/
structure SavedExactly (rows rows' : TreeRows D) (root : TreeNode D)
    (forest : List (PathTree (SubmittedNode D))) : Prop where
  dump : ∃ saved, SavedAs forest saved ∧ Dumps rows'.paths root.id 0 saved ∧
    (∀ a ∈ nodes saved, rows'.columns a.1 = some (root.program, a.2)) ∧
    ∀ i r, rows'.get i = some r → r.program = root.program → i = root.id ∨ i ∈ keys saved
  others : ∀ i r, r.program ≠ root.program → (rows'.get i = some r ↔ rows.get i = some r)

/-- A save that does not run out of paths stores the submitted tree. -/
def SavesExactly (ops : MpNode D) (rows : TreeRows D) (root : TreeNode D)
    (forest : List (PathTree (SubmittedNode D))) : Prop :=
  match updateRequirementTree ops rows root forest with
  | .ok (rows', _) => SavedExactly rows rows' root forest
  | .error e => e = .pathOverflow

/-- Every submitted forest is stored exactly, whichever nodes of the program it takes up. -/
def SavesEveryForest (D : Type) : Prop :=
  ∀ ops : MpNode D, ops.Documented → ∀ (rows : TreeRows D) (root : TreeNode D)
    (forest : List (PathTree (SubmittedNode D))), IsRequirementTree rows root → (givenIds forest).Nodup →
    (∀ i ∈ givenIds forest, ∃ r, rows.get i = some r ∧ r.program = root.program) →
    SavesExactly ops rows root forest

/-- In each list that was submitted, the existing nodes without submitted children, the last item aside,
are stored under the parent of the list, in this order and after step `b`. A new node has no such nodes
under it. -/
inductive InPlace (f : PathMap ℕ) : Option ℕ → ℕ → List (PathTree (SubmittedNode D)) → Prop where
  | nil {parent : Option ℕ} {b : ℕ} : InPlace f parent b []
  | last {parent : Option ℕ} {b : ℕ} {submitted : SubmittedNode D}
      {children : List (PathTree (SubmittedNode D))} (hchildren : InPlace f submitted.id 0 children) :
      InPlace f parent b [.node submitted children]
  | leaf {q b i s : ℕ} {submitted : SubmittedNode D} {rest : List (PathTree (SubmittedNode D))}
      (hid : submitted.id = some i) (hchild : ChildAt f q i s) (hafter : b < s)
      (hrest : InPlace f (some q) s rest) : InPlace f (some q) b (.node submitted [] :: rest)
  | other {parent : Option ℕ} {b : ℕ} {submitted : SubmittedNode D}
      {children rest : List (PathTree (SubmittedNode D))}
      (hother : submitted.id = none ∨ children ≠ []) (hchildren : InPlace f submitted.id 0 children)
      (hrest : InPlace f parent b rest) : InPlace f parent b (.node submitted children :: rest)

end MitxOnline

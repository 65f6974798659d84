import MitxOnline.Courses.TreeOperations
import MitxOnline.Courses.RequirementEdits
import MitxOnline.Lib.PathMaps
import MitxOnline.Lib.Trace

/-!
# A requirement is there once

A helper takes away the branches of the children of the root that are for the item, and puts a new node for
it under an operator. So the item is there once afterwards if all its nodes were in these branches, and
nothing else is lost if the branches held nothing else.
-/

namespace MitxOnline

open Paths PathMap TreeRows

/-! ## Rows -/

section Rows

variable {D : Type} {rows rows' : TreeRows D} {q i : ℕ} {program : ProgramId} {data : D}
  {child : TreeNode D}

theorem paths_congr (h : rows'.get i = rows.get i) : rows'.paths i = rows.paths i := by
  rw [TreeRows.paths, TreeRows.paths, h]

theorem get_of_load (h : rows.load i = some child) :
    rows.get i = some ⟨child.path, child.program, child.data⟩ := by
  obtain ⟨row, hrow, rfl⟩ := Option.map_eq_some_iff.mp h
  exact hrow

/-- The columns of the new node. -/
theorem AddedLast.get_child (h : AddedLast rows rows' q program data child) :
    rows'.get child.id = some ⟨child.path, program, data⟩ := by
  have hget := get_of_load h.loaded
  rwa [h.program, h.data] at hget

end Rows

section Edits

variable {ops : MpChildren (Option RequirementFields)} {program : ProgramId}
  {rows rows' rows'' : RequirementRows} {root node : RequirementTreeNode} {r i j o n d s t : ℕ}
  {item item' : RequirementItem} {operator : Operator} {fields : RequirementFields}

/-! ## What a node is for -/

theorem isFor_congr (h : rows'.get i = rows.get i) : isFor rows' item i = isFor rows item i := by
  rw [isFor, isFor, h]

theorem isOperatorOf_congr (h : rows'.get i = rows.get i) :
    isOperatorOf rows' operator i = isOperatorOf rows operator i := by
  rw [isOperatorOf, isOperatorOf, h]

theorem isFor_iff : isFor rows item i = true ↔
    ∃ row fields, rows.get i = some row ∧ row.data = some fields ∧ fields.node = item.node := by
  simp [isFor, Option.any_eq_true]

theorem isOperatorOf_iff : isOperatorOf rows operator i = true ↔
    ∃ row fields value, rows.get i = some row ∧ row.data = some fields ∧
      fields.node = .operator operator value := by
  unfold isOperatorOf
  rw [Option.any_eq_true]
  constructor
  · rintro ⟨row, hrow, hany⟩
    obtain ⟨fields, hfields, hnode⟩ := (Option.any_eq_true _ _).mp hany
    split at hnode
    · rename_i operator' value heq
      obtain rfl := eq_of_beq hnode
      exact ⟨row, fields, value, hrow, hfields, heq⟩
    · cases hnode
  · rintro ⟨row, fields, value, hrow, hfields, hnode⟩
    refine ⟨row, hrow, (Option.any_eq_true _ _).mpr ⟨fields, hfields, ?_⟩⟩
    rw [hnode]
    exact beq_self_eq_true operator

/-- No node is for an item and an operator. -/
theorem not_isFor_of_isOperatorOf (h : isOperatorOf rows operator i = true) :
    isFor rows item i = false := by
  obtain ⟨row, fields, value, hrow, hfields, hnode⟩ := isOperatorOf_iff.mp h
  rw [Bool.eq_false_iff]
  intro hfor
  obtain ⟨row', fields', hrow', hfields', hnode'⟩ := isFor_iff.mp hfor
  obtain rfl := Option.some.inj (hrow.symm.trans hrow')
  obtain rfl := Option.some.inj (hfields.symm.trans hfields')
  rw [hnode] at hnode'
  cases item <;> cases hnode'

/-- No node is for two items. -/
theorem item_eq_of_isFor (h : isFor rows item i = true) (h' : isFor rows item' i = true) : item = item' := by
  obtain ⟨row, fields, hrow, hfields, hnode⟩ := isFor_iff.mp h
  obtain ⟨row', fields', hrow', hfields', hnode'⟩ := isFor_iff.mp h'
  obtain rfl := Option.some.inj (hrow.symm.trans hrow')
  obtain rfl := Option.some.inj (hfields.symm.trans hfields')
  have hsame := hnode.symm.trans hnode'
  cases item <;> cases item' <;> simp_all [RequirementItem.node]

/-! ## The root -/

/-- The tree of the program has its root at `r`, and the table is well formed. -/
structure Rooted (rows : RequirementRows) (program : ProgramId) (r : ℕ) : Prop where
  wellFormed : rows.paths.WellFormed
  root : ∃ s data, rows.get r = some ⟨[s], program, data⟩
  unique : ∀ i s data, rows.get i = some ⟨[s], program, data⟩ → i = r

theorem requirementsRoot_eq (hops : ops.Documented) (h : Rooted rows program r) :
    ∃ root, requirementsRoot ops program rows = some root ∧ root.id = r ∧
      rows.paths r = some root.path ∧ root.program = program ∧ root.path.length = 1 := by
  obtain ⟨s, data, hget⟩ := h.root
  have hpath : rows.paths r = some [s] := by rw [TreeRows.paths, hget, Option.map_some]
  have hload : rows.load r = some ⟨⟨[s], program, data⟩, r⟩ := by rw [TreeRows.load, hget, Option.map_some]
  refine ⟨⟨⟨[s], program, data⟩, r⟩, ?_, rfl, hpath, rfl, rfl⟩
  have hmem : r ∈ ops.getRootNodes rows := hops.mem_getRootNodes.mpr ⟨s, hpath⟩
  unfold requirementsRoot
  cases hfind : (ops.getRootNodes rows).find? fun i =>
      (rows.get i).any fun row => row.program == program with
  | none =>
    have hnot := List.find?_eq_none.mp hfind r hmem
    simp [hget] at hnot
  | some i =>
    obtain ⟨t, ht⟩ := hops.mem_getRootNodes.mp (List.mem_of_find?_eq_some hfind)
    obtain ⟨row, hrow, hrowPath⟩ := paths_eq_some.mp ht
    have hprogram := List.find?_some hfind
    rw [hrow, Option.any_some, beq_iff_eq] at hprogram
    obtain rfl : i = r := by
      refine h.unique i t row.data ?_
      rw [hrow, ← hrowPath, ← hprogram]
    exact hload

/-! ## What is taken away -/

/-- A child of the root that is for the item. -/
def TopFor (rows : RequirementRows) (r : ℕ) (item : RequirementItem) (d : ℕ) : Prop :=
  (∃ s, ChildAt rows.paths r d s) ∧ isFor rows item d = true

/-- The branches of the children of the root that are for the item. -/
abbrev Taken (rows : RequirementRows) (r : ℕ) (item : RequirementItem) (i : ℕ) : Prop :=
  InBranch rows.paths (TopFor rows r item) i

theorem Taken.below (h : Taken rows r item i) : Below rows.paths r i := by
  obtain ⟨d, ⟨⟨s, hchild⟩, -⟩, rfl | hbelow⟩ := h
  · exact hchild.below (.inl rfl)
  · exact (hchild.below (.inl rfl)).trans hbelow

/-- A child of the root is taken away if it is for the item. -/
theorem taken_child_iff (h : ChildAt rows.paths r i s) : Taken rows r item i ↔ isFor rows item i = true := by
  constructor
  · rintro ⟨d, ⟨⟨t, hchild⟩, hfor⟩, rfl | hbelow⟩
    · exact hfor
    · exact absurd hbelow (h.not_below hchild)
  · intro hfor
    exact ⟨i, ⟨⟨s, h⟩, hfor⟩, .inl rfl⟩

/-- An operator below the root stays, and so do its children. -/
theorem not_taken_of_operator (hoperator : isOperatorOf rows operator o = true)
    (h : ChildAt rows.paths r o s) : ¬Taken rows r item o := by
  rw [taken_child_iff h, not_isFor_of_isOperatorOf hoperator]
  exact Bool.false_ne_true

theorem not_taken_of_child (hwf : rows.paths.WellFormed) (hoperator : isOperatorOf rows operator o = true)
    (h : ChildAt rows.paths r o s) (hchild : ChildAt rows.paths o i t) : ¬Taken rows r item i := by
  rintro ⟨d, ⟨⟨u, hd⟩, hfor⟩, hdi⟩
  have hsame : d = o := by
    rcases hdi with rfl | hbelow
    · have hparent := hd.parent_unique hwf hchild
      rw [← hparent] at h
      exact absurd rfl h.ne
    · exact h.eq_of_below hwf hchild hd hbelow
  rw [hsame, not_isFor_of_isOperatorOf hoperator] at hfor
  cases hfor

/-- The rows without the branches that are taken away. -/
structure WithoutTaken (rows rows' : RequirementRows) (r : ℕ) (item : RequirementItem) : Prop where
  gone : ∀ i, Taken rows r item i → rows'.get i = none
  same : ∀ i, ¬Taken rows r item i → rows'.get i = rows.get i

theorem delete_withoutTaken (hops : ops.Documented) (hroot : rows.paths root.id = some root.path) :
    WithoutTaken rows (ops.delete rows ((ops.getChildren rows root).filter (isFor rows item))) root.id
      item := by
  have hmem (d : ℕ) : d ∈ (ops.getChildren rows root).filter (isFor rows item) ↔
      TopFor rows root.id item d := by
    rw [List.mem_filter, hops.mem_getChildren hroot]
    exact Iff.rfl
  have hbranch (i : ℕ) :
      InBranch rows.paths (· ∈ (ops.getChildren rows root).filter (isFor rows item)) i ↔
        Taken rows root.id item i := by
    unfold Taken InBranch
    simp only [hmem]
  exact ⟨fun i hi => hops.get_delete_of_inBranch ((hbranch i).mpr hi),
    fun i hi => hops.get_delete_of_not_inBranch (mt (hbranch i).mp hi)⟩

namespace WithoutTaken

theorem cut (h : WithoutTaken rows rows' r item) :
    Cut rows.paths rows'.paths (TopFor rows r item) where
  gone i hi := paths_eq_none.mpr (h.gone i hi)
  same i hi := paths_congr (h.same i hi)

theorem root_same (h : WithoutTaken rows rows' r item) : rows'.get r = rows.get r :=
  h.same r fun htaken => htaken.below.ne rfl

/-- What is there afterwards was there before. -/
theorem of_get (h : WithoutTaken rows rows' r item) {row : TreeRow (Option RequirementFields)}
    (hi : rows'.get i = some row) : ¬Taken rows r item i ∧ rows.get i = some row := by
  have hnot : ¬Taken rows r item i := by
    intro htaken
    rw [h.gone i htaken] at hi
    cases hi
  exact ⟨hnot, (h.same i hnot).symm.trans hi⟩

theorem rooted (h : WithoutTaken rows rows' r item) (hrooted : Rooted rows program r) :
    Rooted rows' program r := by
  obtain ⟨s, data, hget⟩ := hrooted.root
  exact ⟨h.cut.wellFormed hrooted.wellFormed, ⟨s, data, h.root_same.trans hget⟩,
    fun i s data hi => hrooted.unique i s data (h.of_get hi).2⟩

theorem childAt_root_iff (h : WithoutTaken rows rows' r item) :
    ChildAt rows'.paths r i s ↔ ChildAt rows.paths r i s ∧ isFor rows item i = false := by
  constructor
  · intro hchild
    have hchild' := h.cut.childAt hchild
    obtain ⟨p, -, hi⟩ := hchild
    have hnot := h.cut.not_inBranch hi
    exact ⟨hchild', Bool.eq_false_iff.mpr (mt (taken_child_iff hchild').mpr hnot)⟩
  · rintro ⟨hchild, hfor⟩
    have hnot : ¬Taken rows r item i := by
      rw [taken_child_iff hchild, hfor]
      exact Bool.false_ne_true
    exact h.cut.childAt_of_not_inBranch hchild (fun htaken => (Taken.below htaken).ne rfl) hnot

/-- The operators among the children of the root are as before. -/
theorem operator_child_iff (h : WithoutTaken rows rows' r item) :
    (ChildAt rows'.paths r o s ∧ isOperatorOf rows' operator o = true) ↔
      ChildAt rows.paths r o s ∧ isOperatorOf rows operator o = true := by
  constructor
  · rintro ⟨hchild, hoperator⟩
    obtain ⟨row, fields, value, hrow, -⟩ := isOperatorOf_iff.mp hoperator
    rw [isOperatorOf_congr (h.same o (h.of_get hrow).1)] at hoperator
    exact ⟨h.cut.childAt hchild, hoperator⟩
  · rintro ⟨hchild, hoperator⟩
    have hnot : ¬Taken rows r item o := not_taken_of_operator hoperator hchild
    refine ⟨h.childAt_root_iff.mpr ⟨hchild, not_isFor_of_isOperatorOf hoperator⟩, ?_⟩
    rwa [isOperatorOf_congr (h.same o hnot)]

/-- So are the children of an operator. -/
theorem childAt_operator_iff (h : WithoutTaken rows rows' r item) (hwf : rows.paths.WellFormed)
    (hchild : ChildAt rows.paths r o s) (hoperator : isOperatorOf rows operator o = true) :
    ChildAt rows'.paths o i t ↔ ChildAt rows.paths o i t := by
  constructor
  · exact h.cut.childAt
  · intro hi
    exact h.cut.childAt_of_not_inBranch hi (not_taken_of_operator hoperator hchild)
      (not_taken_of_child hwf hoperator hchild hi)

end WithoutTaken

/-! ## The operator -/

/-- The first of the children of the root with an operator. -/
structure FirstOperator (rows : RequirementRows) (r : ℕ) (operator : Operator) (o : ℕ) : Prop where
  child : ∃ s, ChildAt rows.paths r o s ∧ ∀ i t, ChildAt rows.paths r i t →
    isOperatorOf rows operator i = true → s ≤ t
  isOperator : isOperatorOf rows operator o = true

/-- No child of the root has the operator. -/
def NoOperator (rows : RequirementRows) (r : ℕ) (operator : Operator) : Prop :=
  ∀ i s, ChildAt rows.paths r i s → isOperatorOf rows operator i = false

theorem FirstOperator.eq (hwf : rows.paths.WellFormed) (h : FirstOperator rows r operator o)
    (h' : FirstOperator rows r operator n) : o = n := by
  obtain ⟨s, hchild, hfirst⟩ := h.child
  obtain ⟨t, hchild', hfirst'⟩ := h'.child
  have hst : s = t := Nat.le_antisymm (hfirst n t hchild' h'.isOperator) (hfirst' o s hchild h.isOperator)
  obtain ⟨p, hp, ho⟩ := hchild
  obtain ⟨p', hp', hn⟩ := hchild'
  obtain rfl := Option.some.inj (hp.symm.trans hp')
  rw [hst] at ho
  exact hwf.inj ho hn

theorem operatorNode_cases (hops : ops.Documented) (hroot : rows.paths root.id = some root.path)
    (operator : Operator) :
    (operatorNode ops rows root operator = none ∧ NoOperator rows root.id operator) ∨
    ∃ node, operatorNode ops rows root operator = some node ∧
      rows.get node.id = some ⟨node.path, node.program, node.data⟩ ∧
      FirstOperator rows root.id operator node.id := by
  unfold operatorNode
  cases hfind : (ops.getChildren rows root).find? (isOperatorOf rows operator) with
  | none =>
    refine .inl ⟨rfl, fun i s hi => ?_⟩
    have hnot := List.find?_eq_none.mp hfind i ((hops.mem_getChildren hroot).mpr ⟨s, hi⟩)
    exact Bool.eq_false_iff.mpr hnot
  | some o =>
    obtain ⟨hoperator, before, after, hlist, hbefore⟩ := List.find?_eq_some_iff_append.mp hfind
    obtain ⟨row, fields, value, hrow, -⟩ := isOperatorOf_iff.mp hoperator
    have hmem : o ∈ ops.getChildren rows root := List.mem_of_find?_eq_some hfind
    obtain ⟨s, hchild⟩ := (hops.mem_getChildren hroot).mp hmem
    have hsorted := hops.getChildren_sorted hroot
    rw [hlist, List.pairwise_append, List.pairwise_cons] at hsorted
    have hload : rows.load o = some { row with id := o } := by rw [TreeRows.load, hrow, Option.map_some]
    refine .inr ⟨{ row with id := o }, hload, hrow, ⟨s, hchild, fun i t hi hioperator => ?_⟩, hoperator⟩
    have hi' : i ∈ ops.getChildren rows root := (hops.mem_getChildren hroot).mpr ⟨t, hi⟩
    rw [hlist] at hi'
    rcases List.mem_append.mp hi' with hi' | hi'
    · have hnot := hbefore i hi'
      rw [hioperator] at hnot
      cases hnot
    · rcases List.mem_cons.mp hi' with rfl | hi'
      · exact (hchild.step_unique hi).le
      · exact hsorted.2.1.1 i hi' s t hchild hi

/-! ## The code, step by step -/

theorem bind_eq_of_ok {α β : Type} {code : EditCode α} {f : α → EditCode β} {a : α}
    (h : code rows = .ok a rows') : (code >>= f) rows = f a rows' := by
  simp only [bind, EStateM.bind, h]

theorem addChild_eq (ops : MpChildren (Option RequirementFields)) (node : RequirementTreeNode)
    (fields : RequirementFields) (rows : RequirementRows) :
    addChild ops node fields rows =
      match ops.addChild rows node node.program (some fields) with
      | .error e => .error (.tree e) rows
      | .ok (rows', child) => .ok child rows' := by
  show (match ops.addChild rows node node.program (some fields) with
    | .error e => throw (RequirementEditError.tree e)
    | .ok (rows, child) => do
      set rows
      return child : EditCode RequirementTreeNode) rows = _
  cases ops.addChild rows node node.program (some fields) <;> rfl

theorem getRequirementsRoot_eq (h : requirementsRoot ops program rows = some root) :
    getRequirementsRoot ops program rows = .ok root rows := by
  have hget : (MonadState.get : EditCode RequirementRows) rows = .ok rows rows := rfl
  unfold getRequirementsRoot
  rw [bind_eq_of_ok hget, h]
  rfl

theorem addCourseNode_eq (h : requirementsRoot ops program rows = some root) :
    addCourseNode ops program operator 1 rows =
      match operatorNode ops rows root operator with
      | some node => .ok node rows
      | none => addChild ops root (operatorFields operator 1) rows := by
  have hroot := getRequirementsRoot_eq h
  unfold addCourseNode
  rw [bind_eq_of_ok hroot]
  show (match operatorNode ops rows root operator with
    | some node => return node
    | none => getRequirementsRoot ops program >>= fun root =>
      addChild ops root (operatorFields operator 1) : EditCode RequirementTreeNode) rows = _
  cases operatorNode ops rows root operator with
  | some node => rfl
  | none => exact bind_eq_of_ok hroot

theorem addItem_eq (h : requirementsRoot ops program rows = some root) :
    addItem ops program operator item rows =
      match addCourseNode ops program operator 1
        (ops.delete rows ((ops.getChildren rows root).filter (isFor rows item))) with
      | .ok node rows' => addChild ops node ⟨item.node, some "", some false⟩ rows'
      | .error e rows' => .error e rows' := by
  have hmodify : (modify fun rows => ops.delete rows ((ops.getChildren rows root).filter (isFor rows item)) :
      EditCode Unit) rows =
      .ok () (ops.delete rows ((ops.getChildren rows root).filter (isFor rows item))) := rfl
  unfold addItem
  rw [bind_eq_of_ok (getRequirementsRoot_eq h), bind_eq_of_ok hmodify]
  simp only [bind, EStateM.bind]
  cases addCourseNode ops program operator 1
    (ops.delete rows ((ops.getChildren rows root).filter (isFor rows item))) <;> rfl

/-- What adding a child comes to, for a node that is stored. -/
theorem addChild_cases (hops : ops.Documented) (hwf : rows.paths.WellFormed)
    (hnode : rows.paths node.id = some node.path) (fields : RequirementFields) :
    (¬HasRoom rows.paths node.id ∧ ∃ e, addChild ops node fields rows = .error e rows) ∨
    (HasRoom rows.paths node.id ∧ ∃ child rows', addChild ops node fields rows = .ok child rows' ∧
      AddedLast rows rows' node.id node.program (some fields) child) := by
  by_cases hroom : HasRoom rows.paths node.id
  · obtain ⟨rows', child, heq, hadded⟩ :=
      hops.addChild_of_hasRoom hwf hnode hroom node.program (some fields)
    exact .inr ⟨hroom, child, rows', by rw [addChild_eq, heq], hadded⟩
  · have heq := hops.addChild_of_not_hasRoom hwf hnode hroom node.program (some fields)
    exact .inl ⟨hroom, .tree .pathOverflow, by rw [addChild_eq, heq]⟩

section Added

variable {program' : ProgramId} {data : Option RequirementFields} {child : RequirementTreeNode}

theorem AddedLast.ne_of_get (h : AddedLast rows rows' n program' data child)
    {row : TreeRow (Option RequirementFields)} (hi : rows.get i = some row) : i ≠ child.id := by
  rintro rfl
  have hfresh := paths_eq_none.mp h.grown.fresh
  rw [hfresh] at hi
  cases hi

theorem AddedLast.kept (h : AddedLast rows rows' n program' data child)
    {row : TreeRow (Option RequirementFields)} (hi : rows.get i = some row) : rows'.get i = some row :=
  (h.same i (h.ne_of_get hi)).trans hi

theorem AddedLast.rooted (h : AddedLast rows rows' n program' data child)
    (hrooted : Rooted rows program r) : Rooted rows' program r := by
  obtain ⟨s, rootData, hget⟩ := hrooted.root
  refine ⟨h.grown.wellFormed hrooted.wellFormed, ⟨s, rootData, h.kept hget⟩, fun i t data hi => ?_⟩
  by_cases hchild : i = child.id
  · -- the path of the new node has more than one step
    obtain ⟨u, -, ⟨p, hp, hpath⟩, -⟩ := h.grown.child
    have hne : p ≠ [] := by
      have hstored : rows.paths n = some p := (h.grown.same n h.grown.ne).symm.trans hp
      exact hrooted.wellFormed.ne_nil hstored
    rw [← hchild, TreeRows.paths, hi, Option.map_some] at hpath
    have hlength := congrArg List.length (Option.some.inj hpath)
    rw [List.length_append] at hlength
    have hpos := List.length_pos_iff.mpr hne
    simp only [List.length_singleton] at hlength
    omega
  · exact hrooted.unique i t data ((h.same i hchild).symm.trans hi)

end Added

/-- Node `o` is the operator that the item goes under, and `rows'` has it. -/
structure OperatorReady (rows rows' : RequirementRows) (program : ProgramId) (r : ℕ) (operator : Operator)
    (node : RequirementTreeNode) : Prop where
  rooted : Rooted rows' program r
  child : ∃ s, ChildAt rows'.paths r node.id s
  isOperator : isOperatorOf rows' operator node.id = true
  stored : rows'.paths node.id = some node.path
  kept : ∀ i row, rows.get i = some row → rows'.get i = some row
  source : ∀ i row, rows'.get i = some row → i = node.id ∨ rows.get i = some row

theorem isOperatorOf_operatorFields {row : TreeRow (Option RequirementFields)}
    (hget : rows.get o = some row) (hdata : row.data = some (operatorFields operator 1)) :
    isOperatorOf rows operator o = true := by
  refine isOperatorOf_iff.mpr ?_
  by_cases hmin : operator = .minNumberOf
  · exact ⟨row, _, some (toString 1), hget, hdata, by rw [operatorFields, if_pos hmin]⟩
  · exact ⟨row, _, none, hget, hdata, by rw [operatorFields, if_neg hmin]⟩

/-- The operator is there and stays as it is, or it is added, or there is no room for it. -/
theorem addCourseNode_cases (hops : ops.Documented) (h : Rooted rows program r) (operator : Operator) :
    (∃ node, addCourseNode ops program operator 1 rows = .ok node rows ∧
      FirstOperator rows r operator node.id ∧ OperatorReady rows rows program r operator node) ∨
    (NoOperator rows r operator ∧ ¬HasRoom rows.paths r ∧
      ∃ e, addCourseNode ops program operator 1 rows = .error e rows) ∨
    (NoOperator rows r operator ∧ HasRoom rows.paths r ∧
      ∃ node rows', addCourseNode ops program operator 1 rows = .ok node rows' ∧
        (∀ i s, ¬ChildAt rows'.paths node.id i s) ∧ OperatorReady rows rows' program r operator node) := by
  obtain ⟨root, hroot, rfl, hpath, -, -⟩ := requirementsRoot_eq hops h
  rcases operatorNode_cases hops hpath operator with ⟨hnone, hno⟩ | ⟨node, hsome, hget, hfirst⟩
  · rw [addCourseNode_eq hroot, hnone]
    rcases addChild_cases hops h.wellFormed hpath (operatorFields operator 1) with
      ⟨hroom, hfail⟩ | ⟨hroom, node, rows', heq, hadded⟩
    · exact .inr (.inl ⟨hno, hroom, hfail⟩)
    · obtain ⟨s, -, hchild, -⟩ := hadded.grown.child
      have hget := hadded.get_child
      refine .inr (.inr ⟨hno, hroom, node, rows', heq, fun i s => hadded.grown.leaf h.wellFormed, ?_⟩)
      refine ⟨hadded.rooted h, ⟨s, hchild⟩, isOperatorOf_operatorFields hget rfl, ?_,
        fun i row hi => hadded.kept hi, fun i row hi => ?_⟩
      · rw [TreeRows.paths, hget, Option.map_some]
      · by_cases hnew : i = node.id
        · exact .inl hnew
        · exact .inr ((hadded.same i hnew).symm.trans hi)
  · obtain ⟨s, hchild, -⟩ := hfirst.child
    rw [addCourseNode_eq hroot, hsome]
    refine .inl ⟨node, rfl, hfirst, h, ⟨s, hchild⟩, hfirst.isOperator, ?_, fun _ _ hi => hi,
      fun _ _ hi => .inr hi⟩
    rw [TreeRows.paths, hget, Option.map_some]

/-! ## One call -/

/-- There is a path left for the item: under the first operator, or, where there is none, for an operator
behind the children of the root that stay. -/
structure RoomFor (rows : RequirementRows) (r : ℕ) (operator : Operator) (item : RequirementItem) :
    Prop where
  underOperator : ∀ o, FirstOperator rows r operator o → ∀ i s, ChildAt rows.paths o i s → s < maxStep
  underRoot : NoOperator rows r operator →
    ∀ i s, ChildAt rows.paths r i s → isFor rows item i = false → s < maxStep

theorem hasRoom_iff {f : PathMap ℕ} {p : List ℕ} (hp : f n = some p) (hlength : p.length ≤ 2) :
    HasRoom f n ↔ ∀ i s, ChildAt f n i s → s < maxStep := by
  refine ⟨And.right, fun h => ⟨fun p' hp' => ?_, h⟩⟩
  obtain rfl := Option.some.inj (hp.symm.trans hp')
  exact lt_of_le_of_lt hlength (by decide)

namespace Rooted

theorem path (h : Rooted rows program r) : ∃ s, rows.paths r = some [s] := by
  obtain ⟨s, data, hget⟩ := h.root
  exact ⟨s, by rw [TreeRows.paths, hget, Option.map_some]⟩

theorem hasRoom_root_iff (h : Rooted rows program r) :
    HasRoom rows.paths r ↔ ∀ i s, ChildAt rows.paths r i s → s < maxStep := by
  obtain ⟨s, hs⟩ := h.path
  exact hasRoom_iff hs (by simp)

theorem hasRoom_child_iff (h : Rooted rows program r) (hchild : ChildAt rows.paths r o s) :
    HasRoom rows.paths o ↔ ∀ i s, ChildAt rows.paths o i s → s < maxStep := by
  obtain ⟨t, ht⟩ := h.path
  obtain ⟨p, hp, ho⟩ := hchild
  obtain rfl : p = [t] := Option.some.inj (hp.symm.trans ht)
  exact hasRoom_iff ho (by simp)

end Rooted

namespace WithoutTaken

theorem firstOperator_iff (h : WithoutTaken rows rows' r item) :
    FirstOperator rows' r operator o ↔ FirstOperator rows r operator o := by
  constructor
  · rintro ⟨⟨s, hchild, hfirst⟩, hoperator⟩
    obtain ⟨hchild', hoperator'⟩ := h.operator_child_iff.mp ⟨hchild, hoperator⟩
    refine ⟨⟨s, hchild', fun i t hi hioperator => ?_⟩, hoperator'⟩
    obtain ⟨hi', hioperator'⟩ := h.operator_child_iff.mpr ⟨hi, hioperator⟩
    exact hfirst i t hi' hioperator'
  · rintro ⟨⟨s, hchild, hfirst⟩, hoperator⟩
    obtain ⟨hchild', hoperator'⟩ := h.operator_child_iff.mpr ⟨hchild, hoperator⟩
    refine ⟨⟨s, hchild', fun i t hi hioperator => ?_⟩, hoperator'⟩
    obtain ⟨hi', hioperator'⟩ := h.operator_child_iff.mp ⟨hi, hioperator⟩
    exact hfirst i t hi' hioperator'

theorem noOperator_iff (h : WithoutTaken rows rows' r item) :
    NoOperator rows' r operator ↔ NoOperator rows r operator := by
  constructor
  · intro hno i s hi
    refine Bool.eq_false_iff.mpr fun hoperator => ?_
    obtain ⟨hi', hoperator'⟩ := h.operator_child_iff.mpr ⟨hi, hoperator⟩
    rw [hno i s hi'] at hoperator'
    cases hoperator'
  · intro hno i s hi
    refine Bool.eq_false_iff.mpr fun hoperator => ?_
    obtain ⟨hi', hoperator'⟩ := h.operator_child_iff.mp ⟨hi, hoperator⟩
    rw [hno i s hi'] at hoperator'
    cases hoperator'

/-- Whether there is room is read off the rows before anything is taken away. -/
theorem roomFor_of_firstOperator (h : WithoutTaken rows rows' r item) (hrooted : Rooted rows program r)
    (hfirst : FirstOperator rows' r operator o) :
    HasRoom rows'.paths o ↔ RoomFor rows r operator item := by
  have hfirst' := h.firstOperator_iff.mp hfirst
  obtain ⟨s, hchild, -⟩ := hfirst.child
  obtain ⟨s', hchild', -⟩ := hfirst'.child
  rw [(h.rooted hrooted).hasRoom_child_iff hchild]
  simp only [h.childAt_operator_iff hrooted.wellFormed hchild' hfirst'.isOperator]
  constructor
  · intro hroom
    refine ⟨fun o' ho' => ?_, fun hno => ?_⟩
    · obtain rfl := hfirst'.eq hrooted.wellFormed ho'
      exact hroom
    · have hnot := hno o s' hchild'
      rw [hfirst'.isOperator] at hnot
      cases hnot
  · intro hroom
    exact hroom.underOperator o hfirst'

theorem roomFor_of_noOperator (h : WithoutTaken rows rows' r item) (hrooted : Rooted rows program r)
    (hno : NoOperator rows' r operator) : HasRoom rows'.paths r ↔ RoomFor rows r operator item := by
  have hno' := h.noOperator_iff.mp hno
  rw [(h.rooted hrooted).hasRoom_root_iff]
  simp only [h.childAt_root_iff]
  constructor
  · intro hroom
    refine ⟨fun o ho => ?_, fun _ i s hi hfor => hroom i s ⟨hi, hfor⟩⟩
    obtain ⟨s, hchild, -⟩ := ho.child
    have hnot := hno' o s hchild
    rw [ho.isOperator] at hnot
    cases hnot
  · rintro hroom i s ⟨hi, hfor⟩
    exact hroom.underRoot hno' i s hi hfor

end WithoutTaken

/-- A call has put node `n` for the item under the operator `o`, and nothing else happened but that the
branches for the item were taken away and the operator was added if it was missing. -/
structure ItemAdded (rows rows' : RequirementRows) (program : ProgramId) (r : ℕ) (operator : Operator)
    (item : RequirementItem) (o n : ℕ) : Prop where
  rooted : Rooted rows' program r
  kept : ∀ i row, rows.get i = some row → ¬Taken rows r item i → rows'.get i = some row ∧ i ≠ n
  source : ∀ i row, rows'.get i = some row → i = n ∨ i = o ∨ ¬Taken rows r item i ∧ rows.get i = some row
  operatorChild : ∃ s, ChildAt rows'.paths r o s
  isOperator : isOperatorOf rows' operator o = true
  child : ∃ t, ChildAt rows'.paths o n t
  isFor : isFor rows' item n = true

theorem OperatorReady.itemAdded {rows₁ rows₂ : RequirementRows} {child : RequirementTreeNode}
    (hready : OperatorReady rows₁ rows₂ program r operator node)
    (h : WithoutTaken rows rows₁ r item) (hfields : fields.node = item.node)
    (hadded : AddedLast rows₂ rows' node.id node.program (some fields) child) :
    ItemAdded rows rows' program r operator item node.id child.id where
  rooted := hadded.rooted hready.rooted
  kept i row hi hnot := by
    have hi₁ : rows₁.get i = some row := (h.same i hnot).trans hi
    have hi₂ := hready.kept i row hi₁
    exact ⟨hadded.kept hi₂, hadded.ne_of_get hi₂⟩
  source i row hi := by
    by_cases hnew : i = child.id
    · exact .inl hnew
    · rcases hready.source i row ((hadded.same i hnew).symm.trans hi) with hnode | hi₁
      · exact .inr (.inl hnode)
      · exact .inr (.inr (h.of_get hi₁))
  operatorChild := by
    obtain ⟨s, hchild⟩ := hready.child
    exact ⟨s, hadded.grown.childAt hchild⟩
  isOperator := by
    obtain ⟨row, fields', value, hrow, hrest⟩ := isOperatorOf_iff.mp hready.isOperator
    exact isOperatorOf_iff.mpr ⟨row, fields', value, hadded.kept hrow, hrest⟩
  child := by
    obtain ⟨s, -, hchild, -⟩ := hadded.grown.child
    exact ⟨s, hchild⟩
  isFor := isFor_iff.mpr ⟨_, fields, hadded.get_child, rfl, hfields⟩

/-- A call raises exactly if there is no room; otherwise the item is added. -/
theorem addItem_cases (hops : ops.Documented) (hrooted : Rooted rows program r) (operator : Operator)
    (item : RequirementItem) :
    (¬RoomFor rows r operator item ∧ ∃ e rows', addItem ops program operator item rows = .error e rows') ∨
    (RoomFor rows r operator item ∧ ∃ child rows' o,
      addItem ops program operator item rows = .ok child rows' ∧
        ItemAdded rows rows' program r operator item o child.id) := by
  obtain ⟨root, hroot, rfl, hpath, -, -⟩ := requirementsRoot_eq hops hrooted
  rw [addItem_eq hroot]
  set rows₁ := ops.delete rows ((ops.getChildren rows root).filter (isFor rows item))
  have h : WithoutTaken rows rows₁ root.id item := delete_withoutTaken hops hpath
  have hrooted₁ := h.rooted hrooted
  rcases addCourseNode_cases hops hrooted₁ operator with
    ⟨node, heq, hfirst, hready⟩ | ⟨hno, hroom, e, heq⟩ | ⟨hno, hroom, node, rows₂, heq, hleaf, hready⟩
  · rw [heq, ← h.roomFor_of_firstOperator hrooted hfirst]
    rcases addChild_cases hops hrooted₁.wellFormed hready.stored ⟨item.node, some "", some false⟩ with
      ⟨hfull, e, hfail⟩ | ⟨hroom, child, rows', hchild, hadded⟩
    · exact .inl ⟨hfull, e, rows₁, hfail⟩
    · exact .inr ⟨hroom, child, rows', node.id, hchild, hready.itemAdded h rfl hadded⟩
  · rw [heq, ← h.roomFor_of_noOperator hrooted hno]
    exact .inl ⟨hroom, e, rows₁, rfl⟩
  · rw [heq, ← h.roomFor_of_noOperator hrooted hno]
    rcases addChild_cases hops hready.rooted.wellFormed hready.stored ⟨item.node, some "", some false⟩ with
      ⟨hfull, -⟩ | ⟨-, child, rows', hchild, hadded⟩
    · -- the operator is new
      obtain ⟨s, hnode⟩ := hready.child
      refine absurd ((hready.rooted.hasRoom_child_iff hnode).mpr fun i t hi => ?_) hfull
      exact absurd hi (hleaf i t)
    · exact .inr ⟨hroom, child, rows', node.id, hchild, hready.itemAdded h rfl hadded⟩

end Edits

end MitxOnline

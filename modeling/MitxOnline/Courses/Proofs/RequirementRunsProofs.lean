import MitxOnline.Courses.Proofs.RequirementEditsProofs

/-!
# Requirements after a run of calls

What a call does is known from its rows. Over a run, the nodes that calls have added are operators below the
root and items below these, so a later call never takes one of them away, and what it takes away was there
from the start.
-/

namespace MitxOnline

open Paths PathMap TreeRows Trace

/-- The course or program that a call adds. -/
def HelperCall.item : HelperCall → RequirementItem
  | .addRequirement requirement => requirement
  | .addElective course => .course course
  | .addProgramRequirement requiredProgram => .program requiredProgram
  | .addProgramElective requiredProgram => .program requiredProgram

/-- The operator that it goes under: required or elective. -/
def HelperCall.operator : HelperCall → Operator
  | .addRequirement _ => .allOf
  | .addElective _ => .minNumberOf
  | .addProgramRequirement _ => .allOf
  | .addProgramElective _ => .minNumberOf

/-- The operator of the most recent call for an item. -/
def lastOperator (calls : List HelperCall) (item : RequirementItem) : Option Operator :=
  (calls.reverse.find? fun call => call.item == item).map (·.operator)

variable {ops : MpChildren (Option RequirementFields)} {program : ProgramId}
  {rows₀ rows rows' : RequirementRows} {r i j o n s t : ℕ} {item item' : RequirementItem}
  {operator : Operator} {call : HelperCall} {calls : List HelperCall}

theorem lastOperator_concat : lastOperator (calls ++ [call]) item =
    if call.item = item then some call.operator else lastOperator calls item := by
  unfold lastOperator
  rw [List.reverse_concat, List.find?_cons]
  by_cases h : call.item = item
  · simp [h]
  · rw [if_neg h, beq_false_of_ne h]

theorem lastOperator_concat_self : lastOperator (calls ++ [call]) call.item = some call.operator := by
  rw [lastOperator_concat, if_pos rfl]

theorem lastOperator_eq_none_of_concat (h : lastOperator (calls ++ [call]) item = none) :
    lastOperator calls item = none := by
  rw [lastOperator_concat] at h
  split_ifs at h
  exact h

theorem HelperCall.code_eq (call : HelperCall) :
    call.code ops program = addItem ops program call.operator call.item := by
  cases call <;> rfl

/-! ## What is expected of a run -/

/-- A node for the item in the tree under `r`. -/
def Occurs (rows : RequirementRows) (r : ℕ) (item : RequirementItem) (i : ℕ) : Prop :=
  Below rows.paths r i ∧ isFor rows item i = true

/-- The item occurs exactly once, under a child of the root with the operator. -/
def HeldOnce (rows : RequirementRows) (r : ℕ) (item : RequirementItem) (operator : Operator) : Prop :=
  ∃ i, Occurs rows r item i ∧ (∀ j, Occurs rows r item j → j = i) ∧
    ∃ o s t, ChildAt rows.paths r o s ∧ isOperatorOf rows operator o = true ∧ ChildAt rows.paths o i t

/-- The call does not raise. -/
def CallReturns (ops : MpChildren (Option RequirementFields)) (program : ProgramId) (rows : RequirementRows)
    (call : HelperCall) : Prop :=
  ∃ child rows', call.code ops program rows = .ok child rows'

/-- The calls return, each added item occurs exactly once afterwards, under the operator of its most recent
call, and every other node is where it was. -/
structure KeepsSet (ops : MpChildren (Option RequirementFields)) (program : ProgramId) (r : ℕ)
    (rows : RequirementRows) (calls : List HelperCall) : Prop where
  returns : Along (callHelper ops program) (CallReturns ops program) rows calls
  held : ∀ item operator, lastOperator calls item = some operator →
    HeldOnce (run (callHelper ops program) rows calls) r item operator
  same : ∀ i row, rows.get i = some row →
    (∀ item, Occurs rows r item i → lastOperator calls item = none) →
    (run (callHelper ops program) rows calls).get i = some row

/-- The nodes for the item in the tree are exactly what the call takes away: the children of the root that
are for it, and the nodes below these. And there is room for the new one. -/
structure AllTaken (r : ℕ) (rows : RequirementRows) (call : HelperCall) : Prop where
  taken : ∀ i, Below rows.paths r i → (isFor rows call.item i = true ↔ Taken rows r call.item i)
  room : RoomFor rows r call.operator call.item

/-! ## One call in a run -/

theorem callHelper_eq {child : RequirementTreeNode}
    (h : addItem ops program call.operator call.item rows = .ok child rows') :
    callHelper ops program rows call = rows' := by
  rw [callHelper, call.code_eq, h]

/-- A call that returns adds the item, and there was room for it. -/
theorem itemAdded_of_returns (hops : ops.Documented) (hrooted : Rooted rows program r)
    (h : CallReturns ops program rows call) : RoomFor rows r call.operator call.item ∧
      ∃ o n, ItemAdded rows (callHelper ops program rows call) program r call.operator call.item o n := by
  obtain ⟨child, rows', heq⟩ := h
  rw [call.code_eq] at heq
  rcases addItem_cases hops hrooted call.operator call.item with
    ⟨-, e, rows'', hfail⟩ | ⟨hroom, child', rows'', o, hadd, hadded⟩
  · rw [heq] at hfail
    cases hfail
  · rw [callHelper_eq hadd]
    exact ⟨hroom, o, child'.id, hadded⟩

theorem returns_of_roomFor (hops : ops.Documented) (hrooted : Rooted rows program r)
    (hroom : RoomFor rows r call.operator call.item) : CallReturns ops program rows call := by
  rcases addItem_cases hops hrooted call.operator call.item with ⟨hfull, -⟩ | ⟨-, child, rows', -, hadd, -⟩
  · exact absurd hroom hfull
  · exact ⟨child, rows', (congrFun call.code_eq rows).trans hadd⟩

namespace ItemAdded

theorem path_kept (h : ItemAdded rows rows' program r operator item o n) {p : List ℕ}
    (hi : rows.paths i = some p) (hnot : ¬Taken rows r item i) : rows'.paths i = some p := by
  obtain ⟨row, hrow, rfl⟩ := paths_eq_some.mp hi
  rw [TreeRows.paths, (h.kept i row hrow hnot).1, Option.map_some]

theorem root_path (h : ItemAdded rows rows' program r operator item o n) (hrooted : Rooted rows program r) :
    rows'.paths r = rows.paths r := by
  obtain ⟨s, hs⟩ := hrooted.path
  rw [hs]
  exact h.path_kept hs fun htaken => (Taken.below htaken).ne rfl

theorem childAt_kept (h : ItemAdded rows rows' program r operator item o n) (hchild : ChildAt rows.paths j i s)
    (hj : ¬Taken rows r item j) (hi : ¬Taken rows r item i) : ChildAt rows'.paths j i s := by
  obtain ⟨p, hp, hpath⟩ := hchild
  exact ⟨p, h.path_kept hp hj, h.path_kept hpath hi⟩

theorem isOperatorOf_kept (h : ItemAdded rows rows' program r operator item o n) {operator' : Operator}
    (hoperator : isOperatorOf rows operator' i = true) (hi : ¬Taken rows r item i) :
    isOperatorOf rows' operator' i = true := by
  obtain ⟨row, fields, value, hrow, hrest⟩ := isOperatorOf_iff.mp hoperator
  exact isOperatorOf_iff.mpr ⟨row, fields, value, (h.kept i row hrow hi).1, hrest⟩

/-- The operator of the item, and the item under it, are in the tree. -/
theorem below (h : ItemAdded rows rows' program r operator item o n) : Below rows'.paths r n := by
  obtain ⟨s, hoperator⟩ := h.operatorChild
  obtain ⟨t, hchild⟩ := h.child
  exact hchild.below (.inr (hoperator.below (.inl rfl)))

/-- What is for an item afterwards is the new node, or was for the item before and was not taken away. -/
theorem occurs_cases (h : ItemAdded rows rows' program r operator item o n)
    (hrooted : Rooted rows program r) (hi : Occurs rows' r item' i) :
    (i = n ∧ item' = item) ∨ (¬Taken rows r item i ∧ Occurs rows r item' i) := by
  obtain ⟨hbelow, hfor⟩ := hi
  obtain ⟨row, fields, hrow, -⟩ := isFor_iff.mp hfor
  rcases h.source i row hrow with rfl | rfl | ⟨hnot, hget⟩
  · exact .inl ⟨rfl, item_eq_of_isFor hfor h.isFor⟩
  · rw [not_isFor_of_isOperatorOf h.isOperator] at hfor
    cases hfor
  · have hsame : rows.get i = rows'.get i := hget.trans hrow.symm
    refine .inr ⟨hnot, hbelow.congr (h.root_path hrooted).symm (paths_congr hsame), ?_⟩
    rwa [isFor_congr hsame]

end ItemAdded

/-! ## What was there from the start -/

/-- A node that calls have added: an operator below the root, or a node below such an operator. -/
def AddedByCall (rows : RequirementRows) (r i : ℕ) : Prop :=
  (∃ s operator, ChildAt rows.paths r i s ∧ isOperatorOf rows operator i = true) ∨
    ∃ o s t operator, ChildAt rows.paths r o s ∧ isOperatorOf rows operator o = true ∧
      ChildAt rows.paths o i t

/-- The state of a run that began with the rows `rows₀`. -/
structure Reached (rows₀ : RequirementRows) (program : ProgramId) (r : ℕ) (rows : RequirementRows) :
    Prop where
  rooted : Rooted rows program r
  source : ∀ i row, rows.get i = some row → rows₀.get i = some row ∨ AddedByCall rows r i

theorem AddedByCall.not_taken (hwf : rows.paths.WellFormed) (h : AddedByCall rows r i) :
    ¬Taken rows r item i := by
  rcases h with ⟨s, operator, hchild, hoperator⟩ | ⟨o, s, t, operator, ho, hoperator, hchild⟩
  · exact not_taken_of_operator hoperator hchild
  · exact not_taken_of_child hwf hoperator ho hchild

theorem AddedByCall.kept (h : AddedByCall rows r i) (hrooted : Rooted rows program r)
    (hadded : ItemAdded rows rows' program r operator item o n) : AddedByCall rows' r i := by
  have hroot : ¬Taken rows r item r := fun htaken => (Taken.below htaken).ne rfl
  have hnot : ¬Taken rows r item i := h.not_taken hrooted.wellFormed
  rcases h with ⟨s, operator, hchild, hoperator⟩ | ⟨o', s, t, operator, ho, hoperator, hchild⟩
  · exact .inl ⟨s, operator, hadded.childAt_kept hchild hroot hnot, hadded.isOperatorOf_kept hoperator hnot⟩
  · have ho' : ¬Taken rows r item o' := not_taken_of_operator hoperator ho
    exact .inr ⟨o', s, t, operator, hadded.childAt_kept ho hroot ho',
      hadded.isOperatorOf_kept hoperator ho', hadded.childAt_kept hchild ho' hnot⟩

theorem Reached.step (h : Reached rows₀ program r rows)
    (hadded : ItemAdded rows rows' program r operator item o n) : Reached rows₀ program r rows' := by
  refine ⟨hadded.rooted, fun i row hi => ?_⟩
  obtain ⟨s, ho⟩ := hadded.operatorChild
  rcases hadded.source i row hi with rfl | rfl | ⟨-, hget⟩
  · obtain ⟨t, hchild⟩ := hadded.child
    exact .inr (.inr ⟨o, s, t, operator, ho, hadded.isOperator, hchild⟩)
  · exact .inr (.inl ⟨s, operator, ho, hadded.isOperator⟩)
  · rcases h.source i row hget with hstart | hcall
    · exact .inl hstart
    · exact .inr (hcall.kept h.rooted hadded)

theorem reached_of_returns (hops : ops.Documented) (hrooted : Rooted rows₀ program r)
    (h : Along (callHelper ops program) (CallReturns ops program) rows₀ calls) :
    Reached rows₀ program r (run (callHelper ops program) rows₀ calls) := by
  refine run_of_along (Reached rows₀ program r) (fun rows call hreached hreturns => ?_)
    ⟨hrooted, fun _ _ hi => .inl hi⟩ h
  obtain ⟨-, o, n, hadded⟩ := itemAdded_of_returns hops hreached.rooted hreturns
  exact hreached.step hadded

/-! ## One more call -/

section Step

variable {rows₁ rows₂ : RequirementRows}

/-- The item of the call is held once afterwards, if all its nodes were taken away. -/
theorem heldOnce_of_taken (hrooted : Rooted rows₁ program r)
    (hadded : ItemAdded rows₁ rows₂ program r operator item o n)
    (htaken : ∀ i, Below rows₁.paths r i → isFor rows₁ item i = true → Taken rows₁ r item i) :
    HeldOnce rows₂ r item operator := by
  obtain ⟨s, ho⟩ := hadded.operatorChild
  obtain ⟨t, hchild⟩ := hadded.child
  refine ⟨n, ⟨hadded.below, hadded.isFor⟩, fun j hj => ?_, o, s, t, ho, hadded.isOperator, hchild⟩
  rcases hadded.occurs_cases hrooted hj with ⟨rfl, -⟩ | ⟨hnot, hbelow, hfor⟩
  · rfl
  · exact absurd (htaken j hbelow hfor) hnot

/-- Another item stays held once. -/
theorem HeldOnce.kept (h : HeldOnce rows₁ r item' operator) (hrooted : Rooted rows₁ program r)
    {operator' : Operator} (hadded : ItemAdded rows₁ rows₂ program r operator' item o n)
    (hne : item' ≠ item) : HeldOnce rows₂ r item' operator := by
  obtain ⟨i, ⟨hbelow, hfor⟩, hunique, o', s, t, ho, hoperator, hchild⟩ := h
  have hroot : ¬Taken rows₁ r item r := fun htaken => (Taken.below htaken).ne rfl
  have ho' : ¬Taken rows₁ r item o' := not_taken_of_operator hoperator ho
  have hi : ¬Taken rows₁ r item i := not_taken_of_child hrooted.wellFormed hoperator ho hchild
  have hchild' := hadded.childAt_kept hchild ho' hi
  have ho'' := hadded.childAt_kept ho hroot ho'
  obtain ⟨row, fields, hrow, hrest⟩ := isFor_iff.mp hfor
  refine ⟨i, ⟨hchild'.below (.inr (ho''.below (.inl rfl))), ?_⟩, fun j hj => ?_, o', s, t, ho'',
    hadded.isOperatorOf_kept hoperator ho', hchild'⟩
  · exact isFor_iff.mpr ⟨row, fields, (hadded.kept i row hrow hi).1, hrest⟩
  · rcases hadded.occurs_cases hrooted hj with ⟨-, heq⟩ | ⟨-, hoccurs⟩
    · exact absurd heq hne
    · exact hunique j hoccurs

/-- A node that is taken away was there from the start, and is not one that an item is held by. -/
theorem of_taken (h : Reached rows₀ program r rows₁) (hi : Taken rows₁ r item i)
    {row : TreeRow (Option RequirementFields)} (hrow : rows₁.get i = some row) :
    rows₀.get i = some row ∧ ∀ item' operator, HeldOnce rows₁ r item' operator →
      ¬Occurs rows₁ r item' i := by
  have hnot : ¬AddedByCall rows₁ r i := fun hadded => hadded.not_taken h.rooted.wellFormed hi
  refine ⟨(h.source i row hrow).resolve_right hnot, ?_⟩
  rintro item' operator ⟨i', -, hunique, o, s, t, ho, hoperator, hchild⟩ hoccurs
  rw [← hunique i hoccurs] at hchild
  exact hnot (.inr ⟨o, s, t, operator, ho, hoperator, hchild⟩)

/-- A node for the item that stays would be a second one. -/
theorem taken_of_heldOnce (hrooted : Rooted rows₁ program r)
    (hadded : ItemAdded rows₁ rows₂ program r operator item o n) (hheld : HeldOnce rows₂ r item operator)
    (hbelow : Below rows₁.paths r i) (hfor : isFor rows₁ item i = true) : Taken rows₁ r item i := by
  by_contra hnot
  obtain ⟨row, fields, hrow, hrest⟩ := isFor_iff.mp hfor
  obtain ⟨hkept, hne⟩ := hadded.kept i row hrow hnot
  have hpath := hadded.root_path hrooted
  have hoccurs : Occurs rows₂ r item i :=
    ⟨hbelow.congr hpath (paths_congr (hkept.trans hrow.symm)),
      isFor_iff.mpr ⟨row, fields, hkept, hrest⟩⟩
  obtain ⟨m, -, hunique, -⟩ := hheld
  exact hne ((hunique i hoccurs).trans (hunique n ⟨hadded.below, hadded.isFor⟩).symm)

/-- A node that is taken away and comes back as it was is the new node. -/
theorem isFor_of_back (hrooted : Rooted rows₁ program r)
    (hadded : ItemAdded rows₁ rows₂ program r operator item o n) (htaken : Taken rows₁ r item i)
    {row : TreeRow (Option RequirementFields)} (hrow : rows₁.get i = some row)
    (hback : rows₂.get i = some row) : isFor rows₁ item i = true := by
  have hsame : rows₁.get i = rows₂.get i := hrow.trans hback.symm
  rcases hadded.source i row hback with rfl | rfl | ⟨hnot, -⟩
  · rw [isFor_congr hsame]
    exact hadded.isFor
  · obtain ⟨s, hchild⟩ := hadded.operatorChild
    have hchild₁ := hchild.congr (hadded.root_path hrooted).symm (paths_congr hsame)
    have hoperator := (isOperatorOf_congr hsame).trans hadded.isOperator
    exact absurd htaken (not_taken_of_operator hoperator hchild₁)
  · exact absurd htaken hnot

end Step

/-- If it goes well with one more call, what the call takes away is for its item. -/
theorem isFor_of_taken (hops : ops.Documented) (hrooted : Rooted rows₀ program r)
    (hsofar : KeepsSet ops program r rows₀ calls) (h : KeepsSet ops program r rows₀ (calls ++ [call]))
    (htaken : Taken (run (callHelper ops program) rows₀ calls) r call.item i) :
    isFor (run (callHelper ops program) rows₀ calls) call.item i = true := by
  have hreached := reached_of_returns hops hrooted hsofar.returns
  obtain ⟨-, o, n, hadded⟩ := itemAdded_of_returns hops hreached.rooted (along_concat.mp h.returns).2
  have hsame := h.same
  rw [run_concat] at hsame
  set rows₁ := run (callHelper ops program) rows₀ calls
  have hbelow := Taken.below htaken
  obtain ⟨p, x, -, hx, -⟩ := id hbelow
  obtain ⟨row, hrow, -⟩ := paths_eq_some.mp hx
  obtain ⟨hstart, hnotHeld⟩ := of_taken hreached htaken hrow
  have hfor_iff (item : RequirementItem) : isFor rows₀ item i = isFor rows₁ item i :=
    isFor_congr (hstart.trans hrow.symm)
  by_contra hfor
  -- for another item it would still be there, and the code put nothing back but the new node
  have hkept := hsame i row hstart fun item hoccurs => by
    have hoccurs₁ : isFor rows₁ item i = true := (hfor_iff item).symm.trans hoccurs.2
    rw [lastOperator_concat]
    split_ifs with hitem
    · obtain rfl := hitem
      exact absurd hoccurs₁ hfor
    · by_contra hsome
      obtain ⟨operator, hoperator⟩ := Option.ne_none_iff_exists'.mp hsome
      exact hnotHeld item operator (hsofar.held item operator hoperator) ⟨hbelow, hoccurs₁⟩
  exact hfor (isFor_of_back hreached.rooted hadded htaken hrow hkept)

/-- A call that takes away what is for its item, and only that, leaves the other nodes. -/
theorem not_taken_of_other (hrooted : Rooted rows₀ program r)
    (hsofar : KeepsSet ops program r rows₀ calls)
    (h : AllTaken r (run (callHelper ops program) rows₀ calls) call)
    {row : TreeRow (Option RequirementFields)} (hrow : rows₀.get i = some row)
    (hrow₁ : (run (callHelper ops program) rows₀ calls).get i = some row)
    (hother : ∀ item, Occurs rows₀ r item i → lastOperator (calls ++ [call]) item = none) :
    ¬Taken (run (callHelper ops program) rows₀ calls) r call.item i := by
  intro htaken
  have hbelow := Taken.below htaken
  have hfor := (h.taken i hbelow).mpr htaken
  obtain ⟨s, data, hroot⟩ := hrooted.root
  have hroot₁ := hsofar.same r _ hroot fun item hoccurs => absurd rfl hoccurs.1.ne
  have hpath := paths_congr (hroot.trans hroot₁.symm)
  have hback := hrow.trans hrow₁.symm
  have hoccurs : Occurs rows₀ r call.item i :=
    ⟨hbelow.congr hpath (paths_congr hback), (isFor_congr hback).trans hfor⟩
  have hnone := hother call.item hoccurs
  rw [lastOperator_concat_self] at hnone
  cases hnone

/-- If all has gone well so far, it goes well with one more call exactly if the call takes away all nodes
for its item and nothing else, and has room for the new one. -/
theorem keepsSet_concat_iff (hops : ops.Documented) (hrooted : Rooted rows₀ program r)
    (hsofar : KeepsSet ops program r rows₀ calls) :
    KeepsSet ops program r rows₀ (calls ++ [call]) ↔
      AllTaken r (run (callHelper ops program) rows₀ calls) call := by
  have hreached := reached_of_returns hops hrooted hsofar.returns
  constructor
  · intro h
    obtain ⟨hroom, o, n, hadded⟩ :=
      itemAdded_of_returns hops hreached.rooted (along_concat.mp h.returns).2
    have hheld := h.held call.item call.operator lastOperator_concat_self
    rw [run_concat] at hheld
    refine ⟨fun i hbelow => ⟨fun hfor => ?_, fun htaken => ?_⟩, hroom⟩
    · exact taken_of_heldOnce hreached.rooted hadded hheld hbelow hfor
    · exact isFor_of_taken hops hrooted hsofar h htaken
  · intro h
    have hreturns := returns_of_roomFor hops hreached.rooted h.room
    obtain ⟨-, o, n, hadded⟩ := itemAdded_of_returns hops hreached.rooted hreturns
    refine ⟨along_concat.mpr ⟨hsofar.returns, hreturns⟩, fun item operator hoperator => ?_,
      fun i row hrow hother => ?_⟩
    · rw [run_concat]
      rw [lastOperator_concat] at hoperator
      split_ifs at hoperator with hitem
      · obtain rfl := hitem
        obtain rfl := Option.some.inj hoperator
        exact heldOnce_of_taken hreached.rooted hadded fun i hbelow => (h.taken i hbelow).mp
      · exact (hsofar.held item operator hoperator).kept hreached.rooted hadded (Ne.symm hitem)
    · rw [run_concat]
      have hrow₁ := hsofar.same i row hrow fun item hoccurs =>
        lastOperator_eq_none_of_concat (hother item hoccurs)
      exact (hadded.kept i row hrow₁ (not_taken_of_other hrooted hsofar h hrow hrow₁ hother)).1

/-- After every part of a run each added item is there once, in its place, and the rest is where it was,
exactly if each call of the run finds its item only where it takes it away, takes nothing else away, and
has room. -/
theorem keepsSet_iff (hops : ops.Documented) (hrooted : Rooted rows₀ program r) (calls : List HelperCall) :
    (∀ before, before <+: calls → KeepsSet ops program r rows₀ before) ↔
      Along (callHelper ops program) (AllTaken r) rows₀ calls := by
  induction calls using List.reverseRecOn with
  | nil =>
    refine ⟨fun _ => trivial, fun _ before hbefore => ?_⟩
    obtain rfl := List.prefix_nil.mp hbefore
    exact ⟨trivial, fun item operator h => absurd h (by simp [lastOperator]), fun _ _ h _ => h⟩
  | append_singleton calls call ih =>
    rw [along_concat, ← ih]
    constructor
    · intro h
      have hparts : ∀ before, before <+: calls → KeepsSet ops program r rows₀ before :=
        fun before hbefore => h before (hbefore.trans (List.prefix_append ..))
      have hsofar := hparts calls (List.prefix_refl calls)
      exact ⟨hparts, (keepsSet_concat_iff hops hrooted hsofar).mp (h _ (List.prefix_refl _))⟩
    · rintro ⟨hparts, htaken⟩ before hbefore
      have hsofar := hparts calls (List.prefix_refl calls)
      rcases List.prefix_concat_iff.mp hbefore with rfl | hbefore
      · exact (keepsSet_concat_iff hops hrooted hsofar).mpr htaken
      · exact hparts before hbefore

/-! ## The library that can be run -/

namespace TreeOperations

variable {D : Type} {tree : TreeRows D} {node : TreeNode D}

theorem mem_children (hnode : tree.paths node.id = some node.path) :
    i ∈ children tree node ↔ ∃ s, ChildAt tree.paths node.id i s := by
  rw [children, List.mem_insertionSort, List.mem_filter]
  constructor
  · rintro ⟨hi, hchild⟩
    exact ⟨_, (isChild_iff hi hnode).mp hchild⟩
  · rintro ⟨s, hchild⟩
    obtain ⟨hi, rfl⟩ := step_of_childAt hchild
    exact ⟨hi, (isChild_iff hi hnode).mpr hchild⟩

theorem children_sorted : (children tree node).Pairwise fun i j =>
    ∀ s t, ChildAt tree.paths node.id i s → ChildAt tree.paths node.id j t → s ≤ t := by
  have hsorted := List.pairwise_insertionSort
    (fun i j => childStep tree i ≤ childStep tree j) (tree.keys.filter (isChild tree node))
  refine hsorted.imp fun {i j} hle s t hi hj => ?_
  obtain ⟨-, rfl⟩ := step_of_childAt hi
  obtain ⟨-, rfl⟩ := step_of_childAt hj
  exact hle

theorem le_lastStep (hnode : tree.paths node.id = some node.path)
    (hchild : ChildAt tree.paths node.id i s) : s ≤ lastStep tree node := by
  obtain ⟨-, rfl⟩ := step_of_childAt hchild
  exact Table.le_maxKey (List.mem_map_of_mem ((mem_children hnode).mpr ⟨_, hchild⟩))

/-- Without children the last step is zero. -/
theorem lastStep_lt (hnode : tree.paths node.id = some node.path) {m : ℕ} (hm : 0 < m)
    (h : ∀ i s, ChildAt tree.paths node.id i s → s < m) : lastStep tree node < m := by
  refine Table.maxKey_lt hm fun s hs => ?_
  obtain ⟨i, hi, rfl⟩ := List.mem_map.mp hs
  obtain ⟨t, hchild⟩ := (mem_children hnode).mp hi
  obtain ⟨-, hstep⟩ := step_of_childAt hchild
  exact lt_of_eq_of_lt hstep (h i t hchild)

theorem hasRoom_iff (hnode : tree.paths node.id = some node.path) :
    HasRoom tree.paths node.id ↔ node.path.length < maxDepth ∧ lastStep tree node < maxStep := by
  constructor
  · rintro ⟨hdepth, hsteps⟩
    exact ⟨hdepth _ hnode, lastStep_lt hnode (by decide) hsteps⟩
  · rintro ⟨hdepth, hlast⟩
    refine ⟨fun p hp => ?_, fun i s hi => lt_of_le_of_lt (le_lastStep hnode hi) hlast⟩
    obtain rfl := Option.some.inj (hnode.symm.trans hp)
    exact hdepth

theorem create_addedLast (hnode : tree.paths node.id = some node.path) (program : ProgramId) (data : D) :
    AddedLast tree (tree.create ⟨node.path ++ [lastStep tree node + 1], program, data⟩) node.id program
      data ⟨⟨node.path ++ [lastStep tree node + 1], program, data⟩, tree.nextKey⟩ := by
  set row : TreeRow D := ⟨node.path ++ [lastStep tree node + 1], program, data⟩
  have hnew : TreeRows.get (tree.create row) tree.nextKey = some row := by
    rw [TreeRows.get, if_pos ((tree.mem_create_keys row _).mpr (.inr rfl)), Table.create_row_self]
  have hsame : ∀ i, i ≠ tree.nextKey → TreeRows.get (tree.create row) i = tree.get i := by
    intro i hi
    simp only [TreeRows.get, Table.mem_create_keys, hi, or_false, Table.create_row_of_ne _ _ hi]
  have hfresh : tree.paths tree.nextKey = none := paths_eq_none.mpr (if_neg tree.nextKey_not_mem)
  have hne : node.id ≠ tree.nextKey := by
    intro heq
    rw [heq, hfresh] at hnode
    cases hnode
  refine ⟨?_, rfl, rfl, ⟨hfresh, ⟨lastStep tree node + 1, Nat.succ_pos _, ⟨node.path, ?_, ?_⟩, ?_⟩, ?_⟩, hsame⟩
  · rw [TreeRows.load, hnew, Option.map_some]
  · exact (paths_congr (hsame _ hne)).trans hnode
  · rw [TreeRows.paths, hnew, Option.map_some]
  · exact fun i t hi => Nat.lt_succ_of_le (le_lastStep hnode hi)
  · exact fun i hi => paths_congr (hsame i hi)

end TreeOperations

open TreeOperations in
theorem mpChildren_documented {D : Type} : (mpChildren : MpChildren D).Documented where
  mem_getRootNodes {rows i} := by
    show i ∈ rows.keys.filter (fun i => (rows.row i).path.length == 1) ↔ _
    rw [List.mem_filter, beq_iff_eq, List.length_eq_one_iff]
    constructor
    · rintro ⟨hi, s, hpath⟩
      exact ⟨s, (paths_of_mem hi).trans (congrArg some hpath)⟩
    · rintro ⟨s, hs⟩
      obtain ⟨hi, hpath⟩ := mem_of_paths hs
      exact ⟨hi, s, hpath⟩
  mem_getChildren hnode := mem_children hnode
  getChildren_sorted _ := children_sorted
  addChild_of_hasRoom _ hnode hroom program data :=
    ⟨_, _, if_pos ((TreeOperations.hasRoom_iff hnode).mp hroom), create_addedLast hnode program data⟩
  addChild_of_not_hasRoom _ hnode hroom _ _ :=
    if_neg (mt (TreeOperations.hasRoom_iff hnode).mpr hroom)
  get_delete_of_inBranch {rows ids i} hi := by
    show TreeRows.get (delete rows ids) i = none
    rw [get_delete]
    by_cases hstored : i ∈ rows.keys
    · exact if_pos ((isDeleted_iff hstored).mpr hi)
    · have hnone : rows.get i = none := if_neg hstored
      rw [hnone, ite_self]
  get_delete_of_not_inBranch {rows ids i} hi := by
    show TreeRows.get (delete rows ids) i = rows.get i
    rw [get_delete]
    by_cases hstored : i ∈ rows.keys
    · exact if_neg (mt (isDeleted_iff hstored).mp hi)
    · have hnone : rows.get i = none := if_neg hstored
      rw [hnone, ite_self]

/-! ## The same course twice -/

/-- Program 1 has a root, node 1, and nothing else. -/
def rootOnly : RequirementRows := .single 1 ⟨[1], 1, none⟩

theorem rootOnly_paths {p : List ℕ} (h : rootOnly.paths i = some p) : i = 1 ∧ p = [1] := by
  obtain ⟨hi, hpath⟩ := TreeOperations.mem_of_paths h
  exact ⟨List.mem_singleton.mp hi, hpath.symm⟩

theorem rootOnly_rooted : Rooted rootOnly 1 1 where
  wellFormed := TreeOperations.wellFormed_of (by decide) (by decide)
  root := ⟨1, none, rfl⟩
  unique i s data h := by
    have hpath : rootOnly.paths i = some [s] := by rw [TreeRows.paths, h, Option.map_some]
    exact (rootOnly_paths hpath).1

/-- What there is for the item are children of the root without children, and no step is the last one. -/
theorem allTaken_of_rows (hroot : r ∈ rows.keys)
    (h : ∀ i ∈ rows.keys, (∀ s ∈ (rows.row i).path, s < maxStep) ∧ (isFor rows call.item i = true →
      (rows.row i).path ≠ [] ∧ (rows.row i).path.dropLast = (rows.row r).path ∧
        ∀ j ∈ rows.keys, (rows.row i).path <+: (rows.row j).path → j = i)) : AllTaken r rows call := by
  have hstep : ∀ {q i s}, ChildAt rows.paths q i s → s < maxStep := by
    rintro q i s ⟨p, -, hpath⟩
    obtain ⟨hi, hrow⟩ := TreeOperations.mem_of_paths hpath
    refine (h i hi).1 s ?_
    rw [hrow]
    exact List.mem_append_right _ (List.mem_singleton_self s)
  refine ⟨fun i hbelow => ⟨fun hfor => ?_, ?_⟩, fun o _ i s hchild => hstep hchild,
    fun _ i s hchild _ => hstep hchild⟩
  · obtain ⟨-, hi, -⟩ := TreeOperations.below_iff.mp hbelow
    obtain ⟨hne, hparent, -⟩ := (h i hi).2 hfor
    have hpath := TreeOperations.paths_of_mem hi
    rw [← List.dropLast_append_getLast hne, hparent] at hpath
    exact ⟨i, ⟨⟨_, _, TreeOperations.paths_of_mem hroot, hpath⟩, hfor⟩, .inl rfl⟩
  · rintro ⟨d, ⟨-, hfor⟩, rfl | hd⟩
    · exact hfor
    · obtain ⟨hdmem, hi, hprefix, -⟩ := TreeOperations.below_iff.mp hd
      rw [((h d hdmem).2 hfor).2.2 i hi hprefix]
      exact hfor

/-- A course is a child of the root of program 1. -/
def courseUnderRoot : RequirementRows := rootOnly.create ⟨[1, 1], 1, some ⟨.course 9, some "", some false⟩⟩

theorem courseUnderRoot_rooted : Rooted courseUnderRoot 1 1 where
  wellFormed := TreeOperations.wellFormed_of (by decide) (by decide)
  root := ⟨1, none, rfl⟩
  unique i s data h := by
    obtain ⟨hi, hrow⟩ := TreeRows.get_eq_some.mp h
    have hroot : ∀ i ∈ courseUnderRoot.keys, (courseUnderRoot.row i).path.length = 1 → i = 1 := by decide
    refine hroot i hi ?_
    rw [hrow]
    rfl

/-- Courses and programs are required and elective, one after the other; the course that was a child of the root
becomes an elective. -/
def fiveCalls : List HelperCall :=
  [.addRequirement (.course 7), .addElective 9, .addProgramRequirement 2, .addElective 8, .addProgramElective 3]

theorem keepsSet_fiveCalls : KeepsSet mpChildren 1 1 courseUnderRoot fiveCalls := by
  have hrun : Along (callHelper mpChildren 1) (AllTaken 1) courseUnderRoot fiveCalls :=
    ⟨allTaken_of_rows (by decide +kernel) (by decide +kernel),
      allTaken_of_rows (by decide +kernel) (by decide +kernel),
      allTaken_of_rows (by decide +kernel) (by decide +kernel),
      allTaken_of_rows (by decide +kernel) (by decide +kernel),
      allTaken_of_rows (by decide +kernel) (by decide +kernel), trivial⟩
  exact (keepsSet_iff mpChildren_documented courseUnderRoot_rooted _).mpr hrun _ (List.prefix_refl _)

/-- If it is added again, it is there twice. -/
theorem not_keepsSet :
    ¬ ∀ (ops : MpChildren (Option RequirementFields)) (program : ProgramId) (r : ℕ)
      (rows : RequirementRows) (calls : List HelperCall), ops.Documented → Rooted rows program r →
      KeepsSet ops program r rows calls := by
  intro h
  have hkeeps := h mpChildren 1 1 rootOnly [.addRequirement (.course 7), .addRequirement (.course 7)]
    mpChildren_documented rootOnly_rooted
  obtain ⟨i, -, hunique, -⟩ := hkeeps.held (.course 7) .allOf rfl
  have hfirst : i = 3 := (hunique 3 ⟨⟨[1], [1, 1, 1], rfl, rfl, by decide, by decide⟩, rfl⟩).symm
  have hsecond : i = 4 := (hunique 4 ⟨⟨[1], [1, 1, 2], rfl, rfl, by decide, by decide⟩, rfl⟩).symm
  rw [hfirst] at hsecond
  cases hsecond

end MitxOnline

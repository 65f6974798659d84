import MitxOnline.Courses.TreeOperations

/-!
# Saving requirement trees

Placing one node is an edit of the paths, whichever method of the library does it. The loop keeps the node
that was placed last at, or on the left of, the path that its object has in memory, and so each node comes
after the ones before it. Once everything that was submitted is in its place, deleting the other nodes
leaves the submitted tree.
-/

namespace MitxOnline

open Paths PathMap

variable {D : Type} {ops : MpNode D} {rows rows' : TreeRows D} {program : ProgramId}

open TreeRows

theorem refreshFromDb_of_stored {node : TreeNode D} {p : List ℕ} (h : rows.paths node.id = some p) :
    ∃ node', refreshFromDb rows node = .ok node' ∧ node'.id = node.id ∧ node'.path = p := by
  have hstored : rows.paths node.id ≠ none := by simp [h]
  obtain ⟨node', hload, hid, hpath⟩ := exists_load hstored
  refine ⟨node', by rw [refreshFromDb, hload], hid, ?_⟩
  exact (Option.some.inj (h.symm.trans hpath)).symm

/-- Saving the data leaves the paths alone. -/
theorem saveData_of_stored (node : TreeNode D) (h : rows.paths node.id ≠ none) :
    ∃ rows', saveData rows node = .ok rows' ∧ rows'.paths = rows.paths ∧
      ∀ i, rows'.columns i = if i = node.id then some (node.program, node.data) else rows.columns i := by
  obtain ⟨p, hp⟩ := Option.ne_none_iff_exists'.mp h
  obtain ⟨r, hr, hrp⟩ := paths_eq_some.mp hp
  have hset := fun i => get_set (i := i)
    (r := { r with program := node.program, data := node.data }) (by simp [hr] : rows.get node.id ≠ none)
  refine ⟨rows.set node.id { r with program := node.program, data := node.data },
    by rw [saveData, hr], ?_, fun i => ?_⟩
  · funext i
    rw [paths, hset]
    by_cases hi : i = node.id
    · rw [if_pos hi, hi, hp, Option.map_some, hrp]
    · rw [if_neg hi, paths]
  · rw [columns, hset]
    by_cases hi : i = node.id
    · rw [if_pos hi, if_pos hi, Option.map_some]
    · rw [if_neg hi, if_neg hi, columns]

/-! ## One node -/

/-- Where the node that was placed last is: it is stored among the children of `q`, and no further right
than the step `m` that its object has in memory. Before the first node, `m` is 0. -/
def Anchor (f : PathMap ℕ) (q : ℕ) (last : Option (TreeNode D)) (m : ℕ) : Prop :=
  match last with
  | none => m = 0
  | some target => (∃ s ≤ m, ChildAt f q target.id s) ∧ ∃ p, f q = some p ∧ target.path = p ++ [m]

/-- A submitted node was put among the children of `q`, after step `m`. -/
structure PutAt (rows rows' : TreeRows D) (program : ProgramId) (submitted : SubmittedNode D) (q m : ℕ)
    (node : TreeNode D) (p : List ℕ) (k : ℕ) (shift : ℕ → ℕ) : Prop where
  edit : Edit rows.paths rows'.paths q node.id m p k shift
  columns : ∀ i, rows'.columns i = if i = node.id then some (program, submitted.data) else rows.columns i
  object : submitted.id = some node.id ∧ rows.paths node.id = some node.path ∨
    submitted.id = none ∧ rows.paths node.id = none ∧ rows'.paths node.id = some node.path

section Place

variable {parent : TreeNode D} {last : Option (TreeNode D)} {m : ℕ}

theorem insertNode_spec (program : ProgramId) (hops : ops.Documented) (hwf : rows.paths.WellFormed)
    (hparent : rows.paths parent.id = some parent.path) (hanchor : Anchor rows.paths parent.id last m)
    (data : D) :
    insertNode ops rows parent last (ops.getFirstChild rows parent) program data = .error .pathOverflow ∨
      ∃ rows' node,
        insertNode ops rows parent last (ops.getFirstChild rows parent) program data = .ok (rows', node) ∧
        Inserted rows rows' parent.id m program data node := by
  cases last with
  | some target =>
    obtain ⟨⟨s, hle, hchild⟩, p, hq, hpath⟩ := hanchor
    exact hops.addSibling hwf (.right hchild hle hq hpath) (by simp) program data
  | none =>
    obtain rfl : m = 0 := hanchor
    cases hfirst : ops.getFirstChild rows parent with
    | some first =>
      obtain ⟨hpath, s, hchild, hleast⟩ := hops.getFirstChild_some hwf hparent hfirst
      exact hops.addSibling hwf (.firstSibling hchild hleast hpath) (by simp) program data
    | none =>
      exact hops.addChild hwf (.firstChild hparent (hops.getFirstChild_none hwf hparent hfirst))
        program data

theorem moveNode_spec (hops : ops.Documented) (hwf : rows.paths.WellFormed)
    (hparent : rows.paths parent.id = some parent.path) (hanchor : Anchor rows.paths parent.id last m)
    {node : TreeNode D} (hnode : rows.paths node.id = some node.path)
    (hlast : ∀ target ∈ last, node.id ≠ target.id) (hoff : OffPath rows.paths node.id parent.id) :
    moveNode ops rows parent last (ops.getFirstChild rows parent) node = .error .pathOverflow ∨
      ∃ rows', moveNode ops rows parent last (ops.getFirstChild rows parent) node = .ok rows' ∧
        Placed rows.paths rows'.paths parent.id node.id m ∧ ∀ i, rows'.columns i = rows.columns i := by
  cases last with
  | some target =>
    obtain ⟨⟨s, hle, hchild⟩, p, hq, hpath⟩ := hanchor
    exact hops.move hwf hnode (.right hchild hle hq hpath) (fun _ => hlast target rfl) hoff
  | none =>
    obtain rfl : m = 0 := hanchor
    cases hfirst : ops.getFirstChild rows parent with
    | some first =>
      obtain ⟨hpath, s, hchild, hleast⟩ := hops.getFirstChild_some hwf hparent hfirst
      exact hops.move hwf hnode (.firstSibling hchild hleast hpath) (by simp) hoff
    | none =>
      exact hops.move hwf hnode
        (.firstChild hparent (hops.getFirstChild_none hwf hparent hfirst)) (by simp) hoff

/-- The nodes that are given by id are stored, and neither the parent, nor above it, nor placed last. -/
theorem placeNode_spec (program : ProgramId) (hops : ops.Documented) (hwf : rows.paths.WellFormed)
    (hparent : rows.paths parent.id = some parent.path) (hanchor : Anchor rows.paths parent.id last m)
    {submitted : SubmittedNode D}
    (hgiven : ∀ i ∈ submitted.id, i ≠ 0 ∧ rows.paths i ≠ none ∧ OffPath rows.paths i parent.id ∧
      ∀ target ∈ last, i ≠ target.id) :
    placeNode ops program rows parent last submitted = .error .pathOverflow ∨
      ∃ rows' node p k shift,
        placeNode ops program rows parent last submitted = .ok (rows', node) ∧
        PutAt rows rows' program submitted parent.id m node p k shift := by
  cases hid : submitted.id with
  | none =>
    have hexisting : getExisting rows submitted.id = none := by rw [hid]; rfl
    rcases insertNode_spec program hops hwf hparent hanchor submitted.data with
      herror | ⟨rows', node, hok, hins⟩
    · exact Or.inl (by simp only [placeNode, hexisting, herror])
    · have hfresh : rows.paths node.id = none := paths_eq_none.mpr hins.fresh
      obtain ⟨p, k, shift, hedit⟩ := hins.placed.exists_edit fun hb => by simp [hfresh] at hb
      exact Or.inr ⟨rows', node, p, k, shift, by simp only [placeNode, hexisting, hok], hedit,
        hins.columns, Or.inr ⟨hid, hfresh, hins.path⟩⟩
  | some i =>
    obtain ⟨hzero, hstored, hoff, hlast⟩ := hgiven i hid
    obtain ⟨existing, hload, rfl, hpath⟩ := exists_load hstored
    have hexisting : getExisting rows submitted.id = some existing := by
      rw [hid, getExisting, if_neg hzero, hload]
    rcases moveNode_spec hops hwf hparent hanchor hpath hlast hoff with herror | ⟨moved, hok, hplaced, hsame⟩
    · refine Or.inl ?_
      simp only [placeNode, hexisting, herror]
      rfl
    · obtain ⟨p, k, shift, hedit⟩ := hplaced.exists_edit hoff
      have hmoved : moved.paths existing.id ≠ none := by rw [hedit.self]; simp
      obtain ⟨rows', hsave, hpaths, hcolumns⟩ := saveData_of_stored
        { existing with program := program, data := submitted.data } hmoved
      refine Or.inr ⟨rows', { existing with program := program, data := submitted.data }, p, k, shift,
        ?_, hpaths ▸ hedit, ?_, Or.inl ⟨hid, hpath⟩⟩
      · simp only [placeNode, hexisting, hok]
        change (saveData moved _ >>= fun rows => _) = _
        rw [hsave]
        rfl
      · intro i
        rw [hcolumns]
        simp only [hsame]

end Place

/-! ## The ids that were submitted -/

section Given

variable {submitted : SubmittedNode D} {children rest forest : List (PathTree (SubmittedNode D))}
  {f f' : PathMap ℕ}

theorem givenIds_cons : givenIds (.node submitted children :: rest) =
    submitted.id.toList ++ (givenIds children ++ givenIds rest) := by
  cases h : submitted.id <;> simp [givenIds, nodes_cons, h]

theorem mem_givenIds_cons {i : ℕ} : i ∈ givenIds (.node submitted children :: rest) ↔
    submitted.id = some i ∨ i ∈ givenIds children ∨ i ∈ givenIds rest := by
  simp [givenIds_cons]

/-- No id is given twice: not for the first node and below it, nor here and among the other trees. -/
theorem nodup_givenIds_cons (h : (givenIds (.node submitted children :: rest)).Nodup) :
    (givenIds children).Nodup ∧ (givenIds rest).Nodup ∧
      (∀ i ∈ submitted.id, i ∉ givenIds children ∧ i ∉ givenIds rest) ∧
      ∀ i ∈ givenIds children, i ∉ givenIds rest := by
  rw [givenIds_cons, List.nodup_append, List.nodup_append] at h
  obtain ⟨-, ⟨hchildren, hrest, hdisjoint⟩, hfirst⟩ := h
  refine ⟨hchildren, hrest, ?_, fun i hi hmem => hdisjoint i hi i hmem rfl⟩
  intro i hi
  have hmem : i ∈ submitted.id.toList := by simpa using hi
  exact ⟨fun h => hfirst i hmem i (List.mem_append_left _ h) rfl,
    fun h => hfirst i hmem i (List.mem_append_right _ h) rfl⟩

/-- Nodes that are in place stay so while others are moved, as long as they stay after the step. -/
theorem InPlace.kept {parent : Option ℕ} {b b' : ℕ} {moved parents : List ℕ}
    (h : InPlace f parent b forest) (hkept : Kept moved parents f f')
    (hmoved : ∀ i ∈ givenIds forest, i ∉ moved)
    (hb : ∀ q ∈ parent, ∀ i ∈ givenIds forest, ∀ s s', ChildAt f q i s → b < s → ChildAt f' q i s' →
      b' < s') : InPlace f' parent b' forest := by
  have hzero : ∀ {q i s s'}, i ∉ moved → ChildAt f q i s → 0 < s → ChildAt f' q i s' → 0 < s' := by
    intro q i s s' hi hs hlt hs'
    obtain ⟨u, hu, hle, -⟩ := hkept.child hi hs
    rw [hs'.step_unique hu]
    exact Nat.lt_of_lt_of_le hlt hle
  induction h generalizing b' with
  | nil => exact .nil
  | last _ ihchildren =>
    refine .last (ihchildren (fun i hi => hmoved i (mem_givenIds_cons.mpr (Or.inr (Or.inl hi)))) ?_)
    intro q _ i hi s s' hs hlt hs'
    exact hzero (hmoved i (mem_givenIds_cons.mpr (Or.inr (Or.inl hi)))) hs hlt hs'
  | @leaf q b i s submitted rest hid hchild hafter _ ihrest =>
    have hi : i ∈ givenIds (.node submitted [] :: rest) := mem_givenIds_cons.mpr (Or.inl hid)
    obtain ⟨s', hs', -⟩ := hkept.child (hmoved i hi) hchild
    refine .leaf hid hs' (hb q rfl i hi s s' hchild hafter hs') (ihrest ?_ ?_)
    · exact fun j hj => hmoved j (mem_givenIds_cons.mpr (Or.inr (Or.inr hj)))
    · intro q' hq' j hj t t' ht hlt ht'
      obtain rfl : q' = q := by simpa using hq'.symm
      have hjmoved := hmoved j (mem_givenIds_cons.mpr (Or.inr (Or.inr hj)))
      exact hkept.order (hmoved i hi) hjmoved hchild ht hlt hs' ht'
  | other hother _ _ ihchildren ihrest =>
    refine .other hother (ihchildren ?_ ?_) (ihrest ?_ ?_)
    · exact fun i hi => hmoved i (mem_givenIds_cons.mpr (Or.inr (Or.inl hi)))
    · intro q _ i hi s s' hs hlt hs'
      exact hzero (hmoved i (mem_givenIds_cons.mpr (Or.inr (Or.inl hi)))) hs hlt hs'
    · exact fun i hi => hmoved i (mem_givenIds_cons.mpr (Or.inr (Or.inr hi)))
    · exact fun q hq i hi => hb q hq i (mem_givenIds_cons.mpr (Or.inr (Or.inr hi)))

/-- Where no parent is said, there are no nodes that have to be under it. -/
theorem InPlace.of_none {b : ℕ} (h : InPlace f none b forest) (q b' : ℕ) : InPlace f (some q) b' forest := by
  generalize hparent : (none : Option ℕ) = parent at h
  induction h with
  | nil => exact .nil
  | last hchildren => exact .last hchildren
  | leaf => cases hparent
  | other hother hchildren _ _ ihrest => exact .other hother hchildren (ihrest hparent)

theorem InPlace.of_children {parent : Option ℕ} {b : ℕ}
    (h : InPlace f parent b (.node submitted children :: rest)) : InPlace f submitted.id 0 children := by
  cases h with
  | last hchildren => exact hchildren
  | leaf => exact .nil
  | other _ hchildren _ => exact hchildren

/-- The first node, when others come after it: an existing one without children that is stored under the
parent, or one whose object is loaded after it was placed. -/
theorem InPlace.of_rest {q b : ℕ} (h : InPlace f (some q) b (.node submitted children :: rest))
    (hne : rest ≠ []) :
    (∃ i s, submitted.id = some i ∧ children = [] ∧ ChildAt f q i s ∧ b < s ∧ InPlace f (some q) s rest) ∨
      (submitted.id = none ∨ children ≠ []) ∧ InPlace f (some q) b rest := by
  cases h with
  | last => exact absurd rfl hne
  | leaf hid hchild hafter hrest => exact Or.inl ⟨_, _, hid, rfl, hchild, hafter, hrest⟩
  | other hother _ hrest => exact Or.inr ⟨hother, hrest⟩

end Given

/-! ## The loop -/

/-- What the loop over the children of `q` needs: the nodes that are given by id are below the root, and
not on the way to `q`. -/
structure Ready (rows : TreeRows D) (root q : ℕ) (chain : List ℕ)
    (forest : List (PathTree (SubmittedNode D))) : Prop where
  wellFormed : rows.paths.WellFormed
  stored : rows.paths q ≠ none
  isChain : Chain rows.paths root q chain
  nodup : (givenIds forest).Nodup
  given : ∀ i ∈ givenIds forest, i ≠ 0 ∧ Below rows.paths root i ∧ i ∉ chain

/-- What the loop over the children of `q` has done, and what it has left as it was. -/
structure Updated (rows rows' : TreeRows D) (program : ProgramId) (root q : ℕ) (chain : List ℕ)
    (before : Option ℕ) (forest : List (PathTree (SubmittedNode D))) (saved : List (PathTree (ℕ × D))) :
    Prop where
  wellFormed : rows'.paths.WellFormed
  kept : Kept (givenIds forest) (q :: keys saved) rows.paths rows'.paths
  columns : ∀ i ∉ givenIds forest, ∀ c, rows.columns i = some c → rows'.columns i = some c
  chainSame : ∀ i ∈ chain, rows'.paths i = rows.paths i
  below : ∀ i, Below rows.paths root i → Below rows'.paths root i
  outside : ∀ i r, rows.get i = some r → ¬ Below rows.paths root i → rows'.get i = some r
  savedAs : SavedAs forest saved
  built : Built rows'.paths q before saved
  data : ∀ a ∈ nodes saved, rows'.columns a.1 = some (program, a.2)
  ids : ∀ i ∈ keys saved, i ∈ givenIds forest ∨ rows.get i = none
  nodup : (keys saved).Nodup
  created : ∀ i r, rows'.get i = some r → rows.get i ≠ none ∨ i ∈ keys saved

theorem Below.stored {f : PathMap ℕ} {root i : ℕ} (h : Below f root i) : f i ≠ none := by
  obtain ⟨-, x, -, hx, -⟩ := h
  simp [hx]

section Loop

variable {root q m k : ℕ} {chain : List ℕ} {before : Option ℕ} {submitted : SubmittedNode D}
  {children rest forest : List (PathTree (SubmittedNode D))} {node : TreeNode D} {p : List ℕ}
  {shift : ℕ → ℕ} {saved savedChildren savedRest : List (PathTree (ℕ × D))} {rows₁ rows₂ rows₃ : TreeRows D}

theorem Updated.refl (hwf : rows.paths.WellFormed) :
    Updated rows rows program root q chain before [] [] where
  wellFormed := hwf
  kept := .refl _ _ _
  columns _ _ _ h := h
  chainSame _ _ := rfl
  below _ h := h
  outside _ _ h _ := h
  savedAs := .nil
  built := .nil
  data := by simp [nodes]
  ids := by simp
  nodup := by simp
  created _ _ h := Or.inl (by simp [h])

/-- What is stored stays stored. -/
theorem Updated.stored (h : Updated rows rows' program root q chain before forest saved) {i : ℕ}
    (hi : rows.get i ≠ none) : rows'.get i ≠ none := by
  by_cases hbelow : Below rows.paths root i
  · exact fun hnone => Below.stored (h.below i hbelow) (paths_eq_none.mpr hnone)
  · obtain ⟨r, hr⟩ := Option.ne_none_iff_exists'.mp hi
    simp [h.outside i r hr hbelow]

/-- The nodes that were saved are stored. -/
theorem Updated.stored_of_mem (h : Updated rows rows' program root q chain before forest saved) {i : ℕ}
    (hi : i ∈ keys saved) : rows'.get i ≠ none := by
  obtain ⟨a, ha, rfl⟩ := List.mem_map.mp hi
  obtain ⟨r, hr, -⟩ := columns_eq_some.mp (h.data a ha)
  simp [hr]

namespace PutAt

theorem stored (h : PutAt rows rows₁ program submitted q m node p k shift) {i : ℕ}
    (hi : rows.get i ≠ none) : rows₁.get i ≠ none := by
  obtain ⟨r, hr⟩ := Option.ne_none_iff_exists'.mp hi
  have hpath := h.edit.of_some (paths_eq_some.mpr ⟨r, hr, rfl⟩)
  exact fun hnone => by simp [paths_eq_none.mpr hnone] at hpath

theorem stored_self (h : PutAt rows rows₁ program submitted q m node p k shift) :
    rows₁.get node.id ≠ none := by
  have hpath := h.edit.self
  exact fun hnone => by simp [paths_eq_none.mpr hnone] at hpath

theorem given_or_fresh (h : PutAt rows rows₁ program submitted q m node p k shift) :
    submitted.id = some node.id ∨ rows.get node.id = none := by
  rcases h.object with ⟨hid, -⟩ | ⟨-, hfresh, -⟩
  · exact Or.inl hid
  · exact Or.inr (paths_eq_none.mp hfresh)

/-- The node is not given a second time. -/
theorem not_given (h : PutAt rows rows₁ program submitted q m node p k shift)
    (hready : Ready rows root q chain (.node submitted children :: rest)) :
    node.id ∉ givenIds children ∧ node.id ∉ givenIds rest := by
  rcases h.given_or_fresh with hid | hfresh
  · exact (nodup_givenIds_cons hready.nodup).2.2.1 node.id hid
  · have hnot : node.id ∉ givenIds (.node submitted children :: rest) := fun hmem =>
      Below.stored (hready.given _ hmem).2.1 (paths_eq_none.mpr hfresh)
    rw [mem_givenIds_cons] at hnot
    push Not at hnot
    exact hnot.2

theorem kept (h : PutAt rows rows₁ program submitted q m node p k shift)
    (hready : Ready rows root q chain (.node submitted children :: rest)) :
    Kept (givenIds (.node submitted children :: rest)) [q] rows.paths rows₁.paths := by
  refine h.edit.kept hready.wellFormed ?_
  rcases h.given_or_fresh with hid | hfresh
  · exact Or.inl (mem_givenIds_cons.mpr (Or.inl hid))
  · exact Or.inr (paths_eq_none.mpr hfresh)

theorem below (h : PutAt rows rows₁ program submitted q m node p k shift)
    (hready : Ready rows root q chain forest) {i : ℕ} (hi : Below rows.paths root i) :
    Below rows₁.paths root i :=
  h.edit.below hready.isChain.root_or_below hi

theorem created (h : PutAt rows rows₁ program submitted q m node p k shift) {i : ℕ}
    (hi : rows₁.get i ≠ none) : rows.get i ≠ none ∨ i = node.id := by
  by_cases hn : i = node.id
  · exact Or.inr hn
  · refine Or.inl fun hnone => hi (paths_eq_none.mp ?_)
    rw [h.edit.eq, if_neg hn, paths_eq_none.mpr hnone, Option.map_none]

/-- What is not below the root stays as it is. -/
theorem outside (h : PutAt rows rows₁ program submitted q m node p k shift)
    (hready : Ready rows root q chain (.node submitted children :: rest)) {i : ℕ} {r : TreeRow D}
    (hr : rows.get i = some r) (hout : ¬ Below rows.paths root i) : rows₁.get i = some r := by
  have hnode : ∀ b ∈ rows.paths node.id, Below rows.paths root node.id := by
    intro b hb
    rcases h.given_or_fresh with hid | hfresh
    · exact (hready.given _ (mem_givenIds_cons.mpr (Or.inl hid))).2.1
    · rw [paths_eq_none.mpr hfresh] at hb
      cases hb
  have hpath : rows.paths i = some r.path := paths_eq_some.mpr ⟨r, hr, rfl⟩
  have hne : i ≠ node.id := by
    rintro rfl
    exact hout (hnode _ hpath)
  rw [← hr]
  refine get_eq_of ?_ (by rw [h.columns, if_neg hne])
  rw [hpath, h.edit.outside hready.isChain.root_or_below hnode hpath hout]

/-- The loop over the children of the node can start. -/
theorem ready_children (h : PutAt rows rows₁ program submitted q m node p k shift)
    (hready : Ready rows root q chain (.node submitted children :: rest)) :
    Ready rows₁ root node.id (node.id :: chain) children where
  wellFormed := h.edit.wellFormed hready.wellFormed
  stored := by simp [h.edit.self]
  isChain := .child (hready.isChain.congr fun _ hi => h.edit.same_of_mem_chain hready.isChain hi)
    h.edit.childAt_self
  nodup := (nodup_givenIds_cons hready.nodup).1
  given := by
    intro i hi
    obtain ⟨hzero, hbelow, hchain⟩ := hready.given i (mem_givenIds_cons.mpr (Or.inr (Or.inl hi)))
    refine ⟨hzero, h.below hready hbelow, ?_⟩
    rw [List.mem_cons, not_or]
    exact ⟨fun heq => (h.not_given hready).1 (heq ▸ hi), hchain⟩

/-- And after it, the loop over the nodes that come next. -/
theorem ready_rest (h : PutAt rows rows₁ program submitted q m node p k shift)
    (hready : Ready rows root q chain (.node submitted children :: rest))
    (hchildren : Updated rows₁ rows₂ program root node.id (node.id :: chain) none children savedChildren) :
    Ready rows₂ root q chain rest := by
  have hsame : ∀ i ∈ chain, rows₂.paths i = rows.paths i := fun i hi =>
    (hchildren.chainSame i (List.mem_cons_of_mem _ hi)).trans (h.edit.same_of_mem_chain hready.isChain hi)
  exact {
    wellFormed := hchildren.wellFormed
    stored := by rw [hsame q hready.isChain.mem_self]; exact hready.stored
    isChain := hready.isChain.congr hsame
    nodup := (nodup_givenIds_cons hready.nodup).2.1
    given := fun i hi => by
      obtain ⟨hzero, hbelow, hchain⟩ := hready.given i (mem_givenIds_cons.mpr (Or.inr (Or.inr hi)))
      exact ⟨hzero, hchildren.below i (h.below hready hbelow), hchain⟩ }

/-- The nodes below it that are in place are so after it was put. -/
theorem inPlace_children (h : PutAt rows rows₁ program submitted q m node p k shift)
    (hready : Ready rows root q chain (.node submitted children :: rest)) {parent : Option ℕ} {b : ℕ}
    (hplace : InPlace rows.paths parent b (.node submitted children :: rest)) :
    InPlace rows₁.paths (some node.id) 0 children := by
  have hkept : Kept [node.id] [q] rows.paths rows₁.paths :=
    h.edit.kept hready.wellFormed (Or.inl (List.mem_singleton_self _))
  have hmoved : ∀ i ∈ givenIds children, i ∉ [node.id] := by
    intro i hi hmem
    exact (h.not_given hready).1 (List.mem_singleton.mp hmem ▸ hi)
  have hchildren : InPlace rows₁.paths submitted.id 0 children := by
    refine hplace.of_children.kept hkept hmoved ?_
    intro _ _ _ _ _ _ _ _ hs'
    exact hs'.pos (h.edit.wellFormed hready.wellFormed)
  rcases h.object with ⟨hsome, -⟩ | ⟨hnone, -⟩
  · rwa [hsome] at hchildren
  · rw [hnone] at hchildren
    exact hchildren.of_none _ _

end PutAt

section Cons

variable (hready : Ready rows root q chain (.node submitted children :: rest))
  (hput : PutAt rows rows₁ program submitted q m node p k shift)
  (hchildren : Updated rows₁ rows₂ program root node.id (node.id :: chain) none children savedChildren)
  (hrest : Updated rows₂ rows₃ program root q chain (some node.id) rest savedRest)

include hready hput hchildren

/-- The nodes below the first one are not given again in the other trees. -/
theorem not_given_of_mem_children {i : ℕ} (hi : i ∈ keys savedChildren) : i ∉ givenIds rest := by
  intro hrest
  rcases hchildren.ids i hi with hgiven | hfresh
  · exact (nodup_givenIds_cons hready.nodup).2.2.2 i hgiven hrest
  · have hbelow := (hready.given i (mem_givenIds_cons.mpr (Or.inr (Or.inr hrest)))).2.1
    exact hput.stored (fun hnone => Below.stored hbelow (paths_eq_none.mpr hnone)) hfresh

/-- The parent is not among them. -/
theorem parent_not_mem_children : q ∉ node.id :: keys savedChildren := by
  rw [List.mem_cons, not_or]
  refine ⟨hput.edit.childAt_self.ne, fun hmem => ?_⟩
  rcases hchildren.ids q hmem with hgiven | hfresh
  · exact (hready.given q (mem_givenIds_cons.mpr (Or.inr (Or.inl hgiven)))).2.2 hready.isChain.mem_self
  · exact hput.stored (fun hnone => hready.stored (paths_eq_none.mpr hnone)) hfresh

/-- The loop over the children of the node leaves the node where it was put. -/
theorem childAt_of_children : ChildAt rows₂.paths q node.id k := by
  obtain ⟨s, hs, -, heq⟩ := hchildren.kept.child (hput.not_given hready).1 hput.edit.childAt_self
  exact heq (parent_not_mem_children hready hput hchildren) ▸ hs

include hrest

theorem keys_disjoint {i : ℕ} (hi : i ∈ node.id :: keys savedChildren) : i ∉ keys savedRest := by
  intro hmem
  have hstored : rows₂.get i ≠ none := by
    rcases List.mem_cons.mp hi with rfl | hi
    · exact hchildren.stored hput.stored_self
    · exact hchildren.stored_of_mem hi
  rcases hrest.ids i hmem with hgiven | hfresh
  · rcases List.mem_cons.mp hi with rfl | hi
    · exact (hput.not_given hready).2 hgiven
    · exact not_given_of_mem_children hready hput hchildren hi hgiven
  · exact hstored hfresh

theorem kept_cons : Kept (givenIds (.node submitted children :: rest))
    (q :: (node.id :: (keys savedChildren ++ keys savedRest))) rows.paths rows₃.paths := by
  have hq : [q] ⊆ q :: (node.id :: (keys savedChildren ++ keys savedRest)) :=
    List.cons_subset_cons q (List.nil_subset _)
  have hfirst := (hput.kept hready).mono (List.Subset.refl _) hq
  refine (hfirst.trans (hchildren.kept.mono ?_ ?_)).trans (hrest.kept.mono ?_ ?_)
  · exact fun i hi => mem_givenIds_cons.mpr (Or.inr (Or.inl hi))
  · refine List.subset_cons_of_subset _ (List.cons_subset_cons _ ?_)
    exact List.subset_append_left ..
  · exact fun i hi => mem_givenIds_cons.mpr (Or.inr (Or.inr hi))
  · refine List.cons_subset_cons _ (List.subset_cons_of_subset _ ?_)
    exact List.subset_append_right ..

/-- The first tree is stored before the others. -/
theorem built_cons (hbefore : ∀ b ∈ before, b ∉ givenIds (.node submitted children :: rest) ∧
      b ≠ node.id ∧ ∃ s ≤ m, ChildAt rows.paths q b s) :
    Built rows₃.paths q before (.node (node.id, submitted.data) savedChildren :: savedRest) := by
  have hnode := hput.not_given hready
  have hat := childAt_of_children hready hput hchildren
  obtain ⟨s, hs, -⟩ := hrest.kept.child hnode.2 hat
  refine .cons hs ?_ (hchildren.built.kept hrest.kept
    (fun i hi => not_given_of_mem_children hready hput hchildren hi) (by simp)) hrest.built
  intro b hb
  obtain ⟨hgiven, hne, t, hle, ht⟩ := hbefore b hb
  rw [mem_givenIds_cons] at hgiven
  push Not at hgiven
  obtain ⟨hshift, hlt⟩ := hput.edit.slot.left hne ht hle
  have ht₁ : ChildAt rows₁.paths q b t := hshift ▸ hput.edit.child hready.wellFormed hne ht
  obtain ⟨t₂, ht₂, -⟩ := hchildren.kept.child hgiven.2.1 ht₁
  obtain ⟨t₃, ht₃, -⟩ := hrest.kept.child hgiven.2.2 ht₂
  have hlt₂ := hchildren.kept.order hgiven.2.1 hnode.1 ht₁ hput.edit.childAt_self hlt ht₂ hat
  exact ⟨t₃, hrest.kept.order hgiven.2.2 hnode.2 ht₂ hat hlt₂ ht₃ hs, ht₃⟩

theorem data_cons : ∀ a ∈ nodes (.node (node.id, submitted.data) savedChildren :: savedRest),
    rows₃.columns a.1 = some (program, a.2) := by
  have hnode := hput.not_given hready
  intro a ha
  rw [nodes_cons, List.mem_cons, List.mem_append] at ha
  rcases ha with rfl | ha | ha
  · refine hrest.columns _ hnode.2 _ (hchildren.columns _ hnode.1 _ ?_)
    rw [hput.columns, if_pos rfl]
  · have hmem : a.1 ∈ keys savedChildren := List.mem_map.mpr ⟨a, ha, rfl⟩
    exact hrest.columns _ (not_given_of_mem_children hready hput hchildren hmem) _
      (hchildren.data a ha)
  · exact hrest.data a ha

/-- One node, the nodes below it, and the nodes after it. -/
theorem Updated.cons (hbefore : ∀ b ∈ before, b ∉ givenIds (.node submitted children :: rest) ∧
      b ≠ node.id ∧ ∃ s ≤ m, ChildAt rows.paths q b s) :
    Updated rows rows₃ program root q chain before (.node submitted children :: rest)
      (.node (node.id, submitted.data) savedChildren :: savedRest) where
  wellFormed := hrest.wellFormed
  kept := by
    rw [keys_cons]
    exact kept_cons hready hput hchildren hrest
  columns := by
    intro i hi c hc
    rw [mem_givenIds_cons] at hi
    push Not at hi
    have hne : i ≠ node.id := by
      rintro rfl
      rcases hput.given_or_fresh with hid | hfresh
      · exact hi.1 hid
      · simp [TreeRows.columns, hfresh] at hc
    refine hrest.columns i hi.2.2 c (hchildren.columns i hi.2.1 c ?_)
    rw [hput.columns, if_neg hne, hc]
  chainSame i hi := (hrest.chainSame i hi).trans
    ((hchildren.chainSame i (List.mem_cons_of_mem _ hi)).trans
      (hput.edit.same_of_mem_chain hready.isChain hi))
  below i hi := hrest.below i (hchildren.below i (hput.below hready hi))
  outside := by
    intro i r hr hout
    have hr₁ := hput.outside hready hr hout
    have hout₁ : ¬ Below rows₁.paths root i := fun h => hout <| h.congr
      (hput.edit.same_of_mem_chain hready.isChain hready.isChain.root_mem).symm
      (by rw [TreeRows.paths, TreeRows.paths, hr, hr₁])
    have hr₂ := hchildren.outside i r hr₁ hout₁
    refine hrest.outside i r hr₂ fun h => hout₁ (h.congr ?_ ?_)
    · exact (hchildren.chainSame root (List.mem_cons_of_mem _ hready.isChain.root_mem)).symm
    · rw [TreeRows.paths, TreeRows.paths, hr₁, hr₂]
  savedAs := by
    refine .cons ?_ rfl hchildren.savedAs hrest.savedAs
    intro i hi
    rcases hput.object with ⟨hid, -⟩ | ⟨hid, -⟩
    · exact Option.some.inj (hid.symm.trans hi)
    · rw [hid] at hi
      cases hi
  built := built_cons hready hput hchildren hrest hbefore
  data := data_cons hready hput hchildren hrest
  ids := by
    intro i hi
    rw [keys_cons, List.mem_cons, List.mem_append] at hi
    rw [mem_givenIds_cons]
    rcases hi with rfl | hi | hi
    · exact hput.given_or_fresh.imp_left Or.inl
    · rcases hchildren.ids i hi with hgiven | hfresh
      · exact Or.inl (Or.inr (Or.inl hgiven))
      · exact Or.inr (by_contra fun hstored => hput.stored hstored hfresh)
    · rcases hrest.ids i hi with hgiven | hfresh
      · exact Or.inl (Or.inr (Or.inr hgiven))
      · exact Or.inr (by_contra fun hstored => hchildren.stored (hput.stored hstored) hfresh)
  nodup := by
    have hdisjoint := fun i hi => keys_disjoint (i := i) hready hput hchildren hrest hi
    rw [keys_cons, List.nodup_cons, List.mem_append, not_or, List.nodup_append]
    refine ⟨⟨fun hmem => ?_, hdisjoint _ (List.mem_cons_self ..)⟩, hchildren.nodup, hrest.nodup, ?_⟩
    · rcases hchildren.ids _ hmem with hgiven | hfresh
      · exact (hput.not_given hready).1 hgiven
      · exact hput.stored_self hfresh
    · rintro i hi j hj rfl
      exact hdisjoint i (List.mem_cons_of_mem _ hi) hj
  created := by
    intro i r hr
    rw [keys_cons, List.mem_cons, List.mem_append]
    rcases hrest.created i r hr with h₂ | hmem
    · obtain ⟨r₂, hr₂⟩ := Option.ne_none_iff_exists'.mp h₂
      rcases hchildren.created i r₂ hr₂ with h₁ | hmem
      · exact (hput.created h₁).imp_right Or.inl
      · exact Or.inr (Or.inr (Or.inl hmem))
    · exact Or.inr (Or.inr (Or.inr hmem))

end Cons

/-- The object that the next node is placed after: it is the one that was loaded before the move, when the
node was given by id without children, and else one that is up to date. -/
structure NextTarget (rows₁ rows₂ : TreeRows D) (node target : TreeNode D)
    (children : List (PathTree (SubmittedNode D))) : Prop where
  id : target.id = node.id
  stale : children = [] → target = node ∧ rows₂ = rows₁
  fresh : children ≠ [] ∨ rows₁.paths node.id = some node.path →
    rows₂.paths node.id = some target.path

/-- The next node finds its place after the one that was placed. -/
theorem exists_anchor (hready : Ready rows root q chain (.node submitted children :: rest))
    (hput : PutAt rows rows₁ program submitted q m node p k shift)
    (hchildren : Updated rows₁ rows₂ program root node.id (node.id :: chain) none children savedChildren)
    {target : TreeNode D} (htarget : NextTarget rows₁ rows₂ node target children)
    (hplace : InPlace rows.paths (some q) m (.node submitted children :: rest)) (hne : rest ≠ []) :
    ∃ m', Anchor rows₂.paths q (some target) m' ∧ InPlace rows₂.paths (some q) m' rest := by
  have hnode := (hput.not_given hready).2
  have hkept : Kept [node.id] [q] rows.paths rows₁.paths :=
    hput.edit.kept hready.wellFormed (Or.inl (List.mem_singleton_self _))
  have hothers : ∀ i ∈ givenIds rest, i ∉ [node.id] := by
    intro i hi hmem
    exact hnode (List.mem_singleton.mp hmem ▸ hi)
  rcases hplace.of_rest hne with ⟨i, s, hid, hnil, hchild, hlt, hrest⟩ | ⟨hother, hrest⟩
  · -- the object still has the step `s` that the node was stored at
    obtain ⟨rfl, hpath⟩ : node.id = i ∧ rows.paths node.id = some node.path := by
      rcases hput.object with ⟨hid', hpath⟩ | ⟨hid', -⟩
      · exact ⟨Option.some.inj (hid'.symm.trans hid), hpath⟩
      · simp [hid] at hid'
    obtain ⟨rfl, rfl⟩ := htarget.stale hnil
    refine ⟨s, ⟨⟨k, hput.edit.slot.down hchild hlt, hput.edit.childAt_self⟩, p,
      hput.edit.parent_same, ?_⟩, hrest.kept hkept hothers ?_⟩
    · obtain ⟨p', hp', hi⟩ := hchild
      obtain rfl := Option.some.inj (hput.edit.parent.symm.trans hp')
      exact Option.some.inj (hpath.symm.trans hi)
    · intro q' hq' j hj t t' ht hst ht'
      obtain ⟨u, hu, hle, -⟩ := hkept.child (hothers j hj) ht
      rw [ht'.step_unique hu]
      exact Nat.lt_of_lt_of_le hst hle
  · have hpath : rows₂.paths node.id = some target.path := by
      refine htarget.fresh ?_
      rcases hother with hnone | hchildren
      · rcases hput.object with ⟨hid, -⟩ | ⟨-, -, hpath⟩
        · simp [hnone] at hid
        · exact Or.inr hpath
      · exact Or.inl hchildren
    have hat := childAt_of_children hready hput hchildren
    have hparent := parent_not_mem_children hready hput hchildren
    refine ⟨k, ⟨⟨k, Nat.le_refl k, htarget.id ▸ hat⟩, ?_⟩, ?_⟩
    · obtain ⟨p', hp', hi⟩ := hat
      exact ⟨p', hp', Option.some.inj (hpath.symm.trans hi)⟩
    · have hrest₁ : InPlace rows₁.paths (some q) k rest := by
        refine hrest.kept hkept hothers ?_
        intro q' hq' j hj t t' ht hmt ht'
        obtain rfl : q' = q := by simpa using hq'.symm
        have hjn : j ≠ node.id := fun heq => hnode (heq ▸ hj)
        rw [ht'.step_unique (hput.edit.child hready.wellFormed hjn ht)]
        exact (hput.edit.slot.right hjn ht hmt).2
      refine hrest₁.kept hchildren.kept
        (fun i hi hmem => (nodup_givenIds_cons hready.nodup).2.2.2 i hmem hi) ?_
      intro q' hq' j hj t t' ht hkt ht'
      obtain rfl : q' = q := by simpa using hq'.symm
      have hjmoved : j ∉ givenIds children := fun hmem =>
        (nodup_givenIds_cons hready.nodup).2.2.2 j hmem hj
      obtain ⟨u, hu, -, heq⟩ := hchildren.kept.child hjmoved ht
      rw [ht'.step_unique hu, heq hparent]
      exact hkt

/-- The nodes given by id can be moved under `q`. -/
theorem Ready.offPath (h : Ready rows root q chain forest) {i : ℕ} (hi : i ∈ givenIds forest) :
    OffPath rows.paths i q := by
  intro b p hb hp hstart
  obtain ⟨-, hbelow, hchain⟩ := h.given i hi
  exact hchain (h.isChain.mem_of_prefix h.wellFormed hbelow hp hb hstart)

/-- The loop over a list: the parent is loaded, the first node is placed, then come the nodes below it and
the nodes after it. -/
theorem updateNodes_cons (s : Progress D) : updateNodes ops program s (.node submitted children :: rest) =
    (do
      let parent ← refreshFromDb s.rows s.parent
      let placed ← placeNode ops program s.rows parent s.lastUpdatedChild submitted
      let below ← updateNodes ops program
        ⟨placed.1, placed.2, none, s.keepNodeIds ++ [placed.2.id]⟩ children
      updateNodes ops program ⟨below.rows, parent, some below.parent, below.keepNodeIds⟩ rest) := by
  simp only [updateNodes, updateNode, bind_assoc]
  rfl

/-- The loop goes through, unless the paths run out: it saves what was submitted, and returns the object of
the parent up to date. -/
theorem updateNodes_spec (hops : ops.Documented) {s : Progress D}
    (hready : Ready s.rows root s.parent.id chain forest)
    (hanchor : forest ≠ [] → Anchor s.rows.paths s.parent.id s.lastUpdatedChild m)
    (hlast : ∀ target ∈ s.lastUpdatedChild, target.id ∉ givenIds forest)
    (hplace : InPlace s.rows.paths (some s.parent.id) m forest) :
    updateNodes ops program s forest = .error .pathOverflow ∨
      ∃ s' saved, updateNodes ops program s forest = .ok s' ∧
        Updated s.rows s'.rows program root s.parent.id chain (s.lastUpdatedChild.map (·.id)) forest saved ∧
        s'.keepNodeIds = s.keepNodeIds ++ keys saved ∧
        NextTarget s.rows s'.rows s.parent s'.parent forest := by
  induction forest using forest_induction generalizing s m chain with
  | nil =>
    refine Or.inr ⟨s, [], rfl, .refl hready.wellFormed, by simp, rfl, fun _ => ⟨rfl, rfl⟩, ?_⟩
    intro h
    exact h.resolve_left (by simp)
  | cons submitted children rest ihchildren ihrest =>
    obtain ⟨p, hp⟩ := Option.ne_none_iff_exists'.mp hready.stored
    obtain ⟨parent, hrefresh, hid, hpath⟩ := refreshFromDb_of_stored hp
    rw [← hid] at hready hanchor hplace hp ⊢
    have hgiven : ∀ i ∈ submitted.id, i ≠ 0 ∧ s.rows.paths i ≠ none ∧
        OffPath s.rows.paths i parent.id ∧ ∀ target ∈ s.lastUpdatedChild, i ≠ target.id := by
      intro i hi
      have hmem : i ∈ givenIds (.node submitted children :: rest) := mem_givenIds_cons.mpr (Or.inl hi)
      refine ⟨(hready.given i hmem).1, Below.stored (hready.given i hmem).2.1, hready.offPath hmem, ?_⟩
      rintro target htarget rfl
      exact hlast target htarget hmem
    rcases placeNode_spec program hops hready.wellFormed (hpath ▸ hp) (hanchor (by simp)) hgiven
      with herror | ⟨rows₁, node, p', k, shift, hok, hput⟩
    · refine Or.inl ?_
      rw [updateNodes_cons, hrefresh]
      simp only [bind, Except.bind, herror]
    rcases ihchildren (s := ⟨rows₁, node, none, s.keepNodeIds ++ [node.id]⟩) (m := 0)
      (hput.ready_children hready) (fun _ => rfl) (by simp) (hput.inPlace_children hready hplace) with
      herror | ⟨below, savedChildren, hbelow, hchildren, hkeep, htarget⟩
    · refine Or.inl ?_
      rw [updateNodes_cons, hrefresh]
      simp only [bind, Except.bind, hok, herror]
    have hnext : ∃ m', (rest ≠ [] → Anchor below.rows.paths parent.id (some below.parent) m') ∧
        InPlace below.rows.paths (some parent.id) m' rest := by
      by_cases hne : rest = []
      · exact ⟨0, fun h => absurd hne h, hne ▸ .nil⟩
      · obtain ⟨m', hanchor', hplace'⟩ := exists_anchor hready hput hchildren htarget hplace hne
        exact ⟨m', fun _ => hanchor', hplace'⟩
    obtain ⟨m', hanchor', hplace'⟩ := hnext
    rcases ihrest (s := ⟨below.rows, parent, some below.parent, below.keepNodeIds⟩) (m := m')
      (hput.ready_rest hready hchildren) hanchor' (by simpa [htarget.id] using (hput.not_given hready).2)
      hplace' with herror | ⟨s', savedRest, hs', hrest, hkeep', htarget'⟩
    · refine Or.inl ?_
      rw [updateNodes_cons, hrefresh]
      simp only [bind, Except.bind, hok, hbelow, herror]
    refine Or.inr ⟨s', .node (node.id, submitted.data) savedChildren :: savedRest, ?_, ?_, ?_, ?_⟩
    · rw [updateNodes_cons, hrefresh]
      simp only [bind, Except.bind, hok, hbelow, hs']
    · have hrest' : Updated below.rows s'.rows program root parent.id chain (some node.id) rest savedRest := by
        simpa [htarget.id] using hrest
      refine Updated.cons hready hput hchildren hrest' fun b hb => ?_
      obtain ⟨target, hmem, rfl⟩ := Option.map_eq_some_iff.mp hb
      have hanchored := hanchor (by simp)
      rw [hmem] at hanchored
      obtain ⟨⟨t, hle, ht⟩, -⟩ := hanchored
      refine ⟨hlast target hmem, ?_, t, hle, ht⟩
      intro heq
      rcases hput.given_or_fresh with hsome | hfresh
      · exact (hgiven _ hsome).2.2.2 target hmem heq.symm
      · obtain ⟨y, -, hy⟩ := ht
        simp [heq, paths_eq_none.mpr hfresh] at hy
    · rw [hkeep', hkeep, keys_cons]
      simp
    · refine ⟨htarget'.id.trans hid, by simp, fun _ => ?_⟩
      rw [← hid]
      refine htarget'.fresh (Or.inr ?_)
      have hmem := hready.isChain.mem_self
      rw [hpath, ← hp, ← hput.edit.same_of_mem_chain hready.isChain hmem]
      exact hchildren.chainSame _ (List.mem_cons_of_mem _ hmem)

end Loop

/-! ## The nodes that are deleted -/

section Delete

variable {root : ℕ} {kept : List ℕ} {saved : List (PathTree (ℕ × D))}

/-- What is below the root and not to be kept is gone, and the rest is as it was. -/
structure Pruned (rows rows' : TreeRows D) (root : ℕ) (kept : List ℕ) : Prop where
  same : ∀ i, ¬ Below rows.paths root i ∨ i ∈ kept → rows'.get i = rows.get i
  gone : ∀ i, Below rows.paths root i → i ∉ kept → rows'.get i = none

/-- Nothing that is to be kept is deleted along with a node above it. -/
theorem delete_pruned (hops : ops.Documented) (hwf : rows.paths.WellFormed) {ids : List ℕ}
    (hids : ∀ d, d ∈ ids ↔ Below rows.paths root d ∧ d ∉ keys saved)
    (hroot : rows.paths root ≠ none) (hbuilt : Built rows.paths root none saved) :
    Pruned rows (ops.delete rows ids) root (keys saved) where
  same := by
    intro i hi
    rcases (hops.get_delete : (ops.delete rows ids).get i = none ∨ _) with hnone | hsame
    · by_contra hne
      have hstored : rows.get i ≠ none := fun h => hne (hnone.trans h.symm)
      obtain ⟨d, hd, hdi⟩ := (hops.get_delete_eq_none hstored).mp hnone
      obtain ⟨hbelow, hnot⟩ := (hids d).mp hd
      rcases hi with hout | hkept
      · rcases hdi with rfl | hdi
        · exact hout hbelow
        · exact hout (hbelow.trans hdi)
      · rcases hdi with rfl | ⟨y, x, hy, hx, hstart, -⟩
        · exact hnot hkept
        · obtain ⟨p, hp⟩ := Option.ne_none_iff_exists'.mp hroot
          rcases hbuilt.prefix_or_mem hwf hp hkept hx hy hstart with hyp | hmem
          · obtain ⟨p', y', hp', hy', hpy, hne'⟩ := hbelow
            obtain rfl := Option.some.inj (hp.symm.trans hp')
            obtain rfl := Option.some.inj (hy.symm.trans hy')
            exact hne' (hpy.eq_of_length_le hyp.length_le)
          · exact hnot hmem
    · exact hsame
  gone := by
    intro i hbelow hnot
    have hstored : rows.get i ≠ none := fun h => Below.stored hbelow (paths_eq_none.mpr h)
    exact (hops.get_delete_eq_none hstored).mpr ⟨i, (hids i).mpr ⟨hbelow, hnot⟩, Or.inl rfl⟩

namespace Pruned

theorem paths_same (h : Pruned rows rows' root kept) {i : ℕ}
    (hi : ¬ Below rows.paths root i ∨ i ∈ kept) : rows'.paths i = rows.paths i := by
  rw [TreeRows.paths, TreeRows.paths, h.same i hi]

/-- What is stored after the deletion was not deleted. -/
theorem not_below_or_mem (h : Pruned rows rows' root kept) {i : ℕ} (hi : rows'.paths i ≠ none) :
    ¬ Below rows.paths root i ∨ i ∈ kept := by
  by_contra hnot
  push Not at hnot
  exact hi (paths_eq_none.mpr (h.gone i hnot.1 hnot.2))

theorem root_same (h : Pruned rows rows' root kept) : rows'.paths root = rows.paths root :=
  h.paths_same (Or.inl fun hbelow => hbelow.ne rfl)

/-- What is below the root after the deletion was below it before, and is to be kept. -/
theorem below_mem (h : Pruned rows rows' root kept) {i : ℕ} (hi : Below rows'.paths root i) :
    Below rows.paths root i ∧ i ∈ kept := by
  have hi' := h.not_below_or_mem (Below.stored hi)
  have hbelow : Below rows.paths root i := hi.congr h.root_same.symm (h.paths_same hi').symm
  exact ⟨hbelow, hi'.resolve_left (not_not_intro hbelow)⟩

theorem wellFormed (h : Pruned rows rows' root (keys saved)) (hwf : rows.paths.WellFormed)
    (hbuilt : Built rows.paths root none saved) : rows'.paths.WellFormed := by
  have hof : ∀ {i p}, rows'.paths i = some p → rows.paths i = some p := by
    intro i p hi
    have hi' : ¬ Below rows.paths root i ∨ i ∈ keys saved := h.not_below_or_mem (by simp [hi])
    rwa [← h.paths_same hi']
  refine ⟨fun hi hj => hwf.inj (hof hi) (hof hj), ?_, fun hi => hwf.ne_nil (hof hi),
    fun hi => hwf.pos (hof hi)⟩
  intro i p s hi hp
  obtain ⟨q, hq⟩ := hwf.parent (hof hi) hp
  have hchild : ChildAt rows.paths q i s := ⟨p, hq, hof hi⟩
  refine ⟨q, (h.paths_same ?_).trans hq⟩
  by_contra hnot
  push Not at hnot
  -- the parent is below the root, so the node is one of the forest, and then its parent is too
  have hbelow : Below rows.paths root i := hchild.below (Or.inr hnot.1)
  have hmem : i ∈ keys saved :=
    (h.not_below_or_mem (by simp [hi])).resolve_left (not_not_intro hbelow)
  rcases parent_of_mem_edges (hbuilt.mem_edges hwf hmem hchild) with rfl | hq
  · exact hnot.1.ne rfl
  · exact hnot.2 hq

end Pruned

end Delete

/-! ## The save -/

section Save

variable {root : TreeNode D} {forest : List (PathTree (SubmittedNode D))} {rows₁ rows₂ : TreeRows D}
  {saved : List (PathTree (ℕ × D))}

/-- The loop over the forest can start. -/
theorem IsRequirementTree.ready (h : IsRequirementTree rows root) (hdistinct : (givenIds forest).Nodup)
    (hexisting : ∀ i ∈ givenIds forest, ∃ r, rows.get i = some r ∧ r.program = root.program)
    (hroot : root.id ∉ givenIds forest) : Ready rows root.id root.id [root.id] forest where
  wellFormed := h.wellFormed
  stored := by simp [TreeRows.paths, h.loaded]
  isChain := .root
  nodup := hdistinct
  given := by
    intro i hi
    obtain ⟨r, hr, hprogram⟩ := hexisting i hi
    have hne : i ≠ root.id := fun heq => hroot (heq ▸ hi)
    refine ⟨?_, ((h.program hr).mp hprogram).resolve_left hne, by simpa using hne⟩
    rintro rfl
    simp [h.pos] at hr

/-- After the loop and the deletion, the tree that is stored is the one that was submitted. -/
theorem savedExactly_of (htree : IsRequirementTree rows root) (hroot : root.id ∉ givenIds forest)
    (hupdated : Updated rows rows₁ root.program root.id root.id [root.id] none forest saved)
    (hpruned : Pruned rows₁ rows₂ root.id (keys saved)) : SavedExactly rows rows₂ root forest := by
  have hnotself : ¬ Below rows.paths root.id root.id := fun h => h.ne rfl
  have hsame : rows₁.paths root.id = rows.paths root.id :=
    hupdated.chainSame root.id (List.mem_singleton_self _)
  have hbuilt : Built rows₂.paths root.id none saved := hupdated.built.congr hpruned.root_same
    (fun i hi => hpruned.paths_same (Or.inr hi)) (by simp)
  have hnodup : (root.id :: keys saved).Nodup := by
    refine List.nodup_cons.mpr ⟨fun hmem => ?_, hupdated.nodup⟩
    rcases hupdated.ids _ hmem with hgiven | hfresh
    · exact hroot hgiven
    · simp [htree.loaded] at hfresh
  have hrow : ∀ {i r}, rows₂.get i = some r → rows₁.get i = some r := by
    intro i r hr
    rw [← hr]
    exact (hpruned.same i (hpruned.not_below_or_mem (by simp [TreeRows.paths, hr]))).symm
  -- a node that is left was there before, outside the tree, or is one of the forest
  have hleft : ∀ {i r}, rows₂.get i = some r →
      i ∈ keys saved ∨ rows.get i = some r ∧ ¬ Below rows.paths root.id i := by
    intro i r hr
    by_cases hmem : i ∈ keys saved
    · exact Or.inl hmem
    right
    have hstored := (hupdated.created i r (hrow hr)).resolve_right hmem
    obtain ⟨r', hr'⟩ := Option.ne_none_iff_exists'.mp hstored
    have hout : ¬ Below rows.paths root.id i := by
      intro hbelow
      have := hpruned.gone i (hupdated.below i hbelow) hmem
      simp [this] at hr
    have hr₁ := hupdated.outside i r' hr' hout
    rw [hrow hr] at hr₁
    exact ⟨hr₁ ▸ hr', hout⟩
  have hcolumns : ∀ a ∈ nodes saved, rows₂.columns a.1 = some (root.program, a.2) := by
    intro a ha
    rw [TreeRows.columns, hpruned.same a.1 (Or.inr (List.mem_map.mpr ⟨a, ha, rfl⟩))]
    exact hupdated.data a ha
  refine ⟨⟨saved, hupdated.savedAs, ?_, hcolumns, ?_⟩, ?_⟩
  · exact hbuilt.dumps (hpruned.wellFormed hupdated.wellFormed hupdated.built) hnodup
      fun i hi => (hpruned.below_mem hi).2
  · intro i r hr hprogram
    rcases hleft hr with hmem | ⟨hr', hout⟩
    · exact Or.inr hmem
    · exact Or.inl (((htree.program hr').mp hprogram).resolve_right hout)
  · intro i r hprogram
    constructor
    · intro hr
      rcases hleft hr with hmem | ⟨hr', -⟩
      · obtain ⟨a, ha, rfl⟩ := List.mem_map.mp hmem
        have hdata := hcolumns a ha
        rw [TreeRows.columns, hr, Option.map_some] at hdata
        exact absurd (Prod.mk.inj (Option.some.inj hdata)).1 hprogram
      · exact hr'
    · intro hr
      have hout : ¬ Below rows.paths root.id i := fun hbelow =>
        hprogram ((htree.program hr).mpr (Or.inr hbelow))
      have hr₁ := hupdated.outside i r hr hout
      have hout₁ : ¬ Below rows₁.paths root.id i := fun hbelow => hout <| hbelow.congr hsame.symm
        (by rw [TreeRows.paths, TreeRows.paths, hr, hr₁])
      rw [hpruned.same i (Or.inl hout₁), hr₁]

/-- The submitted tree is stored exactly, if in each submitted list the existing nodes without submitted
children, the last item aside, are stored under the parent of the list in this order, and the root itself is
not submitted. -/
theorem updateRequirementTree_savesExactly (ops : MpNode D) (hops : ops.Documented) (rows : TreeRows D)
    (root : TreeNode D) (forest : List (PathTree (SubmittedNode D)))
    (htree : IsRequirementTree rows root) (hdistinct : (givenIds forest).Nodup)
    (hexisting : ∀ i ∈ givenIds forest, ∃ r, rows.get i = some r ∧ r.program = root.program)
    (hroot : root.id ∉ givenIds forest) (hplace : InPlace rows.paths (some root.id) 0 forest) :
    SavesExactly ops rows root forest := by
  have hpath : rows.paths root.id = some root.path := by rw [TreeRows.paths, htree.loaded]; rfl
  unfold SavesExactly updateRequirementTree
  rcases updateNodes_spec (s := ⟨rows, root, none, []⟩) (m := 0) hops
    (htree.ready hdistinct hexisting hroot) (fun _ => rfl) (by simp) hplace with
    herror | ⟨s, saved, hok, hupdated, hkeep, htarget⟩
  · rw [herror]
    rfl
  have hparent : s.rows.paths s.parent.id = some s.parent.path := by
    rw [htarget.id]
    exact htarget.fresh (Or.inr hpath)
  rw [List.nil_append] at hkeep
  have hids : ∀ d, d ∈ (ops.getDescendants s.rows s.parent).filter (fun id => id ∉ s.keepNodeIds) ↔
      Below s.rows.paths root.id d ∧ d ∉ keys saved := by
    intro d
    rw [List.mem_filter, hops.mem_getDescendants hparent, hkeep, htarget.id, decide_eq_true_iff]
  have hpruned := delete_pruned hops hupdated.wellFormed hids
    (by rw [← htarget.id, hparent]; simp) hupdated.built
  obtain ⟨root', hrefresh, -⟩ := refreshFromDb_of_stored
    ((htarget.id ▸ hpruned.root_same).trans hparent)
  rw [hok]
  simp only [bind, Except.bind, hrefresh]
  exact savedExactly_of htree hroot hupdated hpruned

/-- The tree of a program with three courses, and the root of another program. -/
def threeCourses : TreeRows CourseId where
  keys := [1, 2, 3, 4, 5]
  row i := if i = 1 then ⟨[1], 7, 0⟩ else if i = 5 then ⟨[2], 8, 0⟩ else ⟨[1, i - 1], 7, i⟩
  sorted := by decide

def threeCoursesRoot : TreeNode CourseId := ⟨⟨[1], 7, 0⟩, 1⟩

def courseLeaf (id : Option ℕ) (course : CourseId) : PathTree (SubmittedNode CourseId) :=
  .node ⟨id, course⟩ []

theorem threeCourses_isRequirementTree : IsRequirementTree threeCourses threeCoursesRoot where
  wellFormed := TreeOperations.wellFormed_of (by decide) (by decide)
  loaded := rfl
  program := by
    intro i r hr
    obtain ⟨hmem, rfl⟩ := get_eq_some.mp hr
    rw [TreeOperations.below_iff]
    clear hr
    revert i
    decide
  pos := rfl

theorem threeCourses_existing {ids : List ℕ}
    (h : ∀ i ∈ ids, i ∈ threeCourses.keys ∧ (threeCourses.row i).program = threeCoursesRoot.program) :
    ∀ i ∈ ids, ∃ r, threeCourses.get i = some r ∧ r.program = threeCoursesRoot.program :=
  fun i hi => ⟨_, get_eq_some.mpr ⟨(h i hi).1, rfl⟩, (h i hi).2⟩

/-- A new course, a course in its place, and an operator that takes up the course before it. -/
def regrouped : List (PathTree (SubmittedNode CourseId)) :=
  [courseLeaf none 10, courseLeaf (some 2) 2, .node ⟨some 4, 0⟩ [courseLeaf (some 3) 3]]

theorem regrouped_savesExactly : SavesExactly treeOperations threeCourses threeCoursesRoot regrouped :=
  updateRequirementTree_savesExactly treeOperations treeOperations_documented threeCourses
    threeCoursesRoot regrouped threeCourses_isRequirementTree (by decide)
    (threeCourses_existing (by decide)) (by decide)
    (.other (Or.inl rfl) .nil (.leaf rfl ⟨[1], rfl, rfl⟩ (by decide) (.last (.last .nil))))

/-- The first two courses in the other order. -/
def swapped : List (PathTree (SubmittedNode CourseId)) :=
  [courseLeaf (some 3) 3, courseLeaf (some 2) 2, courseLeaf (some 4) 4]

/-- What the save of them leaves: the third course comes before the first. -/
theorem swapped_result : ∃ rows root,
    updateRequirementTree treeOperations threeCourses threeCoursesRoot swapped = .ok (rows, root) ∧
      ChildAt rows.paths 1 2 4 ∧ ChildAt rows.paths 1 4 3 := by
  refine ⟨_, _, rfl, ⟨[1], ?_, ?_⟩, ⟨[1], ?_, ?_⟩⟩ <;> decide

/-- The third course goes next to where the first one was before it was moved. -/
theorem not_savesEveryForest : ¬ SavesEveryForest CourseId := by
  intro h
  have hsave := h treeOperations treeOperations_documented threeCourses threeCoursesRoot swapped
    threeCourses_isRequirementTree (by decide) (threeCourses_existing (by decide))
  obtain ⟨rows, root, hok, hfirst, hthird⟩ := swapped_result
  rw [SavesExactly, hok] at hsave
  obtain ⟨saved, hsaved, hdumps, -⟩ := hsave.dump
  cases hsaved with
  | cons _ _ _ hsaved =>
  cases hsaved with
  | cons hid₂ _ _ hsaved =>
  cases hsaved with
  | cons hid₃ _ _ _ =>
  cases hdumps with
  | cons _ _ _ _ hdumps =>
  cases hdumps with
  | cons hchild₂ _ _ _ hdumps =>
  cases hdumps with
  | cons hchild₃ hafter =>
  rw [hid₂ 2 rfl] at hchild₂
  rw [hid₃ 4 rfl] at hchild₃
  rw [hchild₂.step_unique hfirst, hchild₃.step_unique hthird] at hafter
  omega

end Save

end MitxOnline

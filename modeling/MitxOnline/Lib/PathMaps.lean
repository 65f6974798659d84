import Mathlib.Data.List.Infix
import MitxOnline.Lib.Paths

/-!
# Editing trees stored with materialised paths

A path map says which path each stored node has. A node is put at a place among the children of another
by rewriting paths: its own branch gets the new path, and the children after the place may be numbered
anew. What was said of the other nodes (whose children they are, and in which order) stays true.
-/

namespace Paths

/-- Which path each node is stored under. -/
abbrev PathMap (ι : Type) := ι → Option (List ℕ)

namespace PathMap

variable {ι : Type}

/-- `i` is the child of `q` that is `s` steps along. -/
def ChildAt (f : PathMap ι) (q i : ι) (s : ℕ) : Prop :=
  ∃ p, f q = some p ∧ f i = some (p ++ [s])

/-- `i` is a proper descendant of `r`. -/
def Below (f : PathMap ι) (r i : ι) : Prop :=
  ∃ p x, f r = some p ∧ f i = some x ∧ p <+: x ∧ p ≠ x

/-- No two nodes share a path, the parent of a node is stored, and steps count from one. -/
structure WellFormed (f : PathMap ι) : Prop where
  inj : ∀ {i j p}, f i = some p → f j = some p → i = j
  parent : ∀ {i p s}, f i = some (p ++ [s]) → p ≠ [] → ∃ q, f q = some p
  ne_nil : ∀ {i p}, f i = some p → p ≠ []
  pos : ∀ {i p s}, f i = some p → s ∈ p → 0 < s

/-- The nodes on the way from `r` to a node, the node itself first. -/
inductive Chain (f : PathMap ι) (r : ι) : ι → List ι → Prop where
  | root : Chain f r r [r]
  | child {q i : ι} {s : ℕ} {chain : List ι} (h : Chain f r q chain) (hchild : ChildAt f q i s) :
      Chain f r i (i :: chain)

/-- `n` is neither `q` nor on the way to `q`. -/
def OffPath (f : PathMap ι) (n q : ι) : Prop :=
  ∀ {b p}, f n = some b → f q = some p → ¬ b <+: p

/-! ## Putting a node at a place -/

/-- Number the children of the node at `p` anew, with their branches. -/
def renumber (p : List ℕ) (shift : ℕ → ℕ) (path : List ℕ) : List ℕ :=
  if p <+: path then
    match path.drop p.length with
    | [] => path
    | s :: rest => p ++ shift s :: rest
  else path

/-- The paths after the branch of a node, if it has one, has become child `k` of the node at `p`. -/
def relocate (branch : Option (List ℕ)) (p : List ℕ) (k : ℕ) (shift : ℕ → ℕ) (path : List ℕ) :
    List ℕ :=
  match branch with
  | none => renumber p shift path
  | some b => if b <+: path then p ++ k :: path.drop b.length else renumber p shift path

/-- Step `k` is free for `n` among the children of `q`, once these are renumbered: the ones up to step `m`
come before it and keep their steps, the ones after step `m` come after it and do not move left. -/
structure Slot (f : PathMap ι) (q n : ι) (m k : ℕ) (shift : ℕ → ℕ) : Prop where
  pos : 0 < k
  left : ∀ {i s}, i ≠ n → ChildAt f q i s → s ≤ m → shift s = s ∧ s < k
  right : ∀ {i s}, i ≠ n → ChildAt f q i s → m < s → s ≤ shift s ∧ k < shift s
  mono : ∀ {i j s t}, i ≠ n → j ≠ n → ChildAt f q i s → ChildAt f q j t → s < t → shift s < shift t
  down : ∀ {s}, ChildAt f q n s → m < s → k ≤ s

/-- `f'` is `f` after `n`, new or with its branch, was put among the children of `q`, after the ones up to
step `m` and before the others. -/
def Placed [DecidableEq ι] (f f' : PathMap ι) (q n : ι) (m : ℕ) : Prop :=
  ∃ p k shift, f q = some p ∧ Slot f q n m k shift ∧
    ∀ i, f' i = if i = n then some (p ++ [k]) else (f i).map (relocate (f n) p k shift)

/-- What an edit makes of the map, with its place fixed: `n` at step `k` below `p`, the path of `q`. -/
structure Edit [DecidableEq ι] (f f' : PathMap ι) (q n : ι) (m : ℕ) (p : List ℕ) (k : ℕ)
    (shift : ℕ → ℕ) : Prop where
  parent : f q = some p
  slot : Slot f q n m k shift
  eq : ∀ i, f' i = if i = n then some (p ++ [k]) else (f i).map (relocate (f n) p k shift)
  off : OffPath f n q

/-- What edits keep of the nodes that they do not move: each is still the child of the same node, at a step
that is no smaller (the same one unless children were put under that node), and in the same order. -/
structure Kept (moved parents : List ι) (f f' : PathMap ι) : Prop where
  child : ∀ {q i s}, i ∉ moved → ChildAt f q i s →
    ∃ s', ChildAt f' q i s' ∧ s ≤ s' ∧ (q ∉ parents → s' = s)
  order : ∀ {q i j s t s' t'}, i ∉ moved → j ∉ moved → ChildAt f q i s → ChildAt f q j t → s < t →
    ChildAt f' q i s' → ChildAt f' q j t' → s' < t'

/-! ## Forests that are stored -/

variable {α : Type}

mutual

/-- The nodes of a tree, the root first. -/
def nodesOf : PathTree α → List α
  | .node a children => a :: nodes children

/-- The nodes of a forest, each before its children. -/
def nodes : List (PathTree α) → List α
  | [] => []
  | t :: rest => nodesOf t ++ nodes rest

end

/-- The keys of the nodes of a forest. -/
def keys (forest : List (PathTree (ι × α))) : List ι := (nodes forest).map Prod.fst

mutual

/-- Each node of a tree with its parent, for a tree under `q`. -/
def edgesOf (q : ι) : PathTree (ι × α) → List (ι × ι)
  | .node a children => (q, a.1) :: edges a.1 children

/-- Each node of a forest with its parent, for a forest under `q`. -/
def edges (q : ι) : List (PathTree (ι × α)) → List (ι × ι)
  | [] => []
  | t :: rest => edgesOf q t ++ edges q rest

end

/-- The trees of a forest are stored under `q` in their order, the first one after `before`; there may be
other nodes between them. -/
inductive Built (f : PathMap ι) : ι → Option ι → List (PathTree (ι × α)) → Prop where
  | nil {q : ι} {before : Option ι} : Built f q before []
  | cons {q : ι} {before : Option ι} {a : ι × α} {s : ℕ} {children rest : List (PathTree (ι × α))}
      (hchild : ChildAt f q a.1 s) (hbefore : ∀ b ∈ before, ∃ t < s, ChildAt f q b t)
      (hchildren : Built f a.1 none children) (hrest : Built f q (some a.1) rest) :
      Built f q before (.node a children :: rest)

/-- The forest is what is stored under `q` after step `b`: its trees are all the children of `q` from there
on, in the order of their steps, each with all its descendants. -/
inductive Dumps (f : PathMap ι) : ι → ℕ → List (PathTree (ι × α)) → Prop where
  | nil {q : ι} {b : ℕ} (hnone : ∀ i s, ChildAt f q i s → s ≤ b) : Dumps f q b []
  | cons {q : ι} {b s : ℕ} {a : ι × α} {children rest : List (PathTree (ι × α))}
      (hchild : ChildAt f q a.1 s) (hafter : b < s)
      (hnext : ∀ i t, ChildAt f q i t → b < t → s ≤ t)
      (hchildren : Dumps f a.1 0 children) (hrest : Dumps f q s rest) :
      Dumps f q b (.node a children :: rest)

/-! ## Growing and cutting trees stored with materialised paths

A node is added after the last child of another, or nodes are deleted with their branches. Neither rewrites
the path of any other node. -/

/-- `f'` is `f` with a new node `n` after the children of `q`. -/
structure Grown (f f' : PathMap ι) (q n : ι) : Prop where
  fresh : f n = none
  child : ∃ s, 0 < s ∧ ChildAt f' q n s ∧ ∀ i t, ChildAt f q i t → t < s
  same : ∀ i, i ≠ n → f' i = f i

/-- `i` is one of the nodes `top` or below one of them. -/
def InBranch (f : PathMap ι) (top : ι → Prop) (i : ι) : Prop := ∃ d, top d ∧ (d = i ∨ Below f d i)

/-- `f'` is `f` without the branches of the nodes `top`. -/
structure Cut (f f' : PathMap ι) (top : ι → Prop) : Prop where
  gone : ∀ i, InBranch f top i → f' i = none
  same : ∀ i, ¬InBranch f top i → f' i = f i

/-!
## Edits of path maps

Putting a node at a place keeps the map well formed, and moves nothing else: that is read off the paths
once, for every branch and every place. What is kept composes over a run of edits, so a forest that is
stored stays stored while other nodes are moved.
-/

variable {f f' f'' : PathMap ι} {q q' i j n r : ι} {s t m b : ℕ}

/-! ## Children -/

theorem ChildAt.step_unique (h : ChildAt f q i s) (h' : ChildAt f q i t) : s = t := by
  obtain ⟨p, hq, hi⟩ := h
  obtain ⟨p', hq', hi'⟩ := h'
  obtain rfl : p = p' := by simpa [hq] using hq'
  simpa [hi] using hi'

theorem ChildAt.parent_unique (hwf : f.WellFormed) (h : ChildAt f q i s) (h' : ChildAt f q' i t) :
    q = q' := by
  obtain ⟨p, hq, hi⟩ := h
  obtain ⟨p', hq', hi'⟩ := h'
  rw [hi] at hi'
  have hpath := List.append_inj_left' (Option.some.inj hi') rfl
  exact hwf.inj hq (hpath ▸ hq')

theorem ChildAt.pos (hwf : f.WellFormed) (h : ChildAt f q i s) : 0 < s := by
  obtain ⟨p, -, hi⟩ := h
  exact hwf.pos hi (by simp)

theorem ChildAt.ne (h : ChildAt f q i s) : q ≠ i := by
  rintro rfl
  obtain ⟨p, hq, hi⟩ := h
  have := congrArg List.length (Option.some.inj (hq.symm.trans hi))
  simp at this

/-- What is stored below a node hangs from a child of it. -/
theorem exists_childAt_of_prefix (hwf : f.WellFormed) {p rest : List ℕ} (hq : f q = some p)
    (hi : f i = some (p ++ s :: rest)) : ∃ c, ChildAt f q c s := by
  induction rest using List.reverseRecOn generalizing i with
  | nil => exact ⟨i, p, hq, hi⟩
  | append_singleton rest u ih =>
    have hi' : f i = some ((p ++ s :: rest) ++ [u]) := by simpa using hi
    obtain ⟨j, hj⟩ := hwf.parent hi' (by simp)
    exact ih hj

theorem Below.ne (h : Below f r i) : i ≠ r := by
  rintro rfl
  obtain ⟨p, x, hp, hx, -, hne⟩ := h
  exact hne (Option.some.inj (hp.symm.trans hx))

/-- Being below a node is read off two paths. -/
theorem Below.congr (h : Below f r i) (hr : f' r = f r) (hi : f' i = f i) : Below f' r i := by
  obtain ⟨p, x, hp, hx, hstart, hne⟩ := h
  exact ⟨p, x, hr.trans hp, hi.trans hx, hstart, hne⟩

theorem Below.trans (h : Below f r j) (h' : Below f j i) : Below f r i := by
  obtain ⟨p, x, hp, hx, hstart, hne⟩ := h
  obtain ⟨x', y, hx', hy, hstart', -⟩ := h'
  obtain rfl := Option.some.inj (hx.symm.trans hx')
  refine ⟨p, y, hp, hy, hstart.trans hstart', ?_⟩
  rintro rfl
  exact hne (hstart.eq_of_length_le hstart'.length_le)

/-- A child of the root or of what is below it is below it. -/
theorem ChildAt.below (h : ChildAt f q i s) (hq : q = r ∨ Below f r q) : Below f r i := by
  obtain ⟨p, hp, hi⟩ := h
  rcases hq with rfl | ⟨y, x, hr, hx, hstart, -⟩
  · exact ⟨p, _, hp, hi, List.prefix_append .., by simp⟩
  · obtain rfl : p = x := Option.some.inj (hp.symm.trans hx)
    refine ⟨y, _, hr, hi, hstart.trans (List.prefix_append ..), fun heq => ?_⟩
    have := hstart.length_le
    rw [heq, List.length_append, List.length_singleton] at this
    omega

/-! ## Chains -/

theorem Chain.mem_self {chain : List ι} (h : Chain f r q chain) : q ∈ chain := by
  cases h <;> simp

theorem Chain.root_mem {chain : List ι} (h : Chain f r q chain) : r ∈ chain := by
  induction h with
  | root => exact List.mem_singleton_self r
  | child _ _ ih => exact List.mem_cons_of_mem _ ih

/-- The nodes of a chain are stored on the way to its end. -/
theorem Chain.exists_prefix {chain : List ι} {p : List ℕ} (h : Chain f r q chain) (hj : j ∈ chain)
    (hq : f q = some p) : ∃ x, f j = some x ∧ x <+: p := by
  induction h generalizing p with
  | root =>
    obtain rfl := List.mem_singleton.mp hj
    exact ⟨p, hq, List.prefix_refl p⟩
  | child hchain hchild ih =>
    rcases List.mem_cons.mp hj with rfl | hj
    · exact ⟨p, hq, List.prefix_refl p⟩
    · obtain ⟨y, hy, hi⟩ := hchild
      obtain rfl : p = y ++ [_] := Option.some.inj (hq.symm.trans hi)
      obtain ⟨x, hx, hstart⟩ := ih hj hy
      exact ⟨x, hx, hstart.trans (List.prefix_append ..)⟩

/-- A node below the root that is on the way to a node is in its chain. -/
theorem Chain.mem_of_prefix {chain : List ι} {p x : List ℕ} (hwf : f.WellFormed)
    (h : Chain f r q chain) (hj : Below f r j) (hq : f q = some p) (hx : f j = some x)
    (hstart : x <+: p) : j ∈ chain := by
  induction h generalizing p with
  | root =>
    obtain ⟨y, z, hr, hz, hyz, hne⟩ := hj
    obtain rfl : z = x := Option.some.inj (hz.symm.trans hx)
    obtain rfl : y = p := Option.some.inj (hr.symm.trans hq)
    exact absurd (hyz.eq_of_length_le hstart.length_le) hne
  | child hchain hchild ih =>
    obtain ⟨y, hy, hi⟩ := hchild
    obtain rfl : p = y ++ [_] := Option.some.inj (hq.symm.trans hi)
    rcases List.prefix_concat_iff.mp hstart with rfl | hstart
    · exact List.mem_cons.mpr (Or.inl (hwf.inj hx hi))
    · exact List.mem_cons_of_mem _ (ih hy hstart)

/-- A chain whose nodes keep their paths stays one. -/
theorem Chain.congr {chain : List ι} (h : Chain f r q chain) (hsame : ∀ j ∈ chain, f' j = f j) :
    Chain f' r q chain := by
  induction h with
  | root => exact .root
  | child hchain hchild ih =>
    obtain ⟨p, hq, hi⟩ := hchild
    exact .child (ih fun j hj => hsame j (List.mem_cons_of_mem _ hj))
      ⟨p, (hsame _ (List.mem_cons_of_mem _ hchain.mem_self)).trans hq,
        (hsame _ (List.mem_cons_self ..)).trans hi⟩

/-- The end of a chain is the root or below it. -/
theorem Chain.root_or_below {chain : List ι} (h : Chain f r q chain) : q = r ∨ Below f r q := by
  induction h with
  | root => exact Or.inl rfl
  | child _ hchild ih => exact Or.inr (hchild.below ih)

/-! ## The paths after an edit -/

section Relocate

variable {p x y rest : List ℕ} {shift : ℕ → ℕ} {k : ℕ} {branch : Option (List ℕ)}

@[simp] theorem renumber_self : renumber p shift p = p := by
  simp [renumber]

@[simp] theorem renumber_below : renumber p shift (p ++ s :: rest) = p ++ shift s :: rest := by
  simp [renumber]

theorem renumber_of_not_prefix (h : ¬ p <+: x) : renumber p shift x = x := by
  simp [renumber, h]

/-- A path goes on from `p`, or is not renumbered. -/
theorem below_or_renumber_eq (p x : List ℕ) :
    (∃ s rest, x = p ++ s :: rest) ∨
      (∀ s rest, x ≠ p ++ s :: rest) ∧ ∀ shift, renumber p shift x = x := by
  by_cases h : p <+: x
  · obtain ⟨rest, rfl⟩ := h
    cases rest with
    | nil => exact Or.inr ⟨by simp, by simp⟩
    | cons s rest => exact Or.inl ⟨s, rest, rfl⟩
  · refine Or.inr ⟨?_, fun shift => renumber_of_not_prefix h⟩
    rintro s rest rfl
    exact h (List.prefix_append ..)

/-- Below any node but `p` itself, children go along with their parents. -/
theorem renumber_append (hne : y ≠ p) : renumber p shift (y ++ [s]) = renumber p shift y ++ [s] := by
  rcases below_or_renumber_eq p y with ⟨t, rest, rfl⟩ | ⟨hnot, heq⟩
  · simp [List.append_assoc]
  · rw [heq]
    rcases below_or_renumber_eq p (y ++ [s]) with ⟨t, rest, hrest⟩ | ⟨-, heq'⟩
    · rcases List.eq_nil_or_concat rest with rfl | ⟨rest, u, rfl⟩
      · exact absurd (List.append_inj_left' hrest rfl) hne
      · have hy : y = p ++ t :: rest := by
          have hrest' : y ++ [s] = (p ++ t :: rest) ++ [u] := by simpa using hrest
          exact List.append_inj_left' hrest' rfl
        exact absurd hy (hnot t rest)
    · exact heq' shift

@[simp] theorem relocate_branch {b : List ℕ} :
    relocate (some b) p k shift (b ++ rest) = p ++ k :: rest := by
  simp [relocate]

theorem relocate_of_not_branch (h : ∀ b ∈ branch, ¬ b <+: x) :
    relocate branch p k shift x = renumber p shift x := by
  cases branch with
  | none => rfl
  | some b => simp [relocate, h b rfl]

theorem relocate_append (hne : y ≠ p) (htop : ∀ b ∈ branch, b ≠ y ++ [s]) :
    relocate branch p k shift (y ++ [s]) = relocate branch p k shift y ++ [s] := by
  by_cases h : ∃ b ∈ branch, b <+: y
  · obtain ⟨b, hb, rest, rfl⟩ := h
    obtain rfl := Option.mem_def.mp hb
    rw [List.append_assoc, relocate_branch, relocate_branch]
    simp
  · push Not at h
    rw [relocate_of_not_branch h, relocate_of_not_branch, renumber_append hne]
    intro b hb hstart
    rcases List.prefix_concat_iff.mp hstart with heq | hstart
    · exact htop b hb heq
    · exact h b hb hstart

end Relocate

/-! ## Putting a node at a place -/

section Placed

variable [DecidableEq ι]

variable {p x : List ℕ} {shift : ℕ → ℕ} {k : ℕ}

theorem Placed.exists_edit (h : Placed f f' q n m) (hoff : OffPath f n q) :
    ∃ p k shift, Edit f f' q n m p k shift := by
  obtain ⟨p, k, shift, hq, hslot, heq⟩ := h
  exact ⟨p, k, shift, hq, hslot, heq, hoff⟩

namespace Edit

theorem self (h : Edit f f' q n m p k shift) : f' n = some (p ++ [k]) := by
  rw [h.eq, if_pos rfl]

/-- Also the node that is moved is where its branch goes. -/
theorem of_some (h : Edit f f' q n m p k shift) (hi : f i = some x) :
    f' i = some (relocate (f n) p k shift x) := by
  rw [h.eq, hi]
  split
  · next heq =>
    subst heq
    have hself : relocate (some x) p k shift (x ++ []) = p ++ [k] := relocate_branch
    rw [List.append_nil] at hself
    rw [hi, hself]
  · rfl

theorem same (h : Edit f f' q n m p k shift) (hi : f i = some x) (hbelow : ∀ s rest, x ≠ p ++ s :: rest)
    (hbranch : ∀ b ∈ f n, ¬ b <+: x) : f' i = some x := by
  rw [h.of_some hi, relocate_of_not_branch hbranch]
  rcases below_or_renumber_eq p x with ⟨s, rest, hx⟩ | ⟨-, heq⟩
  · exact absurd hx (hbelow s rest)
  · rw [heq]

theorem parent_same (h : Edit f f' q n m p k shift) : f' q = some p :=
  h.same h.parent (by simp) fun _ hb => h.off hb h.parent

theorem childAt_self (h : Edit f f' q n m p k shift) : ChildAt f' q n k := ⟨p, h.parent_same, h.self⟩

/-- A child of the node is renumbered. -/
theorem child (h : Edit f f' q n m p k shift) (hwf : f.WellFormed) (hi : i ≠ n)
    (hchild : ChildAt f q i s) : ChildAt f' q i (shift s) := by
  obtain ⟨p', hq, hpath⟩ := hchild
  obtain rfl : p = p' := Option.some.inj (h.parent.symm.trans hq)
  refine ⟨p, h.parent_same, ?_⟩
  rw [h.of_some hpath, relocate_of_not_branch, renumber_below]
  intro b hb hstart
  rcases List.prefix_concat_iff.mp hstart with rfl | hstart
  · exact hi (hwf.inj hpath hb)
  · exact h.off hb hq hstart

/-- A child of another node keeps its step. -/
theorem child_of_ne (h : Edit f f' q n m p k shift) (hwf : f.WellFormed) (hi : i ≠ n) (hne : q' ≠ q)
    (hchild : ChildAt f q' i s) : ChildAt f' q' i s := by
  obtain ⟨y, hq, hpath⟩ := hchild
  refine ⟨_, h.of_some hq, ?_⟩
  rw [h.of_some hpath, relocate_append]
  · rintro rfl
    exact hne (hwf.inj hq h.parent)
  · rintro b hb rfl
    exact hi (hwf.inj hpath hb)

/-- Where the paths after the edit come from: the branch of the node, a child of its new parent that was
renumbered, or a node that kept its path. -/
theorem cases (h : Edit f f' q n m p k shift) (hwf : f.WellFormed) (hi : f' i = some x) :
    (∃ rest, x = p ++ k :: rest ∧
      (rest = [] ∧ i = n ∨ ∃ b, f n = some b ∧ rest ≠ [] ∧ f i = some (b ++ rest))) ∨
    (∃ c s rest, c ≠ n ∧ ChildAt f q c s ∧ f i = some (p ++ s :: rest) ∧ x = p ++ shift s :: rest) ∨
    (f i = some x ∧ ∀ s rest, x ≠ p ++ s :: rest) := by
  by_cases hn : i = n
  · subst hn
    exact Or.inl ⟨[], Option.some.inj (hi.symm.trans h.self), Or.inl ⟨rfl, rfl⟩⟩
  · obtain ⟨y, hy⟩ : ∃ y, f i = some y := by
      rw [h.eq, if_neg hn] at hi
      obtain ⟨y, hy, -⟩ := Option.map_eq_some_iff.mp hi
      exact ⟨y, hy⟩
    rw [h.of_some hy] at hi
    by_cases hbranch : ∃ b ∈ f n, b <+: y
    · obtain ⟨b, hb, rest, rfl⟩ := hbranch
      rw [Option.mem_def.mp hb, relocate_branch] at hi
      refine Or.inl ⟨rest, (Option.some.inj hi).symm, Or.inr ⟨b, hb, ?_, hy⟩⟩
      rintro rfl
      rw [List.append_nil] at hy
      exact hn (hwf.inj hy hb)
    · push Not at hbranch
      rw [relocate_of_not_branch hbranch] at hi
      rcases below_or_renumber_eq p y with ⟨s, rest, rfl⟩ | ⟨hnot, heq⟩
      · rw [renumber_below] at hi
        obtain ⟨c, hc⟩ := exists_childAt_of_prefix hwf h.parent hy
        refine Or.inr (Or.inl ⟨c, s, rest, ?_, hc, hy, (Option.some.inj hi).symm⟩)
        rintro rfl
        obtain ⟨p', hp', hpath⟩ := hc
        obtain rfl : p = p' := Option.some.inj (h.parent.symm.trans hp')
        exact hbranch _ hpath ⟨rest, by simp⟩
      · rw [heq] at hi
        obtain rfl := Option.some.inj hi
        exact Or.inr (Or.inr ⟨hy, hnot⟩)

/-- A child that was renumbered is not at the place of the node. -/
theorem shift_ne (h : Edit f f' q n m p k shift) (hi : i ≠ n) (hchild : ChildAt f q i s) :
    shift s ≠ k := by
  rcases Nat.lt_or_ge m s with hlt | hle
  · have := (h.slot.right hi hchild hlt).2
    omega
  · have := h.slot.left hi hchild hle
    omega

theorem shift_inj (h : Edit f f' q n m p k shift) (hi : i ≠ n) (hj : j ≠ n) (hchild : ChildAt f q i s)
    (hchild' : ChildAt f q j t) (heq : shift s = shift t) : s = t := by
  rcases Nat.lt_trichotomy s t with hlt | rfl | hlt
  · have := h.slot.mono hi hj hchild hchild' hlt
    omega
  · rfl
  · have := h.slot.mono hj hi hchild' hchild hlt
    omega

theorem le_shift (h : Edit f f' q n m p k shift) (hi : i ≠ n) (hchild : ChildAt f q i s) :
    s ≤ shift s := by
  rcases Nat.lt_or_ge m s with hlt | hle
  · exact (h.slot.right hi hchild hlt).1
  · exact ((h.slot.left hi hchild hle).1).ge

/-- Two nodes do not get the same path. -/
theorem eq_of_path (h : Edit f f' q n m p k shift) (hwf : f.WellFormed) {x : List ℕ}
    (hxi : f' i = some x) (hxj : f' j = some x) : i = j := by
  rcases h.cases hwf hxi with ⟨rest, rfl, hi⟩ | ⟨c, s, rest, hc, hcs, hi, rfl⟩ | ⟨hi, hnot⟩
  · rcases h.cases hwf hxj with ⟨rest', hx, hj⟩ | ⟨c, s, rest', hc, hcs, -, hx⟩ | ⟨-, hnot⟩
    · obtain rfl : rest = rest' := by simpa using hx
      rcases hi with ⟨rfl, rfl⟩ | ⟨b, hb, hne, hi⟩
      · rcases hj with ⟨-, rfl⟩ | ⟨-, -, hne, -⟩
        · rfl
        · exact absurd rfl hne
      · rcases hj with ⟨rfl, -⟩ | ⟨b', hb', -, hj⟩
        · exact absurd rfl hne
        · obtain rfl := Option.some.inj (hb.symm.trans hb')
          exact hwf.inj hi hj
    · have hk : k = shift s ∧ rest = rest' := by simpa using hx
      exact absurd hk.1.symm (h.shift_ne hc hcs)
    · exact absurd rfl (hnot k rest)
  · rcases h.cases hwf hxj with ⟨rest', hx, -⟩ | ⟨c', s', rest', hc', hcs', hj, hx⟩ | ⟨-, hnot⟩
    · have hk : shift s = k ∧ rest = rest' := by simpa using hx
      exact absurd hk.1 (h.shift_ne hc hcs)
    · have hs : shift s = shift s' ∧ rest = rest' := by simpa using hx
      obtain rfl := h.shift_inj hc hc' hcs hcs' hs.1
      obtain rfl := hs.2
      exact hwf.inj hi hj
    · exact absurd rfl (hnot (shift s) rest)
  · rcases h.cases hwf hxj with ⟨rest', hx, -⟩ | ⟨-, s, rest', -, -, -, hx⟩ | ⟨hj, -⟩
    · exact absurd hx (hnot k rest')
    · exact absurd hx (hnot (shift s) rest')
    · exact hwf.inj hi hj

/-- Another root stays where it is. -/
theorem root_kept (h : Edit f f' q n m p k shift) (hwf : f.WellFormed) (hn : i ≠ n) {u : ℕ}
    (hi : f i = some [u]) : f' i = some [u] := by
  refine h.same hi ?_ ?_
  · intro s rest heq
    rcases List.append_eq_singleton_iff.mp heq.symm with ⟨hp, -⟩ | ⟨-, hrest⟩
    · exact hwf.ne_nil h.parent hp
    · simp at hrest
  · intro b hb hstart
    have hlength : [u].length ≤ b.length := List.length_pos_iff.mpr (hwf.ne_nil hb)
    exact hn (hwf.inj (hstart.eq_of_length_le hlength ▸ hi) hb)

/-- What is not a root has its parent in the map. -/
theorem exists_parent (h : Edit f f' q n m p k shift) (hwf : f.WellFormed) {a : List ℕ} {s : ℕ}
    (hi : f' i = some (a ++ [s])) (ha : a ≠ []) : ∃ q, f' q = some a := by
  by_cases hn : i = n
  · subst hn
    have hp := List.append_inj_left' (Option.some.inj (hi.symm.trans h.self)) rfl
    exact ⟨q, hp ▸ h.parent_same⟩
  · obtain ⟨y, hy⟩ : ∃ y, f i = some y := by
      rw [h.eq, if_neg hn] at hi
      obtain ⟨y, hy, -⟩ := Option.map_eq_some_iff.mp hi
      exact ⟨y, hy⟩
    rcases List.eq_nil_or_concat y with rfl | ⟨y, u, rfl⟩
    · exact absurd rfl (hwf.ne_nil hy)
    rw [List.concat_eq_append] at hy
    by_cases hroot : y = []
    · subst hroot
      have hpath := Option.some.inj (hi.symm.trans (h.root_kept hwf hn hy))
      rcases List.append_eq_singleton_iff.mp hpath with ⟨hnil, -⟩ | ⟨-, hs⟩
      · exact absurd hnil ha
      · simp at hs
    · obtain ⟨q', hq'⟩ := hwf.parent hy hroot
      obtain ⟨u', hchild⟩ : ∃ u', ChildAt f' q' i u' := by
        by_cases hqq : q' = q
        · subst hqq
          exact ⟨_, h.child hwf hn ⟨y, hq', hy⟩⟩
        · exact ⟨_, h.child_of_ne hwf hn hqq ⟨y, hq', hy⟩⟩
      obtain ⟨a', ha', hi'⟩ := hchild
      have hpath := List.append_inj_left' (Option.some.inj (hi.symm.trans hi')) rfl
      exact ⟨q', hpath ▸ ha'⟩

/-- The map stays well formed. -/
theorem wellFormed (h : Edit f f' q n m p k shift) (hwf : f.WellFormed) : f'.WellFormed where
  inj := h.eq_of_path hwf
  parent := h.exists_parent hwf
  ne_nil := by
    intro i x hx
    rcases h.cases hwf hx with ⟨rest, rfl, -⟩ | ⟨-, -, -, -, -, -, rfl⟩ | ⟨hi, -⟩
    · simp
    · simp
    · exact hwf.ne_nil hi
  pos := by
    intro i x s hx hs
    rcases h.cases hwf hx with ⟨rest, rfl, hi⟩ | ⟨c, t, rest, hc, hct, hi, rfl⟩ | ⟨hi, -⟩
    · rcases List.mem_append.mp hs with hs | hs
      · exact hwf.pos h.parent hs
      rcases List.mem_cons.mp hs with rfl | hs
      · exact h.slot.pos
      rcases hi with ⟨rfl, -⟩ | ⟨b, -, -, hi⟩
      · simp at hs
      · exact hwf.pos hi (List.mem_append_right b hs)
    · rcases List.mem_append.mp hs with hs | hs
      · exact hwf.pos h.parent hs
      rcases List.mem_cons.mp hs with rfl | hs
      · exact Nat.lt_of_lt_of_le (hct.pos hwf) (h.le_shift hc hct)
      · exact hwf.pos hi (List.mem_append_right p (List.mem_cons_of_mem t hs))
    · exact hwf.pos hi hs

/-- Nothing else is moved. -/
theorem kept (h : Edit f f' q n m p k shift) (hwf : f.WellFormed) {moved : List ι}
    (hmoved : n ∈ moved ∨ f n = none) : Kept moved [q] f f' := by
  have hne : ∀ {q' i s}, i ∉ moved → ChildAt f q' i s → i ≠ n := by
    rintro q' i s hi ⟨y, -, hpath⟩ rfl
    rcases hmoved with hmem | hnone
    · exact hi hmem
    · simp [hnone] at hpath
  constructor
  · intro q' i s hi hchild
    by_cases hq : q' = q
    · subst hq
      have hn := hne hi hchild
      exact ⟨shift s, h.child hwf hn hchild, h.le_shift hn hchild,
        fun hnot => absurd (List.mem_singleton_self q') hnot⟩
    · exact ⟨s, h.child_of_ne hwf (hne hi hchild) hq hchild, Nat.le_refl s, fun _ => rfl⟩
  · intro q' i j s t s' t' hi hj hs ht hlt hs' ht'
    have hin := hne hi hs
    have hjn := hne hj ht
    by_cases hq : q' = q
    · subst hq
      obtain rfl := hs'.step_unique (h.child hwf hin hs)
      obtain rfl := ht'.step_unique (h.child hwf hjn ht)
      exact h.slot.mono hin hjn hs ht hlt
    · obtain rfl := hs'.step_unique (h.child_of_ne hwf hin hq hs)
      obtain rfl := ht'.step_unique (h.child_of_ne hwf hjn hq ht)
      exact hlt

/-- What is on the way to the new parent keeps its path. -/
theorem same_of_prefix (h : Edit f f' q n m p k shift) (hi : f i = some x) (hstart : x <+: p) :
    f' i = some x := by
  refine h.same hi ?_ fun b hb hbx => h.off hb h.parent (hbx.trans hstart)
  rintro s rest rfl
  have := hstart.length_le
  rw [List.length_append, List.length_cons] at this
  omega

theorem same_of_mem_chain (h : Edit f f' q n m p k shift) {chain : List ι} (hchain : Chain f r q chain)
    (hj : j ∈ chain) : f' j = f j := by
  obtain ⟨x, hx, hstart⟩ := hchain.exists_prefix hj h.parent
  rw [hx, h.same_of_prefix hx hstart]

/-- The root keeps its path, which is on the way to the new parent. -/
theorem root_same (h : Edit f f' q n m p k shift) (hroot : q = r ∨ Below f r q) :
    ∃ y, f r = some y ∧ f' r = some y ∧ y <+: p := by
  rcases hroot with rfl | ⟨y, x, hr, hq, hstart, -⟩
  · exact ⟨p, h.parent, h.parent_same, List.prefix_refl p⟩
  · obtain rfl : p = x := Option.some.inj (h.parent.symm.trans hq)
    exact ⟨y, hr, h.same_of_prefix hr hstart, hstart⟩

/-- What is below the root stays below it. -/
theorem below (h : Edit f f' q n m p k shift) (hroot : q = r ∨ Below f r q) (hi : Below f r i) :
    Below f' r i := by
  obtain ⟨y, hr, hr', hstart⟩ := h.root_same hroot
  have hdeeper : ∀ s rest, y <+: p ++ s :: rest ∧ y ≠ p ++ s :: rest := by
    refine fun s rest => ⟨hstart.trans (List.prefix_append ..), ?_⟩
    rintro rfl
    have := hstart.length_le
    rw [List.length_append, List.length_cons] at this
    omega
  obtain ⟨y', x, hry, hx, hyx, hne⟩ := hi
  obtain rfl := Option.some.inj (hr.symm.trans hry)
  have hx' := h.of_some hx
  by_cases hbranch : ∃ b ∈ f n, b <+: x
  · obtain ⟨b, hb, rest, rfl⟩ := hbranch
    rw [Option.mem_def.mp hb, relocate_branch] at hx'
    exact ⟨y, _, hr', hx', hdeeper k rest⟩
  · push Not at hbranch
    rw [relocate_of_not_branch hbranch] at hx'
    rcases below_or_renumber_eq p x with ⟨s, rest, rfl⟩ | ⟨-, heq⟩
    · rw [renumber_below] at hx'
      exact ⟨y, _, hr', hx', hdeeper (shift s) rest⟩
    · rw [heq] at hx'
      exact ⟨y, x, hr', hx', hyx, hne⟩

/-- What is not below the root keeps its path. -/
theorem outside (h : Edit f f' q n m p k shift) (hroot : q = r ∨ Below f r q)
    (hn : ∀ b ∈ f n, Below f r n) (hi : f i = some x) (hout : ¬ Below f r i) : f' i = some x := by
  obtain ⟨y, hr, -, hstart⟩ := h.root_same hroot
  refine h.same hi ?_ ?_
  · rintro s rest rfl
    refine hout ⟨y, _, hr, hi, hstart.trans (List.prefix_append ..), ?_⟩
    rintro rfl
    have := hstart.length_le
    rw [List.length_append, List.length_cons] at this
    omega
  · intro b hb hbx
    obtain ⟨y', b', hry, hb', hyb, hne⟩ := hn b hb
    obtain rfl := Option.some.inj (hr.symm.trans hry)
    obtain rfl := Option.some.inj (hb'.symm.trans hb)
    refine hout ⟨y, x, hr, hi, hyb.trans hbx, ?_⟩
    rintro rfl
    exact hne (hyb.eq_of_length_le hbx.length_le)

end Edit

end Placed

/-! ## What edits keep -/

theorem Kept.refl (moved parents : List ι) (f : PathMap ι) : Kept moved parents f f where
  child _ h := ⟨_, h, Nat.le_refl _, fun _ => rfl⟩
  order _ _ hs ht hlt hs' ht' := by
    rwa [hs'.step_unique hs, ht'.step_unique ht]

theorem Kept.mono {moved moved' parents parents' : List ι} (h : Kept moved parents f f')
    (hmoved : moved ⊆ moved') (hparents : parents ⊆ parents') : Kept moved' parents' f f' where
  child hi hchild := by
    obtain ⟨s', hs', hle, heq⟩ := h.child (fun hmem => hi (hmoved hmem)) hchild
    exact ⟨s', hs', hle, fun hq => heq fun hmem => hq (hparents hmem)⟩
  order hi hj := h.order (fun hmem => hi (hmoved hmem)) fun hmem => hj (hmoved hmem)

theorem Kept.trans {moved parents : List ι} (h : Kept moved parents f f')
    (h' : Kept moved parents f' f'') : Kept moved parents f f'' where
  child hi hchild := by
    obtain ⟨s', hs', hle, heq⟩ := h.child hi hchild
    obtain ⟨s'', hs'', hle', heq'⟩ := h'.child hi hs'
    exact ⟨s'', hs'', Nat.le_trans hle hle', fun hq => (heq' hq).trans (heq hq)⟩
  order hi hj hs ht hlt hs'' ht'' := by
    obtain ⟨s', hs', -⟩ := h.child hi hs
    obtain ⟨t', ht', -⟩ := h.child hj ht
    exact h'.order hi hj hs' ht' (h.order hi hj hs ht hlt hs' ht') hs'' ht''

/-! ## Forests that are stored -/

section Forests

variable {before : Option ι} {a : ι × α} {forest children rest : List (PathTree (ι × α))}

/-- Induction over a forest: the children of the first tree, and the other trees. -/
theorem forest_induction {β : Type} {motive : List (PathTree β) → Prop} (nil : motive [])
    (cons : ∀ a children rest, motive children → motive rest → motive (.node a children :: rest)) :
    ∀ forest, motive forest
  | [] => nil
  | .node a children :: rest =>
    cons a children rest (forest_induction nil cons children) (forest_induction nil cons rest)

theorem nodes_cons {β : Type} {b : β} {children rest : List (PathTree β)} :
    nodes (.node b children :: rest) = b :: (nodes children ++ nodes rest) := rfl

@[simp] theorem keys_nil : keys ([] : List (PathTree (ι × α))) = [] := rfl

@[simp] theorem keys_cons :
    keys (.node a children :: rest) = a.1 :: (keys children ++ keys rest) := by
  simp [keys, nodes_cons]

/-- Edits that move none of its nodes keep a forest that is stored. -/
theorem Built.kept {moved parents : List ι} (h : Built f q before forest)
    (hkept : Kept moved parents f f') (hnodes : ∀ i ∈ keys forest, i ∉ moved)
    (hbefore : ∀ b ∈ before, b ∉ moved) : Built f' q before forest := by
  induction h with
  | nil => exact .nil
  | @cons q before a s children rest hchild hb _ _ ihchildren ihrest =>
    simp only [keys_cons, List.mem_cons, List.mem_append] at hnodes
    have ha := hnodes a.1 (Or.inl rfl)
    obtain ⟨s', hs', -⟩ := hkept.child ha hchild
    refine .cons hs' ?_ (ihchildren (fun i hi => hnodes i (Or.inr (Or.inl hi))) (by simp))
      (ihrest (fun i hi => hnodes i (Or.inr (Or.inr hi))) (by simpa using ha))
    intro b hbmem
    obtain ⟨t, hlt, ht⟩ := hb b hbmem
    obtain ⟨t', ht', -⟩ := hkept.child (hbefore b hbmem) ht
    exact ⟨t', hkept.order (hbefore b hbmem) ha ht hchild hlt ht' hs', ht'⟩

/-- A forest is stored as long as the paths of its nodes stay as they are. -/
theorem Built.congr (h : Built f q before forest) (hq : f' q = f q)
    (hnodes : ∀ i ∈ keys forest, f' i = f i) (hbefore : ∀ b ∈ before, f' b = f b) :
    Built f' q before forest := by
  induction h with
  | nil => exact .nil
  | @cons q before a s children rest hchild hb _ _ ihchildren ihrest =>
    simp only [keys_cons, List.mem_cons, List.mem_append] at hnodes
    have ha := hnodes a.1 (Or.inl rfl)
    have hchild' : ∀ {i t}, f' i = f i → ChildAt f q i t → ChildAt f' q i t := by
      rintro i t hi ⟨p, hp, hpath⟩
      exact ⟨p, hq.trans hp, hi.trans hpath⟩
    refine .cons (hchild' ha hchild) ?_
      (ihchildren ha (fun i hi => hnodes i (Or.inr (Or.inl hi))) (by simp))
      (ihrest hq (fun i hi => hnodes i (Or.inr (Or.inr hi))) (by simpa using ha))
    intro b hbmem
    obtain ⟨t, hlt, ht⟩ := hb b hbmem
    exact ⟨t, hlt, hchild' (hbefore b hbmem) ht⟩

/-- What is on the way to a node of the forest is one too, or on the way to the parent of the forest. -/
theorem Built.prefix_or_mem (h : Built f q before forest) (hwf : f.WellFormed) {p x y : List ℕ}
    (hq : f q = some p) (hi : i ∈ keys forest) (hx : f i = some x) (hj : f j = some y)
    (hstart : y <+: x) : y <+: p ∨ j ∈ keys forest := by
  induction h generalizing p x with
  | nil => simp at hi
  | @cons q before a s children rest hchild _ _ _ ihchildren ihrest =>
    obtain ⟨p', hp', ha⟩ := hchild
    obtain rfl := Option.some.inj (hq.symm.trans hp')
    have htop : y <+: p ++ [s] → y <+: p ∨ j ∈ keys (.node a children :: rest) := by
      intro hy
      rcases List.prefix_concat_iff.mp hy with rfl | hy
      · exact Or.inr (by simp [hwf.inj hj ha])
      · exact Or.inl hy
    rw [keys_cons] at hi
    rcases List.mem_cons.mp hi with rfl | hi
    · obtain rfl := Option.some.inj (ha.symm.trans hx)
      exact htop hstart
    rcases List.mem_append.mp hi with hi | hi
    · rcases ihchildren ha hi hx hstart with hy | hmem
      · exact htop hy
      · exact Or.inr (by simp [hmem])
    · rcases ihrest hq hi hx hstart with hy | hmem
      · exact Or.inl hy
      · exact Or.inr (by simp [hmem])

theorem Built.below_of_mem (h : Built f q before forest) (hq : q = r ∨ Below f r q)
    (hi : i ∈ keys forest) : Below f r i := by
  induction h with
  | nil => simp at hi
  | cons hchild _ _ _ ihchildren ihrest =>
    rw [keys_cons] at hi
    rcases List.mem_cons.mp hi with rfl | hi
    · exact hchild.below hq
    rcases List.mem_append.mp hi with hi | hi
    · exact ihchildren (Or.inr (hchild.below hq)) hi
    · exact ihrest hq hi

/-! The parents of the nodes -/

theorem mem_edges_cons {e : ι × ι} : e ∈ edges q (.node a children :: rest) ↔
    e = (q, a.1) ∨ e ∈ edges a.1 children ∨ e ∈ edges q rest := by
  simp [edges, edgesOf]

theorem exists_mem_edges (hj : j ∈ keys forest) (q : ι) : ∃ q', (q', j) ∈ edges q forest := by
  induction forest using forest_induction generalizing q with
  | nil => simp at hj
  | cons a children rest ihchildren ihrest =>
    rw [keys_cons] at hj
    rcases List.mem_cons.mp hj with rfl | hj
    · exact ⟨q, mem_edges_cons.mpr (Or.inl rfl)⟩
    rcases List.mem_append.mp hj with hj | hj
    · obtain ⟨q', h⟩ := ihchildren hj a.1
      exact ⟨q', mem_edges_cons.mpr (Or.inr (Or.inl h))⟩
    · obtain ⟨q', h⟩ := ihrest hj q
      exact ⟨q', mem_edges_cons.mpr (Or.inr (Or.inr h))⟩

theorem parent_of_mem_edges (h : (q', j) ∈ edges q forest) : q' = q ∨ q' ∈ keys forest := by
  induction forest using forest_induction generalizing q with
  | nil => simp [edges] at h
  | cons a children rest ihchildren ihrest =>
    rw [keys_cons, List.mem_cons, List.mem_append]
    rcases mem_edges_cons.mp h with heq | h | h
    · exact Or.inl (Prod.mk.inj heq).1
    · rcases ihchildren h with rfl | h
      · exact Or.inr (Or.inl rfl)
      · exact Or.inr (Or.inr (Or.inl h))
    · rcases ihrest h with rfl | h
      · exact Or.inl rfl
      · exact Or.inr (Or.inr (Or.inr h))

theorem Built.childAt_of_mem_edges (h : Built f q before forest) (he : (q', j) ∈ edges q forest) :
    ∃ s, ChildAt f q' j s := by
  induction h with
  | nil => simp [edges] at he
  | cons hchild _ _ _ ihchildren ihrest =>
    rcases mem_edges_cons.mp he with heq | he | he
    · obtain ⟨rfl, rfl⟩ := Prod.mk.inj heq
      exact ⟨_, hchild⟩
    · exact ihchildren he
    · exact ihrest he

/-- The trees of a forest come after what it is said to come after. -/
theorem Built.lt_of_mem_edges (h : Built f q before forest) (hq : q ∉ keys forest)
    (he : (q, j) ∈ edges q forest) (hj : ChildAt f q j t) : ∀ b ∈ before, ∀ s, ChildAt f q b s → s < t := by
  induction h generalizing t with
  | nil => simp [edges] at he
  | @cons q before a u children rest hchild hbefore _ _ _ ihrest =>
    intro b hb s hs
    obtain ⟨s', hlt, hs'⟩ := hbefore b hb
    obtain rfl := hs.step_unique hs'
    simp only [keys_cons, List.mem_cons, List.mem_append, not_or] at hq
    rcases mem_edges_cons.mp he with heq | he | he
    · obtain rfl := (Prod.mk.inj heq).2
      rwa [hj.step_unique hchild]
    · rcases parent_of_mem_edges he with rfl | he
      · exact absurd rfl hq.1
      · exact absurd he hq.2.1
    · exact Nat.lt_trans hlt (ihrest hq.2.2 he hj a.1 rfl u hchild)

/-- The children of the root of a tree, and of what is below it, are found in that tree. -/
theorem mem_edges_children (hnodup : (q :: keys (.node a children :: rest)).Nodup)
    (hi : i = a.1 ∨ i ∈ keys children) (h : (i, j) ∈ edges q (.node a children :: rest)) :
    (i, j) ∈ edges a.1 children := by
  simp only [keys_cons, List.nodup_cons, List.mem_cons, List.mem_append, List.nodup_append,
    not_or] at hnodup
  obtain ⟨⟨hqa, hqchildren, -⟩, ⟨-, harest⟩, -, -, hdisjoint⟩ := hnodup
  have hiq : i ≠ q := by
    rintro rfl
    rcases hi with rfl | hi
    · exact hqa rfl
    · exact hqchildren hi
  rcases mem_edges_cons.mp h with heq | h | h
  · exact absurd (Prod.mk.inj heq).1 hiq
  · exact h
  · rcases parent_of_mem_edges h with rfl | hrest
    · exact absurd rfl hiq
    · rcases hi with rfl | hi
      · exact absurd hrest harest
      · exact absurd rfl (hdisjoint i hi i hrest)

/-- The children of the other nodes are found in the other trees, but for the first root. -/
theorem mem_edges_rest (hnodup : (q :: keys (.node a children :: rest)).Nodup)
    (hi : i = q ∨ i ∈ keys rest) (h : (i, j) ∈ edges q (.node a children :: rest)) :
    (i, j) = (q, a.1) ∨ (i, j) ∈ edges q rest := by
  simp only [keys_cons, List.nodup_cons, List.mem_cons, List.mem_append, List.nodup_append,
    not_or] at hnodup
  obtain ⟨⟨hqa, hqchildren, -⟩, ⟨-, harest⟩, -, -, hdisjoint⟩ := hnodup
  rcases mem_edges_cons.mp h with heq | h | h
  · exact Or.inl heq
  · rcases parent_of_mem_edges h with rfl | hchildren
    · rcases hi with rfl | hi
      · exact absurd rfl hqa
      · exact absurd hi harest
    · rcases hi with rfl | hi
      · exact absurd hchildren hqchildren
      · exact absurd rfl (hdisjoint i hchildren i hi)
  · exact Or.inr h

/-- The parent of a node of the forest is the one that the forest says. -/
theorem Built.mem_edges (h : Built f q before forest) (hwf : f.WellFormed) (hj : j ∈ keys forest)
    (hchild : ChildAt f i j t) : (i, j) ∈ edges q forest := by
  obtain ⟨q', he⟩ := exists_mem_edges hj q
  obtain ⟨s, hs⟩ := h.childAt_of_mem_edges he
  rwa [hchild.parent_unique hwf hs]

theorem Built.dumps_of (h : Built f q before forest) (hwf : f.WellFormed)
    (hnodup : (q :: keys forest).Nodup)
    (hafter : ∀ j t, (q, j) ∈ edges q forest → ChildAt f q j t → b < t)
    (htop : ∀ j t, ChildAt f q j t → b < t → (q, j) ∈ edges q forest)
    (hbelow : ∀ i ∈ keys forest, ∀ j t, ChildAt f i j t → (i, j) ∈ edges q forest) :
    Dumps f q b forest := by
  induction h generalizing b with
  | nil =>
    refine .nil fun i s hi => ?_
    by_contra hlt
    simpa [edges] using htop i s hi (by omega)
  | @cons q before a s children rest hchild _ hchildren hrest ihchildren ihrest =>
    have hnodup' := hnodup
    simp only [keys_cons, List.nodup_cons, List.mem_cons, List.mem_append, List.nodup_append,
      not_or] at hnodup'
    obtain ⟨⟨-, -, hqrest⟩, ⟨hachildren, -⟩, hnodupchildren, hnoduprest, -⟩ := hnodup'
    have hs : b < s := hafter a.1 s (mem_edges_cons.mpr (Or.inl rfl)) hchild
    have hlater : ∀ j t, (q, j) ∈ edges q rest → ChildAt f q j t → s < t := by
      intro j t he hj
      exact hrest.lt_of_mem_edges hqrest he hj a.1 rfl s hchild
    have hin : ∀ j t, ChildAt f q j t → b < t → j = a.1 ∨ (q, j) ∈ edges q rest := by
      intro j t hj hlt
      rcases mem_edges_rest hnodup (Or.inl rfl) (htop j t hj hlt) with heq | he
      · exact Or.inl (Prod.mk.inj heq).2
      · exact Or.inr he
    refine .cons hchild hs ?_ ?_ ?_
    · intro j t hj hlt
      rcases hin j t hj hlt with rfl | he
      · exact (hchild.step_unique hj).le
      · exact (hlater j t he hj).le
    · refine ihchildren (List.nodup_cons.mpr ⟨hachildren, hnodupchildren⟩)
        (fun j t _ hj => hj.pos hwf) ?_ ?_
      · intro j t hj _
        exact mem_edges_children hnodup (Or.inl rfl) (hbelow a.1 (by simp) j t hj)
      · intro i hi j t hj
        exact mem_edges_children hnodup (Or.inr hi) (hbelow i (by simp [hi]) j t hj)
    · refine ihrest (List.nodup_cons.mpr ⟨hqrest, hnoduprest⟩) hlater ?_ ?_
      · intro j t hj hlt
        rcases hin j t hj (Nat.lt_trans hs hlt) with rfl | he
        · exact absurd (hchild.step_unique hj) (Nat.ne_of_lt hlt)
        · exact he
      · intro i hi j t hj
        rcases mem_edges_rest hnodup (Or.inr hi) (hbelow i (by simp [hi]) j t hj) with heq | he
        · obtain rfl := (Prod.mk.inj heq).1
          exact absurd hi hqrest
        · exact he

/-- A forest that is stored under a node is all there is, when everything below the node is in it. -/
theorem Built.dumps (h : Built f r none forest) (hwf : f.WellFormed) (hnodup : (r :: keys forest).Nodup)
    (hall : ∀ i, Below f r i → i ∈ keys forest) : Dumps f r 0 forest := by
  refine h.dumps_of hwf hnodup (fun j t _ hj => hj.pos hwf) ?_ ?_
  · intro j t hj _
    exact h.mem_edges hwf (hall j (hj.below (Or.inl rfl))) hj
  · intro i hi j t hj
    exact h.mem_edges hwf (hall j (hj.below (Or.inr (h.below_of_mem (Or.inl rfl) hi)))) hj

end Forests

/-!
## What growing and cutting keep

Both keep a map well formed, and what they say of a node that is there before and after is the same.
-/

variable {top : ι → Prop}

theorem ChildAt.congr (h : ChildAt f q i s) (hq : f' q = f q) (hi : f' i = f i) : ChildAt f' q i s := by
  obtain ⟨p, hp, hpath⟩ := h
  exact ⟨p, hq.trans hp, hi.trans hpath⟩

/-- A child is not below a node beside it. -/
theorem ChildAt.not_below (hi : ChildAt f r i s) (hj : ChildAt f r j t) :
    ¬Below f j i := by
  rintro ⟨x, y, hx, hy, hstart, hne⟩
  obtain ⟨p, hp, hpi⟩ := hi
  obtain ⟨p', hp', hpj⟩ := hj
  obtain rfl : p = p' := Option.some.inj (hp.symm.trans hp')
  obtain rfl : x = p ++ [t] := Option.some.inj (hx.symm.trans hpj)
  obtain rfl : y = p ++ [s] := Option.some.inj (hy.symm.trans hpi)
  exact hne (hstart.eq_of_length (by simp))

/-- A child of `i` that is below a node `j` beside `i` or `i` itself is below `i`. -/
theorem ChildAt.eq_of_below (hwf : f.WellFormed) {c : ι} {u : ℕ} (hi : ChildAt f r i s)
    (hc : ChildAt f i c u) (hj : ChildAt f r j t) (hbelow : Below f j c) : j = i := by
  obtain ⟨p, hp, hpi⟩ := hi
  obtain ⟨x, hx, hpc⟩ := hc
  obtain ⟨p', hp', hpj⟩ := hj
  obtain ⟨y, z, hy, hz, hstart, hne⟩ := hbelow
  obtain rfl : p = p' := Option.some.inj (hp.symm.trans hp')
  obtain rfl : x = p ++ [s] := Option.some.inj (hx.symm.trans hpi)
  obtain rfl : y = p ++ [t] := Option.some.inj (hy.symm.trans hpj)
  obtain rfl : z = p ++ [s] ++ [u] := Option.some.inj (hz.symm.trans hpc)
  rcases List.prefix_concat_iff.mp hstart with heq | hstart
  · exact absurd heq hne
  · have heq : p ++ [t] = p ++ [s] := hstart.eq_of_length (by simp)
    exact hwf.inj (heq ▸ hpj) hpi

/-! ## A new last child -/

namespace Grown

theorem ne (h : Grown f f' q n) : q ≠ n := by
  obtain ⟨s, -, hchild, -⟩ := h.child
  exact hchild.ne

theorem ne_of_some (h : Grown f f' q n) {p : List ℕ} (hi : f i = some p) : i ≠ n := by
  rintro rfl
  rw [h.fresh] at hi
  cases hi

theorem of_some (h : Grown f f' q n) {p : List ℕ} (hi : f i = some p) : f' i = some p :=
  (h.same i (h.ne_of_some hi)).trans hi

theorem childAt (h : Grown f f' q n) (hi : ChildAt f r i s) : ChildAt f' r i s := by
  obtain ⟨p, hp, hpi⟩ := hi
  exact ⟨p, h.of_some hp, h.of_some hpi⟩

/-- The step of the new node is free. -/
theorem path_ne (h : Grown f f' q n) {p : List ℕ} (hpath : f' n = some p) : f i ≠ some p := by
  intro hfi
  obtain ⟨s, -, ⟨x, hx, hn⟩, hlast⟩ := h.child
  obtain rfl : p = x ++ [s] := Option.some.inj (hpath.symm.trans hn)
  have hq : f q = some x := (h.same q h.ne).symm.trans hx
  exact absurd (hlast i s ⟨x, hq, hfi⟩) (lt_irrefl s)

/-- The new node has no children. -/
theorem leaf (h : Grown f f' q n) (hwf : f.WellFormed) : ¬ChildAt f' n i s := by
  rintro hchild
  have hin : i ≠ n := hchild.ne.symm
  obtain ⟨p, hp, hi⟩ := hchild
  have hne : p ≠ [] := by
    rintro rfl
    obtain ⟨t, -, ⟨x, -, hn⟩, -⟩ := h.child
    simpa using hp.symm.trans hn
  obtain ⟨c, hc⟩ := hwf.parent ((h.same i hin).symm.trans hi) hne
  exact h.path_ne hp hc

theorem wellFormed (h : Grown f f' q n) (hwf : f.WellFormed) : f'.WellFormed := by
  obtain ⟨s, hs, ⟨x, hx, hn⟩, -⟩ := h.child
  have hq : f q = some x := (h.same q h.ne).symm.trans hx
  have hcases : ∀ {i p}, f' i = some p → (i = n ∧ p = x ++ [s]) ∨ (i ≠ n ∧ f i = some p) := by
    intro i p hi
    by_cases hin : i = n
    · subst hin
      exact .inl ⟨rfl, Option.some.inj (hi.symm.trans hn)⟩
    · exact .inr ⟨hin, (h.same i hin).symm.trans hi⟩
  refine ⟨fun {i j p} hi hj => ?_, fun {i p t} hi hp => ?_, fun {i p} hi => ?_, fun {i p t} hi ht => ?_⟩
  · rcases hcases hi with ⟨rfl, rfl⟩ | ⟨-, hfi⟩
    · rcases hcases hj with ⟨rfl, -⟩ | ⟨-, hfj⟩
      · rfl
      · exact absurd hfj (h.path_ne hi)
    · rcases hcases hj with ⟨rfl, rfl⟩ | ⟨-, hfj⟩
      · exact absurd hfi (h.path_ne hj)
      · exact hwf.inj hfi hfj
  · rcases hcases hi with ⟨-, heq⟩ | ⟨-, hfi⟩
    · refine ⟨q, hx.trans (congrArg some ?_)⟩
      exact (List.append_inj_left' heq rfl).symm
    · obtain ⟨q', hq'⟩ := hwf.parent hfi hp
      exact ⟨q', h.of_some hq'⟩
  · rcases hcases hi with ⟨-, rfl⟩ | ⟨-, hfi⟩
    · simp
    · exact hwf.ne_nil hfi
  · rcases hcases hi with ⟨-, rfl⟩ | ⟨-, hfi⟩
    · rcases List.mem_append.mp ht with ht | ht
      · exact hwf.pos hq ht
      · rwa [List.mem_singleton.mp ht]
    · exact hwf.pos hfi ht

end Grown

/-! ## Branches that are cut -/

theorem InBranch.of_below (h : InBranch f top j) (hbelow : Below f j i) : InBranch f top i := by
  obtain ⟨d, hd, rfl | hdj⟩ := h
  · exact ⟨d, hd, .inr hbelow⟩
  · exact ⟨d, hd, .inr (hdj.trans hbelow)⟩

namespace Cut

theorem not_inBranch (h : Cut f f' top) {p : List ℕ} (hi : f' i = some p) : ¬InBranch f top i := by
  intro hbranch
  rw [h.gone i hbranch] at hi
  cases hi

theorem of_some (h : Cut f f' top) {p : List ℕ} (hi : f' i = some p) : f i = some p :=
  (h.same i (h.not_inBranch hi)).symm.trans hi

theorem childAt (h : Cut f f' top) (hi : ChildAt f' r i s) : ChildAt f r i s := by
  obtain ⟨p, hp, hpi⟩ := hi
  exact ⟨p, h.of_some hp, h.of_some hpi⟩

theorem childAt_of_not_inBranch (h : Cut f f' top) (hchild : ChildAt f r i s) (hr : ¬InBranch f top r)
    (hi : ¬InBranch f top i) : ChildAt f' r i s :=
  hchild.congr (h.same r hr) (h.same i hi)

/-- The parent of a node that stays stays. -/
theorem wellFormed (h : Cut f f' top) (hwf : f.WellFormed) : f'.WellFormed := by
  refine ⟨fun hi hj => hwf.inj (h.of_some hi) (h.of_some hj), fun {i p s} hi hp => ?_,
    fun hi => hwf.ne_nil (h.of_some hi), fun hi => hwf.pos (h.of_some hi)⟩
  obtain ⟨q, hq⟩ := hwf.parent (h.of_some hi) hp
  have hchild : ChildAt f q i s := ⟨p, hq, h.of_some hi⟩
  refine ⟨q, (h.same q fun hbranch => ?_).trans hq⟩
  exact h.not_inBranch hi (hbranch.of_below (hchild.below (.inl rfl)))

end Cut

end PathMap

end Paths

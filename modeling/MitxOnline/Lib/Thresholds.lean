import Mathlib.Algebra.Order.Ring.Int
import Mathlib.Logic.Relation

/-!
# Threshold trees

A tree says what it takes to reach a goal: an atom has to hold, all of the children have to be reached,
or at least a number of them. A tree may refer to a name, and a forest files trees under names; names
may refer to each other in circles.

`Forest.eval` is an evaluator: it looks at the trees of a name one after the other up to the first
that is not reached, counts the children of a threshold, and follows references up to a limit.
`Holds` is what the trees mean. `Consulted` is where an evaluation gets to.
-/

namespace Threshold

/-- A tree with atoms in `A` that refers to names in `R`. A threshold that cannot be read is an
exception in `ε`. -/
inductive Tree (A R ε : Type) where
  | atom (a : A)
  | ref (r : R)
  /-- All children have to be reached. -/
  | all (children : List (Tree A R ε))
  /-- At least `threshold` of the children have to be reached. -/
  | atLeast (threshold : Except ε ℤ) (children : List (Tree A R ε))
  | never

/-- The trees under a name, all of which have to be reached; an exception where none are filed. -/
abbrev Forest (A R ε : Type) := R → Except ε (List (Tree A R ε))

variable {A R ε : Type}

mutual

/-- Evaluate a tree. -/
def Tree.eval (atom : A → Bool) (ref : R → Except ε Bool) : Tree A R ε → Except ε Bool
  | .atom a => .ok (atom a)
  | .ref r => ref r
  | .all children => evalAll atom ref children
  | .atLeast threshold children =>
    match countReached atom ref children with
    | .error e => .error e
    | .ok count =>
      match threshold with
      | .error e => .error e
      | .ok k => .ok (decide (k ≤ (count : ℤ)))
  | .never => .ok false

/-- Evaluate trees up to the first one that is not reached. -/
def evalAll (atom : A → Bool) (ref : R → Except ε Bool) : List (Tree A R ε) → Except ε Bool
  | [] => .ok true
  | t :: rest =>
    match t.eval atom ref with
    | .error e => .error e
    | .ok false => .ok false
    | .ok true => evalAll atom ref rest

/-- Evaluate all trees and count those that are reached. -/
def countReached (atom : A → Bool) (ref : R → Except ε Bool) : List (Tree A R ε) → Except ε ℕ
  | [] => .ok 0
  | t :: rest =>
    match t.eval atom ref with
    | .error e => .error e
    | .ok reached =>
      match countReached atom ref rest with
      | .error e => .error e
      | .ok count => .ok (if reached = true then count + 1 else count)

end

/-- Evaluate the trees of a name; references nested deeper than the limit raise `tooDeep`. -/
def Forest.eval (forest : Forest A R ε) (tooDeep : ε) (atom : A → Bool) : ℕ → R → Except ε Bool
  | 0, _ => .error tooDeep
  | limit + 1, r =>
    match forest r with
    | .error e => .error e
    | .ok trees => evalAll atom (forest.eval tooDeep atom limit) trees

/-- The tree is reached where `P` holds of the atoms. -/
inductive Holds (forest : Forest A R ε) (P : A → Prop) : Tree A R ε → Prop where
  | atom {a : A} (h : P a) : Holds forest P (.atom a)
  | ref {r : R} {trees : List (Tree A R ε)} (h : forest r = .ok trees)
      (hall : ∀ t ∈ trees, Holds forest P t) : Holds forest P (.ref r)
  | all {children : List (Tree A R ε)} (hall : ∀ t ∈ children, Holds forest P t) :
      Holds forest P (.all children)
  /-- Some of the children are reached, and they are enough. -/
  | atLeast {k : ℤ} {children chosen : List (Tree A R ε)} (hchosen : chosen.Sublist children)
      (hk : k ≤ (chosen.length : ℤ)) (hall : ∀ t ∈ chosen, Holds forest P t) :
      Holds forest P (.atLeast (.ok k) children)

/-- An evaluation of `r` looks at the tree: what comes before it in its row is reached. -/
inductive Consulted (forest : Forest A R ε) (P : A → Prop) (r : R) : Tree A R ε → Prop where
  | root {before after : List (Tree A R ε)} {t : Tree A R ε}
      (h : forest r = .ok (before ++ t :: after)) (hbefore : ∀ u ∈ before, Holds forest P u) :
      Consulted forest P r t
  | all {before after : List (Tree A R ε)} {t : Tree A R ε}
      (h : Consulted forest P r (.all (before ++ t :: after)))
      (hbefore : ∀ u ∈ before, Holds forest P u) : Consulted forest P r t
  | atLeast {threshold : Except ε ℤ} {children : List (Tree A R ε)} {t : Tree A R ε}
      (h : Consulted forest P r (.atLeast threshold children)) (ht : t ∈ children) :
      Consulted forest P r t

/-- An evaluation of `r` looks at a reference to `q`. -/
def Requires (forest : Forest A R ε) (P : A → Prop) (r q : R) : Prop := Consulted forest P r (.ref q)

/-- The evaluation of `r` gets to an end: wherever it gets, trees are filed and thresholds can be
read, and it does not follow references for ever. -/
structure WellFormed (forest : Forest A R ε) (P : A → Prop) (r : R) : Prop where
  filed : ∀ q, Relation.ReflTransGen (Requires forest P) r q → ∃ trees, forest q = .ok trees
  readable : ∀ q e children, Relation.ReflTransGen (Requires forest P) r q →
    ¬Consulted forest P q (.atLeast (.error e) children)
  grounded : Acc (fun q r => Requires forest P r q) r

/-!
## What an evaluation of threshold trees returns

An evaluation that returns says whether the tree is reached, and it returns exactly where the forest
is well-formed. Both are monotone: where more atoms hold, more is reached, and an evaluation gets to
more of the forest.
-/

variable {forest : Forest A R ε} {P Q : A → Prop} {atom : A → Bool}
  {ref : R → Except ε Bool} {tooDeep : ε} {r : R} {b : Bool} {trees before after : List (Tree A R ε)}
  {t : Tree A R ε}

/-- Induction over a tree, with the hypothesis for every child. -/
theorem Tree.inductionOn {motive : Tree A R ε → Prop} (t : Tree A R ε)
    (atom : ∀ a, motive (.atom a)) (ref : ∀ r, motive (.ref r))
    (all : ∀ children, (∀ u ∈ children, motive u) → motive (.all children))
    (atLeast : ∀ threshold children, (∀ u ∈ children, motive u) →
      motive (.atLeast threshold children))
    (never : motive .never) : motive t :=
  match t with
  | .atom a => atom a
  | .ref r => ref r
  | .all children => all children fun u _ => u.inductionOn atom ref all atLeast never
  | .atLeast threshold children =>
    atLeast threshold children fun u _ => u.inductionOn atom ref all atLeast never
  | .never => never

/-! ## What trees mean -/

theorem holds_ref_iff : Holds forest P (.ref r) ↔
    ∃ trees, forest r = .ok trees ∧ ∀ t ∈ trees, Holds forest P t := by
  constructor
  · intro h
    cases h with
    | ref hr hall => exact ⟨_, hr, hall⟩
  · rintro ⟨trees, hr, hall⟩
    exact .ref hr hall

/-- A threshold that is reached is at most the number of the children. -/
theorem Holds.le_length {k : ℤ} (h : Holds forest P (.atLeast (.ok k) trees)) :
    k ≤ (trees.length : ℤ) := by
  cases h with
  | atLeast hsub hk _ =>
    have hlength := hsub.length_le
    omega

/-! ## Rows of trees -/

theorem evalAll_cons_ok (h : evalAll atom ref (t :: trees) = .ok b) :
    t.eval atom ref = .ok false ∧ b = false ∨
      t.eval atom ref = .ok true ∧ evalAll atom ref trees = .ok b := by
  rw [evalAll] at h
  cases ht : t.eval atom ref with
  | error e =>
    rw [ht] at h
    cases h
  | ok reached =>
    rw [ht] at h
    cases reached with
    | false =>
      cases h
      exact Or.inl ⟨rfl, rfl⟩
    | true => exact Or.inr ⟨rfl, h⟩

theorem evalAll_true (h : evalAll atom ref trees = .ok true) :
    ∀ t ∈ trees, t.eval atom ref = .ok true := by
  induction trees with
  | nil => simp
  | cons u rest ih =>
    rcases evalAll_cons_ok h with ⟨-, hfalse⟩ | ⟨hu, hrest⟩
    · cases hfalse
    · intro t ht
      rcases List.mem_cons.mp ht with rfl | ht
      · exact hu
      · exact ih hrest t ht

theorem evalAll_false (h : evalAll atom ref trees = .ok false) :
    ∃ t ∈ trees, t.eval atom ref = .ok false := by
  induction trees with
  | nil => cases h
  | cons u rest ih =>
    rcases evalAll_cons_ok h with ⟨hu, -⟩ | ⟨-, hrest⟩
    · exact ⟨u, List.mem_cons_self, hu⟩
    · obtain ⟨t, ht, hfalse⟩ := ih hrest
      exact ⟨t, List.mem_cons_of_mem u ht, hfalse⟩

/-- A row that returns has looked at every tree that is preceded by reached ones. -/
theorem eval_of_evalAll (h : evalAll atom ref (before ++ t :: after) = .ok b)
    (hbefore : ∀ u ∈ before, ∀ b, u.eval atom ref = .ok b → b = true) :
    ∃ b, t.eval atom ref = .ok b := by
  induction before with
  | nil =>
    rcases evalAll_cons_ok h with ⟨ht, -⟩ | ⟨ht, -⟩
    · exact ⟨false, ht⟩
    · exact ⟨true, ht⟩
  | cons u rest ih =>
    rcases evalAll_cons_ok h with ⟨hu, -⟩ | ⟨-, hrest⟩
    · cases hbefore u List.mem_cons_self false hu
    · exact ih hrest fun v hv => hbefore v (List.mem_cons_of_mem u hv)

theorem countReached_cons_ok {count : ℕ} (h : countReached atom ref (t :: trees) = .ok count) :
    ∃ reached rest, t.eval atom ref = .ok reached ∧ countReached atom ref trees = .ok rest ∧
      count = if reached = true then rest + 1 else rest := by
  rw [countReached] at h
  cases ht : t.eval atom ref with
  | error e =>
    rw [ht] at h
    cases h
  | ok reached =>
    rw [ht] at h
    cases hrest : countReached atom ref trees with
    | error e =>
      rw [hrest] at h
      cases h
    | ok rest =>
      rw [hrest] at h
      cases h
      exact ⟨reached, rest, rfl, rfl, rfl⟩

/-- A count looks at every tree. -/
theorem eval_of_countReached {count : ℕ} (h : countReached atom ref trees = .ok count) :
    ∀ t ∈ trees, ∃ b, t.eval atom ref = .ok b := by
  induction trees generalizing count with
  | nil => simp
  | cons u rest ih =>
    obtain ⟨reached, more, hu, hrest, -⟩ := countReached_cons_ok h
    intro t ht
    rcases List.mem_cons.mp ht with rfl | ht
    · exact ⟨reached, hu⟩
    · exact ih hrest t ht

/-- As many trees are reached as are counted. -/
theorem countReached_chosen {count : ℕ} (h : countReached atom ref trees = .ok count) :
    ∃ chosen : List (Tree A R ε), chosen.Sublist trees ∧ chosen.length = count ∧
      ∀ t ∈ chosen, t.eval atom ref = .ok true := by
  induction trees generalizing count with
  | nil =>
    cases h
    exact ⟨[], List.Sublist.refl _, rfl, by simp⟩
  | cons u rest ih =>
    obtain ⟨reached, more, hu, hrest, rfl⟩ := countReached_cons_ok h
    obtain ⟨chosen, hsub, hlength, hall⟩ := ih hrest
    cases reached with
    | false => exact ⟨chosen, hsub.cons u, by simpa using hlength, hall⟩
    | true =>
      refine ⟨u :: chosen, hsub.cons_cons u, by simp [hlength], ?_⟩
      intro t ht
      rcases List.mem_cons.mp ht with rfl | ht
      · exact hu
      · exact hall t ht

/-- Reached trees are counted. -/
theorem length_le_countReached {count : ℕ} {chosen : List (Tree A R ε)}
    (h : countReached atom ref trees = .ok count) (hsub : chosen.Sublist trees)
    (hchosen : ∀ t ∈ chosen, ∀ b, t.eval atom ref = .ok b → b = true) : chosen.length ≤ count := by
  induction hsub generalizing count with
  | slnil => exact Nat.zero_le _
  | cons u hsub ih =>
    obtain ⟨reached, more, -, hrest, rfl⟩ := countReached_cons_ok h
    have hle := ih hrest hchosen
    by_cases hreached : reached = true
    · rw [if_pos hreached]
      omega
    · rw [if_neg hreached]
      exact hle
  | cons_cons u hsub ih =>
    obtain ⟨reached, more, hu, hrest, rfl⟩ := countReached_cons_ok h
    have hle := ih hrest fun t ht => hchosen t (List.mem_cons_of_mem u ht)
    have hreached : reached = true := hchosen u List.mem_cons_self reached hu
    rw [if_pos hreached, List.length_cons]
    omega

/-! ## What is returned -/

/-- What is returned is whether the tree is reached, if it is so for references. -/
theorem holds_of_eval (href : ∀ r, ref r = .ok true → Holds forest (atom · = true) (.ref r))
    (h : t.eval atom ref = .ok true) : Holds forest (atom · = true) t := by
  induction t using Tree.inductionOn with
  | atom a =>
    rw [Tree.eval] at h
    exact .atom (Except.ok.inj h)
  | ref r => exact href r h
  | all children ih => exact .all fun u hu => ih u hu (evalAll_true h u hu)
  | atLeast threshold children ih =>
    rw [Tree.eval] at h
    cases hcount : countReached atom ref children with
    | error e =>
      rw [hcount] at h
      cases h
    | ok count =>
      rw [hcount] at h
      cases threshold with
      | error e => cases h
      | ok k =>
        obtain ⟨chosen, hsub, hlength, hall⟩ := countReached_chosen hcount
        have hk : k ≤ (count : ℤ) := of_decide_eq_true (Except.ok.inj h)
        rw [← hlength] at hk
        exact .atLeast hsub hk fun u hu => ih u (hsub.subset hu) (hall u hu)
  | never => cases h

theorem eval_of_holds
    (href : ∀ r b, Holds forest (atom · = true) (.ref r) → ref r = .ok b → b = true)
    (hholds : Holds forest (atom · = true) t) (h : t.eval atom ref = .ok b) : b = true := by
  induction t using Tree.inductionOn generalizing b with
  | atom a =>
    cases hholds with
    | atom ha =>
      rw [Tree.eval] at h
      rw [← Except.ok.inj h]
      exact ha
  | ref r => exact href r b hholds h
  | all children ih =>
    cases hholds with
    | all hall =>
      cases b with
      | true => rfl
      | false =>
        obtain ⟨u, hu, hfalse⟩ := evalAll_false h
        exact ih u hu (hall u hu) hfalse
  | atLeast threshold children ih =>
    cases hholds with
    | @atLeast k children chosen hsub hk hall =>
      rw [Tree.eval] at h
      cases hcount : countReached atom ref children with
      | error e =>
        rw [hcount] at h
        cases h
      | ok count =>
        rw [hcount] at h
        have hle := length_le_countReached hcount hsub fun u hu b hb =>
          ih u (hsub.subset hu) (hall u hu) hb
        rw [← Except.ok.inj h]
        exact decide_eq_true (by omega)
  | never => cases hholds

theorem forest_holds_of_eval {limit : ℕ} (h : forest.eval tooDeep atom limit r = .ok true) :
    Holds forest (atom · = true) (.ref r) := by
  induction limit generalizing r with
  | zero => cases h
  | succ limit ih =>
    rw [Forest.eval] at h
    cases hr : forest r with
    | error e =>
      rw [hr] at h
      cases h
    | ok trees =>
      rw [hr] at h
      exact .ref hr fun t ht => holds_of_eval (fun q hq => ih hq) (evalAll_true h t ht)

theorem forest_eval_of_holds {limit : ℕ} (hholds : Holds forest (atom · = true) (.ref r))
    (h : forest.eval tooDeep atom limit r = .ok b) : b = true := by
  induction limit generalizing r b with
  | zero => cases h
  | succ limit ih =>
    cases hholds with
    | @ref r trees hr hall =>
      rw [Forest.eval, hr] at h
      cases b with
      | true => rfl
      | false =>
        obtain ⟨t, ht, hfalse⟩ := evalAll_false h
        exact eval_of_holds (fun q b hq hb => ih hq hb) (hall t ht) hfalse

/-- An evaluation that returns says whether the name is reached. -/
theorem forest_eval_iff {limit : ℕ} (h : forest.eval tooDeep atom limit r = .ok b) :
    b = true ↔ Holds forest (atom · = true) (.ref r) := by
  constructor
  · rintro rfl
    exact forest_holds_of_eval h
  · intro hholds
    exact forest_eval_of_holds hholds h

/-! ## Where evaluations get to -/

theorem Holds.mono (hPQ : ∀ a, P a → Q a) (h : Holds forest P t) : Holds forest Q t := by
  induction h with
  | atom ha => exact .atom (hPQ _ ha)
  | ref hr _ ih => exact .ref hr ih
  | all _ ih => exact .all ih
  | atLeast hsub hk _ ih => exact .atLeast hsub hk ih

theorem Consulted.mono (hPQ : ∀ a, P a → Q a) (h : Consulted forest P r t) :
    Consulted forest Q r t := by
  induction h with
  | root hr hbefore => exact .root hr fun u hu => (hbefore u hu).mono hPQ
  | all _ hbefore ih => exact .all ih fun u hu => (hbefore u hu).mono hPQ
  | atLeast _ ht ih => exact .atLeast ih ht

/-- Where more atoms hold, more has to be well-formed. -/
theorem WellFormed.anti (hPQ : ∀ a, P a → Q a) (h : WellFormed forest Q r) :
    WellFormed forest P r := by
  have hrequires : ∀ r q, Requires forest P r q → Requires forest Q r q := fun r q hrq => hrq.mono hPQ
  have hpath : ∀ q, Relation.ReflTransGen (Requires forest P) r q →
      Relation.ReflTransGen (Requires forest Q) r q := fun q hq =>
        Relation.ReflTransGen.mono hrequires r q hq
  refine ⟨fun q hq => h.filed q (hpath q hq), fun q e children hq hthreshold => ?_, ?_⟩
  · exact h.readable q e children (hpath q hq) (hthreshold.mono hPQ)
  · exact Subrelation.accessible (fun {q r} hqr => hrequires r q hqr) h.grounded

theorem wellFormed_iff : WellFormed forest P r ↔ (∃ trees, forest r = .ok trees) ∧
    (∀ e children, ¬Consulted forest P r (.atLeast (.error e) children)) ∧
      ∀ q, Requires forest P r q → WellFormed forest P q := by
  constructor
  · intro h
    refine ⟨h.filed r .refl, fun e children => h.readable r e children .refl, fun q hq => ?_⟩
    exact ⟨fun p hp => h.filed p (.head hq hp), fun p e children hp => h.readable p e children
      (.head hq hp), h.grounded.inv hq⟩
  · rintro ⟨hfiled, hreadable, hrest⟩
    refine ⟨fun p hp => ?_, fun p e children hp => ?_, ⟨r, fun q hq => (hrest q hq).grounded⟩⟩
    · rcases Relation.ReflTransGen.cases_head hp with rfl | ⟨q, hq, hqp⟩
      · exact hfiled
      · exact (hrest q hq).filed p hqp
    · rcases Relation.ReflTransGen.cases_head hp with rfl | ⟨q, hq, hqp⟩
      · exact hreadable e children
      · exact (hrest q hq).readable p e children hqp

/-- An evaluation that returns has looked at every tree that it consults. -/
theorem eval_of_consulted {limit : ℕ} (h : forest.eval tooDeep atom (limit + 1) r = .ok b)
    (ht : Consulted forest (atom · = true) r t) :
    ∃ b, t.eval atom (forest.eval tooDeep atom limit) = .ok b := by
  have hreached : ∀ {u : Tree A R ε}, Holds forest (atom · = true) u → ∀ b,
      u.eval atom (forest.eval tooDeep atom limit) = .ok b → b = true :=
    fun hu _ hb => eval_of_holds (fun _ _ hq hb => forest_eval_of_holds hq hb) hu hb
  induction ht with
  | @root before after t hr hbefore =>
    rw [Forest.eval, hr] at h
    exact eval_of_evalAll h fun u hu => hreached (hbefore u hu)
  | @all before after t _ hbefore ih =>
    obtain ⟨b', hb'⟩ := ih
    rw [Tree.eval] at hb'
    exact eval_of_evalAll hb' fun u hu => hreached (hbefore u hu)
  | @atLeast threshold children t _ ht ih =>
    obtain ⟨b', hb'⟩ := ih
    rw [Tree.eval] at hb'
    cases hcount : countReached atom (forest.eval tooDeep atom limit) children with
    | error e =>
      rw [hcount] at hb'
      cases hb'
    | ok count => exact eval_of_countReached hcount t ht

theorem wellFormed_of_eval {limit : ℕ} (h : forest.eval tooDeep atom limit r = .ok b) :
    WellFormed forest (atom · = true) r := by
  induction limit generalizing r b with
  | zero => cases h
  | succ limit ih =>
    refine wellFormed_iff.mpr ⟨?_, fun e children hconsulted => ?_, fun q hq => ?_⟩
    · rw [Forest.eval] at h
      cases hr : forest r with
      | error e =>
        rw [hr] at h
        cases h
      | ok trees => exact ⟨trees, rfl⟩
    · obtain ⟨b', hb'⟩ := eval_of_consulted h hconsulted
      rw [Tree.eval] at hb'
      cases hcount : countReached atom (forest.eval tooDeep atom limit) children with
      | error e =>
        rw [hcount] at hb'
        cases hb'
      | ok count =>
        rw [hcount] at hb'
        cases hb'
    · obtain ⟨b', hb'⟩ := eval_of_consulted h hq
      exact ih hb'

/-- The evaluation of a tree returns for every limit from some limit on. -/
def Returns (forest : Forest A R ε) (tooDeep : ε) (atom : A → Bool) (t : Tree A R ε) : Prop :=
  ∃ n b, ∀ limit, n ≤ limit → t.eval atom (forest.eval tooDeep atom limit) = .ok b

theorem evalAll_returns (forest : Forest A R ε) (tooDeep : ε) (atom : A → Bool)
    (row : List (Tree A R ε))
    (hreturns : ∀ before t after, row = before ++ t :: after →
      (∀ u ∈ before, Holds forest (atom · = true) u) → Returns forest tooDeep atom t) :
    ∃ n b, ∀ limit, n ≤ limit →
      evalAll atom (forest.eval tooDeep atom limit) row = .ok b := by
  induction row with
  | nil => exact ⟨0, true, fun _ _ => rfl⟩
  | cons t rest ih =>
    obtain ⟨n, b, ht⟩ := hreturns [] t rest rfl (by simp)
    cases b with
    | false => exact ⟨n, false, fun limit hle => by rw [evalAll, ht limit hle]⟩
    | true =>
      have hholds : Holds forest (atom · = true) t :=
        holds_of_eval (fun q hq => forest_holds_of_eval hq) (ht n (Nat.le_refl n))
      obtain ⟨m, b, hrest⟩ := ih fun before u after hrow hbefore =>
        hreturns (t :: before) u after (by rw [hrow]; rfl) fun v hv => by
          rcases List.mem_cons.mp hv with rfl | hv
          · exact hholds
          · exact hbefore v hv
      refine ⟨max n m, b, fun limit hle => ?_⟩
      have hn : n ≤ limit := (Nat.le_max_left n m).trans hle
      have hm : m ≤ limit := (Nat.le_max_right n m).trans hle
      rw [evalAll, ht limit hn]
      exact hrest limit hm

theorem countReached_returns (forest : Forest A R ε) (tooDeep : ε) (atom : A → Bool)
    {row : List (Tree A R ε)}
    (hreturns : ∀ t ∈ row, Returns forest tooDeep atom t) :
    ∃ n count, ∀ limit, n ≤ limit →
      countReached atom (forest.eval tooDeep atom limit) row = .ok count := by
  induction row with
  | nil => exact ⟨0, 0, fun _ _ => rfl⟩
  | cons t rest ih =>
    obtain ⟨n, b, ht⟩ := hreturns t List.mem_cons_self
    obtain ⟨m, count, hrest⟩ := ih fun u hu => hreturns u (List.mem_cons_of_mem t hu)
    refine ⟨max n m, if b = true then count + 1 else count, fun limit hle => ?_⟩
    have hn : n ≤ limit := (Nat.le_max_left n m).trans hle
    have hm : m ≤ limit := (Nat.le_max_right n m).trans hle
    rw [countReached, ht limit hn, hrest limit hm]

/-- Where thresholds can be read and references return, every tree that is consulted returns. -/
theorem returns_of_consulted
    (hreadable : ∀ e children, ¬Consulted forest (atom · = true) r (.atLeast (.error e) children))
    (href : ∀ q, Requires forest (atom · = true) r q → Returns forest tooDeep atom (.ref q))
    (ht : Consulted forest (atom · = true) r t) : Returns forest tooDeep atom t := by
  induction t using Tree.inductionOn with
  | atom a => exact ⟨0, atom a, fun _ _ => rfl⟩
  | ref q => exact href q ht
  | all children ih =>
    refine evalAll_returns forest tooDeep atom children fun before u after hrow hbefore => ?_
    subst hrow
    exact ih u (by simp) (.all ht hbefore)
  | atLeast threshold children ih =>
    obtain ⟨n, count, hcount⟩ := countReached_returns forest tooDeep atom fun u hu =>
      ih u hu (.atLeast ht hu)
    cases threshold with
    | error e => exact absurd ht (hreadable e children)
    | ok k => exact ⟨n, decide (k ≤ (count : ℤ)), fun limit hle => by
        rw [Tree.eval, hcount limit hle]⟩
  | never => exact ⟨0, false, fun _ _ => rfl⟩

theorem returns_of_wellFormed (tooDeep : ε) (h : WellFormed forest (atom · = true) r) :
    Returns forest tooDeep atom (.ref r) := by
  have hacc := h.grounded
  induction hacc with
  | intro r _ ih =>
    obtain ⟨⟨trees, hr⟩, hreadable, hrest⟩ := wellFormed_iff.mp h
    have hconsulted : ∀ t, Consulted forest (atom · = true) r t → Returns forest tooDeep atom t :=
      fun t ht => returns_of_consulted hreadable (fun q hq => ih q hq (hrest q hq)) ht
    obtain ⟨n, b, hrow⟩ := evalAll_returns forest tooDeep atom trees
      fun before t after hrow hbefore => hconsulted t (.root (by rw [hr, hrow]) hbefore)
    refine ⟨n + 1, b, fun limit hle => ?_⟩
    obtain ⟨k, rfl⟩ := Nat.exists_eq_add_of_le hle
    have hlimit : n + 1 + k = (n + k) + 1 := by omega
    rw [Tree.eval, hlimit, Forest.eval, hr]
    exact hrow (n + k) (Nat.le_add_right n k)

/-- An evaluation returns with some limit exactly where the forest is well-formed. -/
theorem forest_returns_iff :
    (∃ limit b, forest.eval tooDeep atom limit r = .ok b) ↔ WellFormed forest (atom · = true) r := by
  constructor
  · rintro ⟨limit, b, h⟩
    exact wellFormed_of_eval h
  · intro h
    obtain ⟨n, b, hn⟩ := returns_of_wellFormed tooDeep h
    exact ⟨n, b, hn n (Nat.le_refl n)⟩

/-! ## Fewer atoms -/

/-- The first evaluation returns wherever the second does, and is reached only where the second is. -/
def Below (x y : Except ε Bool) : Prop := ∀ b', y = .ok b' → ∃ b, x = .ok b ∧ (b = true → b' = true)

theorem evalAll_anti {atom' : A → Bool} {ref' : R → Except ε Bool} (row : List (Tree A R ε))
    (h : ∀ t ∈ row, Below (t.eval atom ref) (t.eval atom' ref')) :
    Below (evalAll atom ref row) (evalAll atom' ref' row) := by
  induction row with
  | nil => exact fun b' hb' => ⟨b', hb', id⟩
  | cons u rest ih =>
    intro b' hb'
    have hrest := ih fun t ht => h t (List.mem_cons_of_mem u ht)
    rcases evalAll_cons_ok hb' with ⟨hu, rfl⟩ | ⟨hu, hmore⟩
    · obtain ⟨b, hb, himp⟩ := h u List.mem_cons_self false hu
      obtain rfl : b = false := by simpa using himp
      exact ⟨false, by rw [evalAll, hb], by simp⟩
    · obtain ⟨b, hb, -⟩ := h u List.mem_cons_self true hu
      cases b with
      | false => exact ⟨false, by rw [evalAll, hb], by simp⟩
      | true =>
        obtain ⟨b, hmore, himp⟩ := hrest b' hmore
        exact ⟨b, by rw [evalAll, hb]; exact hmore, himp⟩

theorem countReached_anti {atom' : A → Bool} {ref' : R → Except ε Bool} {row : List (Tree A R ε)}
    {count' : ℕ} (h : ∀ t ∈ row, Below (t.eval atom ref) (t.eval atom' ref'))
    (hcount : countReached atom' ref' row = .ok count') :
    ∃ count, countReached atom ref row = .ok count ∧ count ≤ count' := by
  induction row generalizing count' with
  | nil => exact ⟨0, rfl, Nat.zero_le _⟩
  | cons u rest ih =>
    obtain ⟨b', rest', hu, hrest, rfl⟩ := countReached_cons_ok hcount
    obtain ⟨b, hb, himp⟩ := h u List.mem_cons_self b' hu
    obtain ⟨count, hcount, hle⟩ := ih (fun t ht => h t (List.mem_cons_of_mem u ht)) hrest
    refine ⟨if b = true then count + 1 else count, by rw [countReached, hb, hcount], ?_⟩
    cases b with
    | false =>
      have hmore : rest' ≤ if b' = true then rest' + 1 else rest' := by split <;> omega
      exact hle.trans hmore
    | true =>
      rw [if_pos rfl, if_pos (himp rfl)]
      omega

/-- Where fewer atoms hold, an evaluation returns and reaches less. -/
theorem eval_anti {atom' : A → Bool} {ref' : R → Except ε Bool}
    (hatom : ∀ a, atom a = true → atom' a = true) (href : ∀ r, Below (ref r) (ref' r))
    (t : Tree A R ε) : Below (t.eval atom ref) (t.eval atom' ref') := by
  induction t using Tree.inductionOn with
  | atom a =>
    intro b' hb'
    rw [Tree.eval] at hb'
    obtain rfl := Except.ok.inj hb'
    exact ⟨atom a, by rw [Tree.eval], hatom a⟩
  | ref r => exact href r
  | all children ih => exact evalAll_anti children ih
  | atLeast threshold children ih =>
    intro b' hb'
    rw [Tree.eval] at hb'
    cases hcount' : countReached atom' ref' children with
    | error e =>
      rw [hcount'] at hb'
      cases hb'
    | ok count' =>
      rw [hcount'] at hb'
      cases threshold with
      | error e => cases hb'
      | ok k =>
        obtain ⟨count, hcount, hle⟩ := countReached_anti ih hcount'
        obtain rfl := Except.ok.inj hb'
        refine ⟨decide (k ≤ (count : ℤ)), by rw [Tree.eval, hcount], fun hk => ?_⟩
        have hk : k ≤ (count : ℤ) := of_decide_eq_true hk
        exact decide_eq_true (by omega)
  | never => exact fun b' hb' => ⟨b', hb', id⟩

theorem forest_eval_anti {atom' : A → Bool} (hatom : ∀ a, atom a = true → atom' a = true)
    (limit : ℕ) (r : R) :
    Below (forest.eval tooDeep atom limit r) (forest.eval tooDeep atom' limit r) := by
  induction limit generalizing r with
  | zero => exact fun b' hb' => by cases hb'
  | succ limit ih =>
    intro b' hb'
    rw [Forest.eval] at hb'
    cases hr : forest r with
    | error e =>
      rw [hr] at hb'
      cases hb'
    | ok trees =>
      rw [hr] at hb'
      rw [Forest.eval, hr]
      exact evalAll_anti trees (fun t _ => eval_anti hatom ih t) b' hb'

end Threshold

import Mathlib.Data.List.Infix

/-!
# Two batches that are flushed together

A loop adds to two batches what it reads off its items. When one of the two is full, both are flushed.
-/

namespace Batches

variable {α β γ : Type}

/-- The two batches, and the pairs of batches that were flushed. -/
structure Lanes (β γ : Type) where
  first : List β
  second : List γ
  flushed : List (List β × List γ)

/-- Nothing is added yet. -/
def Lanes.empty : Lanes β γ := ⟨[], [], []⟩

def Lanes.add (b : Lanes β γ) (x : Option β) (y : Option γ) : Lanes β γ :=
  ⟨b.first ++ x.toList, b.second ++ y.toList, b.flushed⟩

def Lanes.flush (b : Lanes β γ) : Lanes β γ := ⟨[], [], b.flushed ++ [(b.first, b.second)]⟩

/-- All that was added to the first batch, and to the second. -/
def Lanes.firsts (b : Lanes β γ) : List β := b.flushed.flatMap (·.1) ++ b.first

def Lanes.seconds (b : Lanes β γ) : List γ := b.flushed.flatMap (·.2) ++ b.second

section Loop

variable (limit : ℕ) (f : α → Option β) (g : α → Option γ)

/-- Add an item, and flush if a batch is full or `always` says so. -/
def take (always : Bool) (b : Lanes β γ) (x : α) : Lanes β γ :=
  let b := b.add (f x) (g x)
  if b.first.length = limit ∨ b.second.length = limit ∨ always = true then b.flush else b

/-- The items fill neither batch. -/
def FillsNone (xs : List α) : Prop :=
  (xs.filterMap f).length < limit ∧ (xs.filterMap g).length < limit

/-- With the last of the items a batch is full, and not before. -/
structure FillsOne (xs : List α) : Prop where
  full : (xs.filterMap f).length = limit ∨ (xs.filterMap g).length = limit
  before : ∀ ys, ys <+: xs → ys ≠ xs → FillsNone limit f g ys

/-- The items make so many full batches, and nothing is left over. -/
inductive FillsBatches : List α → Prop where
  | nil : FillsBatches []
  | append {before xs : List α} (h : FillsBatches before) (hxs : FillsOne limit f g xs) :
    FillsBatches (before ++ xs)

end Loop

/-!
## What is flushed

Nothing that is added is lost: it is flushed or it is in a batch. No batch gets longer than the limit. What
is left in the batches at the end is what comes after the last full batch.
-/

variable {limit : ℕ} {f : α → Option β} {g : α → Option γ} {always : Bool}
  {b : Lanes β γ} {xs before rest : List α} {x : α}

/-! ## One item -/

theorem take_cases (limit : ℕ) (f : α → Option β) (g : α → Option γ) (always : Bool) (b : Lanes β γ)
    (x : α) :
    take limit f g always b x = (b.add (f x) (g x)).flush ∨
      (take limit f g always b x = b.add (f x) (g x) ∧ (b.add (f x) (g x)).first.length ≠ limit ∧
        (b.add (f x) (g x)).second.length ≠ limit ∧ always = false) := by
  unfold take
  dsimp only
  split
  · exact .inl rfl
  · rename_i hnot
    obtain ⟨hfirst, hrest⟩ := not_or.mp hnot
    obtain ⟨hsecond, halways⟩ := not_or.mp hrest
    exact .inr ⟨rfl, hfirst, hsecond, Bool.eq_false_iff.mpr halways⟩

@[simp] theorem flush_firsts : b.flush.firsts = b.firsts := by
  simp [Lanes.flush, Lanes.firsts]

@[simp] theorem flush_seconds : b.flush.seconds = b.seconds := by
  simp [Lanes.flush, Lanes.seconds]

theorem take_firsts : (take limit f g always b x).firsts = b.firsts ++ (f x).toList := by
  have hadd : (b.add (f x) (g x)).firsts = b.firsts ++ (f x).toList := by
    simp [Lanes.add, Lanes.firsts]
  rcases take_cases limit f g always b x with h | ⟨h, -⟩
  · rw [h, flush_firsts, hadd]
  · rw [h, hadd]

theorem take_seconds : (take limit f g always b x).seconds = b.seconds ++ (g x).toList := by
  have hadd : (b.add (f x) (g x)).seconds = b.seconds ++ (g x).toList := by
    simp [Lanes.add, Lanes.seconds]
  rcases take_cases limit f g always b x with h | ⟨h, -⟩
  · rw [h, flush_seconds, hadd]
  · rw [h, hadd]

/-- No batch is over the limit. -/
structure Lanes.Within (limit : ℕ) (b : Lanes β γ) : Prop where
  first : b.first.length < limit
  second : b.second.length < limit
  flushed : ∀ batches ∈ b.flushed, batches.1.length ≤ limit ∧ batches.2.length ≤ limit

theorem within_empty (h : 0 < limit) : (Lanes.empty : Lanes β γ).Within limit :=
  ⟨h, h, fun _ hmem => absurd hmem (List.not_mem_nil)⟩

theorem length_toList_le (y : Option β) : y.toList.length ≤ 1 := by
  cases y <;> simp

theorem Lanes.Within.take (h : b.Within limit) (x : α) : (take limit f g always b x).Within limit := by
  have hpos : 0 < limit := lt_of_le_of_lt (Nat.zero_le _) h.first
  have hfirst : (b.add (f x) (g x)).first.length ≤ limit := by
    have hone := length_toList_le (f x)
    have hlt := h.first
    simp only [Lanes.add, List.length_append]
    omega
  have hsecond : (b.add (f x) (g x)).second.length ≤ limit := by
    have hone := length_toList_le (g x)
    have hlt := h.second
    simp only [Lanes.add, List.length_append]
    omega
  rcases take_cases limit f g always b x with heq | ⟨heq, hneFirst, hneSecond, -⟩
  · rw [heq]
    refine ⟨hpos, hpos, fun batches hmem => ?_⟩
    rcases List.mem_append.mp hmem with hmem | hmem
    · exact h.flushed batches hmem
    · rw [List.mem_singleton.mp hmem]
      exact ⟨hfirst, hsecond⟩
  · rw [heq]
    exact ⟨lt_of_le_of_ne hfirst hneFirst, lt_of_le_of_ne hsecond hneSecond, h.flushed⟩

/-! ## All items -/

theorem filterMap_cons_toList (f : α → Option β) (x : α) (xs : List α) :
    (x :: xs).filterMap f = (f x).toList ++ xs.filterMap f := by
  cases h : f x <;> simp [h]

theorem foldl_take_firsts :
    (xs.foldl (take limit f g always) b).firsts = b.firsts ++ xs.filterMap f := by
  induction xs generalizing b with
  | nil => simp
  | cons x xs ih => rw [List.foldl_cons, ih, take_firsts, filterMap_cons_toList, List.append_assoc]

theorem foldl_take_seconds :
    (xs.foldl (take limit f g always) b).seconds = b.seconds ++ xs.filterMap g := by
  induction xs generalizing b with
  | nil => simp
  | cons x xs ih => rw [List.foldl_cons, ih, take_seconds, filterMap_cons_toList, List.append_assoc]

theorem Lanes.Within.foldl (h : b.Within limit) (xs : List α) :
    (xs.foldl (Batches.take limit f g always) b).Within limit := by
  induction xs generalizing b with
  | nil => exact h
  | cons x xs ih => exact ih (h.take x)

/-- If every item is followed by a flush, nothing stays in the batches. -/
theorem foldl_take_always (hxs : xs ≠ []) :
    (xs.foldl (take limit f g true) b).first = [] ∧ (xs.foldl (take limit f g true) b).second = [] := by
  obtain ⟨ys, x, rfl⟩ := (List.eq_nil_or_concat xs).resolve_left hxs
  rw [List.concat_eq_append, List.foldl_append, List.foldl_cons, List.foldl_nil]
  rcases take_cases limit f g true (ys.foldl (take limit f g true) b) x with h | ⟨-, -, -, h⟩
  · rw [h]
    exact ⟨rfl, rfl⟩
  · cases h

/-! ## The last full batch -/

/-- Items that fill no batch stay in the batches. -/
theorem foldl_take_of_fillsNone (hb : b.first = [] ∧ b.second = []) (h : FillsNone limit f g xs) :
    xs.foldl (take limit f g false) b = ⟨xs.filterMap f, xs.filterMap g, b.flushed⟩ := by
  induction xs using List.reverseRecOn with
  | nil =>
    obtain ⟨hfirst, hsecond⟩ := hb
    cases b
    simp_all
  | append_singleton xs x ih =>
    obtain ⟨hfirst, hsecond⟩ := h
    rw [List.filterMap_append, List.length_append] at hfirst hsecond
    have hxs : FillsNone limit f g xs := ⟨by omega, by omega⟩
    have happend {δ : Type} (k : α → Option δ) :
        (xs ++ [x]).filterMap k = xs.filterMap k ++ (k x).toList := by
      rw [List.filterMap_append, filterMap_cons_toList, List.filterMap_nil, List.append_nil]
    rw [List.foldl_append, ih hxs, List.foldl_cons, List.foldl_nil, happend f, happend g]
    rw [filterMap_cons_toList, List.filterMap_nil, List.append_nil] at hfirst hsecond
    unfold take Lanes.add
    dsimp only
    rw [List.length_append, List.length_append, if_neg]
    simp only [Bool.false_eq_true, or_false, not_or]
    omega

/-- Items that fill a batch are flushed. -/
theorem foldl_take_of_fillsOne (hlimit : 0 < limit) (hb : b.first = [] ∧ b.second = [])
    (h : FillsOne limit f g xs) :
    xs.foldl (take limit f g false) b = ⟨[], [], b.flushed ++ [(xs.filterMap f, xs.filterMap g)]⟩ := by
  rcases List.eq_nil_or_concat xs with rfl | ⟨ys, x, rfl⟩
  · have hzero := h.full
    simp only [List.filterMap_nil, List.length_nil, or_self] at hzero
    omega
  · rw [List.concat_eq_append] at h ⊢
    have hys := h.before ys (List.prefix_append ys [x]) (by simp)
    have happend {δ : Type} (k : α → Option δ) :
        (ys ++ [x]).filterMap k = ys.filterMap k ++ (k x).toList := by
      rw [List.filterMap_append, filterMap_cons_toList, List.filterMap_nil, List.append_nil]
    have hfull := h.full
    rw [happend f, happend g] at hfull ⊢
    rw [List.foldl_append, foldl_take_of_fillsNone hb hys, List.foldl_cons, List.foldl_nil]
    unfold take Lanes.add
    dsimp only
    rw [if_pos (hfull.imp_right Or.inl)]
    rfl

theorem foldl_take_of_fillsBatches (hlimit : 0 < limit) (h : FillsBatches limit f g before) :
    (before.foldl (take limit f g false) Lanes.empty).first = [] ∧
      (before.foldl (take limit f g false) Lanes.empty).second = [] := by
  induction h with
  | nil => exact ⟨rfl, rfl⟩
  | append _ hxs ih =>
    rw [List.foldl_append, foldl_take_of_fillsOne hlimit ih hxs]
    exact ⟨rfl, rfl⟩

/-- What is left in the batches is what comes after the last full batch, and that before was flushed. -/
theorem foldl_take_of_split (hlimit : 0 < limit) (hbefore : FillsBatches limit f g before)
    (hrest : FillsNone limit f g rest) :
    ((before ++ rest).foldl (take limit f g false) Lanes.empty).first = rest.filterMap f ∧
      ((before ++ rest).foldl (take limit f g false) Lanes.empty).second = rest.filterMap g ∧
      ((before ++ rest).foldl (take limit f g false) Lanes.empty).flushed.flatMap (·.1) =
        before.filterMap f ∧
      ((before ++ rest).foldl (take limit f g false) Lanes.empty).flushed.flatMap (·.2) =
        before.filterMap g := by
  have hempty := foldl_take_of_fillsBatches hlimit hbefore
  have hfirsts : (before.foldl (take limit f g false) Lanes.empty).firsts = before.filterMap f :=
    foldl_take_firsts
  have hseconds : (before.foldl (take limit f g false) Lanes.empty).seconds = before.filterMap g :=
    foldl_take_seconds
  rw [Lanes.firsts, hempty.1, List.append_nil] at hfirsts
  rw [Lanes.seconds, hempty.2, List.append_nil] at hseconds
  rw [List.foldl_append, foldl_take_of_fillsNone hempty hrest]
  exact ⟨rfl, rfl, hfirsts, hseconds⟩

/-- All items are full batches and a rest. -/
theorem exists_fillsBatches (hlimit : 0 < limit) (f : α → Option β) (g : α → Option γ) (xs : List α) :
    ∃ before rest, xs = before ++ rest ∧ FillsBatches limit f g before ∧ FillsNone limit f g rest := by
  induction xs using List.reverseRecOn with
  | nil => exact ⟨[], [], rfl, .nil, hlimit, hlimit⟩
  | append_singleton xs x ih =>
    obtain ⟨before, rest, rfl, hbefore, hrest⟩ := ih
    by_cases hfull : ((rest ++ [x]).filterMap f).length = limit ∨ ((rest ++ [x]).filterMap g).length = limit
    · refine ⟨before ++ (rest ++ [x]), [], by simp, hbefore.append ⟨hfull, fun ys hys hne => ?_⟩,
        hlimit, hlimit⟩
      obtain ⟨more, hmore⟩ := (List.prefix_concat_iff.mp hys).resolve_left hne
      obtain ⟨hfirst, hsecond⟩ := hrest
      rw [← hmore, List.filterMap_append, List.length_append] at hfirst hsecond
      exact ⟨by omega, by omega⟩
    · obtain ⟨hneFirst, hneSecond⟩ := not_or.mp hfull
      refine ⟨before, rest ++ [x], by simp, hbefore, ?_⟩
      obtain ⟨hfirst, hsecond⟩ := hrest
      have hone := length_toList_le (f x)
      have htwo := length_toList_le (g x)
      unfold FillsNone
      rw [List.filterMap_append, List.length_append, filterMap_cons_toList, List.filterMap_nil,
        List.append_nil] at hneFirst hneSecond ⊢
      rw [List.filterMap_append, List.length_append, filterMap_cons_toList, List.filterMap_nil,
        List.append_nil]
      omega

end Batches

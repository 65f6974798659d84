import Mathlib.Data.List.Induction
import Mathlib.Data.List.Nodup

/-!
# Dictionaries

A dictionary lists its entries and has no key twice, so what it says of a key does not depend on the
order of the entries. A set is listed in the same way.
-/

/-- A dictionary from `κ` to `ν`. -/
structure Dict (κ ν : Type) where
  entries : List (κ × ν)
  nodup : (entries.map Prod.fst).Nodup

namespace Dict

variable {κ ν : Type}

theorem eq_of_entries_eq {d d' : Dict κ ν} (h : d.entries = d'.entries) : d = d' := by
  cases d
  cases d'
  cases h
  rfl

def keys (d : Dict κ ν) : List κ := d.entries.map Prod.fst

def values (d : Dict κ ν) : List ν := d.entries.map Prod.snd

/-- The value of a key, if it has one. -/
def get [BEq κ] (d : Dict κ ν) (k : κ) : Option ν := d.entries.lookup k

/-- `{}` -/
def empty : Dict κ ν := ⟨[], List.nodup_nil⟩

/-- The entries after a key was set: its entry keeps its place, a new one comes last. -/
def setEntries [DecidableEq κ] (entries : List (κ × ν)) (k : κ) (v : ν) : List (κ × ν) :=
  if k ∈ entries.map Prod.fst then entries.map fun entry => if entry.1 = k then (k, v) else entry
  else entries ++ [(k, v)]

/-- A new value in its place leaves the keys. -/
theorem map_fst_setEntries [DecidableEq κ] (entries : List (κ × ν)) (k : κ) (v : ν) :
    (entries.map fun entry => if entry.1 = k then (k, v) else entry).map Prod.fst =
      entries.map Prod.fst := by
  rw [List.map_map]
  refine List.map_congr_left fun entry _ => ?_
  by_cases hk : entry.1 = k <;> simp [hk]

theorem setEntries_nodup [DecidableEq κ] {entries : List (κ × ν)}
    (h : (entries.map Prod.fst).Nodup) (k : κ) (v : ν) :
    ((setEntries entries k v).map Prod.fst).Nodup := by
  unfold setEntries
  split
  · rw [map_fst_setEntries]
    exact h
  · rename_i hk
    rw [List.map_append, List.nodup_append]
    refine ⟨h, List.nodup_singleton _, fun a ha b hb hab => ?_⟩
    obtain rfl : b = k := List.mem_singleton.mp hb
    rw [hab] at ha
    exact hk ha

/-- `d[k] = v` -/
def set [DecidableEq κ] (d : Dict κ ν) (k : κ) (v : ν) : Dict κ ν :=
  ⟨setEntries d.entries k v, setEntries_nodup d.nodup k v⟩

/-- Set one key after the other. -/
def setAll [DecidableEq κ] (d : Dict κ ν) (entries : List (κ × ν)) : Dict κ ν :=
  entries.foldl (fun d entry => d.set entry.1 entry.2) d

theorem mem_keys_set [DecidableEq κ] {d : Dict κ ν} {k k' : κ} {v : ν} :
    k' ∈ (d.set k v).keys ↔ k' = k ∨ k' ∈ d.keys := by
  unfold keys set setEntries
  split
  · rename_i hk
    rw [map_fst_setEntries]
    exact (or_iff_right_of_imp fun heq => heq ▸ hk).symm
  · simp [or_comm]

theorem mem_keys_setAll [DecidableEq κ] {d : Dict κ ν} {entries : List (κ × ν)} {k : κ} :
    k ∈ (d.setAll entries).keys ↔ k ∈ d.keys ∨ k ∈ entries.map Prod.fst := by
  induction entries generalizing d with
  | nil => simp [setAll]
  | cons entry rest ih =>
    show k ∈ ((d.set entry.1 entry.2).setAll rest).keys ↔ _
    rw [ih, mem_keys_set, List.map_cons, List.mem_cons]
    tauto

/-- Keys that are new are added in their order. -/
theorem setAll_entries [DecidableEq κ] (d : Dict κ ν) (entries : List (κ × ν))
    (h : (d.keys ++ entries.map Prod.fst).Nodup) :
    (d.setAll entries).entries = d.entries ++ entries := by
  induction entries generalizing d with
  | nil => simp [setAll]
  | cons entry rest ih =>
    have hnew : entry.1 ∉ d.keys := by
      intro hmem
      exact (List.nodup_append.mp h).2.2 _ hmem _ (List.mem_map_of_mem List.mem_cons_self) rfl
    have hset : (d.set entry.1 entry.2).entries = d.entries ++ [entry] := if_neg hnew
    have hkeys : (d.set entry.1 entry.2).keys = d.keys ++ [entry.1] := by
      unfold keys
      rw [hset, List.map_append, List.map_singleton]
    have hrest := ih (d.set entry.1 entry.2) (by
      rw [hkeys, List.append_assoc]
      exact h)
    rw [hset, List.append_assoc] at hrest
    exact hrest

/-- An update that keeps or drops entries keeps the keys different. -/
theorem map_fst_filterMap_sublist {μ : Type} {f : κ × ν → Option (κ × μ)}
    (hf : ∀ entry entry', f entry = some entry' → entry'.1 = entry.1) (entries : List (κ × ν)) :
    ((entries.filterMap f).map Prod.fst).Sublist (entries.map Prod.fst) := by
  induction entries with
  | nil => exact List.Sublist.refl []
  | cons entry rest ih =>
    rw [List.map_cons]
    cases hentry : f entry with
    | none =>
      rw [List.filterMap_cons_none hentry]
      exact ih.trans (List.sublist_cons_self _ _)
    | some entry' =>
      rw [List.filterMap_cons_some hentry, List.map_cons, hf entry entry' hentry]
      exact ih.cons_cons _

/-- `{**a, **b}` of two dictionaries that were set up with different keys. -/
theorem merge_entries [DecidableEq κ] (a b : List (κ × ν)) (h : ((a ++ b).map Prod.fst).Nodup) :
    (((empty : Dict κ ν).setAll a).setAll ((empty : Dict κ ν).setAll b).entries).entries = a ++ b := by
  rw [List.map_append] at h
  have hb : ((empty : Dict κ ν).setAll b).entries = b := setAll_entries _ b (List.nodup_append.mp h).2.1
  have ha : ((empty : Dict κ ν).setAll a).entries = a := setAll_entries _ a (List.nodup_append.mp h).1
  rw [hb, setAll_entries, ha]
  unfold keys
  rw [ha]
  exact h

variable [BEq κ] [LawfulBEq κ] {d : Dict κ ν} {k : κ} {v : ν}

theorem lookup_eq_some_of_mem {entries : List (κ × ν)} (hnodup : (entries.map Prod.fst).Nodup)
    (h : (k, v) ∈ entries) : entries.lookup k = some v := by
  obtain ⟨before, rest, rfl⟩ := List.append_of_mem h
  refine List.lookup_eq_some_iff.mpr ⟨before, rest, rfl, fun entry hentry => ?_⟩
  rw [List.map_append, List.map_cons] at hnodup
  have hne : entry.1 ≠ k := by
    rintro rfl
    have hdisjoint := List.disjoint_of_nodup_append hnodup
    exact hdisjoint (List.mem_map_of_mem hentry) (List.mem_cons_self ..)
  simpa using Ne.symm hne

theorem get_eq_some_iff : d.get k = some v ↔ (k, v) ∈ d.entries := by
  constructor
  · intro h
    obtain ⟨before, rest, hentries, -⟩ := List.lookup_eq_some_iff.mp h
    rw [hentries]
    exact List.mem_append_right _ (List.mem_cons_self ..)
  · exact lookup_eq_some_of_mem d.nodup

/-- A key has a value exactly if it is listed. -/
theorem mem_keys_iff : k ∈ d.keys ↔ ∃ v, d.get k = some v := by
  constructor
  · intro h
    obtain ⟨entry, hentry, rfl⟩ := List.mem_map.mp h
    exact ⟨entry.2, get_eq_some_iff.mpr hentry⟩
  · rintro ⟨v, hv⟩
    exact List.mem_map.mpr ⟨(k, v), get_eq_some_iff.mp hv, rfl⟩

theorem get_eq_none_iff : d.get k = none ↔ k ∉ d.keys := by
  rw [mem_keys_iff, not_exists, Option.eq_none_iff_forall_ne_some]

/-! ## Writes -/

section Writes

variable {κ ν : Type} [DecidableEq κ] {d : Dict κ ν} {k : κ} {v : ν}

theorem mem_set_entries {k' : κ} {v' : ν} :
    (k', v') ∈ (d.set k v).entries ↔ k' = k ∧ v' = v ∨ k' ≠ k ∧ (k', v') ∈ d.entries := by
  have hentries : (d.set k v).entries = setEntries d.entries k v := rfl
  rw [hentries]
  unfold setEntries
  split
  · rename_i hmem
    rw [List.mem_map]
    constructor
    · rintro ⟨entry, hentry, heq⟩
      split at heq
      · rw [Prod.mk.injEq] at heq
        exact .inl ⟨heq.1.symm, heq.2.symm⟩
      · rename_i hne
        rw [heq] at hentry hne
        exact .inr ⟨hne, hentry⟩
    · rintro (⟨rfl, rfl⟩ | ⟨hne, hentry⟩)
      · obtain ⟨entry, hentry, hk⟩ := List.mem_map.mp hmem
        exact ⟨entry, hentry, if_pos hk⟩
      · exact ⟨(k', v'), hentry, if_neg hne⟩
  · rename_i hnot
    rw [List.mem_append, List.mem_singleton, Prod.mk.injEq]
    have hne : (k', v') ∈ d.entries → k' ≠ k := by
      rintro hentry rfl
      exact hnot (List.mem_map.mpr ⟨_, hentry, rfl⟩)
    tauto

variable [BEq κ] [LawfulBEq κ]

theorem get_set_self : (d.set k v).get k = some v :=
  get_eq_some_iff.mpr (mem_set_entries.mpr (.inl ⟨rfl, rfl⟩))

theorem get_set_of_ne {k' : κ} (h : k' ≠ k) : (d.set k v).get k' = d.get k' := by
  ext v'
  rw [get_eq_some_iff, get_eq_some_iff, mem_set_entries]
  constructor
  · rintro (⟨heq, -⟩ | ⟨-, hmem⟩)
    · exact absurd heq h
    · exact hmem
  · exact fun hmem => .inr ⟨h, hmem⟩

theorem set_entries_of_new (h : d.get k = none) :
    (d.set k v).entries = d.entries ++ [(k, v)] := if_neg (get_eq_none_iff.mp h)

/-- To write what is there changes nothing. -/
theorem set_get_self (h : d.get k = some v) : d.set k v = d := by
  have hmem := get_eq_some_iff.mp h
  refine eq_of_entries_eq ((if_pos (List.mem_map_of_mem hmem)).trans ?_)
  refine (List.map_congr_left fun entry hentry => ?_).trans (List.map_id _)
  by_cases hk : entry.1 = k
  · rw [if_pos hk]
    exact List.inj_on_of_nodup_map d.nodup hmem hentry hk.symm
  · rw [if_neg hk]
    rfl

/-- Of two writes to a new key the second one stays. -/
theorem set_set_of_new {w : ν} (h : d.get k = none) : (d.set k v).set k w = d.set k w := by
  have hkeys : k ∉ d.entries.map Prod.fst := get_eq_none_iff.mp h
  have hmem : k ∈ (d.set k v).entries.map Prod.fst := mem_keys_set.mpr (.inl rfl)
  refine eq_of_entries_eq ((if_pos hmem).trans ?_)
  rw [set_entries_of_new h, set_entries_of_new h, List.map_append, List.map_singleton, if_pos rfl]
  congr 1
  refine (List.map_congr_left fun entry hentry => ?_).trans (List.map_id _)
  have hne : entry.1 ≠ k := fun hk => hkeys (hk ▸ List.mem_map_of_mem hentry)
  exact if_neg hne

theorem values_set_of_new (h : d.get k = none) : (d.set k v).values = d.values ++ [v] := by
  unfold values
  rw [set_entries_of_new h, List.map_append, List.map_singleton]

end Writes

/-! ## Groups -/

section Groups

variable {κ ν ι : Type} [DecidableEq κ] {key : ι → Option κ} {items : List ι}

/-- `d[key].append(item)`, for a dictionary whose default is an empty list. -/
def addItem (key : ι → Option κ) (d : Dict κ (List ι)) (item : ι) : Dict κ (List ι) :=
  match key item with
  | none => d
  | some k => d.set k ((d.get k).getD [] ++ [item])

/-- The items by their keys; those without a key are passed over. -/
def group (key : ι → Option κ) (items : List ι) : Dict κ (List ι) := items.foldl (addItem key) empty

/-- Each key that an item has comes with the items that have it, in their order. -/
theorem mem_group_entries {k : κ} {g : List ι} :
    (k, g) ∈ (group key items).entries ↔ g ≠ [] ∧ g = items.filter fun item => key item = some k := by
  induction items using List.reverseRecOn generalizing k g with
  | nil => simp [group, empty]
  | append_singleton items item ih =>
    have hgroup : group key (items ++ [item]) = addItem key (group key items) item := by
      simp [group]
    rw [hgroup, List.filter_append]
    unfold addItem
    cases hkey : key item with
    | none => simpa [hkey] using ih
    | some k' =>
      -- what was there of the key of the new item
      have hbefore : ((group key items).get k').getD [] =
          items.filter fun item => key item = some k' := by
        cases hget : (group key items).get k' with
        | some g' => exact (ih.mp (get_eq_some_iff.mp hget)).2
        | none =>
          by_contra hne
          have hsome := get_eq_some_iff.mpr (ih.mpr ⟨Ne.symm hne, rfl⟩)
          rw [hget] at hsome
          cases hsome
      rw [mem_set_entries, hbefore]
      by_cases hk : k = k'
      · subst hk
        simp only [hkey, true_and, ne_eq, not_true_eq_false, false_and, or_false, decide_true,
          List.filter_cons_of_pos, List.filter_nil]
        constructor
        · rintro rfl
          exact ⟨by simp, rfl⟩
        · exact fun h => h.2
      · have hother : ¬ some k' = some k := fun h => hk (Option.some.inj h).symm
        simp only [hkey, hk, false_and, ne_eq, not_false_eq_true, true_and, false_or, hother, decide_false,
          Bool.false_eq_true, List.filter_cons_of_neg, List.filter_nil, List.append_nil]
        exact ih

end Groups

end Dict

/-! ## Sets in the order of addition -/

/-- A set that lists its elements in the order in which they were added, as the rows of a link table are
listed. -/
@[ext] structure OrderedSet (α : Type) where
  elements : List α
  nodup : elements.Nodup
  deriving DecidableEq

namespace OrderedSet

variable {α : Type}

def empty : OrderedSet α := ⟨[], List.nodup_nil⟩

theorem nodup_concat {elements : List α} {a : α} (h : elements.Nodup) (ha : a ∉ elements) :
    (elements ++ [a]).Nodup := by
  rw [← List.concat_eq_append]
  exact List.Nodup.concat ha h

variable [DecidableEq α]

/-- An element that is there already keeps its place. -/
def add (s : OrderedSet α) (a : α) : OrderedSet α :=
  if h : a ∈ s.elements then s else ⟨s.elements ++ [a], nodup_concat s.nodup h⟩

def addAll (s : OrderedSet α) (as : List α) : OrderedSet α := as.foldl add s

variable {s : OrderedSet α} {a b : α} {as : List α}

theorem add_of_mem (h : a ∈ s.elements) : s.add a = s := dif_pos h

theorem add_elements_of_not_mem (h : a ∉ s.elements) : (s.add a).elements = s.elements ++ [a] := by
  unfold add
  rw [dif_neg h]

theorem mem_add : b ∈ (s.add a).elements ↔ b ∈ s.elements ∨ b = a := by
  by_cases h : a ∈ s.elements
  · rw [add_of_mem h]
    exact (or_iff_left_of_imp fun hb => hb ▸ h).symm
  · rw [add_elements_of_not_mem h, List.mem_append, List.mem_singleton]

theorem mem_addAll : b ∈ (s.addAll as).elements ↔ b ∈ s.elements ∨ b ∈ as := by
  induction as generalizing s with
  | nil => simp [addAll]
  | cons a rest ih =>
    show b ∈ ((s.add a).addAll rest).elements ↔ _
    rw [ih, mem_add, List.mem_cons, or_assoc]

/-- Adding what is there already changes nothing. -/
theorem addAll_of_subset (h : ∀ a ∈ as, a ∈ s.elements) : s.addAll as = s := by
  induction as with
  | nil => rfl
  | cons a rest ih =>
    show (s.add a).addAll rest = s
    rw [add_of_mem (h a List.mem_cons_self)]
    exact ih fun b hb => h b (List.mem_cons_of_mem a hb)

theorem addAll_addAll : (s.addAll as).addAll as = s.addAll as :=
  addAll_of_subset fun _ ha => mem_addAll.mpr (.inr ha)

/-- Elements that are new are added in their order. -/
theorem addAll_elements (h : (s.elements ++ as).Nodup) : (s.addAll as).elements = s.elements ++ as := by
  induction as generalizing s with
  | nil => simp [addAll]
  | cons a rest ih =>
    have hnew : a ∉ s.elements := by
      intro hmem
      exact (List.nodup_append.mp h).2.2 a hmem a List.mem_cons_self rfl
    have hadd := add_elements_of_not_mem hnew
    have hrest : (s.add a).elements ++ rest = s.elements ++ a :: rest := by
      rw [hadd, List.append_assoc, List.singleton_append]
    show ((s.add a).addAll rest).elements = _
    rw [ih (hrest ▸ h), hrest]

theorem empty_addAll_elements (h : as.Nodup) : ((empty : OrderedSet α).addAll as).elements = as :=
  addAll_elements h

end OrderedSet

import MitxOnline.Lib.Dict

/-!
# Requests that find a row or create it

Requests are served one after the other. A request that finds a row under its key leaves the table as it
is; one that finds none creates a row, which may fail. After a run of requests every one of them finds its
row, so the same run changes nothing the second time.
-/

namespace Upserts

variable {κ ν α ε : Type}

/-- Requests for the same key are the same. -/
def Consistent (key : α → κ) (as : List α) : Prop := ∀ a ∈ as, ∀ b ∈ as, key a = key b → a = b

theorem Consistent.subset {key : α → κ} {as bs : List α} (h : Consistent key as)
    (hsub : ∀ b ∈ bs, b ∈ as) : Consistent key bs :=
  fun a ha b hb => h a (hsub a ha) b (hsub b hb)

variable [DecidableEq κ]

/-- The first requests for the keys that were not seen before. -/
def firstsBy (key : α → κ) : List κ → List α → List α
  | _, [] => []
  | seen, a :: rest =>
    if key a ∈ seen then firstsBy key seen rest else a :: firstsBy key (key a :: seen) rest

/-! ## Code that may fail -/

section Code

variable {β : Type}

theorem bind_ok_iff {x : Except ε α} {f : α → Except ε β} {b : β} :
    (x >>= f) = .ok b ↔ ∃ a, x = .ok a ∧ f a = .ok b := by
  cases x with
  | error e =>
    constructor
    · intro h
      cases h
    · rintro ⟨a, ha, -⟩
      cases ha
  | ok a =>
    constructor
    · intro h
      exact ⟨a, rfl, h⟩
    · rintro ⟨a', ha, hf⟩
      cases ha
      exact hf

theorem foldlM_append_ok_iff {f : β → α → Except ε β} {s s' : β} {as bs : List α} :
    (as ++ bs).foldlM f s = .ok s' ↔ ∃ t, as.foldlM f s = .ok t ∧ bs.foldlM f t = .ok s' := by
  rw [List.foldlM_append, bind_ok_iff]

theorem foldlM_cons_ok_iff {f : β → α → Except ε β} {s s' : β} {a : α} {as : List α} :
    (a :: as).foldlM f s = .ok s' ↔ ∃ t, f s a = .ok t ∧ as.foldlM f t = .ok s' := by
  rw [List.foldlM_cons, bind_ok_iff]

theorem foldlM_nil_ok_iff {f : β → α → Except ε β} {s s' : β} :
    [].foldlM f s = .ok s' ↔ s = s' := by
  rw [List.foldlM_nil]
  exact ⟨Except.ok.inj, congrArg Except.ok⟩

theorem mapM_eq_some_iff {f : α → Option β} {as : List α} {bs : List β} :
    as.mapM f = some bs ↔ as.map f = bs.map some := by
  induction as generalizing bs with
  | nil => cases bs <;> simp
  | cons a rest ih =>
    rw [List.mapM_cons, List.map_cons]
    cases bs with
    | nil => cases f a <;> cases rest.mapM f <;> simp
    | cons b bs =>
      rw [List.map_cons, List.cons.injEq, ← ih]
      cases f a <;> cases rest.mapM f <;> simp

/-- What the results say of where they come from. -/
theorem map_of_mapM_eq_some {f : α → Option β} {g : β → α} {as : List α} {bs : List β}
    (h : as.mapM f = some bs) (hfg : ∀ a b, f a = some b → g b = a) : bs.map g = as := by
  rw [mapM_eq_some_iff] at h
  induction as generalizing bs with
  | nil =>
    obtain rfl : bs = [] := List.map_eq_nil_iff.mp h.symm
    rfl
  | cons a rest ih =>
    cases bs with
    | nil => cases h
    | cons b bs =>
      rw [List.map_cons, List.map_cons, List.cons.injEq] at h
      rw [List.map_cons, hfg a b h.1, ih h.2]

/-- A relation between any two of different classes that holds within each class holds throughout. -/
theorem pairwise_of_filter {κ : Type} [BEq κ] [LawfulBEq κ] {R : α → α → Prop} {as : List α} (key : α → κ)
    (hwithin : ∀ k, (as.filter fun a => key a == k).Pairwise R) (hacross : ∀ a b, key a ≠ key b → R a b) :
    as.Pairwise R := by
  induction as with
  | nil => exact List.Pairwise.nil
  | cons a rest ih =>
    refine List.pairwise_cons.mpr ⟨fun b hb => ?_, ih fun k => ?_⟩
    · by_cases hkey : key a = key b
      · have h := hwithin (key a)
        rw [List.filter_cons, if_pos (beq_self_eq_true _)] at h
        exact (List.pairwise_cons.mp h).1 b (List.mem_filter.mpr ⟨hb, beq_iff_eq.mpr hkey.symm⟩)
      · exact hacross a b hkey
    · exact (hwithin k).sublist ((List.sublist_cons_self a rest).filter _)

theorem forall₂_imp_of_mem {R S : α → β → Prop} {as : List α} {bs : List β} (h : List.Forall₂ R as bs)
    (himp : ∀ a ∈ as, ∀ b, R a b → S a b) : List.Forall₂ S as bs := by
  induction h with
  | nil => exact .nil
  | cons hhead htail ih =>
    refine .cons (himp _ List.mem_cons_self _ hhead) (ih fun a ha => himp a (List.mem_cons_of_mem _ ha))

theorem exists_of_forall₂ {R : α → β → Prop} {as : List α} {bs : List β} {a : α}
    (h : List.Forall₂ R as bs) (ha : a ∈ as) : ∃ b ∈ bs, R a b := by
  induction h with
  | nil => cases ha
  | cons hhead htail ih =>
    rcases List.mem_cons.mp ha with rfl | ha
    · exact ⟨_, List.mem_cons_self, hhead⟩
    · obtain ⟨b, hb, hab⟩ := ih ha
      exact ⟨b, List.mem_cons_of_mem _ hb, hab⟩

theorem map_eq_map_of_forall₂ {γ : Type} {R : α → β → Prop} {f : α → γ} {g : β → γ} {as : List α}
    {bs : List β} (h : List.Forall₂ R as bs) (hR : ∀ a b, R a b → f a = g b) : as.map f = bs.map g := by
  induction h with
  | nil => rfl
  | cons hhead htail ih => rw [List.map_cons, List.map_cons, hR _ _ hhead, ih]

end Code

/-! ## The first requests -/

section Firsts

variable {key : α → κ} {seen : List κ} {as bs : List α} {a : α}

theorem firstsBy_cons_of_mem (h : key a ∈ seen) : firstsBy key seen (a :: as) = firstsBy key seen as :=
  if_pos h

theorem firstsBy_cons_of_not_mem (h : key a ∉ seen) :
    firstsBy key seen (a :: as) = a :: firstsBy key (key a :: seen) as := if_neg h

/-- Only which of the requested keys were seen matters. -/
theorem firstsBy_congr {seen' : List κ} (h : ∀ a ∈ as, key a ∈ seen ↔ key a ∈ seen') :
    firstsBy key seen as = firstsBy key seen' as := by
  induction as generalizing seen seen' with
  | nil => rfl
  | cons a rest ih =>
    have hrest : ∀ b ∈ rest, key b ∈ seen ↔ key b ∈ seen' := fun b hb => h b (List.mem_cons_of_mem a hb)
    by_cases ha : key a ∈ seen
    · rw [firstsBy_cons_of_mem ha, firstsBy_cons_of_mem ((h a List.mem_cons_self).mp ha), ih hrest]
    · have ha' : key a ∉ seen' := fun hmem => ha ((h a List.mem_cons_self).mpr hmem)
      rw [firstsBy_cons_of_not_mem ha, firstsBy_cons_of_not_mem ha']
      congr 1
      refine ih fun b hb => ?_
      rw [List.mem_cons, List.mem_cons, hrest b hb]

theorem firstsBy_eq_nil (h : ∀ a ∈ as, key a ∈ seen) : firstsBy key seen as = [] := by
  induction as with
  | nil => rfl
  | cons a rest ih =>
    rw [firstsBy_cons_of_mem (h a List.mem_cons_self)]
    exact ih fun b hb => h b (List.mem_cons_of_mem a hb)

theorem firstsBy_append :
    firstsBy key seen (as ++ bs) = firstsBy key seen as ++ firstsBy key (as.map key ++ seen) bs := by
  induction as generalizing seen with
  | nil => rfl
  | cons a rest ih =>
    rw [List.cons_append]
    by_cases ha : key a ∈ seen
    · rw [firstsBy_cons_of_mem ha, firstsBy_cons_of_mem ha, ih]
      congr 1
      refine firstsBy_congr fun b _ => ?_
      rw [List.map_cons, List.cons_append, List.mem_cons]
      exact (or_iff_right_of_imp fun heq => List.mem_append_right _ (heq ▸ ha)).symm
    · rw [firstsBy_cons_of_not_mem ha, firstsBy_cons_of_not_mem ha, ih, List.cons_append]
      congr 2
      refine firstsBy_congr fun b _ => ?_
      simp only [List.map_cons, List.cons_append, List.mem_append, List.mem_cons]
      tauto

theorem firstsBy_sublist : (firstsBy key seen as).Sublist as := by
  induction as generalizing seen with
  | nil => exact List.Sublist.refl []
  | cons a rest ih =>
    by_cases ha : key a ∈ seen
    · rw [firstsBy_cons_of_mem ha]
      exact ih.trans (List.sublist_cons_self a rest)
    · rw [firstsBy_cons_of_not_mem ha]
      exact ih.cons_cons a

theorem not_mem_of_mem_firstsBy (h : a ∈ firstsBy key seen as) : key a ∉ seen := by
  induction as generalizing seen with
  | nil => cases h
  | cons b rest ih =>
    by_cases hb : key b ∈ seen
    · rw [firstsBy_cons_of_mem hb] at h
      exact ih h
    · rw [firstsBy_cons_of_not_mem hb] at h
      rcases List.mem_cons.mp h with rfl | h
      · exact hb
      · exact fun hmem => ih h (List.mem_cons_of_mem _ hmem)

theorem firstsBy_nodup : ((firstsBy key seen as).map key).Nodup := by
  induction as generalizing seen with
  | nil => exact List.nodup_nil
  | cons a rest ih =>
    by_cases ha : key a ∈ seen
    · rw [firstsBy_cons_of_mem ha]
      exact ih
    · rw [firstsBy_cons_of_not_mem ha, List.map_cons, List.nodup_cons]
      refine ⟨fun hmem => ?_, ih⟩
      obtain ⟨b, hb, hkey⟩ := List.mem_map.mp hmem
      exact not_mem_of_mem_firstsBy hb (hkey ▸ List.mem_cons_self)

theorem firstsBy_id_nodup {ks : List κ} : (firstsBy id seen ks).Nodup := by
  have h : ((firstsBy id seen ks).map id).Nodup := firstsBy_nodup
  rwa [List.map_id] at h

/-- A request for a new key comes first, like every other for its key. -/
theorem mem_firstsBy_iff (h : Consistent key as) :
    a ∈ firstsBy key seen as ↔ a ∈ as ∧ key a ∉ seen := by
  constructor
  · intro ha
    exact ⟨firstsBy_sublist.subset ha, not_mem_of_mem_firstsBy ha⟩
  · rintro ⟨ha, hnew⟩
    induction as generalizing seen with
    | nil => cases ha
    | cons b rest ih =>
      have hrest := h.subset fun c hc => List.mem_cons_of_mem b hc
      by_cases hb : key b ∈ seen
      · rw [firstsBy_cons_of_mem hb]
        refine ih hrest ?_ hnew
        exact (List.mem_cons.mp ha).resolve_left fun heq => hnew (heq ▸ hb)
      · rw [firstsBy_cons_of_not_mem hb, List.mem_cons]
        by_cases hab : key a = key b
        · exact .inl (h a ha b List.mem_cons_self hab)
        · refine .inr (ih hrest ((List.mem_cons.mp ha).resolve_left fun heq => hab (heq ▸ rfl)) ?_)
          rw [List.mem_cons, not_or]
          exact ⟨hab, hnew⟩

/-- Requests for new and different keys all come first. -/
theorem firstsBy_eq_self (hnodup : (as.map key).Nodup) (hnew : ∀ a ∈ as, key a ∉ seen) :
    firstsBy key seen as = as := by
  induction as generalizing seen with
  | nil => rfl
  | cons a rest ih =>
    obtain ⟨ha, hrest⟩ := List.nodup_cons.mp hnodup
    rw [firstsBy_cons_of_not_mem (hnew a List.mem_cons_self), ih hrest]
    intro b hb hmem
    rcases List.mem_cons.mp hmem with heq | hmem
    · exact ha (heq ▸ List.mem_map_of_mem hb)
    · exact hnew b (List.mem_cons_of_mem a hb) hmem

/-- A test that only looks at the key selects the same requests before and after. -/
theorem filter_firstsBy {p : α → Bool} (hp : ∀ a ∈ as, ∀ b ∈ as, key a = key b → p a = p b) :
    (firstsBy key seen as).filter p = firstsBy key seen (as.filter p) := by
  induction as generalizing seen with
  | nil => rfl
  | cons a rest ih =>
    have hrest := fun seen : List κ => @ih seen fun x hx y hy =>
      hp x (List.mem_cons_of_mem a hx) y (List.mem_cons_of_mem a hy)
    by_cases hmem : key a ∈ seen
    · rw [firstsBy_cons_of_mem hmem, hrest]
      by_cases ha : p a = true
      · rw [List.filter_cons_of_pos ha, firstsBy_cons_of_mem hmem]
      · rw [List.filter_cons_of_neg ha]
    · rw [firstsBy_cons_of_not_mem hmem]
      by_cases ha : p a = true
      · rw [List.filter_cons_of_pos ha, List.filter_cons_of_pos ha, hrest, firstsBy_cons_of_not_mem hmem]
      · rw [List.filter_cons_of_neg ha, List.filter_cons_of_neg ha, hrest]
        -- what the test selects of the rest has other keys
        refine firstsBy_congr fun b hb => ?_
        obtain ⟨hb, hpb⟩ := List.mem_filter.mp hb
        rw [List.mem_cons, or_iff_right]
        intro heq
        exact ha ((hp b (List.mem_cons_of_mem a hb) a List.mem_cons_self heq).symm.trans hpb)

/-- Of the same requests, made several times, the first ones are these requests. -/
theorem firstsBy_flatMap {β : Type} {f : β → List α} {block : List α} {bs : List β}
    (hf : ∀ b ∈ bs, f b = block ∨ f b = []) (hblock : ∃ b ∈ bs, f b = block)
    (hnodup : (block.map key).Nodup) (hnew : ∀ a ∈ block, key a ∉ seen) :
    firstsBy key seen (bs.flatMap f) = block := by
  induction bs with
  | nil =>
    obtain ⟨b, hb, -⟩ := hblock
    cases hb
  | cons b rest ih =>
    have hrest := fun c hc => hf c (List.mem_cons_of_mem b hc)
    rw [List.flatMap_cons, firstsBy_append]
    by_cases hb : f b = block
    · rw [hb, firstsBy_eq_self hnodup hnew, firstsBy_eq_nil, List.append_nil]
      intro a ha
      obtain ⟨c, hc, hac⟩ := List.mem_flatMap.mp ha
      rcases hrest c hc with heq | heq
      · exact List.mem_append_left _ (List.mem_map_of_mem (heq ▸ hac))
      · rw [heq] at hac
        cases hac
    · have hnil := (hf b List.mem_cons_self).resolve_left hb
      rw [hnil]
      refine ih hrest ?_
      obtain ⟨c, hc, heq⟩ := hblock
      rcases List.mem_cons.mp hc with rfl | hc
      · exact absurd heq hb
      · exact ⟨c, hc, heq⟩

end Firsts

/-! ## Runs -/

section Runs

variable [BEq κ]

/-- How requests are served: a request is done with a row that it finds, and with the row that is created
for it. -/
structure FindsOrCreates (serve : Dict κ ν → α → Except ε (Dict κ ν)) (key : α → κ)
    (create : Dict κ ν → α → Option ν) (Done : α → ν → Prop) : Prop where
  found : ∀ {d a v}, d.get (key a) = some v → Done a v → serve d a = .ok d
  created : ∀ {d a d'}, d.get (key a) = none →
    (serve d a = .ok d' ↔ ∃ v, create d a = some v ∧ d' = d.set (key a) v)
  done : ∀ {d a v}, create d a = some v → Done a v

/-- The requests that find a row are done with it. -/
def Known (key : α → κ) (Done : α → ν → Prop) (d : Dict κ ν) (as : List α) : Prop :=
  ∀ a ∈ as, ∀ v, d.get (key a) = some v → Done a v

variable {serve : Dict κ ν → α → Except ε (Dict κ ν)} {key : α → κ}
  {create : Dict κ ν → α → Option ν} {Done : α → ν → Prop} {d d' : Dict κ ν} {as : List α} {a : α}

/-- Requests that all find a row that they are done with change nothing. -/
theorem FindsOrCreates.run_known (hserve : FindsOrCreates serve key create Done)
    (h : ∀ a ∈ as, ∃ v, d.get (key a) = some v ∧ Done a v) : as.foldlM serve d = .ok d := by
  induction as with
  | nil => rfl
  | cons a rest ih =>
    obtain ⟨v, hget, hdone⟩ := h a List.mem_cons_self
    rw [List.foldlM_cons, hserve.found hget hdone]
    exact ih fun b hb => h b (List.mem_cons_of_mem a hb)

variable [LawfulBEq κ]

/-- After a request its row is there, and the requests that find a row are done with it as before. -/
theorem Known.set {v : ν} (hserve : FindsOrCreates serve key create Done)
    (hknown : Known key Done d (a :: as)) (hcons : Consistent key (a :: as))
    (hcreate : create d a = some v) : Known key Done (d.set (key a) v) as := by
  intro b hb w hw
  by_cases hkey : key b = key a
  · obtain rfl := hcons b (List.mem_cons_of_mem a hb) a List.mem_cons_self hkey
    rw [Dict.get_set_self] at hw
    exact Option.some.inj hw ▸ hserve.done hcreate
  · rw [Dict.get_set_of_ne hkey] at hw
    exact hknown b (List.mem_cons_of_mem a hb) w hw

/-- What a run of requests does: the first requests for new keys create their rows, and after the run every
request finds a row that it is done with. -/
theorem FindsOrCreates.run (hserve : FindsOrCreates serve key create Done)
    (hknown : Known key Done d as) (hcons : Consistent key as) (hrun : as.foldlM serve d = .ok d') :
    (∃ rows, d'.entries = d.entries ++ rows ∧
      List.Forall₂ (fun a row => row.1 = key a ∧ ∃ d₀, create d₀ a = some row.2)
        (firstsBy key d.keys as) rows) ∧
      ∀ a ∈ as, ∃ v, d'.get (key a) = some v ∧ Done a v := by
  induction as generalizing d with
  | nil =>
    obtain rfl : d = d' := Except.ok.inj hrun
    exact ⟨⟨[], (List.append_nil _).symm, .nil⟩, by simp⟩
  | cons a rest ih =>
    have hrest := hcons.subset fun b hb => List.mem_cons_of_mem a hb
    rw [List.foldlM_cons] at hrun
    cases hget : d.get (key a) with
    | some v =>
      have hdone := hknown a List.mem_cons_self v hget
      have hmem : key a ∈ d.keys := Dict.mem_keys_iff.mpr ⟨v, hget⟩
      rw [hserve.found hget hdone] at hrun
      obtain ⟨⟨rows, hrows, hfirsts⟩, hfind⟩ :=
        ih (fun b hb => hknown b (List.mem_cons_of_mem a hb)) hrest hrun
      rw [firstsBy_cons_of_mem hmem]
      refine ⟨⟨rows, hrows, hfirsts⟩, List.forall_mem_cons.mpr ⟨⟨v, ?_, hdone⟩, hfind⟩⟩
      rw [Dict.get_eq_some_iff] at hget ⊢
      rw [hrows]
      exact List.mem_append_left rows hget
    | none =>
      cases hstep : serve d a with
      | error e =>
        rw [hstep] at hrun
        cases hrun
      | ok d₁ =>
        obtain ⟨v, hcreate, rfl⟩ := (hserve.created hget).mp hstep
        rw [hstep] at hrun
        obtain ⟨⟨rows, hrows, hfirsts⟩, hfind⟩ :=
          ih (hknown.set hserve hcons hcreate) hrest hrun
        rw [Dict.set_entries_of_new hget, List.append_assoc] at hrows
        rw [firstsBy_cons_of_not_mem (Dict.get_eq_none_iff.mp hget)]
        refine ⟨⟨_, hrows, .cons ⟨rfl, d, hcreate⟩ ?_⟩, List.forall_mem_cons.mpr ⟨⟨v, ?_, ?_⟩, hfind⟩⟩
        · rw [firstsBy_congr fun b _ => (Dict.mem_keys_set.trans List.mem_cons.symm)] at hfirsts
          exact hfirsts
        · rw [Dict.get_eq_some_iff, hrows]
          exact List.mem_append_right _ List.mem_cons_self
        · exact hserve.done hcreate

/-- After a run there is the row that was created for a request with a new key. -/
theorem FindsOrCreates.get_of_new (hserve : FindsOrCreates serve key create Done)
    (hknown : Known key Done d as) (hcons : Consistent key as) (hrun : as.foldlM serve d = .ok d')
    (ha : a ∈ as) (hnew : key a ∉ d.keys) :
    ∃ d₀ v, create d₀ a = some v ∧ d'.get (key a) = some v := by
  obtain ⟨⟨rows, hrows, hfirsts⟩, -⟩ := hserve.run hknown hcons hrun
  have hmem := (mem_firstsBy_iff hcons).mpr ⟨ha, hnew⟩
  obtain ⟨row, hrow, hkey, d₀, hcreate⟩ := exists_of_forall₂ hfirsts hmem
  refine ⟨d₀, row.2, hcreate, ?_⟩
  rw [Dict.get_eq_some_iff, hrows, ← hkey]
  exact List.mem_append_right _ hrow

/-- A run succeeds exactly if its first requests are taken one after the other, where whether a request is
taken is seen in a part of the table. -/
theorem FindsOrCreates.run_ok_iff {σ : Type} (hserve : FindsOrCreates serve key create Done)
    (view : Dict κ ν → σ) (take : σ → α → Option σ)
    (htake : ∀ d a, d.get (key a) = none →
      take (view d) a = (create d a).map fun v => view (d.set (key a) v))
    (hknown : Known key Done d as) (hcons : Consistent key as) :
    (∃ d', as.foldlM serve d = .ok d') ↔ ((firstsBy key d.keys as).foldlM take (view d)).isSome := by
  induction as generalizing d with
  | nil => exact ⟨fun _ => rfl, fun _ => ⟨d, rfl⟩⟩
  | cons a rest ih =>
    have hrest := hcons.subset fun b hb => List.mem_cons_of_mem a hb
    rw [List.foldlM_cons]
    cases hget : d.get (key a) with
    | some v =>
      have hmem : key a ∈ d.keys := Dict.mem_keys_iff.mpr ⟨v, hget⟩
      rw [hserve.found hget (hknown a List.mem_cons_self v hget), firstsBy_cons_of_mem hmem]
      exact ih (fun b hb => hknown b (List.mem_cons_of_mem a hb)) hrest
    | none =>
      rw [firstsBy_cons_of_not_mem (Dict.get_eq_none_iff.mp hget), List.foldlM_cons, htake d a hget]
      cases hcreate : create d a with
      | none =>
        constructor
        · rintro ⟨d', hd'⟩
          cases hstep : serve d a with
          | error e =>
            rw [hstep] at hd'
            cases hd'
          | ok d₁ =>
            obtain ⟨v, hv, -⟩ := (hserve.created hget).mp hstep
            rw [hcreate] at hv
            cases hv
        · intro h
          cases h
      | some v =>
        rw [(hserve.created hget).mpr ⟨v, hcreate, rfl⟩]
        rw [firstsBy_congr fun b _ => (List.mem_cons.trans Dict.mem_keys_set.symm)]
        exact ih (hknown.set hserve hcons hcreate) hrest

end Runs

/-! ## Rows that go together -/

section Fitting

variable {β : Type} {fits : β → β → Bool} {valid : α → Bool} {row : α → β} {as : List α} {rows : List β}

/-- One more row, if it is valid and goes together with the ones that are there. -/
def takeFitting (fits : β → β → Bool) (valid : α → Bool) (row : α → β) (rows : List β) (a : α) :
    Option (List β) :=
  if valid a = true ∧ ∀ b ∈ rows, fits b (row a) = true then some (rows ++ [row a]) else none

/-- The rows are taken one after the other exactly if all are valid and any two go together. -/
theorem foldlM_takeFitting_eq_some_iff {rows' : List β} :
    as.foldlM (takeFitting fits valid row) rows = some rows' ↔ rows' = rows ++ as.map row ∧
      (∀ a ∈ as, valid a = true) ∧ (∀ a ∈ as, ∀ b ∈ rows, fits b (row a) = true) ∧
        as.Pairwise fun a a' => fits (row a) (row a') = true := by
  induction as generalizing rows with
  | nil =>
    rw [List.foldlM_nil, List.map_nil, List.append_nil]
    constructor
    · rintro ⟨⟩
      exact ⟨rfl, by simp⟩
    · rintro ⟨rfl, -⟩
      rfl
  | cons a rest ih =>
    rw [List.foldlM_cons, List.forall_mem_cons, List.forall_mem_cons, List.pairwise_cons, List.map_cons]
    unfold takeFitting
    split
    · rename_i h
      refine ih.trans ?_
      rw [List.append_assoc, List.singleton_append]
      refine and_congr_right fun _ => ⟨?_, ?_⟩
      · rintro ⟨hvalid, hfits, hpairs⟩
        refine ⟨⟨h.1, hvalid⟩, ⟨h.2, fun b hb c hc => hfits b hb c (List.mem_append_left _ hc)⟩, ?_, hpairs⟩
        exact fun b hb => hfits b hb _ (List.mem_append_right _ List.mem_cons_self)
      · rintro ⟨⟨-, hvalid⟩, ⟨-, hfits⟩, hfirst, hpairs⟩
        refine ⟨hvalid, fun b hb c hc => ?_, hpairs⟩
        rcases List.mem_append.mp hc with hc | hc
        · exact hfits b hb c hc
        · exact List.mem_singleton.mp hc ▸ hfirst b hb
    · rename_i h
      refine iff_of_false (fun hnone => nomatch hnone) ?_
      rintro ⟨-, ⟨hvalid, -⟩, ⟨hfits, -⟩, -⟩
      exact h ⟨hvalid, hfits⟩

theorem foldlM_takeFitting_isSome_iff : (as.foldlM (takeFitting fits valid row) rows).isSome ↔
    (∀ a ∈ as, valid a = true) ∧ (∀ a ∈ as, ∀ b ∈ rows, fits b (row a) = true) ∧
      as.Pairwise fun a a' => fits (row a) (row a') = true := by
  simp only [Option.isSome_iff_exists, foldlM_takeFitting_eq_some_iff, exists_eq_left]

/-- Where what is taken depends on a part of the request, besides a test of the request alone. -/
theorem foldlM_guarded_isSome_iff {σ : Type} {g : σ → β → Option σ} {f : α → β} {s : σ} :
    (as.foldlM (fun s a => if valid a = true then g s (f a) else none) s).isSome ↔
      (∀ a ∈ as, valid a = true) ∧ ((as.map f).foldlM g s).isSome := by
  induction as generalizing s with
  | nil => simp
  | cons a rest ih =>
    rw [List.foldlM_cons, List.map_cons, List.foldlM_cons, List.forall_mem_cons]
    by_cases ha : valid a = true
    · rw [if_pos ha]
      cases g s (f a) with
      | none => exact iff_of_false Bool.false_ne_true fun h => Bool.false_ne_true h.2
      | some t =>
        refine (ih (s := t)).trans ?_
        rw [and_assoc]
        exact (and_iff_right ha).symm
    · rw [if_neg ha]
      exact iff_of_false Bool.false_ne_true fun h => ha h.1.1

end Fitting

end Upserts

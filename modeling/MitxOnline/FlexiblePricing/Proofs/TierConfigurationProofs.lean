import MitxOnline.FlexiblePricing.TierConfiguration
import MitxOnline.Lib.Autocommit
import MitxOnline.Lib.Search
import MitxOnline.Lib.Trace

/-!
# When the set-up of tiers is exact

After a run each row of the table has one tier, whose discount has its type and amount, and the discounts that
no row matched are expired. A run of the default table finds all this as it is and changes nothing.
-/

namespace MitxOnline

open Autocommit FixedPoint

variable {cmd : TierCommand} {now : Instant} {order : DiscountOrder} {db : TierDb} {c : TierConfig}
  {configs : List TierConfig} {discount : DiscountId} {threshold : ℚ} {tiers tiers' : Table StoredTier}
  {p : TierProgress} {found : TierConfig → Option DiscountId}

/-! ## Tiers -/

theorem mem_tiersAt {k : TierId} : k ∈ cmd.tiersAt threshold tiers ↔
    k ∈ tiers.keys ∧ (tiers.row k).incomeThresholdUsd = threshold ∧
      (tiers.row k).courseware = cmd.courseware := by
  unfold TierCommand.tiersAt
  rw [Table.mem_keysWhere, Bool.and_eq_true, decide_eq_true_iff, decide_eq_true_iff]

/-- What linking the tier of a threshold to a discount does. -/
structure Assigns (cmd : TierCommand) (threshold : ℚ) (discount : DiscountId)
    (tiers tiers' : Table StoredTier) : Prop where
  single : (cmd.tiersAt threshold tiers).length ≤ 1
  assigned : ∃ k, cmd.tiersAt threshold tiers' = [k] ∧ (tiers'.row k).discount = discount ∧
    (tiers'.row k).current = true
  others : ∀ x ≠ threshold, cmd.tiersAt x tiers' = cmd.tiersAt x tiers ∧
    ∀ k ∈ cmd.tiersAt x tiers, tiers'.row k = tiers.row k

/-- A tier is created where there is none with the threshold. -/
theorem assigns_create (h : cmd.tiersAt threshold tiers = []) : Assigns cmd threshold discount tiers
    (tiers.create ⟨⟨discount, true⟩, cmd.courseware, threshold⟩) := by
  have hkeys : ∀ x, cmd.tiersAt x (tiers.create ⟨⟨discount, true⟩, cmd.courseware, threshold⟩) =
      cmd.tiersAt x tiers ++ if x = threshold then [tiers.nextKey] else [] := by
    intro x
    unfold TierCommand.tiersAt Table.keysWhere
    rw [Table.create_keys, List.filter_append]
    congr 1
    · refine List.filter_congr fun k hk => ?_
      rw [Table.create_row_of_ne _ _ (Nat.ne_of_lt (tiers.lt_nextKey hk))]
    · by_cases hx : x = threshold
      · simp [hx]
      · simp [hx, Ne.symm hx]
  refine ⟨by simp [h], ⟨tiers.nextKey, ?_, ?_, ?_⟩, fun x hx => ⟨?_, fun k hk => ?_⟩⟩
  · rw [hkeys, h, if_pos rfl, List.nil_append]
  · rw [Table.create_row_self]
  · rw [Table.create_row_self]
  · rw [hkeys, if_neg hx, List.append_nil]
  · have hmem := (mem_tiersAt.mp hk).1
    exact Table.create_row_of_ne _ _ (Nat.ne_of_lt (tiers.lt_nextKey hmem))

/-- The only tier of the threshold is updated. -/
theorem assigns_set {k : TierId} (h : cmd.tiersAt threshold tiers = [k]) :
    Assigns cmd threshold discount tiers
      (tiers.set k { tiers.row k with discount := discount, current := true }) := by
  have hkey : k ∈ cmd.tiersAt threshold tiers := h ▸ List.mem_singleton_self k
  have hkeys : ∀ x, cmd.tiersAt x (tiers.set k { tiers.row k with discount := discount, current := true }) =
      cmd.tiersAt x tiers := by
    intro x
    unfold TierCommand.tiersAt Table.keysWhere
    rw [Table.set_keys]
    refine List.filter_congr fun i _ => ?_
    by_cases hi : i = k
    · rw [hi, Table.set_row_self]
    · rw [Table.set_row_of_ne _ _ hi]
  refine ⟨by simp [h], ⟨k, ?_, ?_, ?_⟩, fun x hx => ⟨hkeys x, fun i hi => ?_⟩⟩
  · rw [hkeys, h]
  · rw [Table.set_row_self]
  · rw [Table.set_row_self]
  · have hne : i ≠ k := by
      rintro rfl
      exact hx ((mem_tiersAt.mp hi).2.1.symm.trans (mem_tiersAt.mp hkey).2.1)
    exact Table.set_row_of_ne _ _ hne

theorem updateOrCreateTier_spec (h : cmd.updateOrCreateTier threshold discount tiers = .ok tiers') :
    Assigns cmd threshold discount tiers tiers' := by
  unfold TierCommand.updateOrCreateTier at h
  split at h
  · rename_i hnone
    obtain rfl := Except.ok.inj h
    exact assigns_create hnone
  · rename_i k hone
    obtain rfl := Except.ok.inj h
    exact assigns_set hone
  · cases h

theorem updateOrCreateTier_ok_iff : (∃ tiers', cmd.updateOrCreateTier threshold discount tiers = .ok tiers') ↔
    (cmd.tiersAt threshold tiers).length ≤ 1 := by
  constructor
  · rintro ⟨tiers', h⟩
    exact (updateOrCreateTier_spec h).single
  · intro h
    unfold TierCommand.updateOrCreateTier
    split
    · exact ⟨_, rfl⟩
    · exact ⟨_, rfl⟩
    · rename_i hnone hone
      rcases hkeys : cmd.tiersAt threshold tiers with _ | ⟨k, _ | ⟨k', rest⟩⟩
      · exact absurd hkeys hnone
      · exact absurd hkeys (hone k)
      · rw [hkeys] at h
        simp at h

/-! ## A round of the loop -/

/-- What a round that returns has done: it has linked the tier to the discount that was found, or to one that
it has created. -/
structure RowRounds (cmd : TierCommand) (found : TierConfig → Option DiscountId) (c : TierConfig)
    (p p' : TierProgress) (discount : DiscountId) : Prop where
  discounts : (found c = some discount ∧ p'.db.discounts = p.db.discounts) ∨
    (found c = none ∧ discount = p.db.discounts.nextKey ∧
      ∃ row, cmd.newDiscount c = .ok row ∧ p'.db.discounts = p.db.discounts.create row)
  assigns : Assigns cmd c.threshold discount p.db.tiers p'.db.tiers
  matched : p'.matched = p.matched ++ [discount]

theorem assignTier_of_ok (h : cmd.updateOrCreateTier c.threshold discount p.db.tiers = .ok tiers') :
    cmd.assignTier c discount p = ⟨⟨{ p.db with tiers := tiers' }, p.matched ++ [discount]⟩, none⟩ := by
  unfold TierCommand.assignTier
  rw [h]

theorem assignTier_returns (h : (cmd.assignTier c discount p).error = none) :
    Assigns cmd c.threshold discount p.db.tiers (cmd.assignTier c discount p).state.db.tiers ∧
      (cmd.assignTier c discount p).state.db.discounts = p.db.discounts ∧
      (cmd.assignTier c discount p).state.matched = p.matched ++ [discount] := by
  cases hupdate : cmd.updateOrCreateTier c.threshold discount p.db.tiers with
  | error e =>
    unfold TierCommand.assignTier at h
    rw [hupdate] at h
    cases h
  | ok tiers' =>
    rw [assignTier_of_ok hupdate]
    exact ⟨updateOrCreateTier_spec hupdate, rfl, rfl⟩

theorem configureTier_rounds (h : (cmd.configureTier found c p).error = none) :
    ∃ discount, RowRounds cmd found c p (cmd.configureTier found c p).state discount := by
  unfold TierCommand.configureTier at h ⊢
  cases hfound : found c with
  | some discount =>
    rw [hfound] at h
    obtain ⟨hassigns, hdiscounts, hmatched⟩ := assignTier_returns h
    exact ⟨discount, .inl ⟨hfound, hdiscounts⟩, hassigns, hmatched⟩
  | none =>
    rw [hfound] at h
    cases hnew : cmd.newDiscount c with
    | error e =>
      rw [hnew] at h
      cases h
    | ok row =>
      rw [hnew] at h
      obtain ⟨hassigns, hdiscounts, hmatched⟩ := assignTier_returns h
      exact ⟨_, .inr ⟨hfound, rfl, row, hnew, hdiscounts⟩, hassigns, hmatched⟩

/-- A round returns exactly if there is not more than one tier to update, and the discount can be created
where none is found. -/
theorem configureTier_error : (cmd.configureTier found c p).error = none ↔
    (cmd.tiersAt c.threshold p.db.tiers).length ≤ 1 ∧
      (found c = none → ∃ row, cmd.newDiscount c = .ok row) := by
  constructor
  · intro h
    obtain ⟨discount, hround⟩ := configureTier_rounds h
    refine ⟨hround.assigns.single, fun hnone => ?_⟩
    rcases hround.discounts with ⟨hsome, -⟩ | ⟨-, -, row, hnew, -⟩
    · rw [hnone] at hsome
      cases hsome
    · exact ⟨row, hnew⟩
  · rintro ⟨hsingle, hcreates⟩
    have hassign : ∀ discount (p' : TierProgress), p'.db.tiers = p.db.tiers →
        (cmd.assignTier c discount p').error = none := by
      intro discount p' htiers
      obtain ⟨tiers', hupdate⟩ := updateOrCreateTier_ok_iff.mpr (htiers ▸ hsingle)
      rw [assignTier_of_ok hupdate]
    unfold TierCommand.configureTier
    cases hfound : found c with
    | some discount => exact hassign discount p rfl
    | none =>
      obtain ⟨row, hnew⟩ := hcreates hfound
      rw [hnew]
      exact hassign _ _ rfl

/-! ## The loop -/

/-- The loop over the rows of a table. -/
def configureTiers (cmd : TierCommand) (found : TierConfig → Option DiscountId)
    (configs : List TierConfig) : Action TierProgress TierCommandError :=
  seq (configs.map (cmd.configureTier found))

theorem configureTiers_cons (h : (cmd.configureTier found c p).error = none) :
    configureTiers cmd found (c :: configs) p =
      configureTiers cmd found configs (cmd.configureTier found c p).state := by
  unfold configureTiers
  rw [List.map_cons, seq_cons, andThen_of_ok h]

theorem configureTiers_error_cons (h : (configureTiers cmd found (c :: configs) p).error = none) :
    (cmd.configureTier found c p).error = none := (seq_cons_error h).1

/-- The loop returns exactly if every round would return at its beginning, for different thresholds do not
interfere. -/
theorem configureTiers_error (hdistinct : (configs.map (·.threshold)).Nodup) :
    (configureTiers cmd found configs p).error = none ↔
      ∀ c ∈ configs, (cmd.tiersAt c.threshold p.db.tiers).length ≤ 1 ∧
        (found c = none → ∃ row, cmd.newDiscount c = .ok row) := by
  induction configs generalizing p with
  | nil => exact iff_of_true rfl (by simp)
  | cons c rest ih =>
    rw [List.map_cons, List.nodup_cons] at hdistinct
    rw [List.forall_mem_cons, ← configureTier_error (p := p)]
    have hrest : (cmd.configureTier found c p).error = none →
        ((configureTiers cmd found rest (cmd.configureTier found c p).state).error = none ↔
          ∀ c ∈ rest, (cmd.tiersAt c.threshold p.db.tiers).length ≤ 1 ∧
            (found c = none → ∃ row, cmd.newDiscount c = .ok row)) := by
      intro hreturns
      obtain ⟨discount, hround⟩ := configureTier_rounds hreturns
      rw [ih hdistinct.2]
      refine forall₂_congr fun c' hc' => ?_
      have hne : c'.threshold ≠ c.threshold := fun h =>
        hdistinct.1 (h ▸ List.mem_map.mpr ⟨c', hc', rfl⟩)
      rw [(hround.assigns.others _ hne).1]
    constructor
    · intro h
      have hreturns := configureTiers_error_cons h
      rw [configureTiers_cons hreturns] at h
      exact ⟨hreturns, (hrest hreturns).mp h⟩
    · rintro ⟨hreturns, h⟩
      rw [configureTiers_cons hreturns]
      exact (hrest hreturns).mpr h

/-- The discount has the type and amount of the row, and a code of the courseware and the year. -/
structure IsSuitable (cmd : TierCommand) (now : Instant) (db : TierDb) (c : TierConfig)
    (discount : DiscountId) : Prop where
  key : discount ∈ db.discounts.keys
  ofYear : cmd.ofYear (db.discounts.row discount) = true
  suits : c.suits now (db.discounts.row discount) = true

/-- The one tier of the threshold is current and linked to the discount. -/
def LinkedTo (cmd : TierCommand) (threshold : ℚ) (discount : DiscountId) (tiers : Table StoredTier) : Prop :=
  ∃ k, cmd.tiersAt threshold tiers = [k] ∧ (tiers.row k).discount = discount ∧
    (tiers.row k).current = true

/-- What the loop has done: discounts that were there stay, and every row has its discount and its tier. -/
structure RowLoops (cmd : TierCommand) (now : Instant) (found : TierConfig → Option DiscountId)
    (configs : List TierConfig) (p p' : TierProgress) (pick : TierConfig → DiscountId) : Prop where
  kept : ∀ k ∈ p.db.discounts.keys, k ∈ p'.db.discounts.keys ∧
    p'.db.discounts.row k = p.db.discounts.row k
  new : ∀ k ∈ p'.db.discounts.keys, k ∈ p.db.discounts.keys ∨ k ∈ configs.map pick
  matched : p'.matched = p.matched ++ configs.map pick
  picked : ∀ c ∈ configs, found c = some (pick c) ∨ (found c = none ∧ pick c ∉ p.db.discounts.keys)
  suitable : ∀ c ∈ configs, IsSuitable cmd now p'.db c (pick c)
  linked : ∀ c ∈ configs, LinkedTo cmd c.threshold (pick c) p'.db.tiers
  others : ∀ x ∉ configs.map (·.threshold), cmd.tiersAt x p'.db.tiers = cmd.tiersAt x p.db.tiers ∧
    ∀ k ∈ cmd.tiersAt x p.db.tiers, p'.db.tiers.row k = p.db.tiers.row k

theorem IsSuitable.of_kept {db' : TierDb} (h : IsSuitable cmd now db c discount)
    (hkept : ∀ k ∈ db.discounts.keys, k ∈ db'.discounts.keys ∧
      db'.discounts.row k = db.discounts.row k) : IsSuitable cmd now db' c discount := by
  obtain ⟨hkey, hrow⟩ := hkept discount h.key
  exact ⟨hkey, by rw [hrow]; exact h.ofYear, by rw [hrow]; exact h.suits⟩

/-- What a round leaves of the discounts. -/
theorem RowRounds.kept {p' : TierProgress} (h : RowRounds cmd found c p p' discount) :
    ∀ k ∈ p.db.discounts.keys, k ∈ p'.db.discounts.keys ∧
      p'.db.discounts.row k = p.db.discounts.row k := by
  intro k hk
  rcases h.discounts with ⟨-, heq⟩ | ⟨-, -, row, -, heq⟩
  · rw [heq]
    exact ⟨hk, rfl⟩
  · rw [heq]
    exact ⟨(Table.mem_create_keys _ _ _).mpr (.inl hk),
      Table.create_row_of_ne _ _ (Nat.ne_of_lt (Table.lt_nextKey _ hk))⟩

theorem RowRounds.new {p' : TierProgress} (h : RowRounds cmd found c p p' discount) :
    ∀ k ∈ p'.db.discounts.keys, k ∈ p.db.discounts.keys ∨ k = discount := by
  intro k hk
  rcases h.discounts with ⟨-, heq⟩ | ⟨-, hdiscount, row, -, heq⟩
  · rw [heq] at hk
    exact .inl hk
  · rw [heq, Table.mem_create_keys] at hk
    rw [hdiscount]
    exact hk

theorem RowRounds.picked {p' : TierProgress} (h : RowRounds cmd found c p p' discount) :
    found c = some discount ∨ (found c = none ∧ discount ∉ p.db.discounts.keys) := by
  rcases h.discounts with ⟨hsome, -⟩ | ⟨hnone, hdiscount, -⟩
  · exact .inl hsome
  · rw [hdiscount]
    exact .inr ⟨hnone, Table.nextKey_not_mem _⟩

theorem RowRounds.suitable {p' : TierProgress} (h : RowRounds cmd found c p p' discount)
    (hfound : ∀ d, found c = some d → IsSuitable cmd now p.db c d)
    (hnew : ∀ row, cmd.newDiscount c = .ok row → cmd.ofYear row = true ∧ c.suits now row = true) :
    IsSuitable cmd now p'.db c discount := by
  rcases h.discounts with ⟨hsome, -⟩ | ⟨-, hdiscount, row, hrow, heq⟩
  · exact (hfound discount hsome).of_kept h.kept
  · obtain ⟨hyear, hsuits⟩ := hnew row hrow
    have hself : p'.db.discounts.row discount = row := by
      rw [heq, hdiscount, Table.create_row_self]
    refine ⟨?_, by rw [hself]; exact hyear, by rw [hself]; exact hsuits⟩
    rw [heq, hdiscount, Table.mem_create_keys]
    exact .inr rfl

/-- What the loop does, for rows that are served by what is found or created for them. -/
theorem configureTiers_loops (hdistinct : (configs.map (·.threshold)).Nodup)
    (hfound : ∀ c ∈ configs, ∀ d, found c = some d → IsSuitable cmd now p.db c d)
    (hnew : ∀ c ∈ configs, ∀ row, cmd.newDiscount c = .ok row →
      cmd.ofYear row = true ∧ c.suits now row = true)
    (h : (configureTiers cmd found configs p).error = none) :
    ∃ pick, RowLoops cmd now found configs p (configureTiers cmd found configs p).state pick := by
  induction configs generalizing p with
  | nil =>
    refine ⟨fun _ => 0, fun k hk => ⟨hk, rfl⟩, fun k hk => .inl hk, (List.append_nil _).symm,
      by simp, by simp, by simp, fun x _ => ⟨rfl, fun k _ => rfl⟩⟩
  | cons c rest ih =>
    rw [List.map_cons, List.nodup_cons] at hdistinct
    have hreturns := configureTiers_error_cons h
    rw [configureTiers_cons hreturns] at h ⊢
    obtain ⟨discount, hround⟩ := configureTier_rounds hreturns
    have hsuitable := hround.suitable (hfound c List.mem_cons_self) (hnew c List.mem_cons_self)
    obtain ⟨pick, hloop⟩ := ih hdistinct.2
      (fun c' hc' d hd => (hfound c' (List.mem_cons_of_mem c hc') d hd).of_kept hround.kept)
      (fun c' hc' => hnew c' (List.mem_cons_of_mem c hc')) h
    have hother : ∀ c' ∈ rest, c'.threshold ≠ c.threshold := fun c' hc' heq =>
      hdistinct.1 (heq ▸ List.mem_map.mpr ⟨c', hc', rfl⟩)
    -- the rows after the first have their discounts from the rest of the loop
    let pick' : TierConfig → DiscountId := fun c' =>
      if c'.threshold = c.threshold then discount else pick c'
    have hself : pick' c = discount := if_pos rfl
    have hrest : ∀ c' ∈ rest, pick' c' = pick c' := fun c' hc' => if_neg (hother c' hc')
    have hmap : (c :: rest).map pick' = discount :: rest.map pick := by
      rw [List.map_cons, hself, List.map_congr_left hrest]
    have hfirst := hloop.others c.threshold hdistinct.1
    refine ⟨pick', fun k hk => ?_, fun k hk => ?_, ?_, ?_, ?_, ?_, fun x hx => ?_⟩
    · obtain ⟨hkey, hrow⟩ := hround.kept k hk
      obtain ⟨hkey', hrow'⟩ := hloop.kept k hkey
      exact ⟨hkey', hrow'.trans hrow⟩
    · rw [hmap, List.mem_cons]
      rcases hloop.new k hk with hk | hk
      · exact (hround.new k hk).imp_right .inl
      · exact .inr (.inr hk)
    · rw [hloop.matched, hround.matched, hmap, List.append_assoc]
      rfl
    · refine List.forall_mem_cons.mpr ⟨by rw [hself]; exact hround.picked, fun c' hc' => ?_⟩
      rw [hrest c' hc']
      refine (hloop.picked c' hc').imp_right fun hnone => ⟨hnone.1, fun hk => ?_⟩
      exact hnone.2 (hround.kept _ hk).1
    · refine List.forall_mem_cons.mpr ⟨by rw [hself]; exact hsuitable.of_kept hloop.kept, fun c' hc' => ?_⟩
      rw [hrest c' hc']
      exact hloop.suitable c' hc'
    · refine List.forall_mem_cons.mpr ⟨?_, fun c' hc' => ?_⟩
      · obtain ⟨k, hkeys, hdiscount, hcurrent⟩ := hround.assigns.assigned
        have hrow := hfirst.2 k (hkeys ▸ List.mem_singleton_self k)
        exact ⟨k, hfirst.1.trans hkeys, by rw [hrow, hdiscount, hself], by rw [hrow, hcurrent]⟩
      · rw [hrest c' hc']
        exact hloop.linked c' hc'
    · rw [List.map_cons, List.mem_cons, not_or] at hx
      obtain ⟨hkeys, hrows⟩ := hround.assigns.others x hx.1
      obtain ⟨hkeys', hrows'⟩ := hloop.others x hx.2
      refine ⟨hkeys'.trans hkeys, fun k hk => ?_⟩
      rw [hrows' k (hkeys ▸ hk), hrows k hk]

/-! ## What a run leaves -/

/-- Every row has its discount and its tier, the other discounts of the courseware are expired, and their tiers
are switched off. -/
structure TiersSettled (cmd : TierCommand) (now : Instant) (configs : List TierConfig)
    (pick : TierConfig → DiscountId) (db : TierDb) : Prop where
  suitable : ∀ c ∈ configs, IsSuitable cmd now db c (pick c)
  linked : ∀ c ∈ configs, LinkedTo cmd c.threshold (pick c) db.tiers
  expired : ∀ k ∈ db.discounts.keys, cmd.isUnmatched (configs.map pick) k (db.discounts.row k) = true →
    (db.discounts.row k).expirationDate = some cmd.lastYear
  off : ∀ k ∈ db.tiers.keys, (db.tiers.row k).courseware = cmd.courseware →
    (db.tiers.row k).discount ∈ db.discounts.keysWhere (cmd.isUnmatched (configs.map pick)) →
      (db.tiers.row k).current = false

theorem isUnmatched_of_mem {matched : List DiscountId} (h : discount ∈ matched) (d : FinaidDiscount) :
    cmd.isUnmatched matched discount d = false := by
  simp [TierCommand.isUnmatched, h]

/-- The end of the command leaves the tiers where they are. -/
theorem tiersAt_expireUnmatched (x : ℚ) :
    cmd.tiersAt x (cmd.expireUnmatched p).tiers = cmd.tiersAt x p.db.tiers := by
  unfold TierCommand.tiersAt TierCommand.expireUnmatched
  dsimp only
  refine Table.keysWhere_updateWhere _ _ fun _ _ => ?_
  rfl

theorem expireUnmatched_courseware (k : TierId) :
    ((cmd.expireUnmatched p).tiers.row k).courseware = (p.db.tiers.row k).courseware := by
  unfold TierCommand.expireUnmatched
  dsimp only
  refine Table.updateWhere_row_part _ _ (fun tier : StoredTier => tier.courseware) (fun _ => ?_) k
  rfl

theorem expireUnmatched_threshold (k : TierId) :
    ((cmd.expireUnmatched p).tiers.row k).incomeThresholdUsd = (p.db.tiers.row k).incomeThresholdUsd := by
  unfold TierCommand.expireUnmatched
  dsimp only
  refine Table.updateWhere_row_part _ _ (fun tier : StoredTier => tier.incomeThresholdUsd) (fun _ => ?_) k
  rfl

theorem unmatched_expireUnmatched :
    (cmd.expireUnmatched p).discounts.keysWhere (cmd.isUnmatched p.matched) =
      p.db.discounts.keysWhere (cmd.isUnmatched p.matched) := by
  unfold TierCommand.expireUnmatched
  dsimp only
  refine Table.keysWhere_updateWhere _ _ fun _ _ => ?_
  rfl

/-- A tier is switched off exactly if its discount expires. -/
theorem expireUnmatched_tier {k : TierId} (hk : k ∈ p.db.tiers.keys)
    (hcourseware : (p.db.tiers.row k).courseware = cmd.courseware) :
    ((cmd.expireUnmatched p).tiers.row k).discount = (p.db.tiers.row k).discount ∧
      ((cmd.expireUnmatched p).tiers.row k).current = if (p.db.tiers.row k).discount ∈
        p.db.discounts.keysWhere (cmd.isUnmatched p.matched) then false
      else (p.db.tiers.row k).current := by
  have hunmatched : (cmd.expireUnmatched p).discounts.keysWhere (cmd.isUnmatched p.matched) =
      p.db.discounts.keysWhere (cmd.isUnmatched p.matched) := unmatched_expireUnmatched
  unfold TierCommand.expireUnmatched at hunmatched ⊢
  dsimp only at hunmatched ⊢
  rw [hunmatched]
  split
  · rename_i hmem
    rw [Table.updateWhere_row_of _ hk (by simp [hcourseware, hmem])]
    exact ⟨rfl, rfl⟩
  · rename_i hmem
    rw [Table.updateWhere_row_of_not _ (by simp [hmem])]
    exact ⟨rfl, rfl⟩

/-- A discount expires exactly if no row matched it. -/
theorem expireUnmatched_discount {k : DiscountId} (hk : k ∈ p.db.discounts.keys) :
    (cmd.expireUnmatched p).discounts.row k =
      if cmd.isUnmatched p.matched k (p.db.discounts.row k) = true then
        { p.db.discounts.row k with expirationDate := some cmd.lastYear }
      else p.db.discounts.row k := by
  unfold TierCommand.expireUnmatched
  dsimp only
  split
  · rename_i hunmatched
    exact Table.updateWhere_row_of _ hk hunmatched
  · rename_i hmatched
    exact Table.updateWhere_row_of_not _ (Bool.eq_false_iff.mpr hmatched)

/-- After the loop the end of the command settles the table. -/
theorem RowLoops.settled {p' : TierProgress} {pick : TierConfig → DiscountId}
    (h : RowLoops cmd now found configs ⟨db, []⟩ p' pick) :
    TiersSettled cmd now configs pick (cmd.expireUnmatched p') := by
  have hmatched : p'.matched = configs.map pick := h.matched
  have hpick : ∀ c ∈ configs, pick c ∈ p'.matched := fun c hc =>
    hmatched ▸ List.mem_map.mpr ⟨c, hc, rfl⟩
  have hkeep : ∀ c ∈ configs, (cmd.expireUnmatched p').discounts.row (pick c) =
      p'.db.discounts.row (pick c) := by
    intro c hc
    rw [expireUnmatched_discount (h.suitable c hc).key, isUnmatched_of_mem (hpick c hc),
      if_neg Bool.false_ne_true]
  constructor
  · intro c hc
    have hsuitable := h.suitable c hc
    exact ⟨hsuitable.key, by rw [hkeep c hc]; exact hsuitable.ofYear, by rw [hkeep c hc]; exact hsuitable.suits⟩
  · intro c hc
    obtain ⟨k, hkeys, hdiscount, hcurrent⟩ := h.linked c hc
    have hk := mem_tiersAt.mp (hkeys ▸ List.mem_singleton_self k)
    obtain ⟨hdiscount', hcurrent'⟩ := expireUnmatched_tier (p := p') hk.1 hk.2.2
    refine ⟨k, (tiersAt_expireUnmatched _).trans hkeys, hdiscount'.trans hdiscount, ?_⟩
    have hnot : pick c ∉ p'.db.discounts.keysWhere (cmd.isUnmatched p'.matched) := by
      intro hmem
      have hun := (Table.mem_keysWhere.mp hmem).2
      rw [isUnmatched_of_mem (hpick c hc)] at hun
      cases hun
    rw [hcurrent', hdiscount, if_neg hnot]
    exact hcurrent
  · intro k hk hun
    have hkey : k ∈ p'.db.discounts.keys := hk
    rw [← hmatched] at hun
    have hmem : k ∈ (cmd.expireUnmatched p').discounts.keysWhere (cmd.isUnmatched p'.matched) :=
      Table.mem_keysWhere.mpr ⟨hk, hun⟩
    rw [unmatched_expireUnmatched] at hmem
    rw [expireUnmatched_discount hkey, if_pos (Table.mem_keysWhere.mp hmem).2]
  · intro k hk hcourseware hun
    have hkey : k ∈ p'.db.tiers.keys := hk
    have hsame : (p'.db.tiers.row k).courseware = cmd.courseware :=
      (expireUnmatched_courseware k).symm.trans hcourseware
    obtain ⟨hdiscount, hcurrent⟩ := expireUnmatched_tier (p := p') hkey hsame
    rw [← hmatched, unmatched_expireUnmatched, hdiscount] at hun
    rw [hcurrent, if_pos hun]

end MitxOnline

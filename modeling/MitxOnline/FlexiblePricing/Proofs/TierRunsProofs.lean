import MitxOnline.FlexiblePricing.Proofs.TierConfigurationProofs

/-!
# When runs of the set-up are exact

A run of the default table is exact if it can update and create what it has to and every other current tier of
the courseware goes with its discount. A run of a file never is: what the file says of an amount equals no
amount, so all discounts are created anew.
-/

namespace MitxOnline

open Autocommit FixedPoint Trace

variable {cmd : TierCommand} {now : Instant} {order : DiscountOrder} {db : TierDb} {c : TierConfig}
  {configs : List TierConfig} {discount : DiscountId} {p : TierProgress}
  {found : TierConfig → Option DiscountId} {pick : TierConfig → DiscountId}

/-! ## Once more -/

theorem suits_iff {d : FinaidDiscount} : c.suits now d = true ↔
    d.validNow now = true ∧ c.discountType = some d.discountType ∧ c.amount.equals d.amount = true := by
  unfold TierConfig.suits
  rw [Bool.and_eq_true, Bool.and_eq_true, beq_iff_eq, and_assoc]

theorem findDiscount_suitable (h : cmd.findDiscount now order db c = some discount) :
    IsSuitable cmd now db c discount := by
  unfold TierCommand.findDiscount at h
  have hmem := (order.perm _).mem_iff.mp (List.mem_of_find?_eq_some h)
  obtain ⟨hkey, hyear⟩ := Table.mem_keysWhere.mp hmem
  have hsuits := List.find?_some h
  exact ⟨hkey, hyear, hsuits⟩

theorem not_validNow_of_expired {d : FinaidDiscount} (hlater : cmd.lastYear < now)
    (h : d.expirationDate = some cmd.lastYear) : d.validNow now = false := by
  simp [FinaidDiscount.validNow, h, hlater.le]

/-- No discount suits two rows. -/
def SuitOne (now : Instant) (configs : List TierConfig) : Prop :=
  ∀ c ∈ configs, ∀ c' ∈ configs, ∀ d, c.suits now d = true → c'.suits now d = true → c = c'

section TiersSettled

variable (hlater : cmd.lastYear < now) (hone : SuitOne now configs) (h : TiersSettled cmd now configs pick db)

include hlater hone h

/-- In a settled database every row finds its discount. -/
theorem TiersSettled.findDiscount (order : DiscountOrder) (hc : c ∈ configs) :
    cmd.findDiscount now order db c = some (pick c) := by
  have hsuitable := h.suitable c hc
  unfold TierCommand.findDiscount
  refine Search.find?_eq_some_of_unique ?_ hsuitable.suits fun d hd hsuits => ?_
  · exact (order.perm _).mem_iff.mpr (Table.mem_keysWhere.mpr ⟨hsuitable.key, hsuitable.ofYear⟩)
  · obtain ⟨hkey, hyear⟩ := Table.mem_keysWhere.mp ((order.perm _).mem_iff.mp hd)
    have hstarts : cmd.hasPrefix (db.discounts.row d) = true := (Bool.and_eq_true_iff.mp hyear).1
    -- a discount that no row matched is expired
    have hmatched : d ∈ configs.map pick := by
      by_contra hnot
      have hexpired := h.expired d hkey (by simp [TierCommand.isUnmatched, hstarts, hnot])
      have hvalid := (suits_iff.mp hsuits).1
      rw [not_validNow_of_expired hlater hexpired] at hvalid
      cases hvalid
    obtain ⟨c', hc', rfl⟩ := List.mem_map.mp hmatched
    rw [hone c' hc' c hc _ (h.suitable c' hc').suits hsuits]

/-- The round of a row whose tier is linked changes nothing. -/
theorem TiersSettled.configureTier (order : DiscountOrder) (hc : c ∈ configs) (matched : List DiscountId) :
    cmd.configureTier (cmd.findDiscount now order db) c ⟨db, matched⟩ =
      ⟨⟨db, matched ++ [pick c]⟩, none⟩ := by
  obtain ⟨k, hkeys, hdiscount, hcurrent⟩ := h.linked c hc
  have hrow : { db.tiers.row k with discount := pick c, current := true } = db.tiers.row k := by
    rw [← hdiscount, ← hcurrent]
  have hupdate : cmd.updateOrCreateTier c.threshold (pick c) db.tiers = .ok db.tiers := by
    unfold TierCommand.updateOrCreateTier
    rw [hkeys]
    dsimp only
    rw [hrow, Table.set_row_eq]
  unfold TierCommand.configureTier
  rw [h.findDiscount hlater hone order hc]
  exact assignTier_of_ok hupdate

theorem TiersSettled.configureTiers (order : DiscountOrder) {rest : List TierConfig} (hrest : rest ⊆ configs)
    (matched : List DiscountId) :
    configureTiers cmd (cmd.findDiscount now order db) rest ⟨db, matched⟩ =
      ⟨⟨db, matched ++ rest.map pick⟩, none⟩ := by
  induction rest generalizing matched with
  | nil => simp [MitxOnline.configureTiers]
  | cons c rest ih =>
    have hround := h.configureTier hlater hone order (hrest List.mem_cons_self) matched
    rw [configureTiers_cons (by rw [hround]), hround,
      ih fun c' hc' => hrest (List.mem_cons_of_mem c hc')]
    simp

end TiersSettled

/-- What is expired and switched off stays so. -/
theorem TiersSettled.expireUnmatched (h : TiersSettled cmd now configs pick db) :
    cmd.expireUnmatched ⟨db, configs.map pick⟩ = db := by
  have hdiscounts : (db.discounts.updateWhere (cmd.isUnmatched (configs.map pick)) fun d =>
      { d with expirationDate := some cmd.lastYear }) = db.discounts := by
    refine Table.updateWhere_eq_self fun k hk hun => ?_
    rw [← h.expired k hk hun]
  unfold TierCommand.expireUnmatched
  dsimp only
  rw [hdiscounts, Table.updateWhere_eq_self]
  intro k hk htest
  rw [Bool.and_eq_true, decide_eq_true_iff, List.contains_iff_mem] at htest
  rw [← h.off k hk htest.1 htest.2]

/-! ## The default table -/

theorem defaultTiers_distinct (cmd : TierCommand) : (cmd.defaultTiers.map (·.threshold)).Nodup := by
  simp [TierCommand.defaultTiers]

theorem mem_defaultTiers (hc : c ∈ cmd.defaultTiers) : ∃ tier n discountType,
    c.discountCode = cmd.discountCode tier ∧ c.amount = .number n ∧
      c.discountType = some discountType ∧ discountType.length ≤ 30 := by
  have htype : cmd.defaultType.length ≤ 30 := by
    unfold TierCommand.defaultType
    split <;> decide
  simp only [TierCommand.defaultTiers, List.mem_cons, List.not_mem_nil, or_false] at hc
  rcases hc with rfl | rfl | rfl | rfl
  · exact ⟨1, _, _, rfl, rfl, rfl, htype⟩
  · exact ⟨2, _, _, rfl, rfl, rfl, htype⟩
  · exact ⟨3, _, _, rfl, rfl, rfl, htype⟩
  · exact ⟨4, _, _, rfl, rfl, rfl, by decide⟩

/-- The rows of the default table have different amounts. -/
theorem defaultTiers_suitOne (cmd : TierCommand) (now : Instant) : SuitOne now cmd.defaultTiers := by
  have hamounts : (cmd.defaultTiers.map (·.amount)).Nodup := by
    unfold TierCommand.defaultTiers
    cases cmd.isCourse <;> simp
  intro c hc c' hc' d hsuits hsuits'
  obtain ⟨-, n, -, -, hn, -⟩ := mem_defaultTiers hc
  obtain ⟨-, n', -, -, hn', -⟩ := mem_defaultTiers hc'
  have hequals := (suits_iff.mp hsuits).2.2
  have hequals' := (suits_iff.mp hsuits').2.2
  refine List.inj_on_of_nodup_map hamounts hc hc' ?_
  rw [hn] at hequals ⊢
  rw [hn'] at hequals' ⊢
  have hsame := (eq_of_beq hequals).symm.trans (eq_of_beq hequals')
  rw [Decimal.mk.injEq] at hsame
  congr 1
  omega

/-- The discount of a row of the default table is created, if its code fits. -/
theorem newDiscount_of_default {n : ℕ} {discountType : Text}
    (hamount : c.amount = .number n)
    (htype : c.discountType = some discountType) (hlength : discountType.length ≤ 30) :
    cmd.newDiscount c = if 100 < c.discountCode.length then .error .dataError else
      .ok ⟨c.discountCode, discountType, ⟨n * 10 ^ 5⟩, some .financialAssistance, .unlimited, none, none⟩ := by
  unfold TierCommand.newDiscount
  rw [hamount, htype]
  simp only [TierAmount.column, bind, Except.bind, Nat.not_lt.mpr hlength, false_or]

theorem newDiscount_default_iff (hc : c ∈ cmd.defaultTiers) :
    (∃ row, cmd.newDiscount c = .ok row) ↔ c.discountCode.length ≤ 100 := by
  obtain ⟨-, n, discountType, -, hamount, htype, hlength⟩ := mem_defaultTiers hc
  rw [newDiscount_of_default hamount htype hlength]
  split
  · rename_i hlong
    exact iff_of_false (by simp) (Nat.not_le.mpr hlong)
  · rename_i hfits
    exact iff_of_true ⟨_, rfl⟩ (Nat.not_lt.mp hfits)

theorem ofYear_discountCode {d : FinaidDiscount} {tier : ℕ} (h : d.discountCode = cmd.discountCode tier) :
    cmd.ofYear d = true := by
  have hstarts : cmd.codePrefix <+: d.discountCode := h ▸ List.prefix_append _ _
  have hends : cmd.yearText <:+ d.discountCode := by
    rw [h]
    unfold TierCommand.discountCode
    rw [← List.singleton_append, ← List.append_assoc, ← List.append_assoc]
    exact List.suffix_append _ _
  unfold TierCommand.ofYear TierCommand.hasPrefix
  rw [Bool.and_eq_true, List.isPrefixOf_iff_prefix, List.isSuffixOf_iff_suffix]
  exact ⟨hstarts, hends⟩

/-- The discount that is created for a row of the default table suits it. -/
theorem newDiscount_default_suits (now : Instant) (hc : c ∈ cmd.defaultTiers) {row : FinaidDiscount}
    (hrow : cmd.newDiscount c = .ok row) : cmd.ofYear row = true ∧ c.suits now row = true := by
  obtain ⟨tier, n, discountType, hcode, hamount, htype, hlength⟩ := mem_defaultTiers hc
  rw [newDiscount_of_default hamount htype hlength] at hrow
  split at hrow
  · cases hrow
  · obtain rfl := Except.ok.inj hrow
    refine ⟨ofYear_discountCode hcode, suits_iff.mpr ⟨rfl, htype, ?_⟩⟩
    rw [hamount]
    exact beq_self_eq_true _

/-! ## Runs -/

/-- A run of the command in the year. -/
structure TierRun (cmd : TierCommand) where
  now : Instant
  order : DiscountOrder
  tierInfo : Option (List TierInfoRow)
  later : cmd.lastYear < now
  /-- A file has a row for the threshold zero, and its thresholds are different. -/
  zero : ∀ rows, tierInfo = some rows → foundZeroTier rows = true
  distinct : ∀ rows, tierInfo = some rows →
    (rows.map fun row => readInt (String.ofList row.threshold)).Nodup

def TierRun.outcome (run : TierRun cmd) (db : TierDb) : Outcome TierDb TierCommandError :=
  cmd.handle run.now run.order run.tierInfo db

/-- What a run leaves in the database. -/
def tierStep (cmd : TierCommand) (db : TierDb) (run : TierRun cmd) : TierDb := (run.outcome db).state

/-- A current tier of the courseware. -/
def IsCurrent (cmd : TierCommand) (tiers : Table StoredTier) (k : TierId) : Prop :=
  k ∈ tiers.keys ∧ (tiers.row k).courseware = cmd.courseware ∧ (tiers.row k).current = true

/-- The current tiers have the thresholds of the table, and each is linked to a valid discount of the type and
amount of its row. -/
structure Configured (cmd : TierCommand) (now : Instant) (configs : List TierConfig) (db : TierDb) :
    Prop where
  thresholds : ∀ x, (∃ k, IsCurrent cmd db.tiers k ∧ (db.tiers.row k).incomeThresholdUsd = x) ↔
    ∃ c ∈ configs, c.threshold = x
  linked : ∀ k, IsCurrent cmd db.tiers k → ∃ c ∈ configs, c.threshold = (db.tiers.row k).incomeThresholdUsd ∧
    (db.tiers.row k).discount ∈ db.discounts.keys ∧
    (db.discounts.row (db.tiers.row k).discount).validNow now = true ∧
    c.discountType = some (db.discounts.row (db.tiers.row k).discount).discountType ∧
    c.amount.column cmd.toDecimal = .ok (db.discounts.row (db.tiers.row k).discount).amount

/-- The run returns, the tiers are those of its table, and once more the run changes nothing. -/
structure ConfiguresExactly (cmd : TierCommand) (db : TierDb) (run : TierRun cmd) : Prop where
  returns : (run.outcome db).error = none
  configured : ∃ configs, cmd.discountsAndTiers run.tierInfo = .ok configs ∧
    Configured cmd run.now configs (tierStep cmd db run)
  again : ∀ order, cmd.handle run.now order run.tierInfo (tierStep cmd db run) =
    ⟨tierStep cmd db run, none⟩

/-- The condition on a run: it is one of the default table, no threshold of which has more than one tier; a
discount that is not found has a code that fits; and a current tier with another threshold is linked to a
discount of the courseware that no row finds. -/
structure TierRunMeets (cmd : TierCommand) (db : TierDb) (run : TierRun cmd) : Prop where
  default : run.tierInfo = none
  single : ∀ c ∈ cmd.defaultTiers, (cmd.tiersAt c.threshold db.tiers).length ≤ 1
  codes : ∀ c ∈ cmd.defaultTiers, cmd.findDiscount run.now run.order db c = none →
    c.discountCode.length ≤ 100
  others : ∀ k, IsCurrent cmd db.tiers k →
    (db.tiers.row k).incomeThresholdUsd ∉ cmd.defaultTiers.map (·.threshold) →
      (db.tiers.row k).discount ∈ db.discounts.keys ∧
      cmd.hasPrefix (db.discounts.row (db.tiers.row k).discount) = true ∧
      ∀ c ∈ cmd.defaultTiers,
        cmd.findDiscount run.now run.order db c ≠ some (db.tiers.row k).discount

/-! ### The default table -/

theorem zero_of_default (rows : List TierInfoRow) (h : none = some rows) : foundZeroTier rows = true := nomatch h

theorem handle_of_returns {tierInfo : Option (List TierInfoRow)}
    (hconfigs : cmd.discountsAndTiers tierInfo = .ok configs)
    (hzero : ∀ rows, tierInfo = some rows → foundZeroTier rows = true)
    (h : (configureTiers cmd (cmd.findDiscount now order db) configs ⟨db, []⟩).error = none) :
    cmd.handle now order tierInfo db = ⟨cmd.expireUnmatched
      (configureTiers cmd (cmd.findDiscount now order db) configs ⟨db, []⟩).state, none⟩ := by
  have hfound : tierInfo.any (fun rows => !foundZeroTier rows) ≠ true := by
    cases tierInfo with
    | none => exact Bool.false_ne_true
    | some rows => simp [hzero rows rfl]
  unfold configureTiers at h ⊢
  unfold TierCommand.handle
  rw [hconfigs]
  dsimp only
  rw [if_neg hfound, h]

theorem configureTiers_returns {tierInfo : Option (List TierInfoRow)}
    (hconfigs : cmd.discountsAndTiers tierInfo = .ok configs)
    (hzero : ∀ rows, tierInfo = some rows → foundZeroTier rows = true)
    (h : (cmd.handle now order tierInfo db).error = none) :
    (configureTiers cmd (cmd.findDiscount now order db) configs ⟨db, []⟩).error = none := by
  have hfound : tierInfo.any (fun rows => !foundZeroTier rows) ≠ true := by
    cases tierInfo with
    | none => exact Bool.false_ne_true
    | some rows => simp [hzero rows rfl]
  cases herror : (configureTiers cmd (cmd.findDiscount now order db) configs ⟨db, []⟩).error with
  | none => rfl
  | some e =>
    unfold configureTiers at herror
    unfold TierCommand.handle at h
    rw [hconfigs] at h
    dsimp only at h
    rw [if_neg hfound, herror] at h
    cases h

/-- A run of the default table returns exactly if it can update and create what it has to. -/
theorem handle_default_error : (cmd.handle now order none db).error = none ↔
    (∀ c ∈ cmd.defaultTiers, (cmd.tiersAt c.threshold db.tiers).length ≤ 1) ∧
      ∀ c ∈ cmd.defaultTiers, cmd.findDiscount now order db c = none → c.discountCode.length ≤ 100 := by
  have hloop : (cmd.handle now order none db).error = none ↔
      (configureTiers cmd (cmd.findDiscount now order db) cmd.defaultTiers ⟨db, []⟩).error = none := by
    constructor
    · exact configureTiers_returns rfl zero_of_default
    · intro h
      rw [handle_of_returns rfl zero_of_default h]
  rw [hloop, configureTiers_error (defaultTiers_distinct cmd)]
  constructor
  · intro h
    refine ⟨fun c hc => (h c hc).1, fun c hc hnone => ?_⟩
    exact (newDiscount_default_iff hc).mp ((h c hc).2 hnone)
  · rintro ⟨hsingle, hcodes⟩ c hc
    have hcreates := newDiscount_default_iff hc
    refine ⟨hsingle c hc, fun hnone => hcreates.mpr ?_⟩
    exact hcodes c hc hnone

/-- What a run of the default table that returns leaves. -/
theorem handle_default_loops (h : (cmd.handle now order none db).error = none) :
    ∃ p pick, RowLoops cmd now (cmd.findDiscount now order db) cmd.defaultTiers ⟨db, []⟩ p pick ∧
      cmd.handle now order none db = ⟨cmd.expireUnmatched p, none⟩ := by
  have hreturns := configureTiers_returns rfl zero_of_default h
  have hfound : ∀ c ∈ cmd.defaultTiers, ∀ d, cmd.findDiscount now order db c = some d →
      IsSuitable cmd now db c d := fun c _ d hd => findDiscount_suitable hd
  have hnew : ∀ c ∈ cmd.defaultTiers, ∀ row, cmd.newDiscount c = .ok row →
      cmd.ofYear row = true ∧ c.suits now row = true := fun c hc row => newDiscount_default_suits now hc
  obtain ⟨pick, hloops⟩ := configureTiers_loops (defaultTiers_distinct cmd) hfound hnew hreturns
  exact ⟨_, pick, hloops, handle_of_returns rfl zero_of_default hreturns⟩

/-- A run of the default table that has returned changes nothing once more. -/
theorem TiersSettled.handle (hlater : cmd.lastYear < now) (h : TiersSettled cmd now cmd.defaultTiers pick db)
    (order : DiscountOrder) : cmd.handle now order none db = ⟨db, none⟩ := by
  have hloop := h.configureTiers hlater (defaultTiers_suitOne cmd now) order
    (List.Subset.refl cmd.defaultTiers) []
  rw [handle_of_returns rfl zero_of_default (by rw [hloop]), hloop]
  exact congrArg (Outcome.mk · none) h.expireUnmatched

/-- The rows of a settled table have current tiers, linked to their discounts. -/
theorem TiersSettled.isCurrent (h : TiersSettled cmd now configs pick db) (hc : c ∈ configs) {k : TierId}
    (hk : k ∈ cmd.tiersAt c.threshold db.tiers) :
    IsCurrent cmd db.tiers k ∧ (db.tiers.row k).discount = pick c := by
  obtain ⟨k', hkeys, hdiscount, hcurrent⟩ := h.linked c hc
  rw [hkeys] at hk
  obtain rfl := List.mem_singleton.mp hk
  obtain ⟨hkey, -, hcourseware⟩ := mem_tiersAt.mp (hkeys ▸ List.mem_singleton_self k)
  exact ⟨⟨hkey, hcourseware, hcurrent⟩, hdiscount⟩

/-- A settled table is configured if all current tiers are for its thresholds. -/
theorem TiersSettled.configured_iff (h : TiersSettled cmd now cmd.defaultTiers pick db) :
    Configured cmd now cmd.defaultTiers db ↔ ∀ k, IsCurrent cmd db.tiers k →
      (db.tiers.row k).incomeThresholdUsd ∈ cmd.defaultTiers.map (·.threshold) := by
  constructor
  · intro hconfigured k hk
    obtain ⟨c, hc, hthreshold⟩ := (hconfigured.thresholds _).mp ⟨k, hk, rfl⟩
    exact List.mem_map.mpr ⟨c, hc, hthreshold⟩
  · intro hall
    constructor
    · intro x
      constructor
      · rintro ⟨k, hk, rfl⟩
        obtain ⟨c, hc, hthreshold⟩ := List.mem_map.mp (hall k hk)
        exact ⟨c, hc, hthreshold⟩
      · rintro ⟨c, hc, rfl⟩
        obtain ⟨k, hkeys, -⟩ := h.linked c hc
        have hk : k ∈ cmd.tiersAt c.threshold db.tiers := hkeys ▸ List.mem_singleton_self k
        exact ⟨k, (h.isCurrent hc hk).1, (mem_tiersAt.mp hk).2.1⟩
    · intro k hk
      obtain ⟨c, hc, hthreshold⟩ := List.mem_map.mp (hall k hk)
      have hdiscount := (h.isCurrent hc (mem_tiersAt.mpr ⟨hk.1, hthreshold.symm, hk.2.1⟩)).2
      have hsuitable := h.suitable c hc
      obtain ⟨hvalid, htype, hequals⟩ := suits_iff.mp hsuitable.suits
      obtain ⟨-, n, -, -, hamount, -⟩ := mem_defaultTiers hc
      rw [hdiscount]
      refine ⟨c, hc, hthreshold, hsuitable.key, hvalid, htype, ?_⟩
      rw [hamount] at hequals ⊢
      exact congrArg Except.ok (eq_of_beq hequals).symm

/-- The discounts that expire after the loop are those of the courseware that were there and that no row has
found. -/
theorem RowLoops.expires_iff (h : RowLoops cmd now found configs ⟨db, []⟩ p pick) :
    discount ∈ p.db.discounts.keysWhere (cmd.isUnmatched p.matched) ↔
      discount ∈ db.discounts.keys ∧ cmd.hasPrefix (db.discounts.row discount) = true ∧
        ∀ c ∈ configs, found c ≠ some discount := by
  have hmatched : p.matched = configs.map pick := h.matched
  rw [Table.mem_keysWhere]
  unfold TierCommand.isUnmatched
  rw [hmatched, Bool.and_eq_true, Bool.not_eq_true', ← Bool.not_eq_true, List.contains_iff_mem]
  constructor
  · rintro ⟨hkey, hstarts, hnot⟩
    have hold : discount ∈ db.discounts.keys := (h.new discount hkey).resolve_right hnot
    refine ⟨hold, (h.kept discount hold).2 ▸ hstarts, fun c hc hfound => hnot ?_⟩
    rcases h.picked c hc with hsome | ⟨hnone, -⟩
    · exact List.mem_map.mpr ⟨c, hc, Option.some.inj (hsome.symm.trans hfound)⟩
    · rw [hnone] at hfound
      cases hfound
  · rintro ⟨hold, hstarts, hnot⟩
    obtain ⟨hkey, hrow⟩ := h.kept discount hold
    refine ⟨hkey, hrow ▸ hstarts, fun hmem => ?_⟩
    obtain ⟨c, hc, rfl⟩ := List.mem_map.mp hmem
    rcases h.picked c hc with hsome | ⟨-, hnew⟩
    · exact hnot c hc hsome
    · exact hnew hold

/-- Which current tiers a run leaves beside those of its table. -/
theorem RowLoops.others_iff (h : RowLoops cmd now found configs ⟨db, []⟩ p pick) :
    (∀ k, IsCurrent cmd (cmd.expireUnmatched p).tiers k →
      ((cmd.expireUnmatched p).tiers.row k).incomeThresholdUsd ∈ configs.map (·.threshold)) ↔
    ∀ k, IsCurrent cmd db.tiers k → (db.tiers.row k).incomeThresholdUsd ∉ configs.map (·.threshold) →
      (db.tiers.row k).discount ∈ db.discounts.keys ∧
      cmd.hasPrefix (db.discounts.row (db.tiers.row k).discount) = true ∧
      ∀ c ∈ configs, found c ≠ some (db.tiers.row k).discount := by
  constructor
  · intro hall k hk hx
    obtain ⟨hkeys, hrows⟩ := h.others _ hx
    have hmem : k ∈ cmd.tiersAt (db.tiers.row k).incomeThresholdUsd db.tiers :=
      mem_tiersAt.mpr ⟨hk.1, rfl, hk.2.1⟩
    have hrow := hrows k hmem
    have hkey := (mem_tiersAt.mp (hkeys ▸ hmem)).1
    have hcourseware : (p.db.tiers.row k).courseware = cmd.courseware := hrow ▸ hk.2.1
    rw [← h.expires_iff]
    -- a tier that is not switched off is current for its threshold
    by_contra hnot
    have hcurrent := (expireUnmatched_tier hkey hcourseware).2
    rw [hrow, if_neg hnot, hk.2.2] at hcurrent
    have hthreshold := hall k ⟨hkey, (expireUnmatched_courseware k).trans hcourseware, hcurrent⟩
    rw [expireUnmatched_threshold, hrow] at hthreshold
    exact hx hthreshold
  · intro hothers k hk
    by_contra hx
    rw [expireUnmatched_threshold] at hx
    have hcourseware : (p.db.tiers.row k).courseware = cmd.courseware :=
      (expireUnmatched_courseware k).symm.trans hk.2.1
    have hkey : k ∈ p.db.tiers.keys := hk.1
    obtain ⟨hkeys, hrows⟩ := h.others _ hx
    have hmem : k ∈ cmd.tiersAt (p.db.tiers.row k).incomeThresholdUsd db.tiers :=
      hkeys ▸ mem_tiersAt.mpr ⟨hkey, rfl, hcourseware⟩
    have hrow := hrows k hmem
    have hcurrent := (expireUnmatched_tier hkey hcourseware).2
    rw [hk.2.2] at hcurrent
    split at hcurrent
    · cases hcurrent
    · rename_i hnot
      rw [hrow] at hnot hcurrent hx hcourseware
      exact hnot (h.expires_iff.mpr (hothers k ⟨(mem_tiersAt.mp hmem).1, hcourseware, hcurrent.symm⟩ hx))

/-- A run of the default table is exact exactly under the condition. -/
theorem configuresExactly_default (run : TierRun cmd) (hdefault : run.tierInfo = none) :
    ConfiguresExactly cmd db run ↔ TierRunMeets cmd db run := by
  have houtcome : run.outcome db = cmd.handle run.now run.order none db := by
    unfold TierRun.outcome
    rw [hdefault]
  have hconfigs : cmd.discountsAndTiers run.tierInfo = .ok cmd.defaultTiers := by rw [hdefault]; rfl
  have hreturns : (run.outcome db).error = none ↔ (∀ c ∈ cmd.defaultTiers,
      (cmd.tiersAt c.threshold db.tiers).length ≤ 1) ∧ ∀ c ∈ cmd.defaultTiers,
        cmd.findDiscount run.now run.order db c = none → c.discountCode.length ≤ 100 := by
    rw [houtcome]
    exact handle_default_error
  -- what a run that returns leaves is settled, and configured exactly if no stale tier is left
  have hexact : (run.outcome db).error = none → ∃ p pick,
      RowLoops cmd run.now (cmd.findDiscount run.now run.order db) cmd.defaultTiers ⟨db, []⟩ p pick ∧
        tierStep cmd db run = cmd.expireUnmatched p := by
    intro h
    rw [houtcome] at h
    obtain ⟨p, pick, hloops, hstate⟩ := handle_default_loops h
    refine ⟨p, pick, hloops, ?_⟩
    unfold tierStep
    rw [houtcome, hstate]
  constructor
  · intro h
    obtain ⟨hsingle, hcodes⟩ := hreturns.mp h.returns
    obtain ⟨p, pick, hloops, hstate⟩ := hexact h.returns
    obtain ⟨configs, hsame, hconfigured⟩ := h.configured
    obtain rfl := Except.ok.inj (hconfigs.symm.trans hsame)
    rw [hstate, hloops.settled.configured_iff, hloops.others_iff] at hconfigured
    exact ⟨hdefault, hsingle, hcodes, hconfigured⟩
  · intro h
    have hnone := hreturns.mpr ⟨h.single, h.codes⟩
    obtain ⟨p, pick, hloops, hstate⟩ := hexact hnone
    refine ⟨hnone, ⟨_, hconfigs, ?_⟩, fun order => ?_⟩
    · rw [hstate, hloops.settled.configured_iff, hloops.others_iff]
      exact h.others
    · rw [hstate, hdefault]
      exact hloops.settled.handle run.later order

/-! ### The table of a file -/

theorem readTierInfo_field {rows : List TierInfoRow} {idx : ℕ}
    (h : cmd.readTierInfo idx rows = .ok configs) (hc : c ∈ configs) : ∃ value, c.amount = .field value := by
  induction rows generalizing idx configs with
  | nil =>
    obtain rfl := Except.ok.inj h
    cases hc
  | cons row rest ih =>
    unfold TierCommand.readTierInfo at h
    split at h
    · cases h
    · cases hread : cmd.readTierInfo (idx + 1) rest with
      | error e =>
        rw [hread] at h
        cases h
      | ok read =>
        rw [hread] at h
        obtain rfl := Except.ok.inj h
        rcases List.mem_cons.mp hc with rfl | hc
        · exact ⟨_, rfl⟩
        · exact ih hread hc

theorem readTierInfo_length {rows : List TierInfoRow} {idx : ℕ}
    (h : cmd.readTierInfo idx rows = .ok configs) : configs.length = rows.length := by
  induction rows generalizing idx configs with
  | nil =>
    obtain rfl := Except.ok.inj h
    rfl
  | cons row rest ih =>
    unfold TierCommand.readTierInfo at h
    split at h
    · cases h
    · cases hread : cmd.readTierInfo (idx + 1) rest with
      | error e =>
        rw [hread] at h
        cases h
      | ok read =>
        rw [hread] at h
        obtain rfl := Except.ok.inj h
        exact congrArg (· + 1) (ih hread)

/-- What a file has of an amount equals the amount of no discount. -/
theorem findDiscount_field (h : ∃ value, c.amount = .field value) : cmd.findDiscount now order db c = none := by
  obtain ⟨value, hvalue⟩ := h
  unfold TierCommand.findDiscount
  refine List.find?_eq_none.mpr fun k _ hsuits => ?_
  have hequals := (suits_iff.mp hsuits).2.2
  rw [hvalue] at hequals
  cases hequals

/-- Rows that find nothing create a discount each. -/
theorem configureTiers_creates (hnone : ∀ c ∈ configs, found c = none)
    (h : (configureTiers cmd found configs p).error = none) :
    (configureTiers cmd found configs p).state.db.discounts.keys.length =
      p.db.discounts.keys.length + configs.length := by
  induction configs generalizing p with
  | nil => rfl
  | cons c rest ih =>
    have hreturns := configureTiers_error_cons h
    rw [configureTiers_cons hreturns] at h ⊢
    obtain ⟨discount, hround⟩ := configureTier_rounds hreturns
    rw [ih (fun c' hc' => hnone c' (List.mem_cons_of_mem c hc')) h]
    rcases hround.discounts with ⟨hsome, -⟩ | ⟨-, -, row, -, heq⟩
    · rw [hnone c List.mem_cons_self] at hsome
      cases hsome
    · rw [heq, Table.create_keys, List.length_append, List.length_singleton, List.length_cons]
      omega

/-- A run of a file is never exact: once more it creates its discounts. -/
theorem not_configuresExactly_file (run : TierRun cmd) {rows : List TierInfoRow}
    (hfile : run.tierInfo = some rows) : ¬ ConfiguresExactly cmd db run := by
  intro h
  obtain ⟨configs, hconfigs, -⟩ := h.configured
  have hagain := h.again run.order
  have hreturns : (cmd.handle run.now run.order run.tierInfo (tierStep cmd db run)).error = none := by
    rw [hagain]
  have hloop := configureTiers_returns hconfigs run.zero hreturns
  rw [handle_of_returns hconfigs run.zero hloop, Outcome.mk.injEq] at hagain
  rw [hfile] at hconfigs
  have hcreates := configureTiers_creates
    (fun c hc => findDiscount_field (readTierInfo_field hconfigs hc)) hloop
  have hkeys := congrArg (fun db : TierDb => db.discounts.keys.length) hagain.1
  -- the file has a row, for the threshold zero
  have hrows : rows ≠ [] := by
    rintro rfl
    exact absurd (run.zero [] hfile) Bool.false_ne_true
  have hlength := readTierInfo_length hconfigs
  have hpositive := List.length_pos_of_ne_nil hrows
  have hsame : (tierStep cmd db run).discounts.keys.length + configs.length =
      (tierStep cmd db run).discounts.keys.length := hcreates.symm.trans hkeys
  omega

/-! ### All runs -/

/-- The runs of a sequence are exact exactly if each is one of the default table that meets the condition. -/
theorem configuresExactly_iff (cmd : TierCommand) (db : TierDb) (runs : List (TierRun cmd)) :
    Along (tierStep cmd) (ConfiguresExactly cmd) db runs ↔ Along (tierStep cmd) (TierRunMeets cmd) db runs := by
  refine along_iff_of_invariant (fun _ => True) (fun _ _ _ _ => trivial) (fun db run _ => ?_) trivial
  cases hinfo : run.tierInfo with
  | none => exact configuresExactly_default run hinfo
  | some rows =>
    refine iff_of_false (not_configuresExactly_file run hinfo) fun h => ?_
    rw [h.default] at hinfo
    cases hinfo

/-! ### A file, twice -/

def tierCourse : TierCommand where
  isCourse := true
  id := 1
  readableId := "C".toList
  currentYear := 2025
  lastYear := 0
  toDecimal text := if text = "75".toList then some ⟨7500000⟩ else none

def noTiers : TierDb :=
  ⟨⟨[], fun _ => ⟨[], [], ⟨0⟩, none, .unlimited, none, none⟩, Table.sorted_nil⟩,
    ⟨[], fun _ => ⟨⟨0, false⟩, .course 0, 0⟩, Table.sorted_nil⟩⟩

def tierFile : List TierInfoRow := [⟨"0".toList, some percentOffText, some "75".toList⟩]

theorem tierFile_zero : foundZeroTier tierFile = true := by decide +kernel

theorem tierFile_distinct : (tierFile.map fun row => readInt (String.ofList row.threshold)).Nodup := by
  decide +kernel

def fileRun : TierRun tierCourse where
  now := 1
  order := ⟨id, fun rows => .refl rows⟩
  tierInfo := some tierFile
  later := Int.zero_lt_one
  zero _ h := Option.some.inj h ▸ tierFile_zero
  distinct _ h := Option.some.inj h ▸ tierFile_distinct

/-- The second run of a file creates a second discount. -/
theorem fileRun_not_exact :
    ¬ Along (tierStep tierCourse) (ConfiguresExactly tierCourse) noTiers [fileRun] := by
  intro h
  have hagain := h.1.again fileRun.order
  have hkeys := congrArg (fun out => out.state.discounts.keys) hagain
  exact absurd hkeys (by decide +kernel)

end MitxOnline

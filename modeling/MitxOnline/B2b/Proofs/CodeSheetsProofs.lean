import MitxOnline.B2b.Proofs.PlainSheetsProofs
import MitxOnline.Lib.Autocommit
import MitxOnline.Lib.Upserts

/-!
# Updates leave the sheet to the customer

An update writes a code where it is or into a blank row. Whatever the customer did to the sheet before,
nothing else changes, and after an update every code is where it was saved. Formulas of the customer may show
what they like as long as they keep out of the column of the codes.
-/

namespace MitxOnline

open Dialogues Autocommit

variable {σ : Type} {ops : SheetOps σ} {cells : SheetCells σ} {str : Instant → String} {sheet sheet' : σ}
  {d : SheetCode} {row r : ℕ}

/-! ## Rows -/

/-- The columns of the codes show nothing. -/
def SheetCells.Blank (cells : SheetCells σ) (sheet : σ) (r : ℕ) : Prop :=
  ∀ j < defaultColumns.length, cells.shown sheet r j = ""

/-- The code that a row is for; case does not matter. -/
def SheetCells.codeAt (cells : SheetCells σ) (sheet : σ) (r : ℕ) : String :=
  cells.fold (cells.shown sheet r 0)

/-- The row is for the code. -/
def SheetCells.IsFor (cells : SheetCells σ) (sheet : σ) (r : ℕ) (code : String) : Prop :=
  cells.codeAt sheet r = cells.fold code

/-- No formula reaches the column of the codes, or the columns beside it where that one is empty. -/
def SheetCells.Readable (cells : SheetCells σ) (sheet : σ) : Prop :=
  ∀ r, ¬cells.calculated sheet r 0 ∧
    (cells.shown sheet r 0 = "" → ∀ j < defaultColumns.length, ¬cells.calculated sheet r j)

theorem blank_of_isBlank (hdoc : ops.Documented cells) {tail : Bool} {values : List String}
    (hget : ops.getRow sheet row tail = .ok values) (h : isBlank values = true) : cells.Blank sheet row := by
  intro j hj
  rw [← hdoc.getRow hget j]
  rcases decide_eq_true_eq.mp h with rfl | htake
  · rfl
  · have hsame : (values.take defaultColumns.length).getD j "" = values.getD j "" := by
      rw [List.getD_eq_getElem?_getD, List.getD_eq_getElem?_getD, List.getElem?_take_of_lt hj]
    rw [← hsame, htake, List.getD_replicate _ hj]

/-- A blank row is known as such. -/
theorem isBlank_of_blank (hdoc : ops.Documented cells) (hserves : ops.Serves) {values : List String}
    (hget : ops.getRow sheet row true = .ok values) (h : cells.Blank sheet row) : isBlank values = true := by
  refine decide_eq_true ((hserves.padded hget).imp_right fun hlength => ?_)
  refine List.eq_replicate_iff.mpr ⟨List.length_take_of_le hlength, fun value hvalue => ?_⟩
  obtain ⟨j, hj, rfl⟩ := List.getElem_of_mem hvalue
  have hj' : j < defaultColumns.length := by
    rw [List.length_take_of_le hlength] at hj
    exact hj
  have hget' := hdoc.getRow hget j
  rw [h j hj', List.getD_eq_getElem _ _ (lt_of_lt_of_le hj' hlength)] at hget'
  rw [List.getElem_take]
  exact hget'

/-- The search ends at a blank row. -/
theorem searchBlank_blank (hdoc : ops.Documented cells) {fuel : ℕ} (h : searchBlank ops sheet fuel row = .ok r) :
    row ≤ r ∧ cells.Blank sheet r := by
  induction fuel generalizing row with
  | zero => cases h
  | succ fuel ih =>
    obtain ⟨values, hget, h⟩ := Upserts.bind_ok_iff.mp h
    split at h
    next hblank =>
      obtain rfl := Except.ok.inj h
      exact ⟨le_rfl, blank_of_isBlank hdoc hget hblank⟩
    next =>
      obtain ⟨hle, hblank⟩ := ih h
      exact ⟨by omega, hblank⟩

/-- The search finds a blank row that there is in the grid. -/
theorem searchBlank_finds (hdoc : ops.Documented cells) (hserves : ops.Serves) {fuel : ℕ} (hrow : 0 < row)
    (hle : row ≤ r) (hfuel : r < row + fuel) (hgrid : r ≤ ops.rows sheet) (hblank : cells.Blank sheet r) :
    ∃ r', searchBlank ops sheet fuel row = .ok r' ∧ r' ≤ ops.rows sheet := by
  induction fuel generalizing row with
  | zero => omega
  | succ fuel ih =>
    obtain ⟨values, hget⟩ := hserves.getRow sheet row true hrow (by omega)
    have hstep : searchBlank ops sheet (fuel + 1) row =
        if isBlank values = true then .ok row else searchBlank ops sheet fuel (row + 1) := by
      rw [searchBlank, hget]
      rfl
    rw [hstep]
    split
    next => exact ⟨row, rfl, by omega⟩
    next hnot =>
      have hne : row ≠ r := by
        rintro rfl
        exact hnot (isBlank_of_blank hdoc hserves hget hblank)
      exact ih (by omega) (by omega) (by omega)

/-! ## Updates of a row -/

section UpdateRow

variable {columns : List String} (hdoc : ops.Documented cells) (hread : cells.Readable sheet)
  (hupdate : ops.updateRow sheet row columns = .ok sheet') (hno : ∀ text ∈ columns, ¬cells.isFormula text)

include hdoc hread hupdate hno

theorem codeAt_updateRow (hne : r ≠ row) : cells.codeAt sheet' r = cells.codeAt sheet r :=
  congrArg cells.fold
    (hdoc.shown_updateRow hupdate hno r 0 (fun heq => absurd heq hne) (hread r).1).1

/-- A row without a code shows the same in the columns of the codes. -/
theorem shown_updateRow_of_empty (hne : r ≠ row) (hempty : cells.shown sheet r 0 = "") :
    ∀ j < defaultColumns.length,
      cells.shown sheet' r j = cells.shown sheet r j ∧ ¬cells.calculated sheet' r j :=
  fun j hj => hdoc.shown_updateRow hupdate hno r j (fun heq => absurd heq hne) ((hread r).2 hempty j hj)

theorem blank_updateRow_iff (hne : r ≠ row) : cells.Blank sheet' r ↔ cells.Blank sheet r := by
  have hhead := (hdoc.shown_updateRow hupdate hno r 0 (fun heq => absurd heq hne) (hread r).1).1
  constructor
  · intro hblank j hj
    have hempty : cells.shown sheet r 0 = "" := hhead.symm.trans (hblank 0 (by decide))
    rw [← (shown_updateRow_of_empty hdoc hread hupdate hno hne hempty j hj).1]
    exact hblank j hj
  · intro hblank j hj
    have hempty : cells.shown sheet r 0 = "" := hblank 0 (by decide)
    rw [(shown_updateRow_of_empty hdoc hread hupdate hno hne hempty j hj).1]
    exact hblank j hj

theorem readable_updateRow (hplain : cells.plain (cells.entry sheet' row 0))
    (hne : cells.entry sheet' row 0 ≠ "") : cells.Readable sheet' := by
  intro r
  by_cases heq : r = row
  · obtain ⟨hshown, hfixed⟩ := hdoc.shown_of_plain hplain
    rw [heq]
    refine ⟨hfixed, fun hempty => ?_⟩
    rw [hshown] at hempty
    exact absurd hempty hne
  · obtain ⟨hhead, hfixed⟩ := hdoc.shown_updateRow hupdate hno r 0 (fun h => absurd h heq) (hread r).1
    refine ⟨hfixed, fun hempty j hj => ?_⟩
    rw [hhead] at hempty
    exact (shown_updateRow_of_empty hdoc hread hupdate hno heq hempty j hj).2

end UpdateRow

/-! ## One code -/

/-- The cells of a code: the code itself and five more. -/
theorem getDiscountCells_ok {columns : List String} (h : getDiscountCells str d = .ok columns) :
    ∃ rest, columns = d.discountCode :: rest ∧ rest.length = 5 := by
  unfold getDiscountCells at h
  split at h
  · cases h
    exact ⟨_, rfl, rfl⟩
  · dsimp only at h
    split at h
    · cases h
    · cases h
      exact ⟨_, rfl, rfl⟩

theorem getDiscountCells_length {columns : List String} (h : getDiscountCells str d = .ok columns) :
    columns.length = defaultColumns.length := by
  obtain ⟨rest, rfl, hlength⟩ := getDiscountCells_ok h
  rw [List.length_cons, hlength]
  rfl

/-- The sheet shows the code as it is, and what is written of it are no formulas. -/
structure SheetCode.Plain (cells : SheetCells σ) (str : Instant → String) (d : SheetCode) : Prop where
  nonempty : d.discountCode ≠ ""
  plain : cells.plain d.discountCode
  noFormula : ∀ columns, getDiscountCells str d = .ok columns → ∀ text ∈ columns, ¬cells.isFormula text

/-- The row holds the cells of the code, and beside them what it held before. -/
def Written (cells : SheetCells σ) (str : Instant → String) (d : SheetCode) (sheet sheet' : σ) (row : ℕ) :
    Prop :=
  ∃ columns, getDiscountCells str d = .ok columns ∧
    ∀ j, cells.entry sheet' row j = columns.getD j (cells.entry sheet row j)

theorem Written.head (h : Written cells str d sheet sheet' row) :
    cells.entry sheet' row 0 = d.discountCode := by
  obtain ⟨columns, hcells, hentry⟩ := h
  obtain ⟨rest, rfl, -⟩ := getDiscountCells_ok hcells
  exact hentry 0

theorem Written.notes (h : Written cells str d sheet sheet' row) {j : ℕ} (hj : defaultColumns.length ≤ j) :
    cells.entry sheet' row j = cells.entry sheet row j := by
  obtain ⟨columns, hcells, hentry⟩ := h
  rw [hentry, List.getD_eq_default]
  rw [getDiscountCells_length hcells]
  exact hj

/-- What was written for a code is written again as it is. -/
theorem Written.again (h : Written cells str d sheet sheet' row) : Written cells str d sheet' sheet' row := by
  obtain ⟨columns, hcells, hentry⟩ := h
  refine ⟨columns, hcells, fun j => ?_⟩
  by_cases hj : j < columns.length
  · rw [hentry, List.getD_eq_getElem _ _ hj, List.getD_eq_getElem _ _ hj]
  · rw [List.getD_eq_default _ _ (not_lt.mp hj)]

theorem shown_of_head (hdoc : ops.Documented cells) (hplain : d.Plain cells str)
    (h : cells.entry sheet row 0 = d.discountCode) :
    cells.shown sheet row 0 = d.discountCode ∧ ¬cells.calculated sheet row 0 := by
  have hentry : cells.plain (cells.entry sheet row 0) := by
    rw [h]
    exact hplain.plain
  obtain ⟨hshown, hfixed⟩ := hdoc.shown_of_plain hentry
  exact ⟨hshown.trans h, hfixed⟩

theorem not_blank_of_head (hdoc : ops.Documented cells) (hplain : d.Plain cells str)
    (h : cells.entry sheet row 0 = d.discountCode) : ¬cells.Blank sheet row := by
  intro hblank
  have hempty := hblank 0 (by decide)
  rw [(shown_of_head hdoc hplain h).1] at hempty
  exact hplain.nonempty hempty

/-- The cells of the code are entered into the row. -/
def Enters (ops : SheetOps σ) (str : Instant → String) (d : SheetCode) (sheet sheet' : σ) (row : ℕ) : Prop :=
  ∃ columns, getDiscountCells str d = .ok columns ∧ ops.updateRow sheet row columns = .ok sheet'

theorem Enters.written (hdoc : ops.Documented cells) (h : Enters ops str d sheet sheet' row) :
    Written cells str d sheet sheet' row := by
  obtain ⟨columns, hcells, hupdate⟩ := h
  refine ⟨columns, hcells, fun j => ?_⟩
  rw [hdoc.entry_updateRow hupdate, if_pos rfl]

theorem Enters.others (hdoc : ops.Documented cells) (h : Enters ops str d sheet sheet' row) (hne : r ≠ row)
    (j : ℕ) : cells.entry sheet' r j = cells.entry sheet r j := by
  obtain ⟨columns, -, hupdate⟩ := h
  rw [hdoc.entry_updateRow hupdate, if_neg hne]

theorem Enters.notes (hdoc : ops.Documented cells) (h : Enters ops str d sheet sheet' row) (r : ℕ) {j : ℕ}
    (hj : defaultColumns.length ≤ j) : cells.entry sheet' r j = cells.entry sheet r j := by
  by_cases heq : r = row
  · rw [heq]
    exact (h.written hdoc).notes hj
  · exact h.others hdoc heq j

theorem Enters.rows (hdoc : ops.Documented cells) (h : Enters ops str d sheet sheet' row) :
    ops.rows sheet' = ops.rows sheet := by
  obtain ⟨columns, -, hupdate⟩ := h
  exact hdoc.rows_updateRow hupdate

theorem Enters.inGrid (hserves : ops.Serves) (h : Enters ops str d sheet sheet' row) :
    0 < row ∧ row ≤ ops.rows sheet := by
  obtain ⟨columns, hcells, hupdate⟩ := h
  exact (hserves.updateRow sheet row columns (getDiscountCells_length hcells)).mp ⟨sheet', hupdate⟩

theorem Enters.codeAt_self (hdoc : ops.Documented cells) (hplain : d.Plain cells str)
    (h : Enters ops str d sheet sheet' row) : cells.codeAt sheet' row = cells.fold d.discountCode :=
  congrArg cells.fold (shown_of_head hdoc hplain (h.written hdoc).head).1

section Readable

variable (hdoc : ops.Documented cells) (hplain : d.Plain cells str) (hread : cells.Readable sheet)
  (h : Enters ops str d sheet sheet' row)

include hdoc hplain hread h

theorem Enters.codeAt_of_ne (hne : r ≠ row) : cells.codeAt sheet' r = cells.codeAt sheet r := by
  obtain ⟨columns, hcells, hupdate⟩ := h
  exact codeAt_updateRow hdoc hread hupdate (hplain.noFormula columns hcells) hne

theorem Enters.blank_iff (hne : r ≠ row) : cells.Blank sheet' r ↔ cells.Blank sheet r := by
  obtain ⟨columns, hcells, hupdate⟩ := h
  exact blank_updateRow_iff hdoc hread hupdate (hplain.noFormula columns hcells) hne

theorem Enters.readable : cells.Readable sheet' := by
  have hhead := (h.written hdoc).head
  obtain ⟨columns, hcells, hupdate⟩ := h
  refine readable_updateRow hdoc hread hupdate (hplain.noFormula columns hcells) ?_ ?_
  · rw [hhead]
    exact hplain.plain
  · rw [hhead]
    exact hplain.nonempty

end Readable

/-- A round of an update enters the code where it is, or in a blank row if it is nowhere. -/
structure PutsCode (ops : SheetOps σ) (cells : SheetCells σ) (str : Instant → String) (d : SheetCode)
    (sheet sheet' : σ) (row : ℕ) : Prop where
  pos : 0 < row
  free : cells.IsFor sheet row d.discountCode ∨
    cells.Blank sheet row ∧ ∀ r, rowOne ≤ r → ¬cells.IsFor sheet r d.discountCode
  enters : Enters ops str d sheet sheet' row

theorem rowOne_pos : 0 < rowOne := Nat.succ_pos rowZero

theorem cachedRow_some (hdoc : ops.Documented cells) (h : d.cachedRow ops sheet = .ok (some row)) :
    0 < row ∧ cells.IsFor sheet row d.discountCode := by
  unfold SheetCode.cachedRow at h
  split at h
  next => cases h
  next cached hlocation =>
    split at h
    next hpos =>
      obtain ⟨values, hget, h⟩ := Upserts.bind_ok_iff.mp h
      split at h
      next hhead =>
        obtain rfl : cached = row := Option.some.inj (Except.ok.inj h)
        refine ⟨hpos, congrArg cells.fold ?_⟩
        rw [← hdoc.getRow hget 0, List.getD_eq_getElem?_getD, ← List.head?_eq_getElem?, hhead]
        rfl
      next => cases h
    next => cases h

theorem checkCode_some (hdoc : ops.Documented cells) (hne : d.discountCode ≠ "")
    (h : checkCode ops sheet d = .ok (some row)) : 0 < row ∧ cells.IsFor sheet row d.discountCode := by
  obtain ⟨cached, hcached, h⟩ := Upserts.bind_ok_iff.mp h
  cases cached with
  | some cached =>
    obtain rfl : cached = row := Option.some.inj (Except.ok.inj h)
    exact cachedRow_some hdoc hcached
  | none =>
    obtain ⟨found, hfind, h⟩ := Upserts.bind_ok_iff.mp h
    obtain ⟨-, hmem⟩ := hdoc.find hne hfind
    split at h
    next => cases h
    next found =>
      obtain rfl : found = row := Option.some.inj (Except.ok.inj h)
      obtain ⟨hone, hfor⟩ := (hmem found).mp (List.mem_singleton_self found)
      exact ⟨lt_of_lt_of_le rowOne_pos hone, hfor⟩
    next => cases h

theorem checkCode_none (hdoc : ops.Documented cells) (hne : d.discountCode ≠ "")
    (h : checkCode ops sheet d = .ok none) (r : ℕ) (hr : rowOne ≤ r) :
    ¬cells.IsFor sheet r d.discountCode := by
  obtain ⟨cached, hcached, h⟩ := Upserts.bind_ok_iff.mp h
  cases cached with
  | some cached => cases h
  | none =>
    obtain ⟨found, hfind, h⟩ := Upserts.bind_ok_iff.mp h
    obtain ⟨-, hmem⟩ := hdoc.find hne hfind
    split at h
    next =>
      intro hfor
      exact absurd ((hmem r).mpr ⟨hr, hfor⟩) List.not_mem_nil
    next => cases h
    next => cases h

/-- What `_write_row` does: it enters the values in the given row or in a blank one. -/
theorem writeRow_ok {place : Option ℕ} {columns : List String}
    (h : writeRow ops sheet place columns = .ok (sheet', row)) :
    (place = some row ∨ place = none ∧ searchBlank ops sheet (ops.rows sheet) rowOne = .ok row) ∧
      ops.updateRow sheet row columns = .ok sheet' := by
  cases place with
  | some given =>
    obtain ⟨found, hfound, h⟩ := Upserts.bind_ok_iff.mp h
    obtain rfl := Except.ok.inj hfound
    obtain ⟨updated, hupdate, h⟩ := Upserts.bind_ok_iff.mp h
    obtain ⟨rfl, rfl⟩ := Prod.mk.inj (Except.ok.inj h)
    exact ⟨Or.inl rfl, hupdate⟩
  | none =>
    obtain ⟨found, hfound, h⟩ := Upserts.bind_ok_iff.mp h
    obtain ⟨updated, hupdate, h⟩ := Upserts.bind_ok_iff.mp h
    obtain ⟨rfl, rfl⟩ := Prod.mk.inj (Except.ok.inj h)
    exact ⟨Or.inr ⟨rfl, hfound⟩, hupdate⟩

theorem writeRow_given {columns : List String} (h : ops.updateRow sheet row columns = .ok sheet') :
    writeRow ops sheet (some row) columns = .ok (sheet', row) := by
  show (ops.updateRow sheet row columns >>= fun sheet' => pure (sheet', row)) = _
  rw [h]
  rfl

theorem writeRow_blank {columns : List String} (hsearch : searchBlank ops sheet (ops.rows sheet) rowOne = .ok row)
    (h : ops.updateRow sheet row columns = .ok sheet') :
    writeRow ops sheet none columns = .ok (sheet', row) := by
  show (searchBlank ops sheet (ops.rows sheet) rowOne >>= fun row =>
    ops.updateRow sheet row columns >>= fun sheet' => pure (sheet', row)) = _
  rw [hsearch]
  exact writeRow_given h

theorem writeCode_eq {place : Placing σ} {i : ℕ} {found : Option ℕ} {columns : List String}
    (hplace : place i sheet d = .ok found) (hcells : getDiscountCells str d = .ok columns) :
    writeCode ops str place i sheet d = writeRow ops sheet found columns := by
  rw [writeCode, hplace, hcells]
  rfl

theorem putsCode_of_writeCode (hdoc : ops.Documented cells) (hne : d.discountCode ≠ "") {i : ℕ}
    (h : writeCode ops str (placeWhereItIs ops) i sheet d = .ok (sheet', row)) :
    PutsCode ops cells str d sheet sheet' row := by
  obtain ⟨place, hplace, h⟩ := Upserts.bind_ok_iff.mp h
  obtain ⟨columns, hcells, h⟩ := Upserts.bind_ok_iff.mp h
  obtain ⟨hrow, hupdate⟩ := writeRow_ok h
  have henters : Enters ops str d sheet sheet' row := ⟨columns, hcells, hupdate⟩
  rcases hrow with rfl | ⟨rfl, hsearch⟩
  · obtain ⟨hpos, hfor⟩ := checkCode_some hdoc hne hplace
    exact ⟨hpos, Or.inl hfor, henters⟩
  · obtain ⟨hle, hblank⟩ := searchBlank_blank hdoc hsearch
    exact ⟨lt_of_lt_of_le rowOne_pos hle, Or.inr ⟨hblank, checkCode_none hdoc hne hplace⟩, henters⟩

/-! ## What a loop keeps -/

/-- The loop leaves the sheet as it was, as its first round leaves it, or as the later rounds leave that. -/
theorem writeRounds_cons_cases (ops : SheetOps σ) (str : Instant → String) (place : Placing σ)
    (sent : ℕ → Transmission SheetError) (i : ℕ) (sheet : σ) (d : SheetCode) (rest : List SheetCode) :
    (writeRounds ops str place sent i sheet (d :: rest)).1 = sheet ∨
      ∃ sheet' row, writeCode ops str place i sheet d = .ok (sheet', row) ∧
        ((writeRounds ops str place sent i sheet (d :: rest)).1 = sheet' ∨
          (writeRounds ops str place sent i sheet (d :: rest)).1 =
            (writeRounds ops str place sent (i + 1) sheet' rest).1) := by
  rcases hwrite : writeCode ops str place i sheet d with e | ⟨sheet', row⟩
  · refine Or.inl ?_
    cases hsent : sent i with
    | failed e' => simp [writeRounds, hsent]
    | lost e' => simp [writeRounds, hwrite, hsent]
    | answered => simp [writeRounds, hwrite, hsent]
  · cases hsent : sent i with
    | failed e => exact Or.inl (by simp [writeRounds, hsent])
    | lost e => exact Or.inr ⟨sheet', row, rfl, Or.inl (by simp [writeRounds, hwrite, hsent])⟩
    | answered =>
      refine Or.inr ⟨sheet', row, rfl, Or.inr ?_⟩
      rcases hrounds : writeRounds ops str place sent (i + 1) sheet' rest with ⟨sheet'', e | rows⟩
      · simp [writeRounds, hwrite, hsent, hrounds]
      · simp [writeRounds, hwrite, hsent, hrounds]

/-- What every round keeps the loop keeps, however far it comes. -/
theorem writeRounds_keeps {place : Placing σ} {R : σ → σ → Prop} (hR : IsFrame R)
    (sent : ℕ → Transmission SheetError) {codes : List SheetCode} {i : ℕ}
    (hround : ∀ j s s' row, ∀ d ∈ codes, writeCode ops str place j s d = .ok (s', row) → R s s') :
    R sheet (writeRounds ops str place sent i sheet codes).1 := by
  induction codes generalizing sheet i with
  | nil => exact hR.refl sheet
  | cons d rest ih =>
    have hrest : ∀ j s s' row, ∀ d ∈ rest, writeCode ops str place j s d = .ok (s', row) → R s s' :=
      fun j s s' row d hd => hround j s s' row d (List.mem_cons_of_mem _ hd)
    rcases writeRounds_cons_cases ops str place sent i sheet d rest with hsame | ⟨sheet', row, hwrite, hend⟩
    · rw [hsame]
      exact hR.refl sheet
    · have hhead : R sheet sheet' := hround i sheet sheet' row d List.mem_cons_self hwrite
      rcases hend with hfirst | hlater
      · rw [hfirst]
        exact hhead
      · rw [hlater]
        exact hR.trans _ _ _ hhead (ih hrest)

/-- What an update may change: the columns of the codes, in the rows of the codes and in blank rows. -/
structure LeavesRest (cells : SheetCells σ) (codes : List SheetCode) (sheet sheet' : σ) : Prop where
  notes : ∀ r j, defaultColumns.length ≤ j → cells.entry sheet' r j = cells.entry sheet r j
  code : ∀ r, ¬cells.Blank sheet r →
    ¬cells.Blank sheet' r ∧ cells.codeAt sheet' r = cells.codeAt sheet r
  others : ∀ r, ¬cells.Blank sheet r → (∀ d ∈ codes, ¬cells.IsFor sheet r d.discountCode) →
    ∀ j, cells.entry sheet' r j = cells.entry sheet r j

theorem leavesRest_isFrame (cells : SheetCells σ) (codes : List SheetCode) :
    IsFrame (LeavesRest cells codes) := by
  constructor
  · intro s
    exact ⟨fun _ _ _ => rfl, fun _ h => ⟨h, rfl⟩, fun _ _ _ _ => rfl⟩
  · intro s s' s'' h h'
    refine ⟨fun r j hj => (h'.notes r j hj).trans (h.notes r j hj), fun r hblank => ?_,
      fun r hblank hcodes j => ?_⟩
    · obtain ⟨hblank', hcode⟩ := h.code r hblank
      obtain ⟨hblank'', hcode'⟩ := h'.code r hblank'
      exact ⟨hblank'', hcode'.trans hcode⟩
    · obtain ⟨hblank', hcode⟩ := h.code r hblank
      refine (h'.others r hblank' (fun d hd hfor => ?_) j).trans (h.others r hblank hcodes j)
      exact hcodes d hd (hcode.symm.trans hfor)

theorem PutsCode.leavesRest {codes : List SheetCode} (hdoc : ops.Documented cells) (hplain : d.Plain cells str)
    (hread : cells.Readable sheet) (h : PutsCode ops cells str d sheet sheet' row) (hd : d ∈ codes) :
    LeavesRest cells codes sheet sheet' := by
  refine ⟨fun r j hj => h.enters.notes hdoc r hj, fun r hblank => ?_, fun r hblank hcodes j => ?_⟩
  · by_cases heq : r = row
    · rw [heq] at hblank ⊢
      refine ⟨not_blank_of_head hdoc hplain (h.enters.written hdoc).head, ?_⟩
      rcases h.free with hfor | ⟨hfree, -⟩
      · exact (h.enters.codeAt_self hdoc hplain).trans hfor.symm
      · exact absurd hfree hblank
    · rw [h.enters.blank_iff hdoc hplain hread heq]
      exact ⟨hblank, h.enters.codeAt_of_ne hdoc hplain hread heq⟩
  · refine h.enters.others hdoc (fun heq => ?_) j
    rw [heq] at hblank hcodes
    rcases h.free with hfor | ⟨hfree, -⟩
    · exact hcodes d hd hfor
    · exact hblank hfree

/-- An update leaves the rest, and the sheet can be read afterwards if it could be before. -/
theorem update_leavesRest {codes : List SheetCode} (hdoc : ops.Documented cells)
    (hplain : ∀ d ∈ codes, d.Plain cells str) (sent : ℕ → Transmission SheetError) (i : ℕ)
    (hread : cells.Readable sheet) :
    LeavesRest cells codes sheet (writeRounds ops str (placeWhereItIs ops) sent i sheet codes).1 ∧
      cells.Readable (writeRounds ops str (placeWhereItIs ops) sent i sheet codes).1 := by
  have hframe : IsFrame fun s s' => cells.Readable s → LeavesRest cells codes s s' ∧ cells.Readable s' :=
    isFrame_guarded (leavesRest_isFrame cells codes)
  refine writeRounds_keeps hframe sent (fun _ _ _ _ d hd h hread => ?_) hread
  have hputs := putsCode_of_writeCode hdoc (hplain d hd).nonempty h
  exact ⟨hputs.leavesRest hdoc (hplain d hd) hread hd, hputs.enters.readable hdoc (hplain d hd) hread⟩

/-! ## An update that ends -/

/-- No two codes are the same up to case. -/
def Apart (cells : SheetCells σ) (codes : List SheetCode) : Prop :=
  codes.Pairwise fun d d' => cells.fold d.discountCode ≠ cells.fold d'.discountCode

theorem writeRounds_cons_ok {place : Placing σ} {sent : ℕ → Transmission SheetError} {i : ℕ}
    {rest : List SheetCode} {rows : List (SheetCode × ℕ)}
    (h : writeRounds ops str place sent i sheet (d :: rest) = (sheet', .ok rows)) :
    ∃ mid row tail, writeCode ops str place i sheet d = .ok (mid, row) ∧
      writeRounds ops str place sent (i + 1) mid rest = (sheet', .ok tail) ∧ rows = (d, row) :: tail := by
  simp only [writeRounds] at h
  rcases hwrite : writeCode ops str place i sheet d with e | ⟨mid, row⟩
  · rw [hwrite] at h
    cases hsent : sent i <;> simp [hsent] at h
  · rw [hwrite] at h
    rcases hsent : sent i with _ | e | e
    · rw [hsent] at h
      rcases hrounds : writeRounds ops str place sent (i + 1) mid rest with ⟨final, e | tail⟩
      · simp [hrounds] at h
      · simp only [hrounds, Prod.mk.injEq, Except.ok.injEq] at h
        exact ⟨mid, row, tail, rfl, by rw [hrounds, h.1], h.2.symm⟩
    · simp [hsent] at h
    · simp [hsent] at h

theorem writeRounds_rows (hdoc : ops.Documented cells) (str : Instant → String) (place : Placing σ)
    (sent : ℕ → Transmission SheetError) (i : ℕ) (sheet : σ) (codes : List SheetCode) :
    ops.rows (writeRounds ops str place sent i sheet codes).1 = ops.rows sheet := by
  refine writeRounds_keeps (isFrame_eq ops.rows) sent fun _ s s' row d _ h => ?_
  obtain ⟨place, -, h⟩ := Upserts.bind_ok_iff.mp h
  obtain ⟨columns, -, h⟩ := Upserts.bind_ok_iff.mp h
  exact hdoc.rows_updateRow (writeRow_ok h).2

/-- The rows of an update that ends: every code has its cells there, and the notes beside them are kept. -/
theorem update_rows {codes : List SheetCode} (hdoc : ops.Documented cells) (hserves : ops.Serves)
    (hplain : ∀ d ∈ codes, d.Plain cells str) (hapart : Apart cells codes) (hread : cells.Readable sheet)
    {sent : ℕ → Transmission SheetError} {i : ℕ} {rows : List (SheetCode × ℕ)}
    (h : writeRounds ops str (placeWhereItIs ops) sent i sheet codes = (sheet', .ok rows)) :
    rows.map (·.1) = codes ∧ ∀ item ∈ rows, (0 < item.2 ∧ item.2 ≤ ops.rows sheet) ∧
      Written cells str item.1 sheet sheet' item.2 := by
  induction codes generalizing sheet i rows with
  | nil =>
    obtain ⟨-, hrows⟩ := Prod.mk.inj h
    rw [← Except.ok.inj hrows]
    exact ⟨rfl, fun item hitem => absurd hitem List.not_mem_nil⟩
  | cons d rest ih =>
    obtain ⟨mid, row, tail, hwrite, hrounds, rfl⟩ := writeRounds_cons_ok h
    obtain ⟨hd, hrest⟩ := List.pairwise_cons.mp hapart
    have hplainCode := hplain d List.mem_cons_self
    have hputs := putsCode_of_writeCode hdoc hplainCode.nonempty hwrite
    have hplainRest : ∀ d ∈ rest, d.Plain cells str := fun d hd => hplain d (List.mem_cons_of_mem _ hd)
    have hreadMid := hputs.enters.readable hdoc hplainCode hread
    obtain ⟨hmap, htail⟩ := ih hplainRest hrest hreadMid hrounds
    obtain ⟨hleaves, -⟩ := update_leavesRest hdoc hplainRest sent (i + 1) hreadMid
    rw [hrounds] at hleaves
    refine ⟨by rw [List.map_cons, hmap], fun item hitem => ?_⟩
    rcases List.mem_cons.mp hitem with rfl | hitem
    · -- the later rounds leave the row of this code
      have hhead := (hputs.enters.written hdoc).head
      have hsame : ∀ j, cells.entry sheet' row j = cells.entry mid row j := by
        refine hleaves.others row (not_blank_of_head hdoc hplainCode hhead) fun d' hd' hfor => ?_
        exact hd d' hd' ((hputs.enters.codeAt_self hdoc hplainCode).symm.trans hfor)
      refine ⟨hputs.enters.inGrid hserves, ?_⟩
      obtain ⟨columns, hcells, hentry⟩ := hputs.enters.written hdoc
      exact ⟨columns, hcells, fun j => (hsame j).trans (hentry j)⟩
    · obtain ⟨hgrid, columns, hcells, hentry⟩ := htail item hitem
      rw [hputs.enters.rows hdoc] at hgrid
      refine ⟨hgrid, columns, hcells, fun j => ?_⟩
      rw [hentry j]
      by_cases hj : j < columns.length
      · rw [List.getD_eq_getElem _ _ hj, List.getD_eq_getElem _ _ hj]
      · have hnote : defaultColumns.length ≤ j := by
          rw [← getDiscountCells_length hcells]
          exact not_lt.mp hj
        rw [hputs.enters.notes hdoc item.2 hnote]

/-- The same is entered in all cells. -/
def SheetCells.SameEntries (cells : SheetCells σ) (sheet sheet' : σ) : Prop :=
  ∀ r j, cells.entry sheet' r j = cells.entry sheet r j

/-- The code is where it was saved, with its cells. -/
def SheetCode.Settled (ops : SheetOps σ) (cells : SheetCells σ) (str : Instant → String) (sheet : σ)
    (d : SheetCode) : Prop :=
  d.Plain cells str ∧ ∃ row, d.sheetLocation = some row ∧ (0 < row ∧ row ≤ ops.rows sheet) ∧
    Written cells str d sheet sheet row

/-- The location that was saved for a settled code is right. -/
theorem checkCode_of_settled (hdoc : ops.Documented cells) (hserves : ops.Serves) (hplain : d.Plain cells str)
    (hlocation : d.sheetLocation = some row) (hgrid : 0 < row ∧ row ≤ ops.rows sheet)
    (hhead : cells.entry sheet row 0 = d.discountCode) : checkCode ops sheet d = .ok (some row) := by
  obtain ⟨values, hget⟩ := hserves.getRow sheet row false hgrid.1 hgrid.2
  have hvalue : values.head? = some d.discountCode := by
    have hshown := hdoc.getRow hget 0
    rw [(shown_of_head hdoc hplain hhead).1] at hshown
    cases values with
    | nil => exact absurd hshown.symm hplain.nonempty
    | cons value values => exact congrArg some hshown
  have hcached : d.cachedRow ops sheet = .ok (some row) := by
    unfold SheetCode.cachedRow
    rw [hlocation]
    dsimp only
    rw [if_pos hgrid.1, hget]
    exact congrArg Except.ok (if_pos hvalue)
  rw [checkCode, hcached]
  rfl

/-- A settled code is written where it is. -/
theorem writeCode_of_settled (hdoc : ops.Documented cells) (hserves : ops.Serves)
    (h : d.Settled ops cells str sheet) (i : ℕ) :
    ∃ sheet', writeCode ops str (placeWhereItIs ops) i sheet d = .ok (sheet', d.sheetLocation.getD 0) ∧
      cells.SameEntries sheet sheet' ∧ ops.rows sheet' = ops.rows sheet := by
  obtain ⟨hplain, row, hlocation, hgrid, hwritten⟩ := h
  have hplace : placeWhereItIs ops i sheet d = .ok (some row) :=
    checkCode_of_settled hdoc hserves hplain hlocation hgrid hwritten.head
  obtain ⟨columns, hcells, hentry⟩ := hwritten
  obtain ⟨sheet', hupdate⟩ := (hserves.updateRow sheet row columns (getDiscountCells_length hcells)).mpr hgrid
  refine ⟨sheet', ?_, fun r j => ?_, hdoc.rows_updateRow hupdate⟩
  · rw [hlocation]
    exact (writeCode_eq hplace hcells).trans (writeRow_given hupdate)
  · rw [hdoc.entry_updateRow hupdate]
    split_ifs with heq
    · rw [heq]
      exact (hentry j).symm
    · rfl

theorem SheetCode.Settled.of_same (h : d.Settled ops cells str sheet) (hsame : cells.SameEntries sheet sheet')
    (hrows : ops.rows sheet' = ops.rows sheet) : d.Settled ops cells str sheet' := by
  obtain ⟨hplain, row, hlocation, hgrid, columns, hcells, hentry⟩ := h
  refine ⟨hplain, row, hlocation, by rwa [hrows], columns, hcells, fun j => ?_⟩
  rw [hsame row j]
  exact hentry j

/-- Codes that are where they were saved, with their cells, are written where they are. -/
theorem update_settled {codes : List SheetCode} (hdoc : ops.Documented cells) (hserves : ops.Serves)
    (h : ∀ d ∈ codes, d.Settled ops cells str sheet) (i : ℕ) :
    ∃ sheet', writeRounds ops str (placeWhereItIs ops) (fun _ => .answered) i sheet codes =
      (sheet', .ok (codes.map fun d => (d, d.sheetLocation.getD 0))) ∧ cells.SameEntries sheet sheet' := by
  induction codes generalizing sheet i with
  | nil => exact ⟨sheet, rfl, fun _ _ => rfl⟩
  | cons d rest ih =>
    obtain ⟨mid, hwrite, hsame, hrows⟩ := writeCode_of_settled hdoc hserves (h d List.mem_cons_self) i
    obtain ⟨sheet', hrounds, hsame'⟩ := ih
      (fun d' hd' => (h d' (List.mem_cons_of_mem _ hd')).of_same hsame hrows) (i + 1)
    refine ⟨sheet', ?_, fun r j => (hsame' r j).trans (hsame r j)⟩
    simp only [writeRounds, hwrite, hrounds, List.map_cons]

/-! ## The codes and their locations -/

theorem mem_of_mem_getSortedCodes {codes : List SheetCode} {maxLearners : Option ℕ}
    (h : d ∈ getSortedCodes codes maxLearners) : d ∈ codes := by
  cases maxLearners with
  | none => exact List.mem_insertionSort _ |>.mp h
  | some n => exact List.mem_insertionSort _ |>.mp (List.mem_of_mem_take h)

theorem Apart.sortedCodes {codes : List SheetCode} (h : Apart cells codes) (maxLearners : Option ℕ) :
    Apart cells (getSortedCodes codes maxLearners) := by
  have hsorted : Apart cells (codes.insertionSort SheetCode.Before) :=
    (List.perm_insertionSort SheetCode.Before codes).symm.pairwise h fun hne => Ne.symm hne
  cases maxLearners with
  | none => exact hsorted
  | some n => exact hsorted.sublist (List.take_sublist _ _)

/-- The order does not depend on the locations. -/
theorem getSortedCodes_map {f : SheetCode → SheetCode}
    (hf : ∀ d, ∃ location, f d = { d with sheetLocation := location }) (codes : List SheetCode)
    (maxLearners : Option ℕ) :
    getSortedCodes (codes.map f) maxLearners = (getSortedCodes codes maxLearners).map f := by
  have hsorted : (codes.map f).insertionSort SheetCode.Before =
      (codes.insertionSort SheetCode.Before).map f := by
    refine (List.map_insertionSort _ _ f codes fun a _ b _ => ?_).symm
    obtain ⟨location, ha⟩ := hf a
    obtain ⟨location', hb⟩ := hf b
    rw [ha, hb]
    exact Iff.rfl
  cases maxLearners with
  | none => exact hsorted
  | some n => rw [getSortedCodes, hsorted, getSortedCodes, List.map_take]

theorem located_eq (rows : List (SheetCode × ℕ)) (d : SheetCode) :
    ∃ location, located rows d = { d with sheetLocation := location } := by
  unfold located
  split
  · exact ⟨d.sheetLocation, rfl⟩
  · exact ⟨_, rfl⟩

/-- The codes of the contract are told apart by their ids. -/
def IdsApart (codes : List SheetCode) : Prop := ∀ d ∈ codes, ∀ d' ∈ codes, d.id = d'.id → d = d'

/-- A code that was listed has the row of its round. -/
theorem located_of_listed {codes listed : List SheetCode} (hids : IdsApart codes)
    (hsub : ∀ d ∈ listed, d ∈ codes) {rows : List (SheetCode × ℕ)} (hrows : rows.map (·.1) = listed)
    (hd : d ∈ listed) :
    ∃ item ∈ rows, item.1 = d ∧ located rows d = { d with sheetLocation := some item.2 } := by
  have hfst : ∀ item ∈ rows, item.1 ∈ codes := fun item hitem => by
    refine hsub _ ?_
    rw [← hrows]
    exact List.mem_map_of_mem hitem
  unfold located
  cases hfind : rows.find? fun item => item.1.id = d.id with
  | none =>
    rw [← hrows] at hd
    obtain ⟨item, hitem, rfl⟩ := List.mem_map.mp hd
    exact absurd (List.find?_eq_none.mp hfind item hitem) (by simp)
  | some item =>
    have hitem := List.mem_of_find?_eq_some hfind
    have hid : item.1.id = d.id := by simpa using List.find?_some hfind
    exact ⟨item, hitem, hids _ (hfst item hitem) _ (hsub d hd) hid, rfl⟩

/-! ## Updates of a contract's sheet -/

section Updates

variable {s s' : SheetState σ} {sent : ℕ → Transmission SheetError}

/-- What a loop over the codes leaves. -/
theorem writeAll_eq (ops : SheetOps σ) (str : Instant → String) (place : Placing σ)
    (sent : ℕ → Transmission SheetError) (sheet : σ) (s : SheetState σ) :
    ∃ sheet' result, writeRounds ops str place sent 0 sheet s.sortedCodes = (sheet', result) ∧
      ((s.writeAll ops str place sent sheet).1.sheets = Function.update s.sheets s.target sheet' ∧
        (s.writeAll ops str place sent sheet).1.target = s.target ∧
        (s.writeAll ops str place sent sheet).1.maxLearners = s.maxLearners) ∧
      ((∃ e, result = .error e ∧ (s.writeAll ops str place sent sheet).2 = some e ∧
          (s.writeAll ops str place sent sheet).1.codes = s.codes) ∨
        ∃ rows, result = .ok rows ∧ (s.writeAll ops str place sent sheet).2 = none ∧
          (s.writeAll ops str place sent sheet).1.codes = saveLocations rows s.codes) := by
  rcases hrounds : writeRounds ops str place sent 0 sheet s.sortedCodes with ⟨sheet', e | rows⟩
  · have heq : s.writeAll ops str place sent sheet = (s.setSheet sheet', some e) := by
      simp only [SheetState.writeAll, hrounds]
    rw [heq]
    exact ⟨sheet', .error e, rfl, ⟨rfl, rfl, rfl⟩, Or.inl ⟨e, rfl, rfl, rfl⟩⟩
  · have heq : s.writeAll ops str place sent sheet =
        ({ s.setSheet sheet' with codes := saveLocations rows s.codes }, none) := by
      simp only [SheetState.writeAll, hrounds]
    rw [heq]
    exact ⟨sheet', .ok rows, rfl, ⟨rfl, rfl, rfl⟩, Or.inr ⟨rows, rfl, rfl, rfl⟩⟩

/-- Whatever fails, an update leaves the other sheets, what is entered beside the columns of the codes, and the
rows that are neither blank nor for a listed code; a row that is for a code stays the row of that code. -/
theorem update_leaves_rest (ops : SheetOps σ) (cells : SheetCells σ) (hdoc : ops.Documented cells)
    (str : Instant → String) (sent : ℕ → Transmission SheetError) (s : SheetState σ)
    (hplain : ∀ d ∈ s.codes, d.Plain cells str) (hread : cells.Readable s.sheet) :
    LeavesRest cells s.sortedCodes s.sheet ((s.updateSheet ops str sent).1.sheets s.target) ∧
      ∀ target, target ≠ s.target → (s.updateSheet ops str sent).1.sheets target = s.sheets target := by
  obtain ⟨sheet', result, hrounds, ⟨hsheets, -, -⟩, -⟩ :=
    writeAll_eq ops str (placeWhereItIs ops) sent s.sheet s
  have hleaves : LeavesRest cells s.sortedCodes s.sheet
      (writeRounds ops str (placeWhereItIs ops) sent 0 s.sheet s.sortedCodes).1 :=
    (update_leavesRest hdoc (fun d hd => hplain d (mem_of_mem_getSortedCodes hd)) sent 0 hread).1
  rw [hrounds] at hleaves
  unfold SheetState.updateSheet
  rw [hsheets]
  refine ⟨?_, fun target hne => Function.update_of_ne hne _ _⟩
  rw [Function.update_self]
  exact hleaves

theorem idsApart_saveLocations {codes : List SheetCode} (hids : IdsApart codes)
    (rows : List (SheetCode × ℕ)) :
    IdsApart (saveLocations rows codes) := by
  intro e he e' he' hid
  obtain ⟨d, hd, rfl⟩ := List.mem_map.mp he
  obtain ⟨d', hd', rfl⟩ := List.mem_map.mp he'
  obtain ⟨location, hlocation⟩ := located_eq rows d
  obtain ⟨location', hlocation'⟩ := located_eq rows d'
  rw [hlocation, hlocation'] at hid
  rw [hids d hd d' hd' hid]

/-- Locations that are saved already are saved as they are. -/
theorem saveLocations_same {codes listed : List SheetCode} (hids : IdsApart codes)
    (hsub : ∀ d ∈ listed, d ∈ codes) (hsome : ∀ d ∈ listed, ∃ row, d.sheetLocation = some row) :
    saveLocations (listed.map fun d => (d, d.sheetLocation.getD 0)) codes = codes := by
  have hsame : ∀ d ∈ codes, located (listed.map fun d => (d, d.sheetLocation.getD 0)) d = d := by
    intro d hd
    unfold located
    cases hfind : (listed.map fun d => (d, d.sheetLocation.getD 0)).find? fun item => item.1.id = d.id with
    | none => rfl
    | some item =>
      obtain ⟨d', hd', rfl⟩ := List.mem_map.mp (List.mem_of_find?_eq_some hfind)
      have hid : d'.id = d.id := by simpa using List.find?_some hfind
      obtain rfl : d' = d := hids d' (hsub d' hd') d hd hid
      obtain ⟨row, hrow⟩ := hsome d' hd'
      show { d' with sheetLocation := some (d'.sheetLocation.getD 0) } = d'
      rw [hrow, Option.getD_some, ← hrow]
  calc saveLocations (listed.map fun d => (d, d.sheetLocation.getD 0)) codes
      = codes.map id := List.map_congr_left hsame
    _ = codes := List.map_id codes

/-- Every listed code is where it is saved, with its cells. -/
def SheetState.Settled (ops : SheetOps σ) (cells : SheetCells σ) (str : Instant → String) (s : SheetState σ) :
    Prop :=
  ∀ d ∈ s.sortedCodes, d.Settled ops cells str s.sheet

/-- An update of a settled sheet enters what is there and saves the locations that are saved. -/
theorem updateSheet_of_settled (hdoc : ops.Documented cells) (hserves : ops.Serves)
    (hsettled : s.Settled ops cells str) (hids : IdsApart s.codes) :
    ∃ sheet', s.updateSheet ops str (fun _ => .answered) = (s.setSheet sheet', none) ∧
      cells.SameEntries s.sheet sheet' := by
  have hsave : saveLocations (s.sortedCodes.map fun d => (d, d.sheetLocation.getD 0)) s.codes = s.codes := by
    refine saveLocations_same hids (fun d hd => mem_of_mem_getSortedCodes hd) fun d hd => ?_
    obtain ⟨-, row, hrow, -⟩ := hsettled d hd
    exact ⟨row, hrow⟩
  obtain ⟨sheet', hrounds, hsame⟩ := update_settled hdoc hserves hsettled 0
  refine ⟨sheet', ?_, hsame⟩
  rw [SheetState.updateSheet, SheetState.writeAll, hrounds]
  dsimp only
  rw [hsave]
  rfl

/-- An update that ends gives each listed code the row of its round. -/
theorem updateSheet_places (hdoc : ops.Documented cells) (hserves : ops.Serves)
    (hplain : ∀ d ∈ s.codes, d.Plain cells str) (hapart : Apart cells s.codes) (hids : IdsApart s.codes)
    (hread : cells.Readable s.sheet) (h : s.updateSheet ops str sent = (s', none)) :
    ops.rows s'.sheet = ops.rows s.sheet ∧
    ∃ rows, s'.codes = saveLocations rows s.codes ∧ s'.sortedCodes = s.sortedCodes.map (located rows) ∧
      ∀ d ∈ s.sortedCodes, ∃ row, located rows d = { d with sheetLocation := some row } ∧
        (0 < row ∧ row ≤ ops.rows s.sheet) ∧ Written cells str d s.sheet s'.sheet row := by
  obtain ⟨sheet', result, hrounds, ⟨hsheets, htarget, hmax⟩, hresult⟩ :=
    writeAll_eq ops str (placeWhereItIs ops) sent s.sheet s
  unfold SheetState.updateSheet at h
  rw [h] at hsheets htarget hmax hresult
  rcases hresult with ⟨e, -, herror, -⟩ | ⟨rows, rfl, -, hcodes⟩
  · exact absurd herror (by simp)
  have hsheet : s'.sheet = sheet' := by
    rw [SheetState.sheet, hsheets, htarget, Function.update_self]
  have hgrid : ops.rows sheet' = ops.rows s.sheet := by
    have hrows := writeRounds_rows hdoc str (placeWhereItIs ops) sent 0 s.sheet s.sortedCodes
    rwa [hrounds] at hrows
  have hsub : ∀ d ∈ s.sortedCodes, d ∈ s.codes := fun d hd => mem_of_mem_getSortedCodes hd
  obtain ⟨hmap, hrows⟩ := update_rows hdoc hserves (fun d hd => hplain d (hsub d hd)) (hapart.sortedCodes _)
    hread hrounds
  rw [hsheet]
  refine ⟨hgrid, rows, hcodes, ?_, fun d hd => ?_⟩
  · rw [SheetState.sortedCodes, hcodes, hmax]
    exact getSortedCodes_map (located_eq rows) s.codes s.maxLearners
  · obtain ⟨item, hitem, rfl, hlocated⟩ := located_of_listed hids hsub hmap hd
    obtain ⟨hgrid, hwritten⟩ := hrows item hitem
    exact ⟨item.2, hlocated, hgrid, hwritten⟩

/-- After an update that ends, every listed code is where it is saved, with its cells and what was entered
beside them, and another update changes nothing in the database and enters nothing new. -/
theorem updated_codes_in_place (ops : SheetOps σ) (cells : SheetCells σ) (hdoc : ops.Documented cells)
    (hserves : ops.Serves) (str : Instant → String) (sent : ℕ → Transmission SheetError) (s s' : SheetState σ)
    (hplain : ∀ d ∈ s.codes, d.Plain cells str) (hapart : Apart cells s.codes) (hids : IdsApart s.codes)
    (hread : cells.Readable s.sheet) (h : s.updateSheet ops str sent = (s', none)) :
    (∀ d ∈ s.sortedCodes, ∃ row, { d with sheetLocation := some row } ∈ s'.codes ∧ 0 < row ∧
      Written cells str d s.sheet s'.sheet row) ∧
    ∃ sheet'', s'.updateSheet ops str (fun _ => .answered) = (s'.setSheet sheet'', none) ∧
      cells.SameEntries s'.sheet sheet'' := by
  obtain ⟨hrows, rows, hcodes, hsorted, hplaced⟩ :=
    updateSheet_places hdoc hserves hplain hapart hids hread h
  constructor
  · intro d hd
    obtain ⟨row, hlocated, hgrid, hwritten⟩ := hplaced d hd
    refine ⟨row, ?_, hgrid.1, hwritten⟩
    rw [hcodes, ← hlocated]
    exact List.mem_map_of_mem (mem_of_mem_getSortedCodes hd)
  · have hsettled : s'.Settled ops cells str := by
      intro e he
      rw [hsorted] at he
      obtain ⟨d, hd, rfl⟩ := List.mem_map.mp he
      obtain ⟨row, hlocated, hgrid, hwritten⟩ := hplaced d hd
      have hplainCode := hplain d (mem_of_mem_getSortedCodes hd)
      rw [hlocated]
      refine ⟨⟨hplainCode.nonempty, hplainCode.plain, hplainCode.noFormula⟩, row, rfl, ?_, hwritten.again⟩
      rw [hrows]
      exact hgrid
    refine updateSheet_of_settled hdoc hserves hsettled ?_
    rw [hcodes]
    exact idsApart_saveLocations hids rows

end Updates

/-! ### A contract with one code -/

theorem plainCells_readable (sheet : PlainSheet) : plainCells.Readable sheet :=
  fun _ => ⟨fun hcalculated => hcalculated, fun _ _ _ hcalculated => hcalculated⟩

/-- The code is in the sheet, with a note of the customer, and there is room for more. -/
def oneCodeSheet : PlainSheet := [defaultColumns, ["a1", "one-time", "0", "", "", "", "for Ada"], []]

def sheetOfOneCode (redemptions : List CodeRedemption) : SheetState PlainSheet where
  membershipType := .code
  maxLearners := none
  target := ⟨"https://sheet", "Sheet1"⟩
  revisions := []
  codes := [⟨1, "a1", .oneTime, none, 1, redemptions, some 2⟩]
  sheets := fun _ => oneCodeSheet

/-- All instants are on one day. -/
def oneDay : Instant → String := fun _ => "2025-01-01"

/-- The code was assigned, or redeemed by Ada. -/
def oneRedemption (userEmail : Option String) : List CodeRedemption := [⟨userEmail, 0⟩]

/-- What is written of the code. -/
theorem oneCode_texts {columns : List String}
    (h : getDiscountCells oneDay ⟨1, "a1", .oneTime, none, 1, oneRedemption (some "ada@example.com"), some 2⟩ =
      .ok columns) :
    columns = ["a1", "one-time", "1", "2025-01-01", "ada@example.com", "2025-01-01"] :=
  (Except.ok.inj h).symm

theorem oneCode_plain {userEmail : Option String} (hemail : userEmail = none ∨ userEmail = some "ada@example.com") :
    ∀ d ∈ (sheetOfOneCode (oneRedemption userEmail)).codes, d.Plain plainCells oneDay := by
  intro d hd
  have hnonempty : "a1" ≠ "" := by decide
  have hplain : "a1".toList.head? ≠ some '=' := by decide
  rw [List.mem_singleton.mp hd]
  refine ⟨hnonempty, hplain, fun columns hcells => ?_⟩
  rcases hemail with rfl | rfl
  · cases hcells
  · rw [oneCode_texts hcells]
    have htexts : ∀ text ∈ ["a1", "one-time", "1", "2025-01-01", "ada@example.com", "2025-01-01"],
        text.toList.head? ≠ some '=' := by decide
    exact htexts

theorem update_leaves_rest_oneCode :
    LeavesRest plainCells (sheetOfOneCode (oneRedemption (some "ada@example.com"))).sortedCodes oneCodeSheet
      (((sheetOfOneCode (oneRedemption (some "ada@example.com"))).updateSheet plainOps oneDay
        fun _ => .lost .apiError).1.sheets ⟨"https://sheet", "Sheet1"⟩) :=
  (update_leaves_rest plainOps plainCells plainOps_documented oneDay (fun _ => .lost .apiError)
    (sheetOfOneCode (oneRedemption (some "ada@example.com"))) (oneCode_plain (Or.inr rfl))
    (plainCells_readable _)).1

/-- The code was redeemed since. -/
def redeemedSheetCode : SheetState PlainSheet := sheetOfOneCode (oneRedemption (some "ada@example.com"))

theorem updated_codes_in_place_oneCode :
    ∃ sheet, (redeemedSheetCode.updateSheet plainOps oneDay fun _ => .answered).1.updateSheet plainOps oneDay
      (fun _ => .answered) =
      ((redeemedSheetCode.updateSheet plainOps oneDay fun _ => .answered).1.setSheet sheet, none) := by
  obtain ⟨sheet, hagain, -⟩ := (updated_codes_in_place plainOps plainCells plainOps_documented plainOps_serves
    oneDay (fun _ => .answered) redeemedSheetCode _ (oneCode_plain (Or.inr rfl))
    (List.pairwise_singleton _ _)
    (by
      intro d hd d' hd' _
      rw [List.mem_singleton.mp hd, List.mem_singleton.mp hd'])
    (plainCells_readable _) (Prod.ext rfl rfl)).2
  exact ⟨sheet, hagain⟩

/-! ## No code is listed twice -/

/-- No two rows below the header are for the same code. -/
def CodesListedOnce (cells : SheetCells σ) (sheet : σ) : Prop :=
  ∀ r r', rowOne ≤ r → rowOne ≤ r' → cells.codeAt sheet r ≠ cells.fold "" →
    cells.codeAt sheet r = cells.codeAt sheet r' → r = r'

theorem fold_ne_empty (hdoc : ops.Documented cells) (hplain : d.Plain cells str) :
    cells.fold d.discountCode ≠ cells.fold "" :=
  fun hempty => hplain.nonempty (hdoc.eq_empty hempty)

/-- A row that is for no other code gets one that is nowhere else. -/
theorem CodesListedOnce.set {code : String} (h : CodesListedOnce cells sheet)
    (hrow : cells.codeAt sheet' row = code)
    (hothers : ∀ r, r ≠ row → cells.codeAt sheet' r = cells.codeAt sheet r)
    (hfree : rowOne ≤ row → ∀ r, rowOne ≤ r → r ≠ row → cells.codeAt sheet r ≠ code) :
    CodesListedOnce cells sheet' := by
  intro r r' hr hr' hne heq
  by_cases h1 : r = row
  · by_cases h2 : r' = row
    · rw [h1, h2]
    · rw [h1, hrow, hothers r' h2] at heq
      exact absurd heq.symm (hfree (h1 ▸ hr) r' hr' h2)
  · rw [hothers r h1] at hne heq
    by_cases h2 : r' = row
    · rw [h2, hrow] at heq
      exact absurd heq (hfree (h2 ▸ hr') r hr h1)
    · rw [hothers r' h2] at heq
      exact h r r' hr hr' hne heq

theorem PutsCode.codesOnce (hdoc : ops.Documented cells) (hplain : d.Plain cells str)
    (hread : cells.Readable sheet) (h : PutsCode ops cells str d sheet sheet' row)
    (honce : CodesListedOnce cells sheet) : CodesListedOnce cells sheet' := by
  refine honce.set (h.enters.codeAt_self hdoc hplain)
    (fun r hne => h.enters.codeAt_of_ne hdoc hplain hread hne) fun hrow r hr hne hcode => ?_
  rcases h.free with hat | ⟨-, hnowhere⟩
  · refine hne (honce r row hr hrow ?_ (hcode.trans hat.symm))
    rw [hcode]
    exact fold_ne_empty hdoc hplain
  · exact hnowhere r hr hcode

/-- The sheet lists every code once, and it can be read. -/
structure SheetInOrder (cells : SheetCells σ) (sheet : σ) : Prop where
  once : CodesListedOnce cells sheet
  readable : cells.Readable sheet

theorem PutsCode.inOrder (hdoc : ops.Documented cells) (hplain : d.Plain cells str)
    (h : PutsCode ops cells str d sheet sheet' row) (horder : SheetInOrder cells sheet) :
    SheetInOrder cells sheet' :=
  ⟨h.codesOnce hdoc hplain horder.readable horder.once, h.enters.readable hdoc hplain horder.readable⟩

theorem update_inOrder {codes : List SheetCode} (hdoc : ops.Documented cells)
    (hplain : ∀ d ∈ codes, d.Plain cells str) (sent : ℕ → Transmission SheetError) (i : ℕ)
    (horder : SheetInOrder cells sheet) :
    SheetInOrder cells (writeRounds ops str (placeWhereItIs ops) sent i sheet codes).1 := by
  refine writeRounds_keeps (isFrame_preserves (SheetInOrder cells)) sent (fun _ _ _ _ d hd h hs => ?_) horder
  exact (putsCode_of_writeCode hdoc (hplain d hd).nonempty h).inOrder hdoc (hplain d hd) hs

/-- The rows from the next one on are for no code, and those above it are not for the codes to come. -/
def Fresh (cells : SheetCells σ) (i : ℕ) (codes : List SheetCode) (sheet : σ) : Prop :=
  ∀ r, rowOne ≤ r → cells.codeAt sheet r ≠ cells.fold "" →
    r < rowOne + i ∧ ∀ d ∈ codes, cells.codeAt sheet r ≠ cells.fold d.discountCode

/-- A round that sets up a sheet writes the next row. -/
theorem enters_of_writeCode {i : ℕ} (h : writeCode ops str placeInOrder i sheet d = .ok (sheet', row)) :
    Enters ops str d sheet sheet' (rowOne + i) := by
  obtain ⟨place, hplace, h⟩ := Upserts.bind_ok_iff.mp h
  obtain ⟨columns, hcells, h⟩ := Upserts.bind_ok_iff.mp h
  obtain rfl := Except.ok.inj hplace
  obtain ⟨hrow | ⟨hnone, -⟩, hupdate⟩ := writeRow_ok h
  · obtain rfl := Option.some.inj hrow
    exact ⟨columns, hcells, hupdate⟩
  · cases hnone

/-- A round that sets up a sheet lists a code that is not in it yet, and the rows behind it stay fresh. -/
theorem setUp_round {rest : List SheetCode} {i : ℕ} (hdoc : ops.Documented cells) (hplain : d.Plain cells str)
    (hapart : ∀ d' ∈ rest, cells.fold d.discountCode ≠ cells.fold d'.discountCode)
    (hfresh : Fresh cells i (d :: rest) sheet) (horder : SheetInOrder cells sheet)
    (hwrite : writeCode ops str placeInOrder i sheet d = .ok (sheet', row)) :
    SheetInOrder cells sheet' ∧ Fresh cells (i + 1) rest sheet' := by
  have henters := enters_of_writeCode hwrite
  have hcode := henters.codeAt_self hdoc hplain
  have hothers : ∀ r, r ≠ rowOne + i → cells.codeAt sheet' r = cells.codeAt sheet r := fun r hne =>
    henters.codeAt_of_ne hdoc hplain horder.readable hne
  refine ⟨⟨?_, henters.readable hdoc hplain horder.readable⟩, fun r hr hne => ?_⟩
  · refine horder.once.set hcode hothers fun _ r hr hne heq => ?_
    refine (hfresh r hr ?_).2 d List.mem_cons_self heq
    rw [heq]
    exact fold_ne_empty hdoc hplain
  · by_cases heq : r = rowOne + i
    · rw [heq, hcode]
      exact ⟨by omega, hapart⟩
    · rw [hothers r heq] at hne ⊢
      obtain ⟨hlt, hcodes⟩ := hfresh r hr hne
      exact ⟨by omega, fun d' hd' => hcodes d' (List.mem_cons_of_mem _ hd')⟩

/-- A sheet that is set up from blank rows on lists every code once, however far the loop comes. -/
theorem setUp_inOrder {codes : List SheetCode} (hdoc : ops.Documented cells)
    (hplain : ∀ d ∈ codes, d.Plain cells str) (hapart : Apart cells codes)
    (sent : ℕ → Transmission SheetError) {i : ℕ} (hfresh : Fresh cells i codes sheet)
    (horder : SheetInOrder cells sheet) :
    SheetInOrder cells (writeRounds ops str placeInOrder sent i sheet codes).1 := by
  induction codes generalizing sheet i with
  | nil => exact horder
  | cons d rest ih =>
    obtain ⟨hd, hrest⟩ := List.pairwise_cons.mp hapart
    rcases writeRounds_cons_cases ops str placeInOrder sent i sheet d rest with
      hsame | ⟨sheet', row, hwrite, hend⟩
    · rw [hsame]
      exact horder
    · obtain ⟨horder', hfresh'⟩ := setUp_round hdoc (hplain d List.mem_cons_self) hd hfresh horder hwrite
      rcases hend with hfirst | hlater
      · rw [hfirst]
        exact horder'
      · rw [hlater]
        exact ih (fun d' hd' => hplain d' (List.mem_cons_of_mem _ hd')) hrest hfresh' horder'

/-! ## Runs -/

section Runs

variable {s : SheetState σ}

/-- What is expected of the codes of a contract: the sheet shows them as they are, and no two are the same. -/
structure CodesFit (cells : SheetCells σ) (str : Instant → String) (codes : List SheetCode) : Prop where
  plain : ∀ d ∈ codes, d.Plain cells str
  apart : Apart cells codes

/-- Customers list no code twice and keep formulas away from the codes, and a sheet is set up on blank rows. -/
def SheetEvent.Orderly (cells : SheetCells σ) (str : Instant → String) (s : SheetState σ) :
    SheetEvent σ → Prop
  | .postSave onlyUpdate _ => onlyUpdate = false → s.startsOver = true → s.hasHandler = true →
    ∀ r, rowOne ≤ r → cells.codeAt s.sheet r = cells.fold ""
  | .database codes => CodesFit cells str codes
  | .save .. => True
  | .customer _ sheet => SheetInOrder cells sheet

/-- The codes fit, and no sheet lists a code twice. -/
structure SheetsInOrder (cells : SheetCells σ) (str : Instant → String) (s : SheetState σ) : Prop where
  codes : CodesFit cells str s.codes
  sheets : ∀ target, SheetInOrder cells (s.sheets target)

/-- One sheet is replaced. -/
theorem inOrder_update {sheets : SheetTarget → σ} (h : ∀ target, SheetInOrder cells (sheets target))
    {target : SheetTarget} (hsheet : SheetInOrder cells sheet) (target' : SheetTarget) :
    SheetInOrder cells (Function.update sheets target sheet target') := by
  by_cases heq : target' = target
  · rw [heq, Function.update_self]
    exact hsheet
  · rw [Function.update_of_ne heq]
    exact h target'

theorem codesFit_saveLocations {codes : List SheetCode} (h : CodesFit cells str codes)
    (rows : List (SheetCode × ℕ)) : CodesFit cells str (saveLocations rows codes) := by
  refine ⟨fun e he => ?_, List.pairwise_map.mpr (h.apart.imp fun {d d'} hne => ?_)⟩
  · obtain ⟨d, hd, rfl⟩ := List.mem_map.mp he
    have hplain := h.plain d hd
    obtain ⟨location, hlocation⟩ := located_eq rows d
    rw [hlocation]
    exact ⟨hplain.nonempty, hplain.plain, hplain.noFormula⟩
  · obtain ⟨location, hlocation⟩ := located_eq rows d
    obtain ⟨location', hlocation'⟩ := located_eq rows d'
    rw [hlocation, hlocation']
    exact hne

/-- A loop over the codes leaves the sheets in order if it leaves its sheet so. -/
theorem writeAll_inOrder {place : Placing σ} {sent : ℕ → Transmission SheetError}
    (h : SheetsInOrder cells str s)
    (horder : SheetInOrder cells (writeRounds ops str place sent 0 sheet s.sortedCodes).1) :
    SheetsInOrder cells str (s.writeAll ops str place sent sheet).1 := by
  obtain ⟨sheet', result, hrounds, ⟨hsheets, -, -⟩, hresult⟩ := writeAll_eq ops str place sent sheet s
  rw [hrounds] at horder
  constructor
  · rcases hresult with ⟨e, -, -, hcodes⟩ | ⟨rows, -, -, hcodes⟩
    · rw [hcodes]
      exact h.codes
    · rw [hcodes]
      exact codesFit_saveLocations h.codes rows
  · rw [hsheets]
    exact inOrder_update h.sheets horder

theorem updateSheet_inOrder (hdoc : ops.Documented cells) (h : SheetsInOrder cells str s)
    (sent : ℕ → Transmission SheetError) : SheetsInOrder cells str (s.updateSheet ops str sent).1 :=
  writeAll_inOrder h (update_inOrder hdoc (fun d hd => h.codes.plain d (mem_of_mem_getSortedCodes hd)) sent 0
    (h.sheets s.target))

/-- The header is not below itself. -/
theorem header_inOrder (hdoc : ops.Documented cells) (hread : cells.Readable sheet)
    (hblank : ∀ r, rowOne ≤ r → cells.codeAt sheet r = cells.fold "")
    (hupdate : ops.updateRow sheet rowZero defaultColumns = .ok sheet') :
    SheetInOrder cells sheet' ∧ ∀ r, rowOne ≤ r → cells.codeAt sheet' r = cells.fold "" := by
  have hno : ∀ text ∈ defaultColumns, ¬cells.isFormula text := fun text htext => (hdoc.header text htext).2
  have hhead : cells.entry sheet' rowZero 0 = "Enrollment Code" := by
    rw [hdoc.entry_updateRow hupdate, if_pos rfl]
    rfl
  have hread' : cells.Readable sheet' := by
    refine readable_updateRow hdoc hread hupdate hno ?_ ?_
    · rw [hhead]
      exact (hdoc.header _ List.mem_cons_self).1
    · rw [hhead]
      decide
  have hblank' : ∀ r, rowOne ≤ r → cells.codeAt sheet' r = cells.fold "" := by
    intro r hr
    have hne : r ≠ rowZero := by
      rintro rfl
      exact absurd hr (by decide)
    rw [codeAt_updateRow hdoc hread hupdate hno hne]
    exact hblank r hr
  exact ⟨⟨fun r r' hr _ hne _ => absurd (hblank' r hr) hne, hread'⟩, hblank'⟩

theorem writeCodes_inOrder (hdoc : ops.Documented cells) (h : SheetsInOrder cells str s)
    (sent : ℕ → Transmission SheetError)
    (hblank : ∀ r, rowOne ≤ r → cells.codeAt s.sheet r = cells.fold "") :
    SheetsInOrder cells str (s.writeCodes ops str sent).1 := by
  unfold SheetState.writeCodes
  rcases hupdate : ops.updateRow s.sheet rowZero defaultColumns with e | sheet'
  · rcases hsent : sent 0 with _ | e' | e'
    · exact h
    · exact h
    · exact h
  · obtain ⟨horder, hblank'⟩ := header_inOrder hdoc (h.sheets s.target).readable hblank hupdate
    rcases hsent : sent 0 with _ | e | e
    · refine writeAll_inOrder h (setUp_inOrder hdoc
        (fun d hd => h.codes.plain d (mem_of_mem_getSortedCodes hd)) (h.codes.apart.sortedCodes _) _
        (fun r hr hne => absurd (hblank' r hr) hne) horder)
    · exact h
    · exact ⟨h.codes, inOrder_update h.sheets horder⟩

theorem event_inOrder (hdoc : ops.Documented cells) (h : SheetsInOrder cells str s) (event : SheetEvent σ)
    (horderly : event.Orderly cells str s) : SheetsInOrder cells str (s.event ops str event) := by
  cases event with
  | postSave onlyUpdate sent =>
    show SheetsInOrder cells str (s.postSave ops str onlyUpdate sent).1
    rw [SheetState.postSave]
    split
    next => exact h
    next hhandler =>
      split
      next hover =>
        exact writeCodes_inOrder hdoc h sent (horderly hover.1 hover.2 (by simpa using hhandler))
      next => exact updateSheet_inOrder hdoc h sent
  | database codes => exact ⟨horderly, h.sheets⟩
  | save membershipType maxLearners target => exact ⟨h.codes, h.sheets⟩
  | customer target sheet =>
    exact ⟨h.codes, inOrder_update h.sheets horderly⟩

/-! ### Assignments that were not claimed -/

/-- The last redemption of the code has a user, if there is one. -/
def SheetCode.Claimed (d : SheetCode) : Prop :=
  ∀ redemption, d.redemptions.getLast? = some redemption → redemption.userEmail ≠ none

theorem getDiscountCells_of_claimed (str : Instant → String) (h : d.Claimed) :
    ∃ columns, getDiscountCells str d = .ok columns := by
  unfold getDiscountCells
  cases hlast : d.redemptions.getLast? with
  | none => exact ⟨_, rfl⟩
  | some redemption =>
    dsimp only
    cases huser : redemption.userEmail with
    | none => exact absurd huser (h redemption hlast)
    | some email => exact ⟨_, rfl⟩

theorem getDiscountCells_of_not_claimed (h : ¬d.Claimed) :
    getDiscountCells str d = .error .attributeError := by
  unfold SheetCode.Claimed at h
  push Not at h
  obtain ⟨redemption, hlast, huser⟩ := h
  simp [getDiscountCells, hlast, huser]

/-- The saved location of the code is in the grid. -/
def SheetCode.InGrid (ops : SheetOps σ) (sheet : σ) (d : SheetCode) : Prop :=
  ∀ row, d.sheetLocation = some row → row ≤ ops.rows sheet

theorem cachedRow_served (hserves : ops.Serves) (hgrid : d.InGrid ops sheet) :
    ∃ cached, d.cachedRow ops sheet = .ok cached ∧
      ∀ row, cached = some row → 0 < row ∧ row ≤ ops.rows sheet := by
  unfold SheetCode.cachedRow
  cases hlocation : d.sheetLocation with
  | none => exact ⟨none, rfl, fun row hrow => by cases hrow⟩
  | some location =>
    dsimp only
    split
    next hpos =>
      obtain ⟨values, hget⟩ := hserves.getRow sheet location false hpos (hgrid location hlocation)
      rw [hget]
      refine ⟨_, rfl, fun row hrow => ?_⟩
      split at hrow
      next =>
        obtain rfl := Option.some.inj hrow
        exact ⟨hpos, hgrid location hlocation⟩
      next => cases hrow
    next => exact ⟨none, rfl, fun row hrow => by cases hrow⟩

/-- Where no code is listed twice, a code is found or it is nowhere. -/
theorem CodesListedOnce.checkCode (hdoc : ops.Documented cells) (hserves : ops.Serves)
    (h : CodesListedOnce cells sheet) (hplain : d.Plain cells str) (hgrid : d.InGrid ops sheet) :
    ∃ place, checkCode ops sheet d = .ok place ∧ ∀ row, place = some row → 0 < row ∧ row ≤ ops.rows sheet := by
  obtain ⟨cached, hcached, hcachedGrid⟩ := cachedRow_served hserves hgrid
  unfold MitxOnline.checkCode
  rw [hcached]
  cases cached with
  | some row => exact ⟨some row, rfl, hcachedGrid⟩
  | none =>
    obtain ⟨found, hfind, hle⟩ := hserves.find sheet d.discountCode
    obtain ⟨hnodup, hmem⟩ := hdoc.find hplain.nonempty hfind
    show ∃ place, (ops.find sheet d.discountCode >>= _) = _ ∧ _
    rw [hfind]
    rcases found with _ | ⟨r, _ | ⟨r', rest⟩⟩
    · exact ⟨none, rfl, fun row hrow => by cases hrow⟩
    · refine ⟨some r, rfl, fun row hrow => ?_⟩
      obtain rfl := Option.some.inj hrow
      exact ⟨lt_of_lt_of_le rowOne_pos ((hmem r).mp List.mem_cons_self).1, hle r List.mem_cons_self⟩
    · -- two rows for one code
      obtain ⟨hone, hfor⟩ := (hmem r).mp List.mem_cons_self
      obtain ⟨hone', hfor'⟩ := (hmem r').mp (List.mem_cons_of_mem _ List.mem_cons_self)
      have heq : r = r' := by
        refine h r r' hone hone' (fun hempty => ?_) (hfor.trans hfor'.symm)
        exact fold_ne_empty hdoc hplain (hfor.symm.trans hempty)
      rw [heq] at hnodup
      simp at hnodup

/-- There are so many blank rows in the grid. -/
def Room (ops : SheetOps σ) (cells : SheetCells σ) (n : ℕ) (sheet : σ) : Prop :=
  ∃ rows : Finset ℕ, n ≤ rows.card ∧
    ∀ r ∈ rows, rowOne ≤ r ∧ r ≤ ops.rows sheet ∧ cells.Blank sheet r

theorem Enters.room (hdoc : ops.Documented cells) (hplain : d.Plain cells str) (hread : cells.Readable sheet)
    (h : Enters ops str d sheet sheet' row) {n : ℕ} (hroom : Room ops cells (n + 1) sheet) :
    Room ops cells n sheet' := by
  obtain ⟨rows, hcard, hrows⟩ := hroom
  have hless := Finset.pred_card_le_card_erase (s := rows) (a := row)
  refine ⟨rows.erase row, by omega, fun r hr => ?_⟩
  obtain ⟨hne, hmem⟩ := Finset.mem_erase.mp hr
  obtain ⟨hone, hle, hblank⟩ := hrows r hmem
  rw [h.rows hdoc, h.blank_iff hdoc hplain hread hne]
  exact ⟨hone, hle, hblank⟩

/-- With room for it a code whose assignments were claimed is written. -/
theorem writeCode_served (hdoc : ops.Documented cells) (hserves : ops.Serves)
    (honce : CodesListedOnce cells sheet) (hplain : d.Plain cells str) (hclaimed : d.Claimed)
    (hgrid : d.InGrid ops sheet) {n : ℕ} (hroom : Room ops cells (n + 1) sheet) (i : ℕ) :
    ∃ sheet' row, writeCode ops str (placeWhereItIs ops) i sheet d = .ok (sheet', row) := by
  obtain ⟨columns, hcells⟩ := getDiscountCells_of_claimed str hclaimed
  obtain ⟨place, hplace, hplaceGrid⟩ := honce.checkCode hdoc hserves hplain hgrid
  have hupdate : ∀ row, 0 < row ∧ row ≤ ops.rows sheet → ∃ sheet', ops.updateRow sheet row columns = .ok sheet' :=
    fun row hrow => (hserves.updateRow sheet row columns (getDiscountCells_length hcells)).mpr hrow
  have hplace' : placeWhereItIs ops i sheet d = .ok place := hplace
  rw [writeCode_eq hplace' hcells]
  cases place with
  | some row =>
    obtain ⟨sheet', hsheet⟩ := hupdate row (hplaceGrid row rfl)
    exact ⟨sheet', row, writeRow_given hsheet⟩
  | none =>
    obtain ⟨rows, hcard, hrows⟩ := hroom
    obtain ⟨r, hr⟩ := Finset.card_pos.mp (lt_of_lt_of_le (Nat.succ_pos n) hcard)
    obtain ⟨hone, hle, hblank⟩ := hrows r hr
    have hfuel : r < rowOne + ops.rows sheet := lt_of_le_of_lt hle (Nat.lt_add_of_pos_left rowOne_pos)
    obtain ⟨row, hsearch, hrow⟩ := searchBlank_finds hdoc hserves rowOne_pos hone hfuel hle hblank
    have hpos : 0 < row := lt_of_lt_of_le rowOne_pos (searchBlank_blank hdoc hsearch).1
    obtain ⟨sheet', hsheet⟩ := hupdate row ⟨hpos, hrow⟩
    exact ⟨sheet', row, writeRow_blank hsearch hsheet⟩

/-- Where nothing fails, the codes up to one with an unclaimed assignment are written. -/
theorem update_answered {before : List SheetCode} (hdoc : ops.Documented cells) (hserves : ops.Serves)
    (hplain : ∀ d ∈ before, d.Plain cells str) (hclaimed : ∀ d ∈ before, d.Claimed)
    (hgrid : ∀ d ∈ before, d.InGrid ops sheet) (hroom : Room ops cells before.length sheet)
    (horder : SheetInOrder cells sheet) (i : ℕ) (after : List SheetCode) :
    ∃ sheet' rows,
      writeRounds ops str (placeWhereItIs ops) (fun _ => .answered) i sheet before = (sheet', .ok rows) ∧
      SheetInOrder cells sheet' ∧
      writeRounds ops str (placeWhereItIs ops) (fun _ => .answered) i sheet (before ++ after) =
        match writeRounds ops str (placeWhereItIs ops) (fun _ => .answered) (i + before.length) sheet' after with
        | (sheet'', .error e) => (sheet'', .error e)
        | (sheet'', .ok rows') => (sheet'', .ok (rows ++ rows')) := by
  induction before generalizing sheet i with
  | nil =>
    refine ⟨sheet, [], rfl, horder, ?_⟩
    rcases hrounds : writeRounds ops str (placeWhereItIs ops) (fun _ => .answered) i sheet after with
      ⟨sheet', e | rows⟩
    · simp [hrounds]
    · simp [hrounds]
  | cons d rest ih =>
    have hplainCode := hplain d List.mem_cons_self
    obtain ⟨mid, row, hwrite⟩ := writeCode_served hdoc hserves horder.once hplainCode
      (hclaimed d List.mem_cons_self) (hgrid d List.mem_cons_self) hroom i
    have hputs := putsCode_of_writeCode hdoc hplainCode.nonempty hwrite
    have hgridMid : ∀ d' ∈ rest, d'.InGrid ops mid := by
      intro d' hd' location hlocation
      rw [hputs.enters.rows hdoc]
      exact hgrid d' (List.mem_cons_of_mem _ hd') location hlocation
    obtain ⟨sheet', rows, hrounds, horder', happend⟩ := ih
      (fun d hd => hplain d (List.mem_cons_of_mem _ hd)) (fun d hd => hclaimed d (List.mem_cons_of_mem _ hd))
      hgridMid (hputs.enters.room hdoc hplainCode horder.readable hroom)
      (hputs.inOrder hdoc hplainCode horder) (i + 1)
    refine ⟨sheet', (d, row) :: rows, by simp [writeRounds, hwrite, hrounds], horder', ?_⟩
    have hindex : i + (d :: rest).length = i + 1 + rest.length := by
      rw [List.length_cons]
      omega
    rw [hindex, List.cons_append]
    rcases hafter : writeRounds ops str (placeWhereItIs ops) (fun _ => .answered) (i + 1 + rest.length) sheet'
      after with ⟨sheet'', e | rows'⟩
    · rw [hafter] at happend
      simp [writeRounds, hwrite, happend]
    · rw [hafter] at happend
      simp [writeRounds, hwrite, happend]

/-- The grid has a blank row for each listed code, and reaches to the saved locations. -/
structure SheetState.HasRoom (ops : SheetOps σ) (cells : SheetCells σ) (s : SheetState σ) : Prop where
  room : Room ops cells s.sortedCodes.length s.sheet
  inGrid : ∀ d ∈ s.sortedCodes, d.InGrid ops s.sheet

theorem Room.mono {n m : ℕ} (h : Room ops cells n sheet) (hle : m ≤ n) : Room ops cells m sheet := by
  obtain ⟨rows, hcard, hrows⟩ := h
  exact ⟨rows, hle.trans hcard, hrows⟩

theorem updateSheet_of_unclaimed (hdoc : ops.Documented cells) (hserves : ops.Serves)
    (h : SheetsInOrder cells str s) (hroom : s.HasRoom ops cells) {before after : List SheetCode}
    (hsorted : s.sortedCodes = before ++ d :: after) (hbefore : ∀ d' ∈ before, d'.Claimed) (hd : ¬d.Claimed) :
    ∃ sheet' rows, s.updateSheet ops str (fun _ => .answered) = (s.setSheet sheet', some .attributeError) ∧
      writeRounds ops str (placeWhereItIs ops) (fun _ => .answered) 0 s.sheet before = (sheet', .ok rows) := by
  have hplain : ∀ d' ∈ before ++ d :: after, d'.Plain cells str := fun d' hd' =>
    h.codes.plain d' (mem_of_mem_getSortedCodes (hsorted ▸ hd'))
  have hgrid : ∀ d' ∈ before ++ d :: after, d'.InGrid ops s.sheet := fun d' hd' =>
    hroom.inGrid d' (hsorted ▸ hd')
  have hlength : before.length ≤ s.sortedCodes.length := by
    rw [hsorted, List.length_append]
    exact Nat.le_add_right _ _
  obtain ⟨sheet', rows, hrounds, horder, happend⟩ := update_answered hdoc hserves
    (fun d' hd' => hplain d' (List.mem_append_left _ hd')) hbefore
    (fun d' hd' => hgrid d' (List.mem_append_left _ hd')) (hroom.room.mono hlength) (h.sheets s.target) 0
    (d :: after)
  have hrows : ops.rows sheet' = ops.rows s.sheet := by
    have hkept := writeRounds_rows hdoc str (placeWhereItIs ops) (fun _ => .answered) 0 s.sheet before
    rwa [hrounds] at hkept
  have hgridCode : d.InGrid ops sheet' := by
    intro location hlocation
    rw [hrows]
    exact hgrid d (List.mem_append_right _ List.mem_cons_self) location hlocation
  obtain ⟨place, hplace, -⟩ := horder.once.checkCode hdoc hserves
    (hplain d (List.mem_append_right _ List.mem_cons_self)) hgridCode
  have hwrite : writeCode ops str (placeWhereItIs ops) (0 + before.length) sheet' d =
      .error .attributeError := by
    rw [writeCode, placeWhereItIs, hplace, getDiscountCells_of_not_claimed hd]
    rfl
  have hall : writeRounds ops str (placeWhereItIs ops) (fun _ => .answered) 0 s.sheet s.sortedCodes =
      (sheet', .error .attributeError) := by
    rw [hsorted]
    refine happend.trans ?_
    rw [writeRounds, hwrite]
  refine ⟨sheet', rows, ?_, hrounds⟩
  rw [SheetState.updateSheet, SheetState.writeAll, hall]

/-- A code with an unclaimed assignment ends the update: the codes before it are written, those after it are
not, and no location is saved. -/
theorem unclaimed_code_ends_update (ops : SheetOps σ) (cells : SheetCells σ) (hdoc : ops.Documented cells)
    (hserves : ops.Serves) (str : Instant → String) (s : SheetState σ) (h : SheetsInOrder cells str s)
    (hroom : s.HasRoom ops cells) (before after : List SheetCode) (d : SheetCode)
    (hsorted : s.sortedCodes = before ++ d :: after) (hbefore : ∀ d' ∈ before, d'.Claimed) (hd : ¬d.Claimed) :
    ∃ sheet' rows, s.updateSheet ops str (fun _ => .answered) = (s.setSheet sheet', some .attributeError) ∧
      writeRounds ops str (placeWhereItIs ops) (fun _ => .answered) 0 s.sheet before = (sheet', .ok rows) ∧
      (∀ item ∈ rows, Written cells str item.1 s.sheet sheet' item.2) ∧ rows.map (·.1) = before ∧
      LeavesRest cells before s.sheet sheet' := by
  obtain ⟨sheet', rows, hupdate, hrounds⟩ := updateSheet_of_unclaimed hdoc hserves h hroom hsorted hbefore hd
  have hplain : ∀ d' ∈ before, d'.Plain cells str := fun d' hd' =>
    h.codes.plain d' (mem_of_mem_getSortedCodes (hsorted ▸ List.mem_append_left _ hd'))
  have hapart : Apart cells before := by
    have hsortedApart := h.codes.apart.sortedCodes s.maxLearners
    refine hsortedApart.sublist ?_
    show before.Sublist s.sortedCodes
    rw [hsorted]
    exact List.sublist_append_left _ _
  have hread := (h.sheets s.target).readable
  obtain ⟨hmap, hwritten⟩ := update_rows hdoc hserves hplain hapart hread hrounds
  have hleaves : LeavesRest cells before s.sheet
      (writeRounds ops str (placeWhereItIs ops) (fun _ => .answered) 0 s.sheet before).1 :=
    (update_leavesRest hdoc hplain (fun _ => .answered) 0 hread).1
  rw [hrounds] at hleaves
  exact ⟨sheet', rows, hupdate, hrounds, fun item hitem => (hwritten item hitem).2, hmap, hleaves⟩

theorem plainCells_codeAt_of_empty {sheet : PlainSheet} (h : rowAt sheet r = []) :
    plainCells.codeAt sheet r = plainCells.fold "" := by
  show plainCells.fold ((rowAt sheet r).getD 0 "") = plainCells.fold ""
  rw [h]
  rfl

theorem oneCode_inOrder {userEmail : Option String} (hemail : userEmail = none ∨ userEmail = some "ada@example.com") :
    SheetsInOrder plainCells oneDay (sheetOfOneCode (oneRedemption userEmail)) := by
  have hnil : ∀ r, 2 < r → plainCells.codeAt oneCodeSheet r = plainCells.fold "" := by
    intro r hr
    refine plainCells_codeAt_of_empty ?_
    by_cases h3 : r = 3
    · rw [h3]
      rfl
    · exact rowAt_of_length_lt (show 3 < r by omega)
  refine ⟨⟨oneCode_plain hemail, List.pairwise_singleton _ _⟩, fun target =>
    ⟨fun r r' hr hr' hne heq => ?_, plainCells_readable _⟩⟩
  simp only [rowOne, rowZero] at hr hr'
  have h2 : r = 2 := by
    by_contra hne2
    exact hne (hnil r (by omega))
  by_contra hdiff
  exact hne (heq.trans (hnil r' (by omega)))

/-- The third row is blank. -/
theorem oneCode_room : Room plainOps plainCells 1 oneCodeSheet := by
  refine ⟨{3}, le_rfl, fun r hr => ?_⟩
  rw [Finset.mem_singleton.mp hr]
  exact ⟨by decide, le_rfl, fun j _ => rfl⟩

theorem oneCode_hasRoom (redemptions : List CodeRedemption) :
    (sheetOfOneCode redemptions).HasRoom plainOps plainCells := by
  refine ⟨oneCode_room, fun d hd row hrow => ?_⟩
  rw [List.mem_singleton.mp hd] at hrow
  rw [← Option.some.inj hrow]
  exact Nat.le_succ 2

/-- The code is assigned, and nobody has claimed it. -/
theorem unclaimed_code_ends_update_oneCode :
    ∃ sheet', (sheetOfOneCode (oneRedemption none)).updateSheet plainOps oneDay (fun _ => .answered) =
      ((sheetOfOneCode (oneRedemption none)).setSheet sheet', some .attributeError) := by
  obtain ⟨sheet', rows, hupdate, -⟩ := unclaimed_code_ends_update plainOps plainCells plainOps_documented
    plainOps_serves oneDay (sheetOfOneCode (oneRedemption none)) (oneCode_inOrder (Or.inl rfl)) (oneCode_hasRoom _)
    [] [] ⟨1, "a1", .oneTime, none, 1, oneRedemption none, some 2⟩ rfl
    (fun d hd => absurd hd List.not_mem_nil) (fun h => h ⟨none, 0⟩ rfl rfl)
  exact ⟨sheet', hupdate⟩

theorem exists_first_unclaimed {codes : List SheetCode} (h : ¬∀ d ∈ codes, d.Claimed) :
    ∃ before d after, codes = before ++ d :: after ∧ (∀ d' ∈ before, d'.Claimed) ∧ ¬d.Claimed := by
  induction codes with
  | nil => exact absurd (fun d hd => absurd hd List.not_mem_nil) h
  | cons d rest ih =>
    by_cases hd : d.Claimed
    · have hrest : ¬∀ d' ∈ rest, d'.Claimed := fun hall => h (List.forall_mem_cons.mpr ⟨hd, hall⟩)
      obtain ⟨before, d', after, rfl, hbefore, hnot⟩ := ih hrest
      exact ⟨d :: before, d', after, rfl, List.forall_mem_cons.mpr ⟨hd, hbefore⟩, hnot⟩
    · exact ⟨[], d, rest, rfl, fun d' hd' => absurd hd' List.not_mem_nil, hd⟩

/-- An update that is answered returns where all assignments of the listed codes were claimed; a code that is
listed twice is never in its way. -/
theorem updateSheet_result (hdoc : ops.Documented cells) (hserves : ops.Serves)
    (h : SheetsInOrder cells str s) (hroom : s.HasRoom ops cells) :
    (s.updateSheet ops str fun _ => .answered).2 = none ∧ (∀ d ∈ s.sortedCodes, d.Claimed) ∨
      (s.updateSheet ops str fun _ => .answered).2 = some .attributeError ∧
        ∃ d ∈ s.sortedCodes, ¬d.Claimed := by
  by_cases hclaimed : ∀ d ∈ s.sortedCodes, d.Claimed
  · refine Or.inl ⟨?_, hclaimed⟩
    have hplain : ∀ d ∈ s.sortedCodes, d.Plain cells str :=
      fun d hd => h.codes.plain d (mem_of_mem_getSortedCodes hd)
    obtain ⟨sheet', rows, hrounds, -, -⟩ := update_answered hdoc hserves hplain hclaimed hroom.inGrid hroom.room
      (h.sheets s.target) 0 []
    have hall : writeRounds ops str (placeWhereItIs ops) (fun _ => .answered) 0 s.sheet s.sortedCodes =
        (sheet', .ok rows) := hrounds
    rw [SheetState.updateSheet, SheetState.writeAll, hall]
  · obtain ⟨before, d, after, hsorted, hbefore, hd⟩ := exists_first_unclaimed hclaimed
    obtain ⟨sheet', rows, hupdate, -⟩ := updateSheet_of_unclaimed hdoc hserves h hroom hsorted hbefore hd
    refine Or.inr ⟨by rw [hupdate], d, ?_, hd⟩
    rw [hsorted]
    exact List.mem_append_right _ List.mem_cons_self

theorem run_inOrder (hdoc : ops.Documented cells) (h : SheetsInOrder cells str s) {events : List (SheetEvent σ)}
    (horderly : Trace.Along (SheetState.event ops str) (fun s event => event.Orderly cells str s) s events) :
    SheetsInOrder cells str (Trace.run (SheetState.event ops str) s events) :=
  Trace.run_of_along (SheetsInOrder cells str)
    (fun _ event hs hevent => event_inOrder hdoc hs event hevent) h horderly

/-- In every run in which customers list no code twice and sheets are set up on blank rows, no sheet ever
lists a code twice, whatever fails; so an update that is answered and has room ends unless an assignment was
not claimed. -/
theorem codes_listed_once (ops : SheetOps σ) (cells : SheetCells σ) (hdoc : ops.Documented cells)
    (hserves : ops.Serves) (str : Instant → String) (s : SheetState σ) (h : SheetsInOrder cells str s)
    (events : List (SheetEvent σ))
    (horderly : Trace.Along (SheetState.event ops str) (fun s event => event.Orderly cells str s) s events) :
    (∀ target, CodesListedOnce cells ((Trace.run (SheetState.event ops str) s events).sheets target)) ∧
      ((Trace.run (SheetState.event ops str) s events).HasRoom ops cells →
        (((Trace.run (SheetState.event ops str) s events).updateSheet ops str fun _ => .answered).2 = none ∨
          ((Trace.run (SheetState.event ops str) s events).updateSheet ops str fun _ => .answered).2 =
            some .attributeError) ∧
        (((Trace.run (SheetState.event ops str) s events).updateSheet ops str fun _ => .answered).2 = none ↔
          ∀ d ∈ (Trace.run (SheetState.event ops str) s events).sortedCodes, d.Claimed)) := by
  have hrun := run_inOrder hdoc h horderly
  refine ⟨fun target => (hrun.sheets target).once, fun hroom => ?_⟩
  rcases updateSheet_result hdoc hserves hrun hroom with ⟨hnone, hclaimed⟩ | ⟨herror, d, hd, hnot⟩
  · exact ⟨Or.inl hnone, fun _ => hclaimed, fun _ => hnone⟩
  · refine ⟨Or.inr herror, fun hnone => ?_, fun hclaimed => absurd (hclaimed d hd) hnot⟩
    rw [herror] at hnone
    exact absurd hnone (by simp)

/-- The code is redeemed, the update fails half-way, and the customer throws the rows below the header away. -/
def oneCodeEvents : List (SheetEvent PlainSheet) :=
  [.postSave true fun _ => .lost .apiError, .customer ⟨"https://sheet", "Sheet1"⟩ [defaultColumns, [], []]]

theorem codes_listed_once_oneCode :
    CodesListedOnce plainCells ((Trace.run (SheetState.event plainOps oneDay) redeemedSheetCode
      oneCodeEvents).sheets ⟨"https://sheet", "Sheet1"⟩) ∧
    ((Trace.run (SheetState.event plainOps oneDay) redeemedSheetCode oneCodeEvents).updateSheet plainOps oneDay
      fun _ => .answered).2 = none := by
  have hempty : CodesListedOnce plainCells ([defaultColumns, [], []] : PlainSheet) := by
    intro r r' hr _ hne _
    refine absurd (plainCells_codeAt_of_empty ?_) hne
    simp only [rowOne, rowZero] at hr
    by_cases hlong : 3 < r
    · exact rowAt_of_length_lt hlong
    · obtain rfl | rfl : r = 2 ∨ r = 3 := by omega
      · rfl
      · rfl
  obtain ⟨honce, hupdates⟩ := codes_listed_once plainOps plainCells plainOps_documented plainOps_serves oneDay
    redeemedSheetCode (oneCode_inOrder (Or.inr rfl)) oneCodeEvents
    ⟨fun h => absurd h (by decide), ⟨hempty, plainCells_readable _⟩, trivial⟩
  refine ⟨honce _, (hupdates ?_).2.mpr ?_⟩
  · refine ⟨⟨{2}, le_rfl, fun r hr => ?_⟩, fun d hd row hrow => ?_⟩
    · rw [Finset.mem_singleton.mp hr]
      exact ⟨le_rfl, by decide, fun j _ => rfl⟩
    · rw [List.mem_singleton.mp hd] at hrow
      rw [← Option.some.inj hrow]
      exact Nat.le_succ 2
  · intro d hd redemption hlast
    rw [List.mem_singleton.mp hd] at hlast
    rw [← Option.some.inj hlast]
    simp

end Runs

end MitxOnline

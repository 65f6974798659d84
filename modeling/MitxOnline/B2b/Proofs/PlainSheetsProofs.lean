import Mathlib.Data.List.GetD
import MitxOnline.B2b.CodeSheets

/-!
# Sheets without formulas

The plainest worksheets: rows of texts, where every cell shows what is entered. They do what is relied on.
-/

namespace MitxOnline

variable {row : ℕ}

/-- A worksheet whose cells show what is entered. -/
abbrev PlainSheet := List (List String)

def rowAt (sheet : PlainSheet) (r : ℕ) : List String := ([] :: sheet).getD r []

/-- The values with the empty cells up to the last title. -/
def padded (values : List String) : List String :=
  values ++ List.replicate (defaultColumns.length - values.length) ""

def plainOps : SheetOps PlainSheet where
  rows := List.length
  getRow sheet row _ :=
    if 0 < row ∧ row ≤ sheet.length then .ok (padded (rowAt sheet row)) else .error .apiError
  updateRow sheet row columns :=
    if 0 < row ∧ row ≤ sheet.length then
      .ok (sheet.set (row - 1) (columns ++ (rowAt sheet row).drop columns.length))
    else .error .apiError
  find sheet code := .ok (((List.range sheet.length).map (· + 1)).filter fun row =>
    rowOne ≤ row ∧ ((rowAt sheet row).getD 0 "").toLower = code.toLower)

def plainCells : SheetCells PlainSheet where
  entry sheet r j := (rowAt sheet r).getD j ""
  shown sheet r j := (rowAt sheet r).getD j ""
  calculated _ _ _ := False
  isFormula text := text.toList.head? = some '='
  plain text := text.toList.head? ≠ some '='
  fold := String.toLower

theorem padded_getD (values : List String) (j : ℕ) : (padded values).getD j "" = values.getD j "" := by
  unfold padded
  by_cases hj : j < values.length
  · rw [List.getD_append _ _ _ _ hj]
  · rw [List.getD_append_right _ _ _ _ (not_lt.mp hj), List.getD_eq_default values _ (not_lt.mp hj),
      List.getD_eq_getElem?_getD, List.getElem?_getD_replicate_default_eq]

theorem rowAt_set {sheet : PlainSheet} {values : List String} (hpos : 0 < row) (hle : row ≤ sheet.length) (r : ℕ) :
    rowAt (sheet.set (row - 1) values) r = if r = row then values else rowAt sheet r := by
  obtain ⟨n, rfl⟩ := Nat.exists_eq_succ_of_ne_zero hpos.ne'
  cases r with
  | zero => rfl
  | succ m =>
    show (sheet.set n values).getD m [] = if m + 1 = n + 1 then values else sheet.getD m []
    rw [List.getD_eq_getElem?_getD, List.getD_eq_getElem?_getD]
    by_cases heq : m = n
    · rw [heq, if_pos rfl, List.getElem?_set_self (by omega)]
      rfl
    · rw [if_neg (by omega), List.getElem?_set_ne (Ne.symm heq)]

/-- There is nothing below the sheet. -/
theorem rowAt_of_length_lt {sheet : PlainSheet} (h : sheet.length < row) : rowAt sheet row = [] :=
  List.getD_eq_default _ _ h

theorem plainOps_updateRow {sheet sheet' : PlainSheet} {columns : List String}
    (h : plainOps.updateRow sheet row columns = .ok sheet') :
    (0 < row ∧ row ≤ sheet.length) ∧
      sheet' = sheet.set (row - 1) (columns ++ (rowAt sheet row).drop columns.length) := by
  by_cases hgrid : 0 < row ∧ row ≤ sheet.length
  · exact ⟨hgrid, (Except.ok.inj ((if_pos hgrid).symm.trans h)).symm⟩
  · cases (if_neg hgrid).symm.trans h

theorem plainOps_entry {sheet sheet' : PlainSheet} {columns : List String}
    (h : plainOps.updateRow sheet row columns = .ok sheet') (r j : ℕ) :
    (rowAt sheet' r).getD j "" =
      if r = row then columns.getD j ((rowAt sheet r).getD j "") else (rowAt sheet r).getD j "" := by
  obtain ⟨⟨hpos, hle⟩, rfl⟩ := plainOps_updateRow h
  rw [rowAt_set hpos hle]
  split_ifs with heq
  · subst heq
    by_cases hj : j < columns.length
    · rw [List.getD_append _ _ _ _ hj, List.getD_eq_getElem _ _ hj, List.getD_eq_getElem _ _ hj]
    · rw [List.getD_append_right _ _ _ _ (not_lt.mp hj), List.getD_eq_default columns _ (not_lt.mp hj),
        List.getD_eq_getElem?_getD, List.getElem?_drop, Nat.add_sub_cancel' (not_lt.mp hj),
        ← List.getD_eq_getElem?_getD]
  · rfl

theorem plainOps_documented : plainOps.Documented plainCells where
  getRow := by
    intro sheet row tail values h j
    by_cases hgrid : 0 < row ∧ row ≤ sheet.length
    · rw [← Except.ok.inj ((if_pos hgrid).symm.trans h)]
      exact padded_getD _ j
    · cases (if_neg hgrid).symm.trans h
  entry_updateRow h := plainOps_entry h
  shown_updateRow := by
    intro sheet row columns sheet' h _ r j hother _
    refine ⟨(plainOps_entry h r j).trans ?_, fun hcalculated => hcalculated⟩
    split_ifs with heq
    · exact List.getD_eq_default _ _ (hother heq)
    · rfl
  rows_updateRow := by
    intro sheet row columns sheet' h
    obtain ⟨-, rfl⟩ := plainOps_updateRow h
    exact List.length_set
  find := by
    intro sheet code found hne h
    obtain rfl := Except.ok.inj h
    refine ⟨List.Nodup.filter _ (List.Nodup.map (fun a b hab => ?_) List.nodup_range), fun r => ?_⟩
    · simpa using hab
    · rw [List.mem_filter, decide_eq_true_eq, List.mem_map]
      refine ⟨fun hr => hr.2, fun hr => ⟨?_, hr⟩⟩
      cases r with
      | zero => exact absurd hr.1 (by decide)
      | succ n =>
        refine ⟨n, List.mem_range.mpr ?_, rfl⟩
        by_contra hlong
        have hempty : (rowAt sheet (n + 1)).getD 0 "" = "" := by
          show (sheet.getD n []).getD 0 "" = ""
          rw [List.getD_eq_default _ _ (not_lt.mp hlong)]
          rfl
        have hcode : ((rowAt sheet (n + 1)).getD 0 "").toLower = code.toLower := hr.2
        rw [hempty] at hcode
        exact hne (String.map_eq_empty.mp (hcode.symm.trans (String.map_eq_empty.mpr rfl)))
  shown_of_plain _ := ⟨rfl, fun hcalculated => hcalculated⟩
  eq_empty h := String.map_eq_empty.mp (h.trans (String.map_eq_empty.mpr rfl))
  header title htitle := by
    have hplain : ∀ title ∈ defaultColumns, title.toList.head? ≠ some '=' := by decide
    exact ⟨hplain title htitle, hplain title htitle⟩

theorem plainOps_serves : plainOps.Serves where
  getRow sheet row tail hpos hle := ⟨_, if_pos ⟨hpos, hle⟩⟩
  padded := by
    intro sheet row values h
    by_cases hgrid : 0 < row ∧ row ≤ sheet.length
    · rw [← Except.ok.inj ((if_pos hgrid).symm.trans h)]
      right
      unfold MitxOnline.padded
      rw [List.length_append, List.length_replicate]
      omega
    · cases (if_neg hgrid).symm.trans h
  updateRow sheet row columns _ :=
    ⟨fun ⟨_, h⟩ => (plainOps_updateRow h).1, fun hgrid => ⟨_, if_pos hgrid⟩⟩
  find sheet code := by
    refine ⟨_, rfl, fun r hr => ?_⟩
    obtain ⟨n, hn, rfl⟩ := List.mem_map.mp (List.mem_filter.mp hr).1
    exact List.mem_range.mp hn

end MitxOnline

import Mathlib.Data.List.Basic
import Mathlib.Order.Lattice

/-!
# Registers that keep the latest write
Writes carry the time at which they were made, which is not the order in which they arrive. The register
keeps the time of the write it holds and takes a write only if it is later.
-/

namespace LatestWins

variable {τ α : Type} [LinearOrder τ]

/-- A value with the time it was written at, if it was. -/
structure Register (τ α : Type) where
  value : α
  time : Option τ

/-- A write of a value. -/
structure Write (τ α : Type) where
  value : α
  time : τ
  deriving DecidableEq

/-- The register holds a write that is at least as late as `t`. -/
def Register.reaches (r : Register τ α) (t : τ) : Bool := r.time.any fun time => decide (t ≤ time)

/-- Take a write unless the register reaches it. -/
def Register.write (r : Register τ α) (w : Write τ α) : Register τ α :=
  if r.reaches w.time = true then r else ⟨w.value, some w.time⟩

/-- Take the writes of a list one after the other. -/
def Register.writes (r : Register τ α) (ws : List (Write τ α)) : Register τ α := ws.foldl write r

/-! ## The latest write is kept, in whatever order the writes arrive

A register that reaches all writes of a list does not change. So the first arrival of the latest write
decides, and what comes before and after it does not matter. -/

variable {r : Register τ α} {w m : Write τ α} {ws : List (Write τ α)}

theorem write_of_reaches (h : r.reaches w.time = true) : r.write w = r := by
  rw [Register.write, if_pos h]

theorem write_of_not_reaches (h : r.reaches w.time = false) : r.write w = ⟨w.value, some w.time⟩ := by
  rw [Register.write, if_neg (Bool.eq_false_iff.mp h)]

theorem reaches_mono {t t' : τ} (h : r.reaches t' = true) (hle : t ≤ t') : r.reaches t = true := by
  rw [Register.reaches, Option.any_eq_true] at h ⊢
  obtain ⟨time, htime, hreach⟩ := h
  exact ⟨time, htime, by simpa using hle.trans (by simpa using hreach)⟩

theorem written_reaches : (Register.mk w.value (some w.time)).reaches w.time = true := by
  simp [Register.reaches]

/-- A write that is earlier than `t` does not make the register reach `t`. -/
theorem write_not_reaches {t : τ} (h : r.reaches t = false) (hlt : w.time < t) :
    (r.write w).reaches t = false := by
  unfold Register.write
  split_ifs
  · exact h
  · simpa [Register.reaches] using hlt

/-- A register that reaches every write of the list stays as it is. -/
theorem writes_of_reaches (h : ∀ w ∈ ws, r.reaches w.time = true) : r.writes ws = r := by
  induction ws with
  | nil => rfl
  | cons w ws ih =>
    rw [Register.writes, List.foldl_cons, write_of_reaches (h w (List.mem_cons_self ..))]
    exact ih fun w' hw' => h w' (List.mem_cons_of_mem _ hw')

/-- If the register does not reach the latest write, it holds that write in the end. -/
theorem writes_of_not_reaches (hm : m ∈ ws) (hmax : ∀ w ∈ ws, w.time ≤ m.time)
    (hlast : ∀ w ∈ ws, w.time = m.time → w = m) (h : r.reaches m.time = false) :
    r.writes ws = ⟨m.value, some m.time⟩ := by
  induction ws generalizing r with
  | nil => cases hm
  | cons w ws ih =>
    have hmax' : ∀ w' ∈ ws, w'.time ≤ m.time := fun w' hw' => hmax w' (List.mem_cons_of_mem _ hw')
    rw [Register.writes, List.foldl_cons]
    rcases (hmax w (List.mem_cons_self ..)).lt_or_eq with hlt | heq
    · -- an earlier write: the latest one is still to come
      have hm' : m ∈ ws := by
        rcases List.mem_cons.mp hm with rfl | hm'
        · exact absurd hlt (lt_irrefl _)
        · exact hm'
      exact ih hm' hmax' (fun w' hw' => hlast w' (List.mem_cons_of_mem _ hw')) (write_not_reaches h hlt)
    · -- the latest write arrives, and nothing after it is later
      obtain rfl : w = m := hlast w (List.mem_cons_self ..) heq
      rw [write_of_not_reaches h]
      exact writes_of_reaches fun w' hw' => reaches_mono written_reaches (hmax' w' hw')

/-- The register after a list of writes whose latest one is `m`. -/
theorem writes_eq (hm : m ∈ ws) (hmax : ∀ w ∈ ws, w.time ≤ m.time)
    (hlast : ∀ w ∈ ws, w.time = m.time → w = m) :
    r.writes ws = if r.reaches m.time = true then r else ⟨m.value, some m.time⟩ := by
  split_ifs with h
  · exact writes_of_reaches fun w hw => reaches_mono h (hmax w hw)
  · exact writes_of_not_reaches hm hmax hlast (Bool.eq_false_iff.mpr h)

end LatestWins

import Mathlib.Algebra.Order.Round
import Mathlib.Data.Rat.Floor
import Mathlib.Algebra.Order.Ring.Rat
import Mathlib.Algebra.Ring.Int.Parity
import Mathlib.Tactic.Linarith
import Mathlib.Tactic.Positivity
import Mathlib.Tactic.FieldSimp

/-!
# Fixed-point decimals

A decimal column with `p` digits after the point holds an integer number of units `10⁻ᵖ`. Arithmetic
on its values is exact and takes place in `ℚ`; a result is brought back to `p` digits by `quantize`,
which rounds half to even.
-/

namespace FixedPoint

/-- A decimal with `p` digits after the point: `units` times `10⁻ᵖ`. -/
structure Decimal (p : ℕ) where
  /-- The number of units in the last place. -/
  units : ℤ
  deriving DecidableEq, Repr

variable {p : ℕ}

/-- The rational value of a decimal. -/
def Decimal.toRat (d : Decimal p) : ℚ := d.units / 10 ^ p

/-- The integer nearest to `x`; halfway between two integers, the even one. -/
def roundHalfEven (x : ℚ) : ℤ :=
  if x - ⌊x⌋ < 1 / 2 then ⌊x⌋
  else if 1 / 2 < x - ⌊x⌋ then ⌊x⌋ + 1
  else if ⌊x⌋ % 2 = 0 then ⌊x⌋
  else ⌊x⌋ + 1

/-- `x` rounded half to even to `p` digits after the point. -/
def quantize (p : ℕ) (x : ℚ) : Decimal p := ⟨roundHalfEven (x * 10 ^ p)⟩

/-- The rational value of `x` rounded to `p` digits. -/
def rounded (p : ℕ) (x : ℚ) : ℚ := (quantize p x).toRat

/-! ## Two ways to round a half

Rounding half to even and rounding half away from zero differ only halfway between two integers. -/

/-- The integer nearest to `x`; halfway between two integers, the one that is farther from zero. -/
def roundHalfAway (x : ℚ) : ℤ := if 0 ≤ x then ⌊x + 1 / 2⌋ else ⌈x - 1 / 2⌉

/-- `x` rounded half away from zero to `p` digits after the point. -/
def quantizeAway (p : ℕ) (x : ℚ) : Decimal p := ⟨roundHalfAway (x * 10 ^ p)⟩

/-- `x` is halfway between two integers. -/
def IsHalfway (x : ℚ) : Prop := x - ⌊x⌋ = 1 / 2

instance (x : ℚ) : Decidable (IsHalfway x) := inferInstanceAs (Decidable (_ = _))

/-!
## Rounding to fixed-point decimals

Rounding fixes the decimals of the target precision and is monotone, so it commutes with `min`.
-/

/-- Rounding leaves an integer unchanged. -/
theorem roundHalfEven_intCast (n : ℤ) : roundHalfEven (n : ℚ) = n := by
  simp [roundHalfEven]

/-- The rounded value is the floor or its successor. -/
theorem roundHalfEven_cases (x : ℚ) :
    (roundHalfEven x = ⌊x⌋ ∧ x - ⌊x⌋ ≤ 1 / 2) ∨ (roundHalfEven x = ⌊x⌋ + 1 ∧ 1 / 2 ≤ x - ⌊x⌋) := by
  unfold roundHalfEven
  split_ifs with h1 h2 h3
  · exact Or.inl ⟨rfl, h1.le⟩
  · exact Or.inr ⟨rfl, h2.le⟩
  · exact Or.inl ⟨rfl, not_lt.mp h2⟩
  · exact Or.inr ⟨rfl, not_lt.mp h1⟩

/-- Two numbers with the same floor and the same tie-break round in their order. -/
theorem roundHalfEven_mono_of_floor_eq {x y : ℚ} (h : x ≤ y) (hf : ⌊x⌋ = ⌊y⌋) :
    roundHalfEven x ≤ roundHalfEven y := by
  rcases roundHalfEven_cases x with ⟨hx, _⟩ | ⟨hx, hx'⟩
  · rcases roundHalfEven_cases y with ⟨hy, _⟩ | ⟨hy, _⟩ <;> omega
  · rcases roundHalfEven_cases y with ⟨_, hy'⟩ | ⟨hy, _⟩
    · -- both fractional parts are one half, so the two numbers are the same
      have hxy : x = y := by rw [hf] at hx'; linarith
      rw [hxy]
    · omega

/-- Rounding is monotone. -/
theorem roundHalfEven_mono {x y : ℚ} (h : x ≤ y) : roundHalfEven x ≤ roundHalfEven y := by
  rcases (Int.floor_le_floor h).eq_or_lt with hf | hf
  · exact roundHalfEven_mono_of_floor_eq h hf
  · rcases roundHalfEven_cases x with ⟨hx, _⟩ | ⟨hx, _⟩ <;>
      rcases roundHalfEven_cases y with ⟨hy, _⟩ | ⟨hy, _⟩ <;> omega

theorem Decimal.toRat_le_toRat {a b : Decimal p} (h : a.units ≤ b.units) : a.toRat ≤ b.toRat := by
  unfold Decimal.toRat
  have : (a.units : ℚ) ≤ b.units := by exact_mod_cast h
  gcongr

/-- A decimal of the target precision is its own rounding. -/
@[simp] theorem quantize_toRat (d : Decimal p) : quantize p d.toRat = d := by
  have h : d.toRat * 10 ^ p = (d.units : ℚ) := by
    unfold Decimal.toRat
    field_simp
  unfold quantize
  rw [h, roundHalfEven_intCast]

@[simp] theorem rounded_toRat (d : Decimal p) : rounded p d.toRat = d.toRat := by
  simp [rounded]

/-- Rounding to `p` digits is monotone. -/
theorem rounded_mono {x y : ℚ} (h : x ≤ y) : rounded p x ≤ rounded p y := by
  apply Decimal.toRat_le_toRat
  apply roundHalfEven_mono
  gcongr

/-- A rounded number is negative from below minus one half on, which itself rounds to zero. -/
theorem roundHalfEven_nonneg_iff (x : ℚ) : 0 ≤ roundHalfEven x ↔ -(1 / 2) ≤ x := by
  constructor
  · intro h
    rcases roundHalfEven_cases x with ⟨hx, _⟩ | ⟨hx, hhalf⟩
    · have hfloor : (0 : ℤ) ≤ ⌊x⌋ := hx ▸ h
      have hnonneg : 0 ≤ x := Int.floor_nonneg.mp hfloor
      linarith
    · have hfloor : (-1 : ℤ) ≤ ⌊x⌋ := by omega
      have hcast : (-1 : ℚ) ≤ (⌊x⌋ : ℚ) := by exact_mod_cast hfloor
      linarith
  · intro h
    have hhalf : roundHalfEven (-(1 / 2)) = 0 := by decide +kernel
    rw [← hhalf]
    exact roundHalfEven_mono h

theorem Decimal.toRat_nonneg_iff (d : Decimal p) : 0 ≤ d.toRat ↔ 0 ≤ d.units := by
  have hpos : (0 : ℚ) < 10 ^ p := by positivity
  unfold Decimal.toRat
  rw [le_div_iff₀ hpos, zero_mul, Int.cast_nonneg_iff]

/-- A number rounds to a negative decimal if it is more than half a unit below zero. -/
theorem rounded_nonneg_iff (x : ℚ) : 0 ≤ rounded p x ↔ -(1 / 2) ≤ x * 10 ^ p := by
  unfold rounded quantize
  rw [Decimal.toRat_nonneg_iff, roundHalfEven_nonneg_iff]

/-- Rounding commutes with the minimum. -/
theorem rounded_min (x y : ℚ) : rounded p (min x y) = min (rounded p x) (rounded p y) := by
  rcases le_total x y with h | h
  · rw [min_eq_left h, min_eq_left (rounded_mono h)]
  · rw [min_eq_right h, min_eq_right (rounded_mono h)]

/-! ## Where the two ways to round agree

A rounded number is known by its distance: less than one half, or one half and even. So what rounding half to
even does to a difference with an integer depends, halfway, on whether that integer is even. -/

variable {x y : ℚ} {m n : ℤ}

/-! ### Rounding half to even -/

/-- The rounded number is nearest, and even where it is one of two. -/
theorem roundHalfEven_spec (x : ℚ) : (x - roundHalfEven x < 1 / 2 ∧ -(1 / 2) < x - roundHalfEven x) ∨
    ((x - roundHalfEven x = 1 / 2 ∨ x - roundHalfEven x = -(1 / 2)) ∧ Even (roundHalfEven x)) := by
  have hle : (0 : ℚ) ≤ x - ⌊x⌋ := sub_nonneg.mpr (Int.floor_le x)
  have hlt : x - ⌊x⌋ < 1 := by
    have h := Int.lt_floor_add_one x
    linarith
  unfold roundHalfEven
  split_ifs with h1 h2 h3
  · exact .inl ⟨h1, by linarith⟩
  · refine .inl ⟨?_, ?_⟩ <;> push_cast <;> linarith
  · have heq : x - ⌊x⌋ = 1 / 2 := le_antisymm (not_lt.mp h2) (not_lt.mp h1)
    exact .inr ⟨.inl heq, Int.even_iff.mpr h3⟩
  · have heq : x - ⌊x⌋ = 1 / 2 := le_antisymm (not_lt.mp h2) (not_lt.mp h1)
    refine .inr ⟨.inr ?_, ?_⟩
    · push_cast
      linarith
    · rw [Int.even_add_one, Int.even_iff]
      exact h3

theorem roundHalfEven_eq_iff : roundHalfEven x = n ↔ (x - n < 1 / 2 ∧ -(1 / 2) < x - n) ∨
    ((x - n = 1 / 2 ∨ x - n = -(1 / 2)) ∧ Even n) := by
  constructor
  · rintro rfl
    exact roundHalfEven_spec x
  · intro h
    have hspec := roundHalfEven_spec x
    have hupper : (n : ℚ) - roundHalfEven x ≤ 1 := by
      rcases h with h | ⟨h | h, -⟩ <;> rcases hspec with h' | ⟨h' | h', -⟩ <;> linarith
    have hlower : -1 ≤ (n : ℚ) - roundHalfEven x := by
      rcases h with h | ⟨h | h, -⟩ <;> rcases hspec with h' | ⟨h' | h', -⟩ <;> linarith
    have hupper' : n - roundHalfEven x ≤ 1 := by exact_mod_cast hupper
    have hlower' : -1 ≤ n - roundHalfEven x := by exact_mod_cast hlower
    by_contra hne
    -- two different nearest integers are both even, but neighbours
    have hone : n = roundHalfEven x + 1 ∨ n = roundHalfEven x - 1 := by omega
    have hcast : (n : ℚ) = roundHalfEven x + 1 ∨ (n : ℚ) = roundHalfEven x - 1 := by
      exact_mod_cast hone
    have hboth : Even n ∧ Even (roundHalfEven x) := by
      rcases h with h | ⟨h, hn⟩
      · exfalso
        rcases hspec with h' | ⟨h' | h', -⟩ <;> rcases hcast with hc | hc <;> linarith
      · rcases hspec with h' | ⟨-, hr⟩
        · exfalso
          rcases h with h | h <;> rcases hcast with hc | hc <;> linarith
        · exact ⟨hn, hr⟩
    obtain ⟨⟨k, hk⟩, l, hl⟩ := hboth
    omega

theorem isHalfway_iff : IsHalfway x ↔ x - roundHalfEven x = 1 / 2 ∨ x - roundHalfEven x = -(1 / 2) := by
  have hle : (0 : ℚ) ≤ x - ⌊x⌋ := sub_nonneg.mpr (Int.floor_le x)
  unfold IsHalfway
  rcases roundHalfEven_cases x with ⟨h, -⟩ | ⟨h, -⟩
  · rw [h]
    refine ⟨.inl, fun hhalf => hhalf.resolve_right fun hneg => ?_⟩
    linarith
  · have hlt := Int.lt_floor_add_one x
    rw [h]
    push_cast
    refine ⟨fun hhalf => .inr (by linarith), fun hhalf => ?_⟩
    rcases hhalf with hhalf | hhalf <;> linarith

/-- Rounding commutes with taking away from an integer, but halfway only if that is even. -/
theorem roundHalfEven_sub_iff (n : ℤ) (x : ℚ) :
    roundHalfEven (n - x) = n - roundHalfEven x ↔ (IsHalfway x → Even n) := by
  rw [roundHalfEven_eq_iff, isHalfway_iff]
  push_cast
  have hflip : (n : ℚ) - x - (n - roundHalfEven x) = -(x - roundHalfEven x) := by ring
  rw [hflip]
  rcases roundHalfEven_spec x with ⟨hupper, hlower⟩ | ⟨hhalf, heven⟩
  · refine iff_of_true (.inl ⟨by linarith, by linarith⟩) fun h => ?_
    rcases h with h | h <;> linarith
  · rw [imp_iff_right hhalf]
    constructor
    · rintro (⟨hupper, hlower⟩ | ⟨-, hsub⟩)
      · exfalso
        rcases hhalf with h | h <;> linarith
      · rw [Int.even_sub] at hsub
        exact hsub.mpr heven
    · intro hn
      refine .inr ⟨?_, hn.sub heven⟩
      rcases hhalf with h | h
      · exact .inr (by linarith)
      · exact .inl (by linarith)

/-- A number from zero to an integer rounds to the same. -/
theorem roundHalfEven_le_intCast (h : x ≤ n) : roundHalfEven x ≤ n := by
  rw [← roundHalfEven_intCast n]
  exact roundHalfEven_mono h

theorem intCast_le_roundHalfEven (h : (n : ℚ) ≤ x) : n ≤ roundHalfEven x := by
  rw [← roundHalfEven_intCast n]
  exact roundHalfEven_mono h

theorem roundHalfEven_eq_zero_iff : roundHalfEven x = 0 ↔ -(1 / 2) ≤ x ∧ x ≤ 1 / 2 := by
  rw [roundHalfEven_eq_iff]
  push_cast
  rw [sub_zero]
  constructor
  · rintro (⟨h, h'⟩ | ⟨h | h, -⟩) <;> constructor <;> linarith
  · rintro ⟨h, h'⟩
    rcases h.eq_or_lt with heq | hlt
    · exact .inr ⟨.inr heq.symm, Even.zero⟩
    · rcases h'.eq_or_lt with heq | hlt'
      · exact .inr ⟨.inl heq, Even.zero⟩
      · exact .inl ⟨hlt', hlt⟩

/-- Up to an even number is up to half over it. -/
theorem roundHalfEven_le_iff_of_even (hn : Even n) : roundHalfEven x ≤ n ↔ x ≤ n + 1 / 2 := by
  constructor
  · intro h
    have hcast : (roundHalfEven x : ℚ) ≤ n := by exact_mod_cast h
    have hspec := roundHalfEven_spec x
    rcases hspec with ⟨hupper, -⟩ | ⟨hhalf | hhalf, -⟩ <;> linarith
  · intro h
    have hhalf : roundHalfEven (n + 1 / 2) = n := by
      refine roundHalfEven_eq_iff.mpr (.inr ⟨.inl ?_, hn⟩)
      ring
    rw [← hhalf]
    exact roundHalfEven_mono h

/-- What a rounded difference, at most the integer it is taken from, leaves of that integer. -/
theorem roundHalfEven_eq_sub_min_iff (n : ℤ) (x : ℚ) :
    roundHalfEven x = n - min (roundHalfEven (n - x)) n ↔
      -(1 / 2) ≤ x ∧ (IsHalfway x → 0 ≤ x → Even n) := by
  rcases le_or_gt 0 x with hx | hx
  · have hle : roundHalfEven (n - x) ≤ n := roundHalfEven_le_intCast (by linarith)
    have hhalf : -(1 / 2) ≤ x := by linarith
    rw [min_eq_left hle, and_iff_right hhalf]
    have hsub : roundHalfEven x = n - roundHalfEven (n - x) ↔
        roundHalfEven (n - x) = n - roundHalfEven x := by
      constructor <;> intro h <;> omega
    rw [hsub, roundHalfEven_sub_iff]
    constructor
    · exact fun h hhalfway _ => h hhalfway
    · exact fun h hhalfway => h hhalfway hx
  · have hle : n ≤ roundHalfEven (n - x) := intCast_le_roundHalfEven (by linarith)
    rw [min_eq_right hle, sub_self, roundHalfEven_eq_zero_iff]
    constructor
    · rintro ⟨hlow, -⟩
      exact ⟨hlow, fun _ hnonneg => absurd hnonneg (not_le.mpr hx)⟩
    · rintro ⟨hlow, -⟩
      exact ⟨hlow, by linarith⟩

/-! ### Decimals -/

theorem Decimal.toRat_mul_pow (d : Decimal p) : d.toRat * 10 ^ p = d.units := by
  unfold Decimal.toRat
  field_simp

theorem quantize_min_toRat (x : ℚ) (d : Decimal p) :
    quantize p (min x d.toRat) = ⟨min (roundHalfEven (x * 10 ^ p)) d.units⟩ := by
  unfold quantize
  rw [min_mul_of_nonneg _ _ (by positivity), d.toRat_mul_pow]
  rcases le_total (x * 10 ^ p) (d.units : ℚ) with h | h
  · rw [min_eq_left h, min_eq_left (roundHalfEven_le_intCast h)]
  · rw [min_eq_right h, min_eq_right (intCast_le_roundHalfEven h), roundHalfEven_intCast]

/-- Rounding twice is rounding once. -/
theorem roundHalfEven_rounded (x : ℚ) : roundHalfEven (rounded p x * 10 ^ p) = roundHalfEven (x * 10 ^ p) := by
  rw [rounded, Decimal.toRat_mul_pow, roundHalfEven_intCast]
  rfl

/-! ### Rounding half away from zero -/

theorem roundHalfAway_eq_iff (h : 0 ≤ x) : roundHalfAway x = n ↔ x - n < 1 / 2 ∧ -(1 / 2) ≤ x - n := by
  unfold roundHalfAway
  rw [if_pos h, Int.floor_eq_iff]
  constructor <;> rintro ⟨h1, h2⟩ <;> constructor <;> linarith

/-- The two ways differ halfway over an even number. -/
theorem roundHalfAway_eq_roundHalfEven_iff (h : 0 ≤ x) :
    roundHalfAway x = roundHalfEven x ↔ (IsHalfway x → ¬Even ⌊x⌋) := by
  rw [roundHalfAway_eq_iff h]
  unfold IsHalfway
  have hspec := roundHalfEven_spec x
  rcases roundHalfEven_cases x with ⟨heq, -⟩ | ⟨heq, -⟩
  · rw [heq] at hspec ⊢
    constructor
    · rintro ⟨hlt, -⟩ hhalf
      linarith
    · intro hnot
      rcases hspec with ⟨hupper, hlower⟩ | ⟨hhalf | hhalf, heven⟩
      · exact ⟨hupper, hlower.le⟩
      · exact absurd heven (hnot hhalf)
      · have hle := Int.floor_le x
        linarith
  · rw [heq] at hspec ⊢
    push_cast at hspec ⊢
    have hlt := Int.lt_floor_add_one x
    constructor
    · intro _ hhalf heven
      rcases hspec with ⟨hupper, hlower⟩ | ⟨-, heven'⟩
      · linarith
      · exact (Int.even_add_one.mp heven') heven
    · intro _
      rcases hspec with ⟨hupper, hlower⟩ | ⟨hhalf | hhalf, -⟩
      · exact ⟨hupper, hlower.le⟩
      · linarith
      · exact ⟨by linarith, hhalf.ge⟩

end FixedPoint

import Mathlib.Data.Nat.Notation
import Mathlib.Data.Int.Notation

/-!
# Numerals

How integers are read from strings: decimal digits of any script, an optional sign, single underscores
between digits and white space around.
-/

namespace MitxOnline

/-- `str.isspace` of a character. -/
def isSpace (c : Char) : Bool :=
  let n := c.toNat
  (9 ≤ n && n ≤ 13) || (28 ≤ n && n ≤ 32) || n == 0x85 || n == 0xA0 || n == 0x1680 ||
    (0x2000 ≤ n && n ≤ 0x200A) || n == 0x2028 || n == 0x2029 || n == 0x202F || n == 0x205F ||
    n == 0x3000

/-- `str.strip` -/
def strip (s : List Char) : List Char :=
  ((s.dropWhile isSpace).reverse.dropWhile isSpace).reverse

/-- The code points of the zeros of the decimal digits (category `Nd`); the other digits of a script
follow its zero. -/
def decimalZeros : List ℕ :=
  [0x30, 0x660, 0x6F0, 0x7C0, 0x966, 0x9E6, 0xA66, 0xAE6, 0xB66, 0xBE6, 0xC66, 0xCE6, 0xD66, 0xDE6,
    0xE50, 0xED0, 0xF20, 0x1040, 0x1090, 0x17E0, 0x1810, 0x1946, 0x19D0, 0x1A80, 0x1A90, 0x1B50,
    0x1BB0, 0x1C40, 0x1C50, 0xA620, 0xA8D0, 0xA900, 0xA9D0, 0xA9F0, 0xAA50, 0xABF0, 0xFF10, 0x104A0,
    0x10D30, 0x11066, 0x110F0, 0x11136, 0x111D0, 0x112F0, 0x11450, 0x114D0, 0x11650, 0x116C0,
    0x11730, 0x118E0, 0x11950, 0x11C50, 0x11D50, 0x11DA0, 0x11F50, 0x16A60, 0x16AC0, 0x16B50,
    0x1D7CE, 0x1D7D8, 0x1D7E2, 0x1D7EC, 0x1D7F6, 0x1E140, 0x1E2F0, 0x1E4F0, 0x1E950, 0x1FBF0]

/-- The value of a decimal digit. -/
def digitValue (c : Char) : Option ℕ :=
  (decimalZeros.find? fun first => first ≤ c.toNat && c.toNat < first + 10).map (c.toNat - ·)

/-- The rest of a decimal numeral; single underscores may stand between digits. -/
def readDigits (value : ℕ) : List Char → Option ℕ
  | [] => some value
  | c :: rest =>
    match digitValue c with
    | some d => readDigits (10 * value + d) rest
    | none =>
      match c, rest with
      | '_', c' :: rest =>
        match digitValue c' with
        | some d => readDigits (10 * value + d) rest
        | none => none
      | _, _ => none

/-- A decimal numeral. -/
def readNumeral : List Char → Option ℕ
  | [] => none
  | c :: rest =>
    match digitValue c with
    | some d => readDigits d rest
    | none => none

/-- `int` of a string; `none` is a `ValueError`. -/
def readInt (s : String) : Option ℤ :=
  match strip s.toList with
  | '-' :: rest => (readNumeral rest).map fun n => -(n : ℤ)
  | '+' :: rest => (readNumeral rest).map Int.ofNat
  | numeral => (readNumeral numeral).map Int.ofNat

end MitxOnline

/-
# Classes of characters

The character classes on which the rest of the library agrees. Text that comes from source files may
hold any script, so the classes are those of the whole character set: ASCII is decided directly and
the rest by tables of code points at which membership switches.

* blank: what trimming removes and what separates words;
* line boundary: what ends a line of a source file;
* word character: letters, digits, other numbers and the underscore;
* printable: what a quoted text shows as itself;
* decimal digit, with its value, in every script.
-/

import CodeSurvey.Text.CharacterRuns

namespace CodeSurvey
namespace Text

/-- Membership of the code point `n` in a class given by its switches: an odd number of them lies at
or below `n`. -/
def inRuns (switches : Array Nat) (n : Nat) : Bool :=
  switches.foldl (fun inside s => if s ≤ n then !inside else inside) false

/-- White space, the four information separators U+001C to U+001F included. -/
def isBlank (c : Char) : Bool :=
  let n := c.toNat
  (9 ≤ n && n ≤ 13) || (28 ≤ n && n ≤ 32) || n == 0x85 || n == 0xA0 || n == 0x1680 ||
    (0x2000 ≤ n && n ≤ 0x200A) || n == 0x2028 || n == 0x2029 || n == 0x202F || n == 0x205F ||
    n == 0x3000

/-- A character that ends a line; carriage return and line feed in sequence
end one line together. -/
def isLineEnd (c : Char) : Bool :=
  let n := c.toNat
  (10 ≤ n && n ≤ 13) || (28 ≤ n && n ≤ 30) || n == 0x85 || n == 0x2028 || n == 0x2029

/-- An ASCII letter in lower case. -/
def isLowerAscii (c : Char) : Bool := 'a' ≤ c && c ≤ 'z'

/-- An ASCII letter in upper case. -/
def isUpperAscii (c : Char) : Bool := 'A' ≤ c && c ≤ 'Z'

/-- An ASCII decimal digit. -/
def isDigitAscii (c : Char) : Bool := '0' ≤ c && c ≤ '9'

/-- An ASCII letter or digit. -/
def isAlphanumericAscii (c : Char) : Bool := isLowerAscii c || isUpperAscii c || isDigitAscii c

/-- A letter, digit or other number of any script, or the underscore. -/
def isWord (c : Char) : Bool :=
  if c.toNat < 128 then isAlphanumericAscii c || c == '_' else inRuns wordRuns c.toNat

/-- A character that a quoted text shows as itself. -/
def isPrintable (c : Char) : Bool :=
  if c.toNat < 128 then 32 ≤ c.toNat && c.toNat < 127 else inRuns printableRuns c.toNat

/-- The value of a decimal digit of any script. -/
def digitValue? (c : Char) : Option Nat :=
  if c.toNat < 128 then if isDigitAscii c then some (c.toNat - 48) else none
  else (digitZeros.find? fun z => z ≤ c.toNat && c.toNat ≤ z + 9).map (c.toNat - ·)

/-- Every line end is blank. -/
theorem isBlank_of_isLineEnd {c : Char} (h : isLineEnd c) : isBlank c := by
  simp only [isLineEnd, isBlank, Bool.or_eq_true, Bool.and_eq_true, decide_eq_true_eq,
    beq_iff_eq] at *
  omega

/-- Every ASCII letter or digit is a word character. -/
theorem isWord_of_isAlphanumericAscii {c : Char} (h : isAlphanumericAscii c) : isWord c := by
  unfold isWord
  split
  · simp [h]
  · rename_i hc
    simp only [isAlphanumericAscii, isLowerAscii, isUpperAscii, isDigitAscii, Bool.or_eq_true,
      Bool.and_eq_true, decide_eq_true_eq, Char.le_def, UInt32.le_iff_toNat_le] at h
    have : c.toNat = c.val.toNat := rfl
    simp only [show 'a'.val.toNat = 97 from rfl, show 'z'.val.toNat = 122 from rfl,
      show 'A'.val.toNat = 65 from rfl, show 'Z'.val.toNat = 90 from rfl,
      show '0'.val.toNat = 48 from rfl, show '9'.val.toNat = 57 from rfl] at h
    omega

end Text
end CodeSurvey

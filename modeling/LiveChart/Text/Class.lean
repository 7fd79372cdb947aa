/-!
# Classes of characters

Which characters are blank, which are decimal digits and of what value, and the lower case that
matters when a word is compared with an ASCII one.

* `isBlank` : white space;
* `digit?` : the value of a decimal digit of any script;
* `digit?_ascii` : an ASCII digit has its own value.
-/

namespace LiveChart.Text

/-! ## Blanks -/

/-- White space: the ASCII blanks and separators, and the space characters beyond them. -/
def isBlank (c : Char) : Bool :=
  let n := c.toNat
  (9 ≤ n && n ≤ 13) || (28 ≤ n && n ≤ 32) || n == 0x85 || n == 0xa0 || n == 0x1680 ||
    (0x2000 ≤ n && n ≤ 0x200a) || n == 0x2028 || n == 0x2029 || n == 0x202f || n == 0x205f ||
    n == 0x3000

/-- The characters between leading and trailing blanks. -/
def strip (blank : Char → Bool) (cs : List Char) : List Char :=
  ((cs.dropWhile blank).reverse.dropWhile blank).reverse

/-- A text without its leading and trailing blanks. -/
def trim (s : String) : String := String.ofList (strip isBlank s.toList)

/-! ## Decimal digits -/

/-- The zeros of the decimal digits of every script, each followed by its nine others. -/
def digitZeros : List Nat :=
  [
    0x30, 0x660, 0x6f0, 0x7c0, 0x966, 0x9e6, 0xa66, 0xae6, 0xb66, 0xbe6, 0xc66, 0xce6, 0xd66,
    0xde6, 0xe50, 0xed0, 0xf20, 0x1040, 0x1090, 0x17e0, 0x1810, 0x1946, 0x19d0, 0x1a80, 0x1a90,
    0x1b50, 0x1bb0, 0x1c40, 0x1c50, 0xa620, 0xa8d0, 0xa900, 0xa9d0, 0xa9f0, 0xaa50, 0xabf0,
    0xff10, 0x104a0, 0x10d30, 0x11066, 0x110f0, 0x11136, 0x111d0, 0x112f0, 0x11450, 0x114d0,
    0x11650, 0x116c0, 0x11730, 0x118e0, 0x11950, 0x11c50, 0x11d50, 0x11da0, 0x16a60, 0x16ac0,
    0x16b50, 0x1d7ce, 0x1d7d8, 0x1d7e2, 0x1d7ec, 0x1d7f6, 0x1e140, 0x1e2f0, 0x1e950, 0x1fbf0
  ]

/-- The value of a decimal digit of any script. -/
def digit? (c : Char) : Option Nat :=
  (digitZeros.find? fun first => first ≤ c.toNat && c.toNat < first + 10).map (c.toNat - ·)

/-- The value of an ASCII digit. -/
def asciiDigit? (c : Char) : Option Nat :=
  if 48 ≤ c.toNat && c.toNat < 58 then some (c.toNat - 48) else none

/-- An ASCII digit has its own value. -/
theorem digit?_ascii {c : Char} {d : Nat} (h : asciiDigit? c = some d) : digit? c = some d := by
  unfold asciiDigit? at h
  split at h
  · rename_i hc
    unfold digit? digitZeros
    rw [List.find?_cons_of_pos (by simpa using hc)]
    exact h
  · exact absurd h (by simp)

/-- The text of a natural number in decimal digits. -/
def decimal (n : Nat) : List Char := Nat.toDigits 10 n

/-- The text of a natural number in at least `width` decimal digits. -/
def paddedDecimal (width n : Nat) : List Char :=
  List.replicate (width - (decimal n).length) '0' ++ decimal n

/-! ## Lower case -/

/-- The lower case of a character, as far as a comparison with ASCII words can tell: the letters
`A` to `Z`, and the Kelvin sign, whose lower case is the letter `k`. -/
def lower (c : Char) : Char := if c.toNat = 0x212a then 'k' else c.toLower

/-- The lower case of a text, as far as a comparison with ASCII words can tell. -/
def lowercase (s : String) : String := String.ofList (s.toList.map lower)

end LiveChart.Text

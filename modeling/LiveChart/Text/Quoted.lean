import LiveChart.Text.Printable
/-!
# Quoted text

A text is quoted between apostrophes, or between double quotes if it holds an apostrophe and no
double quote.  The quote, the backslash and the unprintable characters are escaped.

* `quote` : the quoted form of a text;
* `quoteBytes` and `quoteByteArray` : the quoted forms of a byte string and of a byte array.
-/

namespace LiveChart.Text

/-- The quote that a text is put between. -/
def quoteMark (cs : List Char) : Char := if cs.contains '\'' && !cs.contains '"' then '"' else '\''

/-- A number in at least `width` hexadecimal digits. -/
def paddedHex (width n : Nat) : List Char :=
  let ds := Nat.toDigits 16 n
  List.replicate (width - ds.length) '0' ++ ds

/-- An unprintable character by its number. -/
def escapeNumber (n : Nat) : List Char :=
  if n < 0x100 then '\\' :: 'x' :: paddedHex 2 n
  else if n < 0x10000 then '\\' :: 'u' :: paddedHex 4 n
  else '\\' :: 'U' :: paddedHex 8 n

/-- A character between two marks. -/
def escape (mark c : Char) : List Char :=
  if c = mark || c = '\\' then ['\\', c]
  else if c = '\t' then ['\\', 't']
  else if c = '\n' then ['\\', 'n']
  else if c = '\r' then ['\\', 'r']
  else if isPrintable c then [c]
  else escapeNumber c.toNat

/-- A text between quotes. -/
def quote (s : String) : String :=
  let cs := s.toList
  let mark := quoteMark cs
  String.ofList (mark :: cs.flatMap (escape mark) ++ [mark])

/-- A byte between two marks; the bytes beyond ASCII are written by their number. -/
def escapeByte (mark : Char) (b : UInt8) : List Char :=
  if b < 127 then escape mark (Char.ofNat b.toNat) else escapeNumber b.toNat

/-- The quote that a byte string is put between. -/
def bytesMark (bs : List UInt8) : Char := quoteMark (bs.map fun b => Char.ofNat b.toNat)

/-- A byte string between quotes. -/
def quoteBytes (bs : List UInt8) : String :=
  let mark := bytesMark bs
  String.ofList ('b' :: mark :: bs.flatMap (escapeByte mark) ++ [mark])

/-- The bytes of a byte array between quotes; an apostrophe is escaped between either quotes. -/
def quoteByteArray (bs : List UInt8) : String :=
  let mark := bytesMark bs
  String.ofList ('b' :: mark :: bs.flatMap (escapeByte '\'') ++ [mark])

end LiveChart.Text

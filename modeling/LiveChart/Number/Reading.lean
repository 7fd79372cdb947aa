import LiveChart.Number.Double
import LiveChart.Text.Class
/-!
# Reading numbers

Numbers are read from text with surrounding blanks, an optional sign, digits of any script, and
single underscores between digits.

* `readInt?` : a whole number of at most 4300 digits;
* `readDouble?` : a decimal number with an optional exponent, an infinity or not-a-number.
-/

namespace LiveChart

open Text

/-! ## The characters of a number -/

/-- Blanks that may surround a number: white space other than the four ASCII separators. -/
def isNumberBlank (c : Char) : Bool := isBlank c && !(28 ≤ c.toNat && c.toNat ≤ 31)

/-- A text ready to be read: blanks are gone from its ends and its digits are ASCII. -/
def plainNumber (s : String) : List Char :=
  (strip isNumberBlank s.toList).map fun c =>
    match digit? c with
    | some d => Char.ofNat (48 + d)
    | none => c

/-- An ASCII digit. -/
def isAsciiDigit (c : Char) : Bool := (asciiDigit? c).isSome

/-- The characters without their underscores; absent if one does not stand between two digits. -/
def dropUnderscores : List Char → Option (List Char)
  | [] => some []
  | '_' :: _ => none
  | c :: '_' :: d :: rest =>
    if isAsciiDigit c && isAsciiDigit d then (dropUnderscores (d :: rest)).map (c :: ·) else none
  | c :: rest => (dropUnderscores rest).map (c :: ·)

/-- The number that a list of ASCII digits spells. -/
def digitsValue (ds : List Char) : Nat :=
  ds.foldl (fun n c => 10 * n + (c.toNat - 48)) 0

/-- A leading sign, and the rest. -/
def splitSign : List Char → Bool × List Char
  | '-' :: rest => (true, rest)
  | '+' :: rest => (false, rest)
  | cs => (false, cs)

/-! ## Whole numbers -/

/-- The most digits of a whole number that is read. -/
def maxIntDigits : Nat := 4300

/-- A whole number from prepared characters. -/
def intOfChars? (cs : List Char) : Option Int := do
  let (negative, rest) := splitSign cs
  let ds ← dropUnderscores rest
  if ds.isEmpty || !ds.all isAsciiDigit || maxIntDigits < ds.length then none
  else
    let n : Int := digitsValue ds
    some (if negative then -n else n)

/-- A whole number from a text. -/
def readInt? (s : String) : Option Int := intOfChars? (plainNumber s)

/-! ## Decimal numbers -/

/-- The double nearest to `digits * 10 ^ exponent`.  Past 400 places to either side of the point the
answer is an infinity or a zero, whatever the digits. -/
def ofScientific (negative : Bool) (digits : Nat) (exponent : Int) : Double :=
  let top : Int := (decimal digits).length + exponent
  if digits = 0 || top < -400 then .finite negative 0 binary64.fits_zero
  else if 400 < top then .infinite negative
  else
    Double.ofRatio negative (digits * 10 ^ exponent.toNat * one) (10 ^ (-exponent).toNat)

/-- An exponent mark with its digits, or nothing. -/
def exponentOfChars? : List Char → Option Int
  | [] => some 0
  | c :: rest =>
    if c == 'e' || c == 'E' then
      let (negative, ds) := splitSign rest
      if ds.isEmpty || !ds.all isAsciiDigit then none
      else some (if negative then -(digitsValue ds : Int) else digitsValue ds)
    else none

/-- An unsigned decimal number: digits, a point with more digits, an exponent. -/
def magnitudeOfChars? (negative : Bool) (cs : List Char) : Option Double := do
  let whole := cs.takeWhile isAsciiDigit
  let afterWhole := cs.dropWhile isAsciiDigit
  let (fraction, tail) := match afterWhole with
    | '.' :: rest => (rest.takeWhile isAsciiDigit, rest.dropWhile isAsciiDigit)
    | rest => ([], rest)
  if whole.isEmpty && fraction.isEmpty then none
  else
    let e ← exponentOfChars? tail
    some (ofScientific negative (digitsValue (whole ++ fraction)) (e - fraction.length))

/-- A number from prepared characters. -/
def doubleOfChars? (cs : List Char) : Option Double := do
  let (negative, rest) := splitSign (← dropUnderscores cs)
  let word := String.ofList (rest.map Char.toLower)
  if word == "inf" || word == "infinity" then some (.infinite negative)
  else if word == "nan" then some .nan
  else magnitudeOfChars? negative rest

/-- A number from a text. -/
def readDouble? (s : String) : Option Double := doubleOfChars? (plainNumber s)

/-! ## Numbers in bytes -/

/-- The ASCII characters of a byte string; absent if a byte is beyond ASCII. -/
def asciiOfBytes? (bs : List UInt8) : Option String :=
  if bs.all (· < 128) then some (String.ofList (bs.map fun b => Char.ofNat b.toNat)) else none

end LiveChart

import LiveChart.Text.Quoted
import Mathlib.Data.List.FinRange
/-!
# Quoted bytes can be read back

The quoted form of a byte is a character, or a backslash and a letter, or a backslash, an x and two
hexadecimal digits.  So it can be told where it ends, and byte arrays with one quoted form have the
same bytes.

* `readByte` : the byte that a quoted form begins with, and what comes after it;
* `readByte_escapeByte` : the quoted form of a byte is read, whatever follows;
* `quoteByteArray_injective` : the quoted form of a byte array tells its bytes.
-/

namespace LiveChart.Text

/-- The number of a hexadecimal digit. -/
def hexDigit (c : Char) : ℕ := if c.toNat < 58 then c.toNat - 48 else c.toNat - 87

/-- The byte that a quoted form begins with, and what comes after it. -/
def readByte : List Char → ℕ × List Char
  | [] => (0, [])
  | c :: rest =>
    if c ≠ '\\' then (c.toNat, rest)
    else
      match rest with
      | [] => (0, [])
      | c :: rest =>
        if c = 'x' then
          match rest with
          | high :: low :: rest => (16 * hexDigit high + hexDigit low, rest)
          | _ => (0, [])
        else
          (if c = 't' then 9 else if c = 'n' then 10 else if c = 'r' then 13 else c.toNat, rest)

/-- Whether a text has one of the three forms that a quoted byte can have. -/
def isByteCode : List Char → Bool
  | [c] => c ≠ '\\'
  | [c, d] => c = '\\' && d ≠ 'x'
  | [c, d, _, _] => c = '\\' && d = 'x'
  | _ => false

/-- What is read of the form of a quoted byte is read of it whatever follows. -/
theorem readByte_append {code : List Char} (h : isByteCode code = true) (rest : List Char) :
    readByte (code ++ rest) = ((readByte code).1, rest) := by
  rcases code with - | ⟨c, - | ⟨d, - | ⟨high, - | ⟨low, - | _⟩⟩⟩⟩
  · cases h
  · have hc : c ≠ '\\' := by simpa [isByteCode] using h
    simp [readByte, hc]
  · obtain ⟨rfl, hd⟩ : c = '\\' ∧ d ≠ 'x' := by simpa [isByteCode] using h
    simp [readByte, hd]
  · cases h
  · obtain ⟨rfl, rfl⟩ : c = '\\' ∧ d = 'x' := by simpa [isByteCode] using h
    simp [readByte]
  · cases h

/-- The quoted form of every byte has one of the three forms, and the byte is read of it. -/
theorem isByteCode_escapeByte (b : UInt8) :
    isByteCode (escapeByte '\'' b) = true ∧ (readByte (escapeByte '\'' b)).1 = b.toNat := by
  have hall : ∀ n : Fin 256, isByteCode (escapeByte '\'' (.ofNat n)) = true ∧
      (readByte (escapeByte '\'' (.ofNat n))).1 = n := by decide +kernel
  have hb := hall ⟨b.toNat, b.toNat_lt⟩
  rwa [UInt8.ofNat_toNat] at hb

/-- **The quoted form of a byte is read, whatever follows it.** -/
theorem readByte_escapeByte (b : UInt8) (rest : List Char) :
    readByte (escapeByte '\'' b ++ rest) = (b.toNat, rest) := by
  obtain ⟨hcode, hbyte⟩ := isByteCode_escapeByte b
  rw [readByte_append hcode, hbyte]

/-- The quoted forms of some bytes, one after another, tell the bytes. -/
theorem flatMap_escapeByte_injective :
    Function.Injective fun bs : List UInt8 => bs.flatMap (escapeByte '\'') := by
  have hne : ∀ b, escapeByte '\'' b ≠ [] := by
    intro b hb
    have hcode := (isByteCode_escapeByte b).1
    rw [hb] at hcode
    cases hcode
  intro bs
  induction bs with
  | nil =>
    intro cs h
    cases cs with
    | nil => rfl
    | cons c cs => exact absurd (List.append_eq_nil_iff.1 h.symm).1 (hne c)
  | cons b bs ih =>
    intro cs h
    cases cs with
    | nil => exact absurd (List.append_eq_nil_iff.1 h).1 (hne b)
    | cons c cs =>
      have hread := congrArg readByte h
      dsimp only at hread
      rw [List.flatMap_cons, List.flatMap_cons, readByte_escapeByte, readByte_escapeByte] at hread
      obtain ⟨hbyte, hrest⟩ := Prod.mk.inj hread
      rw [UInt8.toNat_inj.1 hbyte, ih hrest]

/-- **The quoted form of a byte array tells its bytes.** -/
theorem quoteByteArray_injective : Function.Injective quoteByteArray := by
  intro bs cs h
  have hchars := String.ofList_injective h
  rw [List.cons_append, List.cons_append, List.cons_append, List.cons_append] at hchars
  obtain ⟨hmark, hbytes⟩ := List.cons.inj (List.cons.inj hchars).2
  rw [hmark] at hbytes
  exact flatMap_escapeByte_injective (List.append_cancel_right hbytes)

end LiveChart.Text

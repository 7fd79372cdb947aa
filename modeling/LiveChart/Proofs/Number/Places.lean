import LiveChart.Number.Layout
import LiveChart.Proofs.Time.IsoText
/-!
# Layouts of fixed places

A point, a number in decimal digits and the letter `f` are the layout of that many places, unless
they are more than a layout can have.

* `Layout.readNumber_decimal` : a number is read off its digits;
* `Layout.ofChars?_places` : the layout of a number of places.
-/

namespace LiveChart.Layout

open Text

/-- A decimal digit has its value. -/
theorem digit?_of_isDigit {c : Char} (h : c.isDigit = true) : digit? c = some (c.toNat - 48) := by
  have hdigit := Iso.isDigit_of_isDigit h
  unfold Iso.isDigit at hdigit
  obtain ⟨d, hd⟩ := Option.isSome_iff_exists.1 hdigit
  rw [digit?_ascii hd, ← hd]
  unfold asciiDigit? at hd ⊢
  split_ifs at hd ⊢
  rfl

/-- Digits are folded to the number that they spell. -/
theorem foldl_digits {cs : List Char} (h : ∀ c ∈ cs, c.isDigit = true) (n : ℕ) :
    cs.foldl (fun n c => 10 * n + (digit? c).getD 0) n = Nat.ofDigitChars 10 cs n := by
  induction cs generalizing n with
  | nil => rfl
  | cons c cs ih =>
    obtain ⟨hc, hcs⟩ := List.forall_mem_cons.1 h
    rw [List.foldl_cons, ih hcs, digit?_of_isDigit hc]
    rfl

/-- The digits of a number. -/
theorem isDigit_of_mem_decimal {n : ℕ} {c : Char} (h : c ∈ decimal n) : c.isDigit = true :=
  Nat.isDigit_of_mem_toDigits (by decide) (by decide) h

/-- **A number is read off its digits**, up to a letter. -/
theorem readNumber_decimal (n : ℕ) : readNumber (decimal n ++ ['f']) = (some n, ['f']) := by
  have hdigits : ((decimal n ++ ['f']).takeWhile fun c => (digit? c).isSome) = decimal n := by
    rw [List.takeWhile_append_of_pos fun c hc => by
      rw [digit?_of_isDigit (isDigit_of_mem_decimal hc)]
      rfl]
    exact List.append_nil _
  have hnumber : (decimal n).foldl (fun n c => 10 * n + (digit? c).getD 0) 0 = n := by
    rw [foldl_digits (fun _ => isDigit_of_mem_decimal)]
    exact Nat.ofDigitChars_ten_toDigits
  have hne : (decimal n).isEmpty = false := by
    rw [List.isEmpty_eq_false_iff]
    exact List.ne_nil_of_length_pos Nat.length_toDigits_pos
  unfold readNumber
  rw [hdigits]
  dsimp only
  rw [hnumber, hne, List.drop_left]
  rfl

/-- A digit is no alignment. -/
theorem alignmentOf?_of_isDigit {c : Char} (h : c.isDigit = true) : alignmentOf? c = none := by
  unfold alignmentOf?
  split
  · cases h
  · cases h
  · cases h
  · cases h
  · rfl

/-- **A number of places has a layout**, unless it is too great. -/
theorem ofChars?_places (n : ℕ) :
    ofChars? ('.' :: (decimal n ++ ['f']))
      = if n ≤ maxPlaces then some { places := n } else none := by
  obtain ⟨c, cs, hcs⟩ : ∃ c cs, decimal n = c :: cs :=
    List.exists_cons_of_ne_nil (List.ne_nil_of_length_pos Nat.length_toDigits_pos)
  have hmem : c ∈ decimal n := by
    rw [hcs]
    exact List.mem_cons_self
  -- the point is no fill, since what follows it is no alignment
  have halign : readAlignment {} ('.' :: (decimal n ++ ['f']))
      = ({}, '.' :: (decimal n ++ ['f'])) := by
    rw [hcs]
    simp only [List.cons_append, readAlignment,
      alignmentOf?_of_isDigit (isDigit_of_mem_decimal hmem)]
    rfl
  unfold ofChars?
  rw [halign]
  show readPlaces? {} ('.' :: (decimal n ++ ['f'])) = _
  rw [readPlaces?, readNumber_decimal]
  rfl

end LiveChart.Layout

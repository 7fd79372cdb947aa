import LiveChart.Chart.Config
/-!
# Spellings of option names

The name of an option is in snake case: words of small letters with an underscore between them.  In
camel case the underscores are dropped, and every word but the first begins with a capital.  A key
is read as the name in snake case of the same words, so both spellings of a name are read alike.

* `isSnakeName` : whether a text is a name in snake case;
* `camelCase` : a name in camel case;
* `snakeCase_camelCase` and `snakeCase_of_isSnakeName` : the name is read back from either spelling;
* `ConfigKind.isSnakeName_of_mem_options` : every option has a name in snake case;
* `Spelling` : one of the two spellings, and `Spelling.snakeCase_write` for both at once.
-/

namespace LiveChart

/-! ## Letters -/

/-- The small letters. -/
def smallLetters : List Char := "abcdefghijklmnopqrstuvwxyz".toList

/-- What a test finds of all small letters holds of each. -/
theorem of_all_smallLetters {p : Char → Prop} [DecidablePred p]
    (h : smallLetters.all (fun c => decide (p c)) = true) : ∀ c ∈ smallLetters, p c :=
  fun c hc => of_decide_eq_true (List.all_eq_true.1 h c hc)

/-- A small letter is its own lower case. -/
theorem lower_of_mem_smallLetters : ∀ c ∈ smallLetters, Text.lower c = c :=
  of_all_smallLetters (by decide)

/-- A small letter is the lower case of its capital. -/
theorem lower_toUpper : ∀ c ∈ smallLetters, Text.lower c.toUpper = c :=
  of_all_smallLetters (by decide)

/-- The capital of a small letter begins a word. -/
theorem isCapital_toUpper : ∀ c ∈ smallLetters, 'A' ≤ c.toUpper ∧ c.toUpper ≤ 'Z' :=
  of_all_smallLetters (by decide)

/-- A small letter begins no word. -/
theorem not_isCapital : ∀ c ∈ smallLetters, ¬('A' ≤ c ∧ c ≤ 'Z') :=
  of_all_smallLetters (by decide)

/-- The underscore is no small letter. -/
theorem underscore_notMem_smallLetters : '_' ∉ smallLetters := by decide

/-! ## Snake case -/

/-- Whether characters are small letters, and underscores that stand before one. -/
def isSnakeTail : List Char → Bool
  | '_' :: c :: rest => c ∈ smallLetters && isSnakeTail rest
  | c :: rest => c ∈ smallLetters && isSnakeTail rest
  | [] => true

/-- Whether a text is a name in snake case: it begins with a small letter and goes on as one. -/
def isSnakeName (s : String) : Bool :=
  match s.toList with
  | c :: rest => c ∈ smallLetters && isSnakeTail rest
  | [] => false

/-- Every option of every kind of configuration has a name in snake case. -/
theorem ConfigKind.isSnakeName_of_mem_options (k : ConfigKind) :
    ∀ name ∈ k.options, isSnakeName name = true := by
  refine List.all_eq_true.1 ?_
  cases k <;> decide

/-- What `snakeChars` makes of a character behind the first. -/
def snakeChar (d : Char) : List Char :=
  if 'A' ≤ d && d ≤ 'Z' then ['_', Text.lower d] else [Text.lower d]

/-- A small letter is left as it is. -/
theorem snakeChar_small {c : Char} (h : c ∈ smallLetters) : snakeChar c = [c] := by
  have hnot := not_isCapital c h
  rw [snakeChar, if_neg (by simpa using hnot), lower_of_mem_smallLetters c h]

/-- The capital of a small letter becomes that letter behind an underscore. -/
theorem snakeChar_toUpper {c : Char} (h : c ∈ smallLetters) : snakeChar c.toUpper = ['_', c] := by
  have hcapital := isCapital_toUpper c h
  rw [snakeChar, if_pos (by simpa using hcapital), lower_toUpper c h]

/-- The characters of a word that begins with a small letter. -/
theorem snakeChars_cons {c : Char} (h : c ∈ smallLetters) (rest : List Char) :
    snakeChars (c :: rest) = c :: rest.flatMap snakeChar := by
  rw [snakeChars, lower_of_mem_smallLetters c h]
  rfl

/-- Snake case is left as it is. -/
theorem flatMap_snakeChar {cs : List Char} (h : isSnakeTail cs = true) :
    cs.flatMap snakeChar = cs := by
  fun_induction isSnakeTail cs with
  | case1 c rest ih =>
    obtain ⟨hc, hrest⟩ : c ∈ smallLetters ∧ isSnakeTail rest = true := by simpa using h
    rw [List.flatMap_cons, List.flatMap_cons, snakeChar_small hc, ih hrest]
    rfl
  | case2 c rest _ ih =>
    obtain ⟨hc, hrest⟩ : c ∈ smallLetters ∧ isSnakeTail rest = true := by simpa using h
    rw [List.flatMap_cons, snakeChar_small hc, ih hrest]
    rfl
  | case3 => rfl

/-! ## Camel case -/

/-- The characters of a name in camel case. -/
def camelChars : List Char → List Char
  | '_' :: c :: rest => c.toUpper :: camelChars rest
  | c :: rest => c :: camelChars rest
  | [] => []

/-- A name in camel case. -/
def camelCase (s : String) : String := String.ofList (camelChars s.toList)

/-- Snake case is read back from camel case. -/
theorem flatMap_snakeChar_camelChars {cs : List Char} (h : isSnakeTail cs = true) :
    (camelChars cs).flatMap snakeChar = cs := by
  fun_induction camelChars cs with
  | case1 c rest ih =>
    obtain ⟨hc, hrest⟩ : c ∈ smallLetters ∧ isSnakeTail rest = true := by
      simpa [isSnakeTail] using h
    rw [List.flatMap_cons, snakeChar_toUpper hc, ih hrest]
    rfl
  | case2 c rest hne ih =>
    rw [isSnakeTail.eq_2 c rest hne] at h
    obtain ⟨hc, hrest⟩ : c ∈ smallLetters ∧ isSnakeTail rest = true := by simpa using h
    rw [List.flatMap_cons, snakeChar_small hc, ih hrest]
    rfl
  | case3 => rfl

/-- A name is a small letter and what goes on behind it. -/
theorem exists_cons_of_isSnakeName {s : String} (h : isSnakeName s = true) :
    ∃ c rest, s.toList = c :: rest ∧ c ∈ smallLetters ∧ isSnakeTail rest = true := by
  unfold isSnakeName at h
  split at h
  · rename_i c rest hs
    obtain ⟨hc, hrest⟩ : c ∈ smallLetters ∧ isSnakeTail rest = true := by simpa using h
    exact ⟨c, rest, hs, hc, hrest⟩
  · cases h

/-- A name in snake case is read as itself. -/
theorem snakeCase_of_isSnakeName {s : String} (h : isSnakeName s = true) : snakeCase s = s := by
  obtain ⟨c, rest, hs, hc, htail⟩ := exists_cons_of_isSnakeName h
  rw [snakeCase, hs, snakeChars_cons hc, flatMap_snakeChar htail, ← hs, String.ofList_toList]

/-- A name in camel case is read as the name in snake case. -/
theorem snakeCase_camelCase {s : String} (h : isSnakeName s = true) :
    snakeCase (camelCase s) = s := by
  obtain ⟨c, rest, hs, hc, htail⟩ := exists_cons_of_isSnakeName h
  have hcamel : camelChars (c :: rest) = c :: camelChars rest := by
    refine camelChars.eq_2 c rest fun d more hd _ => ?_
    exact underscore_notMem_smallLetters (hd ▸ hc)
  rw [snakeCase, camelCase, String.toList_ofList, hs, hcamel, snakeChars_cons hc,
    flatMap_snakeChar_camelChars htail, ← hs, String.ofList_toList]

example : camelCase "y_tick_label" = "yTickLabel" ∧ snakeCase "yTickLabel" = "y_tick_label" := by
  decide

/-! ## Spellings -/

/-- A way to spell the name of an option. -/
inductive Spelling where
  | snake | camel
  deriving DecidableEq, Repr

/-- A name in a spelling. -/
def Spelling.write : Spelling → String → String
  | .snake, name => name
  | .camel, name => camelCase name

/-- A name is read back from both spellings. -/
theorem Spelling.snakeCase_write (spelling : Spelling) {name : String}
    (h : isSnakeName name = true) : snakeCase (spelling.write name) = name := by
  cases spelling with
  | snake => exact snakeCase_of_isSnakeName h
  | camel => exact snakeCase_camelCase h

end LiveChart

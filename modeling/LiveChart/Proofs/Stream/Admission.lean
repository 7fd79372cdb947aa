import LiveChart.Proofs.Chart.Decoding
import LiveChart.Proofs.Chart.Mistakes
import LiveChart.Proofs.Chart.Omission
import LiveChart.Proofs.Chart.Settings
import LiveChart.Proofs.Chart.SharedOptions
/-!
# The policies that are admitted

A policy can be given in four ways: by named arguments, by a mapping, in a configuration, and as an
override of what a controller finds in its specification.  Each way reads other values, but all of
them end in the same checks.  What passes them is described here by the values that were given,
without mention of the checks.

* `Value.WholePart` and `Value.IsDelay` : the numbers that values give for a capacity in a mapping
  and for a throttle;
* `Policy.Obeys` : a policy with the mode and the throttle that values give;
* `Policy.ofValues_eq_ok_iff` : the values that make a policy;
* `BaseConfig.Asks` and `Setup.Decides` : the policies of a configuration and of a controller;
* `policies_admitted` : the policies that are admitted in each of these ways.
-/

namespace LiveChart

/-! ## Whole numbers in mappings -/

/-- A double without a fraction is its own whole part. -/
theorem Double.trunc?_of_whole? {x : Double} {n : ℤ} (h : x.whole? = some n) :
    x.trunc? = some n := by
  cases x with
  | finite negative u hu =>
    rw [whole?] at h
    split at h
    · cases negative <;> exact h
    · cases h
  | infinite negative => cases h
  | nan => cases h

/-- The whole number that a value comes to: itself, or the whole part of a number with a fraction.
A truth value is a number here, and a text or a byte string is read. -/
inductive Value.WholePart : Value → ℤ → Prop where
  | int (n : ℤ) : WholePart (.int n) n
  | fixedInt (w : IntWidth) (n : ℤ) : WholePart (.scalar (.fixedInt w n)) n
  | bool (b : Bool) : WholePart (.bool b) (boolInt b)
  | flag (b : Bool) : WholePart (.scalar (.flag b)) (boolInt b)
  | double {x : Double} {n : ℤ} (h : x.whole? = some n) : WholePart (.double x) n
  | fraction {x : Double} {n : ℤ} (hx : x.whole? = none) (h : x.trunc? = some n) :
    WholePart (.double x) n
  | fixed (w : FloatWidth) {x : Double} {n : ℤ} (h : x.whole? = some n) :
    WholePart (.scalar (.fixedFloat w x)) n
  | fixedFraction (w : FloatWidth) {x : Double} {n : ℤ} (hx : x.whole? = none)
    (h : x.trunc? = some n) : WholePart (.scalar (.fixedFloat w x)) n
  | text {s : String} {n : ℤ} (h : readInt? s = some n) : WholePart (.text s) n
  | bytes {bs : List UInt8} {n : ℤ} (h : (asciiOfBytes? bs).bind readInt? = some n) :
    WholePart (.scalar (.bytes bs)) n
  | byteArray {bs : List UInt8} {n : ℤ} (h : (asciiOfBytes? bs).bind readInt? = some n) :
    WholePart (.scalar (.byteArray bs)) n
  | tick {t : Tick} {n : ℤ} (hspan : t.isCalendar = false) (h : t.count = some n) :
    WholePart (.scalar (.tick t)) n

namespace Value

/-- What is found is given, and else it fails. -/
theorem found_of_eq_ok {found : Option ℤ} {f : Fault} {n : ℤ}
    (h : (match found with | some m => .ok m | none => fail f : Result ℤ) = .ok n) :
    found = some n := by
  cases found with
  | none => cases h
  | some m => exact congrArg some (Except.ok.inj h)

/-- A double is read as its whole part. -/
theorem doubleToInt_eq_ok_iff {x : Double} {n : ℤ} :
    doubleToInt x = .ok n ↔ x.trunc? = some n := by
  unfold doubleToInt
  constructor
  · exact found_of_eq_ok
  · intro h
    rw [h]

/-- A double comes to its whole part, with a fraction or without one. -/
theorem wholePart_real {v : Value} {x : Double} {n : ℤ} (h : doubleToInt x = .ok n)
    (hwhole : x.whole? = some n → v.WholePart n)
    (hfraction : x.whole? = none → x.trunc? = some n → v.WholePart n) : v.WholePart n := by
  have htrunc := doubleToInt_eq_ok_iff.1 h
  cases hx : x.whole? with
  | none => exact hfraction hx htrunc
  | some m =>
    obtain rfl : m = n := Option.some.inj ((Double.trunc?_of_whole? hx).symm.trans htrunc)
    exact hwhole hx

/-- The whole number of a tick is its count, unless it counts months or years. -/
theorem toInt_tick_eq_ok_iff {t : Tick} {n : ℤ} :
    (scalar (.tick t)).toInt = .ok n ↔ t.isCalendar = false ∧ t.count = some n := by
  unfold toInt
  dsimp only
  cases t.count with
  | none => exact ⟨fun h => (nomatch h), fun h => (nomatch h.2)⟩
  | some m =>
    dsimp only
    cases t.isCalendar with
    | true => exact ⟨fun h => (nomatch h), fun h => (nomatch h.1)⟩
    | false =>
      constructor
      · intro h
        exact ⟨rfl, congrArg some (Except.ok.inj h)⟩
      · rintro ⟨-, h⟩
        exact congrArg Except.ok (Option.some.inj h)

/-- **The whole number that is read** is the one that a value comes to. -/
theorem toInt_eq_ok_iff {v : Value} {n : ℤ} : v.toInt = .ok n ↔ v.WholePart n := by
  constructor
  · intro h
    cases v with
    | scalar s =>
      cases s with
      | int m => exact Except.ok.inj h ▸ .int m
      | fixedInt w m => exact Except.ok.inj h ▸ .fixedInt w m
      | bool b => exact Except.ok.inj h ▸ .bool b
      | flag b => exact Except.ok.inj h ▸ .flag b
      | double x => exact wholePart_real h .double .fraction
      | fixedFloat w x => exact wholePart_real h (.fixed w) (.fixedFraction w)
      | text t => exact .text (found_of_eq_ok h)
      | bytes bs => exact .bytes (found_of_eq_ok h)
      | byteArray bs => exact .byteArray (found_of_eq_ok h)
      | tick t =>
        obtain ⟨hspan, hcount⟩ := toInt_tick_eq_ok_iff.1 h
        exact .tick hspan hcount
      | null | day | moment | duration | object => cases h
    | list | tuple | set | dict | array => cases h
  · intro h
    cases h with
    | int n => rfl
    | fixedInt w n => rfl
    | bool b => rfl
    | flag b => rfl
    | double h => exact doubleToInt_eq_ok_iff.2 (Double.trunc?_of_whole? h)
    | fraction hx h => exact doubleToInt_eq_ok_iff.2 h
    | fixed w h => exact doubleToInt_eq_ok_iff.2 (Double.trunc?_of_whole? h)
    | fixedFraction w hx h => exact doubleToInt_eq_ok_iff.2 h
    | text h | bytes h | byteArray h =>
      unfold toInt
      dsimp only
      rw [h]
    | tick hspan h => exact toInt_tick_eq_ok_iff.2 ⟨hspan, h⟩

end Value

/-! ## Modes and throttles -/

/-- The milliseconds that a value stands for: none, those of a duration, or a number. -/
inductive Value.IsDelay : Value → Double → Prop where
  | none : IsDelay .null .zero
  | duration (d : Duration) : IsDelay (.scalar (.duration d)) (Policy.millisOf d)
  | number {v : Value} {x : Double} (h : v.toDouble = .ok x) : IsDelay v x

/-- A double is at least zero, or it is no number at all. -/
theorem Double.lt_zero_eq_false_iff {x : Double} :
    x.lt .zero = false ↔ x.isNaN = true ∨ Double.zero.le x = true := by
  cases hx : x.isNaN with
  | false => simpa [hx] using not_lt hx rfl
  | true =>
    cases x with
    | nan => exact iff_of_true rfl (.inl rfl)
    | finite => cases hx
    | infinite => cases hx

/-- A value that is a word can be compared with words. -/
theorem Value.hasTruth_of_word? {v : Value} {s : String} (h : v.word? = some s) :
    v.hasTruth = true := by
  cases v with
  | array element items =>
    unfold word? at h
    dsimp only at h
    split at h
    · next hleaves =>
      rw [hasTruth, hleaves]
      rfl
    · cases h
  | scalar | list | tuple | set | dict => rfl

namespace Policy

/-- The milliseconds of a value, before they are checked. -/
def delayOf (v : Value) : Result Double :=
  match v with
  | .null => .ok .zero
  | .scalar (.duration d) => .ok (millisOf d)
  | v => v.toDouble

/-- The milliseconds of a value are those that it stands for. -/
theorem delayOf_eq_ok_iff {v : Value} {x : Double} : delayOf v = .ok x ↔ v.IsDelay x := by
  constructor
  · intro h
    unfold delayOf at h
    split at h
    · exact Except.ok.inj h ▸ .none
    · exact Except.ok.inj h ▸ .duration _
    · exact .number h
  · intro h
    cases h with
    | none => rfl
    | duration d => rfl
    | number h =>
      unfold delayOf
      split
      · cases h
      · cases h
      · exact h

/-- The throttle is read and then checked. -/
theorem throttleOf_eq (v : Value) : throttleOf v =
    delayOf v >>= fun millis => if millis.lt .zero then .error (.throttle v) else .ok millis := by
  cases v with
  | scalar s => cases s <;> rfl
  | list | tuple | set | dict | array => rfl

/-- **The throttle that is taken** is what a value stands for, unless this is below zero. -/
theorem throttleOf_eq_ok_iff {v : Value} {x : Double} :
    throttleOf v = .ok x ↔ v.IsDelay x ∧ (x.isNaN = true ∨ Double.zero.le x = true) := by
  rw [throttleOf_eq, Result.bind_eq_ok, ← delayOf_eq_ok_iff, ← Double.lt_zero_eq_false_iff]
  constructor
  · rintro ⟨millis, hread, h⟩
    split at h
    · cases h
    · next hlt =>
      obtain rfl : millis = x := Except.ok.inj h
      exact ⟨hread, Bool.eq_false_iff.2 hlt⟩
  · rintro ⟨hread, hlt⟩
    exact ⟨x, hread, if_neg (Bool.eq_false_iff.1 hlt)⟩

/-- The first mode with a given word is the mode of that word. -/
theorem find?_word_eq_some_iff {word : Option String} {mode : StreamingMode} :
    StreamingMode.all.find? (fun m => word == some m.word) = some mode ↔
      word = some mode.word := by
  constructor
  · intro h
    simpa using List.find?_some h
  · rintro rfl
    cases mode <;> rfl

/-- **The mode that is taken** is the one whose word a value is. -/
theorem modeOf_eq_ok_iff {v : Value} {mode : StreamingMode} :
    modeOf v = .ok mode ↔ v.word? = some mode.word := by
  rw [modeOf]
  cases htruth : v.hasTruth with
  | false =>
    -- an array that cannot be compared fails, and has no word
    rw [Value.choose?_eq_fail htruth _ (by decide)]
    refine iff_of_false (fun h => nomatch h) fun h => ?_
    rw [Value.hasTruth_of_word? h] at htruth
    cases htruth
  | true =>
    rw [Value.choose?_eq htruth, ← find?_word_eq_some_iff]
    cases StreamingMode.all.find? fun m => v.word? == some m.word with
    | none => exact ⟨fun h => (nomatch h), fun h => (nomatch h)⟩
    | some m =>
      constructor
      · intro h
        exact congrArg some (Except.ok.inj h)
      · intro h
        exact congrArg Except.ok (Option.some.inj h)

/-- The mode and the throttle of a policy are those that values give, and the throttle is not below
zero. -/
structure Obeys (p : Policy) (mode throttle : Value) : Prop where
  mode : mode.word? = some p.mode.word
  throttle : throttle.IsDelay p.throttle
  nonneg : p.throttle.isNaN = true ∨ Double.zero.le p.throttle = true

/-- The capacity that is taken is a positive whole number as it stands. -/
theorem capacityOf_eq_ok_iff {v : Value} {c : { n : ℕ // 0 < n }} :
    capacityOf v = .ok c ↔ v = .int c.1 := by
  obtain ⟨capacity, hpos⟩ := c
  constructor
  · intro h
    unfold capacityOf at h
    split at h
    · next n =>
      split at h
      · next hn =>
        have hcapacity : n.toNat = capacity := congrArg Subtype.val (Except.ok.inj h)
        have heq : n = capacity := by omega
        rw [heq]
      · cases h
    · cases h
  · rintro rfl
    exact capacityOf_natCast hpos

/-- **The values that make a policy** are a positive whole number, the word for a mode, and a delay
that is not below zero. -/
theorem ofValues_eq_ok_iff {maxItems mode throttle : Value} {p : Policy} :
    ofValues maxItems mode throttle = .ok p ↔
      maxItems = .int p.capacity ∧ p.Obeys mode throttle := by
  constructor
  · intro h
    obtain ⟨⟨capacity, hpos⟩, hcapacity, h⟩ := Result.bind_eq_ok.1 h
    obtain ⟨m, hmode, h⟩ := Result.bind_eq_ok.1 h
    obtain ⟨millis, hmillis, h⟩ := Result.bind_eq_ok.1 h
    obtain rfl := Except.ok.inj h
    obtain ⟨hdelay, hnonneg⟩ := throttleOf_eq_ok_iff.1 hmillis
    exact ⟨capacityOf_eq_ok_iff.1 hcapacity, modeOf_eq_ok_iff.1 hmode, hdelay, hnonneg⟩
  · rintro ⟨hcapacity, hmode, hdelay, hnonneg⟩
    have hcapacity : capacityOf maxItems = .ok ⟨p.capacity, p.capacity_pos⟩ :=
      capacityOf_eq_ok_iff.2 hcapacity
    rw [ofValues, hcapacity, modeOf_eq_ok_iff.2 hmode, throttleOf_eq_ok_iff.2 ⟨hdelay, hnonneg⟩]
    rfl

/-! ## Named arguments and mappings -/

/-- A policy is made of named arguments. -/
structure MadeOf (p : Policy) (args : Arguments) : Prop where
  capacity : args.get "max_items" defaultMaxItems = .int p.capacity
  obeys : p.Obeys (args.get "mode" defaultMode) (args.get "throttle" defaultThrottle)

/-- Arguments make the policy that is made of them. -/
theorem ofArguments_eq_ok_iff {given : Value} {p : Policy} : ofArguments given = .ok p ↔
    ∃ args, Arguments.ofValue ["max_items", "mode", "throttle"] [] given = .ok args ∧
      p.MadeOf args := by
  rw [ofArguments, Result.bind_eq_ok]
  refine exists_congr fun args => and_congr_right fun _ => ?_
  rw [ofValues_eq_ok_iff]
  exact ⟨fun h => ⟨h.1, h.2⟩, fun h => ⟨h.capacity, h.obeys⟩⟩

/-- The number of items that a mapping asks for, under either of two names. -/
def itemsIn (entries : Entries Value) : Value :=
  ((Entries.field? "maxItems" entries).or (Entries.field? "max_items" entries)).getD
    defaultMaxItems

/-- A policy is read from the entries of a mapping.  Its capacity is the whole number that the
number of items comes to. -/
structure ReadFrom (p : Policy) (entries : Entries Value) : Prop where
  capacity : (itemsIn entries).WholePart p.capacity
  obeys : p.Obeys ((Entries.field? "mode" entries).getD defaultMode)
    ((Entries.field? "throttle" entries).getD defaultThrottle)

/-- A mapping gives its parts in turn. -/
theorem ofMapping_dict (entries : Entries Value) : ofMapping (.dict entries) =
    (itemsIn entries).toInt >>= fun maxItems => ofValues (.int maxItems)
      ((Entries.field? "mode" entries).getD defaultMode)
      ((Entries.field? "throttle" entries).getD defaultThrottle) := by
  unfold ofMapping itemsIn
  dsimp only [Value.member]
  cases Entries.field? "maxItems" entries <;> rfl

/-- A mapping gives the policy that is read from it. -/
theorem ofMapping_eq_ok_iff {given : Value} {p : Policy} : ofMapping given = .ok p ↔
    ∃ entries, given = .dict entries ∧ p.ReadFrom entries := by
  constructor
  · intro h
    cases given with
    | dict entries =>
      rw [ofMapping_dict] at h
      obtain ⟨n, hn, h⟩ := Result.bind_eq_ok.1 h
      obtain ⟨hcapacity, hobeys⟩ := ofValues_eq_ok_iff.1 h
      obtain rfl : n = p.capacity := by simpa using hcapacity
      exact ⟨entries, rfl, Value.toInt_eq_ok_iff.1 hn, hobeys⟩
    | scalar | list | tuple | set | array => cases h
  · rintro ⟨entries, rfl, hcapacity, hobeys⟩
    rw [ofMapping_dict, Value.toInt_eq_ok_iff.2 hcapacity]
    exact ofValues_eq_ok_iff.2 ⟨rfl, hobeys⟩

end Policy

/-! ## Configurations -/

/-- The policy that the options of a configuration ask for: that of the streaming option, else one
with the capacity of the shortcut, else the default. -/
inductive Policy.AskedBy (p : Policy) (streaming maxItems : Value) : Prop where
  | streaming {entries : Entries Value} (hgiven : streaming = .dict entries)
    (h : p.ReadFrom entries)
  | shortcut (hnone : streaming = .null) (hcapacity : maxItems = .int p.capacity)
    (hmode : p.mode = .append) (hthrottle : p.throttle = .zero)
  | default (hnone : streaming = .null) (hmax : maxItems = .null) (h : p = {})

/-- A configuration asks for a policy by two of its options.  The shortcut for the capacity is a
positive whole number if it is given, also where it is not used. -/
structure BaseConfig.Asks (c : BaseConfig) (streaming maxItems : Value) : Prop where
  policy : c.policy.AskedBy streaming maxItems
  shortcut : maxItems = .null ∨ ∃ n : ℕ, 0 < n ∧ maxItems = .int n

/-- A configuration whose shared options are read asks for its policy by two of them. -/
theorem BaseConfig.ReadFrom.asks {c : BaseConfig} {args : Arguments} (h : c.ReadFrom args) :
    c.Asks (args.get "streaming") (args.get "max_items") := by
  obtain ⟨colors, temporal, maxItems, streaming⟩ := c
  obtain ⟨-, -, hstreaming, hmax⟩ := h
  generalize args.get "streaming" = givenPolicy at hstreaming ⊢
  generalize args.get "max_items" = givenCapacity at hmax ⊢
  refine ⟨?policy, ?shortcut⟩
  case policy =>
    cases hstreaming with
    | given _ hread =>
      obtain ⟨entries, hentries, hread⟩ := Policy.ofMapping_eq_ok_iff.1 hread
      exact .streaming hentries hread
    | absent =>
      cases hmax with
      | absent => exact .default rfl rfl rfl
      | given _ hread => exact .shortcut rfl (Policy.capacityOf_eq_ok_iff.1 hread) rfl rfl
  case shortcut =>
    cases hmax with
    | absent => exact .inl rfl
    | @given v capacity _ hread =>
      exact .inr ⟨capacity.1, capacity.2, Policy.capacityOf_eq_ok_iff.1 hread⟩

/-! ## Options in mappings -/

/-- A key of a mapping spells an option. -/
def spells (name : String) : Value × Value → Bool
  | (.text key, _) => optionOfKey key == name
  | _ => false

/-- What a mapping gives for an option: the value under the last key that spells it. -/
def optionIn (name : String) (entries : Entries Value) : Value :=
  ((entries.findRev? (spells name)).map Prod.snd).getD .null

/-- An argument that is bound is found, and the others are as before. -/
theorem Arguments.get_bind (args : Arguments) (bound : String) (v : Value) (name : String) :
    (args.bind bound v).get name = if name = bound then v else args.get name := by
  rw [get, lookup_bind]
  split <;> rfl

/-- An option after one more entry is what the entry holds, if its key spells the option. -/
theorem get_collected {name key : String} {known : List String} (hname : name ∈ known) (v : Value)
    (args : Arguments) :
    (if known.contains (optionOfKey key) then args.bind (optionOfKey key) v else args).get name
      = if spells name (.text key, v) then v else args.get name := by
  by_cases hkey : optionOfKey key = name
  · have hspells : spells name (.text key, v) = true := beq_iff_eq.2 hkey
    have hknown : known.contains (optionOfKey key) = true := by simpa [hkey] using hname
    rw [if_pos hknown, if_pos hspells, Arguments.get_bind, if_pos hkey.symm]
  · have hspells : ¬spells name (.text key, v) = true := fun h => hkey (beq_iff_eq.1 h)
    rw [if_neg hspells]
    split
    · rw [Arguments.get_bind, if_neg (Ne.symm hkey)]
    · rfl

/-- An option that is collected from a mapping is what the last key that spells it holds, and is as
before if none does. -/
theorem get_collectOptions {name : String} {known : List String} (hname : name ∈ known)
    {entries : Entries Value} {args got : Arguments}
    (h : collectOptions known entries args = .ok got) :
    got.get name = ((entries.findRev? (spells name)).map Prod.snd).getD (args.get name) := by
  induction entries generalizing args with
  | nil =>
    obtain rfl : args = got := Except.ok.inj h
    rfl
  | cons entry rest ih =>
    obtain ⟨k, v⟩ := entry
    cases k with
    | scalar s =>
      cases s with
      | text key =>
        rw [ih h, List.findRev?, get_collected hname]
        -- an entry decides on the option only if no later one does
        cases rest.findRev? (spells name) with
        | some later => rfl
        | none => cases spells name (.text key, v) <;> rfl
      | _ => cases h
    | _ => cases h

/-- Every kind of configuration has the two options for its policy. -/
theorem ConfigKind.mem_options (kind : ConfigKind) :
    "streaming" ∈ kind.options ∧ "max_items" ∈ kind.options := by
  cases kind <;> decide

namespace Config

/-- A configuration that is made of named arguments asks for its policy by two of them. -/
theorem exists_asks_of_ofArguments {kind : ConfigKind} {given : Value} {c : Config}
    (h : ofArguments kind given = .ok c) :
    ∃ entries args, given = .dict entries ∧ Arguments.ofEntries entries = .ok args ∧
      c.base.Asks (args.get "streaming") (args.get "max_items") := by
  cases given with
  | dict entries =>
    obtain ⟨args, hargs, h⟩ := Result.bind_eq_ok.1 h
    exact ⟨entries, args, rfl, hargs, (readFrom_ofOptions kind args c h).asks⟩
  | scalar | list | tuple | set | array => cases h

/-- A configuration that is read from a mapping asks for its policy by two of its options, whatever
its family and the spelling of the keys. -/
theorem exists_asks_of_ofMapping {given : Value} {c : Config} (h : ofMapping given = .ok c) :
    ∃ entries, given = .dict entries ∧
      c.base.Asks (optionIn "streaming" entries) (optionIn "max_items" entries) := by
  obtain ⟨entries, family, args, hgiven, hargs, hread⟩ := exists_readFrom_of_ofMapping h
  obtain ⟨hstreaming, hmax⟩ := family.kind.mem_options
  have hasks := hread.asks
  rw [Arguments.get_bind, if_neg (by decide), Arguments.get_bind, if_neg (by decide),
    get_collectOptions hstreaming hargs, get_collectOptions hmax hargs] at hasks
  exact ⟨entries, hgiven, hasks⟩

end Config

/-! ## Controllers -/

/-- What decides on the policy of a controller: named arguments or a mapping that override it, or
the configuration that is compiled. -/
inductive Setup.Decides (s : Setup) (p : Policy) : Prop where
  | arguments (hgiven : s.policyFromArguments = true) (h : Policy.ofArguments s.policy = .ok p)
  | mapping (hgiven : s.policyFromArguments = false) (h : Policy.ofMapping s.policy = .ok p)
  | compiled (hgiven : s.policyFromArguments = false) (hnull : s.policy = .null) {c : Config}
    (hc : Config.ofMapping s.config = .ok c) (h : p = c.base.policy)

/-- No throttle that has been asked for is below zero. -/
theorem Policy.AskedBy.nonneg {p : Policy} {streaming maxItems : Value}
    (h : p.AskedBy streaming maxItems) :
    p.throttle.isNaN = true ∨ Double.zero.le p.throttle = true := by
  cases h with
  | streaming hgiven h => exact h.obeys.nonneg
  | shortcut hnone hcapacity hmode hthrottle =>
    rw [hthrottle]
    exact .inr rfl
  | default hnone hmax h =>
    rw [h]
    exact .inr rfl

/-- No throttle that has been decided on is below zero. -/
theorem Setup.Decides.nonneg {s : Setup} {p : Policy} (h : s.Decides p) :
    p.throttle.isNaN = true ∨ Double.zero.le p.throttle = true := by
  cases h with
  | arguments hgiven h =>
    obtain ⟨args, -, hmade⟩ := Policy.ofArguments_eq_ok_iff.1 h
    exact hmade.obeys.nonneg
  | mapping hgiven h =>
    obtain ⟨entries, -, hread⟩ := Policy.ofMapping_eq_ok_iff.1 h
    exact hread.obeys.nonneg
  | compiled hgiven hnull hc h =>
    obtain ⟨entries, -, hasks⟩ := Config.exists_asks_of_ofMapping hc
    rw [h]
    exact hasks.policy.nonneg

/-- The policy of a specification after an override has been decided on. -/
theorem Setup.decides_of_override {s : Setup} {given : Option Policy} {c : Config}
    {spec spec' : Spec} (hgiven : s.givenPolicy = .ok given)
    (hc : Config.ofMapping s.config = .ok c) (hspec : spec.streaming = c.base.policy)
    (h : s.override given spec = .ok spec') : s.Decides spec'.streaming := by
  unfold givenPolicy at hgiven
  split at hgiven
  · next harguments =>
    obtain ⟨p, hp, hgiven⟩ := Result.bind_eq_ok.1 hgiven
    obtain rfl := Except.ok.inj hgiven
    obtain rfl := Except.ok.inj h
    exact .arguments harguments hp
  · next hno =>
    have hno := Bool.eq_false_iff.2 hno
    obtain rfl := Except.ok.inj hgiven
    unfold override Controller.overridePolicy at h
    dsimp only at h
    split at h
    · next hnull =>
      obtain rfl := Except.ok.inj h
      exact .compiled hno hnull hc hspec
    · obtain ⟨p, hp, h⟩ := Result.bind_eq_ok.1 h
      obtain rfl := Except.ok.inj h
      exact .mapping hno hp
    · cases h

/-- A buffer takes a positive capacity. -/
theorem Buffer.ofValue_natCast {α : Type} {capacity : ℕ} (h : 0 < capacity) :
    ofValue (.int capacity) = .ok (empty capacity h : Buffer α) := by
  rw [ofValue, Policy.capacityOf_natCast h]
  rfl

/-- A notifier takes milliseconds that are not below zero. -/
theorem Notifier.ofValue_double {millis : Double} (h : millis.lt .zero = false)
    (cancellable : Bool) :
    ofValue (.double millis) cancellable = .ok (ofMillis millis cancellable) := by
  have hnegative : (Value.double millis).isNegative = .ok false := congrArg Except.ok h
  rw [ofValue, hnegative]
  rfl

/-- **The policy of a controller has been decided on**, and its buffer and its notifier are those
that take the numbers of the policy. -/
theorem Setup.decides_of_build {s : Setup} {lines : List Log.Line} {built : Controller}
    (h : s.build = (lines, .ok built)) :
    s.Decides built.spec.streaming ∧
      Buffer.ofValue (.int built.spec.streaming.capacity) = .ok built.buffer ∧
      Notifier.ofValue (.double built.spec.streaming.throttle) s.cancellable
        = .ok built.notifier := by
  obtain ⟨c, theme, spec, columns, given, spec', hc, hcompile, hgiven, hoverride, rfl⟩ :=
    exists_override_of_build h
  have hdecides : s.Decides spec'.streaming :=
    decides_of_override hgiven hc (Config.keeps_of_compile hcompile).streaming hoverride
  exact ⟨hdecides, Buffer.ofValue_natCast spec'.streaming.capacity_pos,
    Notifier.ofValue_double (Double.lt_zero_eq_false_iff.2 hdecides.nonneg) s.cancellable⟩

/-! ## Every way -/

/-- **The policies that are admitted**, in every way and for values of every kind.  Named arguments
and mappings make a policy just if they give a capacity, the word for a mode and a delay that is not
below zero, and it is the policy of these; anything else is an error.  A capacity is taken as it
stands from an argument or an option, and as a whole part from a mapping.  A configuration holds the
policy that its options ask for.  A controller is there only once its policy has been decided on in
one of these ways, and its buffer and its notifier are made of the numbers of that policy. -/
theorem policies_admitted (given : Value) (p : Policy) (kind : ConfigKind) (c : Config) (s : Setup)
    (lines : List Log.Line) (built : Controller) :
    (Policy.ofArguments given = .ok p ↔
      ∃ args, Arguments.ofValue ["max_items", "mode", "throttle"] [] given = .ok args ∧
        p.MadeOf args) ∧
    (Policy.ofMapping given = .ok p ↔ ∃ entries, given = .dict entries ∧ p.ReadFrom entries) ∧
    (Config.ofArguments kind given = .ok c →
      ∃ entries args, given = .dict entries ∧ Arguments.ofEntries entries = .ok args ∧
        c.base.Asks (args.get "streaming") (args.get "max_items")) ∧
    (Config.ofMapping given = .ok c → ∃ entries, given = .dict entries ∧
      c.base.Asks (optionIn "streaming" entries) (optionIn "max_items" entries)) ∧
    (s.build = (lines, .ok built) → s.Decides built.spec.streaming ∧
      Buffer.ofValue (.int built.spec.streaming.capacity) = .ok built.buffer ∧
      Notifier.ofValue (.double built.spec.streaming.throttle) s.cancellable
        = .ok built.notifier) := by
  refine ⟨Policy.ofArguments_eq_ok_iff, Policy.ofMapping_eq_ok_iff, ?config, ?message, ?controller⟩
  case config => exact Config.exists_asks_of_ofArguments
  case message => exact Config.exists_asks_of_ofMapping
  case controller => exact Setup.decides_of_build

/-- A table whose shortcut for the capacity gives way to the text in an override. -/
def countedTable : Setup :=
  { columns := .list [.dict [(.text "name", .text "v"), (.text "type", .text "int64")]]
    config := .dict [(.text "chartType", .text "table"), (.text "maxItems", .int 7)]
    policy := .dict [(.text "maxItems", .text "50"), (.text "mode", .text "replace")] }

/-- The configuration of the counted table asks for the shortcut, and its controller has the other
capacity. -/
theorem policies_admitted_countedTable :
    (∃ c, Config.ofMapping countedTable.config = .ok c ∧
      ∃ entries, countedTable.config = .dict entries ∧
        c.base.Asks (optionIn "streaming" entries) (optionIn "max_items" entries)) ∧
    ∃ lines built, countedTable.build = (lines, .ok built) ∧
      built.buffer.capacity = 50 ∧ countedTable.Decides built.spec.streaming := by
  obtain ⟨c, hc⟩ : ∃ c, Config.ofMapping countedTable.config = .ok c := ⟨_, rfl⟩
  obtain ⟨lines, built, hbuild, hcapacity⟩ : ∃ lines built,
      countedTable.build = (lines, .ok built) ∧ built.buffer.capacity = 50 := ⟨_, _, rfl, rfl⟩
  obtain ⟨-, -, -, hconfig, hcontroller⟩ :=
    policies_admitted countedTable.config {} .table c countedTable lines built
  exact ⟨⟨c, hc, hconfig hc⟩, lines, built, hbuild, hcapacity, (hcontroller hbuild).1⟩

/-- A mapping with a fraction of an item. -/
def fractionMapping : Value := .dict [(.text "maxItems", .double (.ofFraction 59 10))]

/-- A throttle that is no number is admitted, and so is a number of items with a fraction. -/
theorem policies_admitted_nan :
    (∃ p, Policy.ofArguments (.dict [(.text "throttle", .double .nan)]) = .ok p ∧
      Double.zero.le p.throttle = false) ∧
    (∃ p, Policy.ofMapping fractionMapping = .ok p ∧ p.capacity = 5) ∧
    (Double.ofFraction 59 10).whole? = none := by
  refine ⟨⟨_, rfl, rfl⟩, ?_, by decide +kernel⟩
  have hcapacity : ((Policy.ofMapping fractionMapping).toOption.map Policy.capacity) = some 5 := by
    decide +kernel
  cases hread : Policy.ofMapping fractionMapping with
  | error e =>
    rw [hread] at hcapacity
    cases hcapacity
  | ok p =>
    rw [hread] at hcapacity
    exact ⟨p, rfl, Option.some.inj hcapacity⟩

end LiveChart

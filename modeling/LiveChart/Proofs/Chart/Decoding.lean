import Mathlib.Data.List.Nodup
import Mathlib.Tactic.SplitIfs
import LiveChart.Chart.OptionHelp
import LiveChart.Proofs.Chart.Spelling
/-!
# Configurations in a mapping

A mapping gives a configuration as its named options do.  Which of the two spellings a key is in
does not matter, nor do the order of the keys, the key that names the family, and the keys that
spell no option: only the last binding of every option is seen, and the family is bound last.

* `Arguments.Same` : arguments that agree on every name, and `Config.ofOptions_congr` for them;
* `lookup_collectOptions_of_mem` and `lookup_collectOptions_of_forall` : what is collected under a
  name;
* `Message` : a mapping by its parts, with `Message.option_of_mem_fields` for its keys;
* `Config.ofMapping_message` : a mapping gives the configuration of its options;
* `collectOptions_of_mem_optionHelp` : no key that is explained is passed over.
-/

namespace LiveChart

/-! ## Arguments that agree -/

namespace Arguments

/-- A name is found where the first argument has it, else among the others. -/
theorem lookup_cons (name other : String) (v : Value) (args : Arguments) :
    List.lookup name ((other, v) :: args) =
      if name = other then some v else List.lookup name args := by
  rw [List.lookup_cons]
  by_cases hname : name = other
  · rw [if_pos hname, beq_iff_eq.2 hname]
  · rw [if_neg hname, beq_eq_false_iff_ne.2 hname]

/-- A bound name is found, and the others are as before. -/
theorem lookup_bind (args : Arguments) (bound : String) (v : Value) (name : String) :
    List.lookup name (args.bind bound v) =
      if name = bound then some v else List.lookup name args := by
  rw [bind, lookup_cons]
  refine ite_congr rfl (fun _ => rfl) fun hname => ?_
  induction args with
  | nil => rfl
  | cons arg rest ih =>
    obtain ⟨other, w⟩ := arg
    by_cases hother : other = bound
    · have hne : name ≠ other := fun h => hname (h.trans hother)
      rw [List.filter_cons_of_neg (by simpa using hother), ih, lookup_cons, if_neg hne]
    · rw [List.filter_cons_of_pos (by simpa using hother), lookup_cons, lookup_cons, ih]

/-- What a name is looked up as is an argument. -/
theorem mem_of_lookup {args : Arguments} {name : String} {v : Value}
    (h : List.lookup name args = some v) : (name, v) ∈ args := by
  obtain ⟨front, back, hsplit, -⟩ := List.lookup_eq_some_iff.1 h
  rw [hsplit]
  exact List.mem_append_right front List.mem_cons_self

/-- The name of an argument is found. -/
theorem exists_lookup_of_mem {args : Arguments} {arg : String × Value} (h : arg ∈ args) :
    ∃ v, List.lookup arg.1 args = some v :=
  Option.isSome_iff_exists.1 (List.lookup_isSome_iff.2 ⟨arg, h, beq_self_eq_true _⟩)

/-- An argument that is the only one of its name is found. -/
theorem lookup_of_mem {args : Arguments} {name : String} {v : Value} (hmem : (name, v) ∈ args)
    (honly : ∀ w, (name, w) ∈ args → w = v) : List.lookup name args = some v := by
  obtain ⟨w, hw⟩ := exists_lookup_of_mem hmem
  rw [hw, honly w (mem_of_lookup hw)]

/-- A name that no argument has is not found. -/
theorem lookup_of_forall_notMem {args : Arguments} {name : String}
    (h : ∀ w, (name, w) ∉ args) : List.lookup name args = none := by
  refine List.lookup_eq_none_iff.2 fun arg harg => ?_
  have hne : name ≠ arg.1 := fun heq => h arg.2 (heq ▸ harg)
  simpa using hne

/-- Arguments are the same where they agree on every name. -/
def Same (args args' : Arguments) : Prop := ∀ name, List.lookup name args = List.lookup name args'

/-- The same arguments have the same values. -/
theorem Same.get_eq {args args' : Arguments} (h : Same args args') (name : String)
    (default : Value) : args.get name default = args'.get name default := by
  rw [get, get, h name]

/-- The same arguments are known together. -/
theorem Same.all_known {args args' : Arguments} (h : Same args args') {known : List String}
    (hall : ∀ arg ∈ args, arg.1 ∈ known) : ∀ arg ∈ args', arg.1 ∈ known := by
  intro arg harg
  obtain ⟨v, hv⟩ := exists_lookup_of_mem harg
  exact hall (arg.1, v) (mem_of_lookup ((h arg.1).trans hv))

/-- Sameness of arguments is symmetric. -/
theorem Same.symm {args args' : Arguments} (h : Same args args') : Same args' args :=
  fun name => (h name).symm

/-- Where no argument is needed, arguments pass just if all of them are known. -/
theorem checked_nil (known : List String) (args : Arguments) :
    checked known [] args = if ∀ arg ∈ args, arg.1 ∈ known then .ok args else fail .type := by
  rw [checked]
  exact if_congr (by simp [List.all_eq_true]) rfl rfl

end Arguments

/-! ## Configurations see arguments by name -/

namespace Config

variable {args args' : Arguments}

/-- A configuration of a family depends on the values of its arguments only. -/
theorem ofFamily_congr (h : args.Same args') (family : Family) :
    ofFamily family args = ofFamily family args' := by
  have hget := h.get_eq
  cases family <;>
    simp only [ofFamily, Family.kind, TimeSeriesConfig.ofOptions, BarConfig.ofOptions,
      SingleValueConfig.ofOptions, TableConfig.ofOptions, GeoConfig.ofOptions,
      PriceConfig.ofOptions, BaseConfig.ofOptions, hget]

/-- The same arguments give the same configuration of a kind, or the same error. -/
theorem ofOptions_congr (h : args.Same args') (kind : ConfigKind) :
    ofOptions kind args = ofOptions kind args' := by
  rw [ofOptions, ofOptions, Arguments.checked_nil, Arguments.checked_nil]
  by_cases hall : ∀ arg ∈ args, arg.1 ∈ kind.options
  · rw [if_pos hall, if_pos (h.all_known hall)]
    simp only [bind, Except.bind, h.get_eq, ofFamily_congr h]
  · rw [if_neg hall, if_neg fun hall' => hall (h.symm.all_known hall')]

end Config

/-! ## Entries under names -/

/-- Named values as the entries of a dictionary. -/
def Entries.ofNamed (fields : List (String × Value)) : Entries Value :=
  fields.map fun (name, v) => (.text name, v)

/-- What the entries hold under a name is what the name is looked up as. -/
theorem Entries.field?_ofNamed (name : String) (fields : List (String × Value)) :
    Entries.field? name (ofNamed fields) = List.lookup name fields := by
  induction fields with
  | nil => rfl
  | cons field rest ih =>
    obtain ⟨key, v⟩ := field
    rw [Arguments.lookup_cons, ← ih]
    by_cases hkey : key = name
    · rw [if_pos hkey.symm]
      exact if_pos hkey
    · rw [if_neg (Ne.symm hkey)]
      exact if_neg hkey

/-! ## Options collected from entries -/

section Collect

variable {known : List String} {fields : List (String × Value)} {args got : Arguments}

/-- The first field is bound where it spells an option, and the others are collected after it. -/
theorem collectOptions_cons (key : String) (v : Value) (fields : List (String × Value))
    (args : Arguments) :
    collectOptions known (Entries.ofNamed ((key, v) :: fields)) args =
      collectOptions known (Entries.ofNamed fields)
        (if optionOfKey key ∈ known then args.bind (optionOfKey key) v else args) := by
  rw [Entries.ofNamed, List.map_cons, collectOptions, Entries.ofNamed]
  simp

/-- Named entries are collected without fail. -/
theorem exists_collectOptions (known : List String) (fields : List (String × Value))
    (args : Arguments) :
    ∃ got, collectOptions known (Entries.ofNamed fields) args = .ok got := by
  induction fields generalizing args with
  | nil => exact ⟨args, rfl⟩
  | cons field rest ih =>
    rw [collectOptions_cons]
    exact ih _

/-- A name that is no option, or that no key spells, is left as it is. -/
theorem lookup_collectOptions_of_forall {name : String}
    (hnone : ∀ field ∈ fields, optionOfKey field.1 = name → name ∉ known)
    (hgot : collectOptions known (Entries.ofNamed fields) args = .ok got) :
    List.lookup name got = List.lookup name args := by
  induction fields generalizing args with
  | nil =>
    obtain rfl : args = got := Except.ok.inj hgot
    rfl
  | cons field rest ih =>
    obtain ⟨key, v⟩ := field
    rw [collectOptions_cons] at hgot
    rw [ih (fun field hfield => hnone field (List.mem_cons_of_mem _ hfield)) hgot]
    split_ifs with hknown
    · have hne : name ≠ optionOfKey key := by
        rintro rfl
        exact hnone (key, v) List.mem_cons_self rfl hknown
      rw [Arguments.lookup_bind, if_neg hne]
    · rfl

/-- An option is found with the value of the keys that spell it, if that is one value. -/
theorem lookup_collectOptions_of_mem {name : String} {v : Value} (hname : name ∈ known)
    (hspelled : ∃ key, (key, v) ∈ fields ∧ optionOfKey key = name)
    (honly : ∀ field ∈ fields, optionOfKey field.1 = name → field.2 = v)
    (hgot : collectOptions known (Entries.ofNamed fields) args = .ok got) :
    List.lookup name got = some v := by
  induction fields generalizing args with
  | nil =>
    obtain ⟨key, hkey, -⟩ := hspelled
    exact absurd hkey List.not_mem_nil
  | cons field rest ih =>
    obtain ⟨key, w⟩ := field
    rw [collectOptions_cons] at hgot
    have honly' : ∀ field ∈ rest, optionOfKey field.1 = name → field.2 = v :=
      fun field hfield => honly field (List.mem_cons_of_mem _ hfield)
    -- The last key that spells the option decides: it is among the rest, or it is this one.
    by_cases hrest : ∃ field ∈ rest, optionOfKey field.1 = name
    · obtain ⟨field, hfield, hspells⟩ := hrest
      have hv : field.2 = v := honly' field hfield hspells
      exact ih ⟨field.1, hv ▸ hfield, hspells⟩ honly' hgot
    · have hrest' : ∀ field ∈ rest, optionOfKey field.1 = name → name ∉ known :=
        fun field hfield hspells => absurd ⟨field, hfield, hspells⟩ hrest
      obtain ⟨key', hkey', hspells⟩ := hspelled
      obtain heq | hmem := List.mem_cons.1 hkey'
      · obtain ⟨rfl, rfl⟩ := Prod.mk.inj heq
        rw [lookup_collectOptions_of_forall hrest' hgot, hspells, if_pos hname,
          Arguments.lookup_bind, if_pos rfl]
      · exact absurd ⟨_, hmem, hspells⟩ hrest

end Collect

/-! ## The keys of a message -/

/-- The keys under which a mapping names the family of its chart. -/
def familyTags : List String := ["chartType", "family", "chart_type"]

/-- The options of a family besides its name. -/
def Family.options (f : Family) : List String := f.kind.options.filter (· != "chart_type")

/-- The options of a family are options of its kind, other than the name of the family. -/
theorem Family.mem_options {f : Family} {name : String} :
    name ∈ f.options ↔ name ∈ f.kind.options ∧ name ≠ "chart_type" := by
  simp [options]

/-- A family tag stands for the name of the family. -/
theorem optionOfKey_of_mem_familyTags : ∀ key ∈ familyTags, optionOfKey key = "chart_type" := by
  decide

/-- A key that is no family tag stands for the name that it spells. -/
theorem optionOfKey_of_notMem {key : String} (h : key ∉ familyTags) :
    optionOfKey key = snakeCase key := by
  have hne : ¬(key = "family" || key = "chartType") = true := by
    simp only [familyTags, List.mem_cons, not_or] at h
    simpa using ⟨h.2.1, h.1⟩
  rw [optionOfKey, if_neg hne]

/-- A family tag spells no option. -/
theorem Family.snakeCase_tag_notMem (f : Family) :
    ∀ key ∈ familyTags, snakeCase key ∉ f.options := by
  cases f <;> decide

/-- No spelling of an option is a family tag. -/
theorem Family.write_notMem_familyTags {f : Family} {name : String} (h : name ∈ f.options)
    (spelling : Spelling) : spelling.write name ∉ familyTags := by
  have hname : isSnakeName name = true :=
    f.kind.isSnakeName_of_mem_options name (Family.mem_options.1 h).1
  intro htag
  refine f.snakeCase_tag_notMem _ htag ?_
  rwa [spelling.snakeCase_write hname]

/-- Either spelling of an option stands for the option. -/
theorem Family.optionOfKey_write {f : Family} {name : String} (h : name ∈ f.options)
    (spelling : Spelling) : optionOfKey (spelling.write name) = name := by
  have hname : isSnakeName name = true :=
    f.kind.isSnakeName_of_mem_options name (Family.mem_options.1 h).1
  rw [optionOfKey_of_notMem (Family.write_notMem_familyTags h spelling),
    spelling.snakeCase_write hname]

/-- A mapping for a chart of a family, by its parts. -/
structure Message (family : Family) where
  /-- The key that names the family. -/
  tag : String
  /-- The options, by their names. -/
  options : Arguments
  /-- The spelling of every option. -/
  spelling : String → Spelling
  /-- The fields that spell no option. -/
  others : List (String × Value)
  tag_mem : tag ∈ familyTags
  options_nodup : (options.map Prod.fst).Nodup
  options_known : ∀ option ∈ options, option.1 ∈ family.options
  others_unknown : ∀ field ∈ others, field.1 ∉ familyTags ∧ snakeCase field.1 ∉ family.options

namespace Message

variable {family : Family} (m : Message family)

/-- The fields of a message. -/
def fields : List (String × Value) :=
  (m.tag, .text family.name) ::
    (m.options.map fun (name, v) => ((m.spelling name).write name, v)) ++ m.others

/-- An option of a message has one value. -/
theorem option_unique {name : String} {v w : Value} (hv : (name, v) ∈ m.options)
    (hw : (name, w) ∈ m.options) : v = w := by
  have heq := List.inj_on_of_nodup_map m.options_nodup hv hw rfl
  exact congrArg Prod.snd heq

/-- A field of a message is the tag of the family, an option in its spelling, or spells none. -/
theorem mem_fields {field : String × Value} :
    field ∈ m.fields ↔ field = (m.tag, .text family.name) ∨
      (∃ option ∈ m.options, ((m.spelling option.1).write option.1, option.2) = field) ∨
      field ∈ m.others := by
  simp [fields]

/-- Every option of a message is under a key that stands for it. -/
theorem exists_field_of_mem_options {name : String} {v : Value} (h : (name, v) ∈ m.options) :
    ∃ key, (key, v) ∈ m.fields ∧ optionOfKey key = name :=
  ⟨(m.spelling name).write name, m.mem_fields.2 (.inr (.inl ⟨_, h, rfl⟩)),
    Family.optionOfKey_write (m.options_known _ h) _⟩

/-- A field of a message that stands for an option holds that option's value. -/
theorem option_of_mem_fields {field : String × Value} (h : field ∈ m.fields)
    (hoption : optionOfKey field.1 ∈ family.options) :
    (optionOfKey field.1, field.2) ∈ m.options := by
  obtain rfl | ⟨option, hmem, rfl⟩ | hother := m.mem_fields.1 h
  · rw [optionOfKey_of_mem_familyTags m.tag m.tag_mem] at hoption
    exact absurd rfl (Family.mem_options.1 hoption).2
  · rwa [Family.optionOfKey_write (m.options_known option hmem)]
  · obtain ⟨hkey, hname⟩ := m.others_unknown field hother
    rw [optionOfKey_of_notMem hkey] at hoption
    exact absurd hoption hname

/-- A field of a message under a family tag is the one that names the family. -/
theorem eq_tag_of_mem_fields {field : String × Value} (h : field ∈ m.fields)
    (htag : field.1 ∈ familyTags) : field = (m.tag, .text family.name) := by
  obtain heq | ⟨option, hmem, rfl⟩ | hother := m.mem_fields.1 h
  · exact heq
  · exact absurd htag (Family.write_notMem_familyTags (m.options_known option hmem) _)
  · exact absurd htag (m.others_unknown field hother).1

variable {m} {fields : List (String × Value)}

/-- In any order of its fields, a message names its family. -/
theorem familyTag_eq (h : fields.Perm m.fields) :
    familyTag (Entries.ofNamed fields) = .text family.name := by
  have hfound : List.lookup m.tag fields = some (.text family.name) := by
    refine Arguments.lookup_of_mem (h.mem_iff.2 (m.mem_fields.2 (.inl rfl))) fun w hw => ?_
    exact congrArg Prod.snd (m.eq_tag_of_mem_fields (h.mem_iff.1 hw) m.tag_mem)
  have hmissing : ∀ key ∈ familyTags, key ≠ m.tag → List.lookup key fields = none := by
    intro key hkey hne
    refine Arguments.lookup_of_forall_notMem fun w hw => hne ?_
    exact congrArg Prod.fst (m.eq_tag_of_mem_fields (h.mem_iff.1 hw) hkey)
  have htag := m.tag_mem
  simp only [familyTag, Entries.field?_ofNamed]
  -- the tags are tried in this order, and only the one of the message is there
  simp only [familyTags, List.mem_cons, List.not_mem_nil, or_false] at htag
  obtain htag | htag | htag := htag
  · rw [htag] at hfound
    rw [hfound]
    rfl
  · rw [htag] at hfound hmissing
    rw [hfound, hmissing "chartType" (by decide) (by decide)]
    rfl
  · rw [htag] at hfound hmissing
    rw [hfound, hmissing "chartType" (by decide) (by decide),
      hmissing "family" (by decide) (by decide)]
    rfl

/-- In any order of its fields, a message gives its options besides the name of its family. -/
theorem same_collected (h : fields.Perm m.fields) {got : Arguments}
    (hgot : collectOptions family.kind.options (Entries.ofNamed fields) [] = .ok got) :
    (got.bind "chart_type" (.text family.name)).Same
      (("chart_type", .text family.name) :: m.options) := by
  intro name
  rw [Arguments.lookup_bind, Arguments.lookup_cons]
  refine ite_congr rfl (fun _ => rfl) fun hne => ?_
  by_cases hgiven : ∃ v, (name, v) ∈ m.options
  · obtain ⟨v, hv⟩ := hgiven
    have hname := m.options_known _ hv
    obtain ⟨key, hkey, hspells⟩ := m.exists_field_of_mem_options hv
    have honly : ∀ field ∈ fields, optionOfKey field.1 = name → field.2 = v := by
      rintro field hfield rfl
      exact m.option_unique (m.option_of_mem_fields (h.mem_iff.1 hfield) hname) hv
    rw [lookup_collectOptions_of_mem (Family.mem_options.1 hname).1
        ⟨key, h.mem_iff.2 hkey, hspells⟩ honly hgot,
      Arguments.lookup_of_mem hv fun w hw => m.option_unique hw hv]
  · have hnone : ∀ field ∈ fields, optionOfKey field.1 = name → name ∉ family.kind.options := by
      rintro field hfield rfl hknown
      have hname := Family.mem_options.2 ⟨hknown, hne⟩
      exact hgiven ⟨_, m.option_of_mem_fields (h.mem_iff.1 hfield) hname⟩
    rw [lookup_collectOptions_of_forall hnone hgot,
      Arguments.lookup_of_forall_notMem fun w hw => hgiven ⟨w, hw⟩]
    rfl

end Message

/-! ## Mappings and their options -/

/-- **A mapping gives the configuration that its options give by name**, or the same error, in
whatever spelling and order its fields are, under whichever key its family is named and whatever
else it holds. -/
theorem Config.ofMapping_message {family : Family} (m : Message family)
    {fields : List (String × Value)} (h : fields.Perm m.fields) :
    Config.ofMapping (.dict (Entries.ofNamed fields)) =
      Config.ofOptions family.kind (("chart_type", .text family.name) :: m.options) := by
  obtain ⟨got, hgot⟩ := exists_collectOptions family.kind.options fields []
  have hfamily : familyOfTag (familyTag (Entries.ofNamed fields)) = .ok family := by
    rw [Message.familyTag_eq h, familyOfTag, Family.ofName?_name]
  rw [Config.ofMapping, hfamily]
  simp only [bind, Except.bind, hgot]
  exact Config.ofOptions_congr (Message.same_collected h hgot) family.kind

/-- A line with one option in either spelling and with two keys that spell none. -/
def Message.sample : Message .line where
  tag := "family"
  options := [("y_axis", .text "v"), ("max_items", .int 5)]
  spelling := fun name => if name = "max_items" then .camel else .snake
  others := [("ChartType", .int 1), ("zoom", .null)]
  tag_mem := by decide
  options_nodup := by decide
  options_known := by decide
  others_unknown := by decide

/-- The sample message back to front gives the same configuration. -/
theorem Config.ofMapping_sample :
    Config.ofMapping (.dict [(.text "zoom", .null), (.text "ChartType", .int 1),
        (.text "maxItems", .int 5), (.text "y_axis", .text "v"), (.text "family", .text "line")]) =
      Config.ofOptions .timeSeries
        [("chart_type", .text "line"), ("y_axis", .text "v"), ("max_items", .int 5)] :=
  Config.ofMapping_message Message.sample (List.reverse_perm Message.sample.fields)

/-! ## Keys that are explained -/

/-- A key that is explained spells an option of some family. -/
theorem exists_family_of_mem_optionHelp : ∀ entry ∈ optionHelp, ∃ family ∈ Family.all,
    optionOfKey entry.1 ∈ family.kind.options := by
  decide

/-- No option is explained twice, and no option that all families share is left without. -/
theorem nodup_optionHelp : (optionHelp.map fun entry => optionOfKey entry.1).Nodup ∧
    ∀ name ∈ ConfigKind.sharedOptions, ∃ entry ∈ optionHelp, optionOfKey entry.1 = name := by
  decide

/-- **No key that is explained is passed over**: in a mapping for some family it binds the option
that it spells. -/
theorem collectOptions_of_mem_optionHelp {key help : String} (h : (key, help) ∈ optionHelp) :
    ∃ family ∈ Family.all, ∀ (v : Value) (args : Arguments),
      collectOptions family.kind.options (Entries.ofNamed [(key, v)]) args
        = .ok (args.bind (optionOfKey key) v) := by
  obtain ⟨family, hfamily, hoption⟩ := exists_family_of_mem_optionHelp (key, help) h
  refine ⟨family, hfamily, fun v args => ?_⟩
  rw [collectOptions_cons, if_pos hoption]
  rfl

end LiveChart

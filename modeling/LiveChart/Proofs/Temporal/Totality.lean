import LiveChart.Proofs.Number.Limits
import LiveChart.Proofs.Temporal.Agreement
/-!
# When a snapshot has a view

Rows hold values of any kind, and what is no time counts as missing.  Only two things are in the
way of a view: a whole number out of the range of doubles in the place of a time, and an order field
that can be no key of a row.  The keys of rows are never in the way.

The statements are about the values of `Value`.  Arrays without an axis and differences of ticks
have no representation there, and one object that stands in two rows is not told from two equal
ones.

* `Value.IsTime` : the values that stand for a time;
* `Value.OutOfRange` : the values whose time cannot be read;
* `epochMillis_cases` : every value has a time, or none, or is out of range;
* `Binding.reads_iff` : the rows whose time a binding can read;
* `Binding.reads_of_view` : the time of every row is read for a view;
* `resolves_iff` : the snapshots that have a view and a window, and what these are.
-/

namespace LiveChart

variable {α β : Type}

/-! ## Times of values -/

namespace Value

/-- A whole number out of the range of doubles. -/
def OutOfRange : Value → Prop
  | .scalar (.int n) | .scalar (.fixedInt _ n) => Double.limit ≤ n.natAbs
  | _ => False

/-- A value stands for a time: a finite number in the range of doubles, a tick that counts, a moment,
a day, or a text that spells a moment. -/
def IsTime : Value → Prop
  | .scalar (.double x) | .scalar (.fixedFloat _ x) => x.isFinite = true
  | .scalar (.int n) | .scalar (.fixedInt _ n) => n.natAbs < Double.limit
  | .scalar (.tick t) => t.count.isSome = true
  | .scalar (.moment _) | .scalar (.day _) => True
  | .scalar (.text s) => (Iso.readStamp? s).isSome = true
  | _ => False

end Value

/-- What reading the time of a value can come to: it has a time, or it has none, or it is out of
range. -/
inductive EpochCase (v : Value) : Result (Option Double) → Prop where
  | time (x : Double) (h : v.IsTime) (hrange : ¬v.OutOfRange) : EpochCase v (.ok (some x))
  | missing (h : ¬v.IsTime) (hrange : ¬v.OutOfRange) : EpochCase v (.ok none)
  | outOfRange (h : v.OutOfRange) : EpochCase v (fail .overflow)

/-- A whole number has a time unless it is out of range. -/
theorem epochCase_whole {v : Value} {n : ℤ} (htime : v.IsTime ↔ n.natAbs < Double.limit)
    (hrange : v.OutOfRange ↔ Double.limit ≤ n.natAbs)
    (hread : epochMillis v = epochMillis (.int n)) : EpochCase v (epochMillis v) := by
  rw [hread]
  cases hn : Double.ofInt? n with
  | none =>
    rw [Binding.epochMillis_of_ofInt?_eq_none hn]
    exact .outOfRange (hrange.2 (Double.ofInt?_eq_none.1 hn))
  | some x =>
    have hx : epochMillis (.int n) = .ok (some x) := by
      unfold epochMillis
      dsimp only
      rw [hn]
    have hlt : n.natAbs < Double.limit := by
      by_contra hge
      rw [Double.ofInt?_eq_none.2 (Nat.le_of_not_lt hge)] at hn
      cases hn
    rw [hx]
    exact .time x (htime.2 hlt) fun h => absurd (hrange.1 h) (Nat.not_le_of_lt hlt)

/-- A value that is no whole number has a time just if one is found. -/
theorem epochCase_found {v : Value} {found : Option Double} (hrange : ¬v.OutOfRange)
    (htime : v.IsTime ↔ found.isSome = true) : EpochCase v (.ok found) := by
  cases found with
  | none => exact .missing (fun h => by cases htime.1 h) hrange
  | some x => exact .time x (htime.2 rfl) hrange

/-- **Every value has a time, or none, or is out of range.** -/
theorem epochMillis_cases (v : Value) : EpochCase v (epochMillis v) := by
  have hfinite : ∀ x : Double, (finite? x).isSome = x.isFinite := by
    intro x
    unfold finite?
    cases x.isFinite <;> rfl
  cases v with
  | scalar s =>
    cases s with
    | int n => exact epochCase_whole Iff.rfl Iff.rfl rfl
    | fixedInt w n => exact epochCase_whole Iff.rfl Iff.rfl rfl
    | double x => exact epochCase_found id (by rw [hfinite]; rfl)
    | fixedFloat w x => exact epochCase_found id (by rw [hfinite]; rfl)
    | tick t =>
      refine epochCase_found id ?_
      rw [Option.isSome_map, Tick.millis?, Option.isSome_map, Tick.picos?, Option.isSome_map]
      rfl
    | text s => exact epochCase_found id (by rw [Option.isSome_map]; rfl)
    | moment t => exact .time _ trivial id
    | day d => exact .time _ trivial id
    | null | bool | bytes | byteArray | duration | flag | object => exact .missing id id
  | list | tuple | set | dict | array => exact .missing id id

/-- The time of a value can be read unless it is out of range. -/
theorem exists_epochMillis_iff {v : Value} :
    (∃ time, epochMillis v = .ok time) ↔ ¬v.OutOfRange := by
  constructor
  · rintro ⟨time, htime⟩ h
    have hcase := epochMillis_cases v
    rw [htime] at hcase
    cases hcase with
    | time x htime hrange => exact hrange h
    | missing htime hrange => exact hrange h
  · intro h
    have hcase := epochMillis_cases v
    generalize epochMillis v = time at hcase ⊢
    cases hcase with
    | time x htime hrange => exact ⟨_, rfl⟩
    | missing htime hrange => exact ⟨_, rfl⟩
    | outOfRange hrange => exact absurd hrange h

/-- Where the time of a value can be read, it is missing just for what is no time. -/
theorem epochMillis_eq_none_iff {v : Value} {time : Option Double} (h : epochMillis v = .ok time) :
    time = none ↔ ¬v.IsTime := by
  have hcase := epochMillis_cases v
  rw [h] at hcase
  cases hcase with
  | time x htime hrange => exact ⟨fun h => (nomatch h), fun h => absurd htime h⟩
  | missing htime hrange => exact ⟨fun _ => htime, fun _ => rfl⟩

/-! ## Times of rows -/

/-- The time under a field that can be no key cannot be read of a row. -/
theorem stampOf_dict_of_not_isHashable {field : Value} (h : field.isHashable = false) (row : Row) :
    stampOf field (.dict row) = fail .type := by
  have hmember : (Value.dict row).memberAt field = fail .type := by
    simp only [Value.memberAt, h, Bool.false_eq_true, if_false]
  rw [stampOf, hmember]
  rfl

/-- The time under a field is that of the value it holds, and missing if it holds none. -/
theorem stampOf_dict {field : Value} (h : field.isHashable = true) (row : Row) :
    stampOf field (.dict row) =
      match Value.lookup? field row with
      | none => .ok none
      | some v => epochMillis v := by
  have hmember : (Value.dict row).memberAt field = .ok (Value.lookup? field row) := by
    simp only [Value.memberAt, h, if_true]
  rw [stampOf, hmember]
  cases Value.lookup? field row <;> rfl

namespace Binding

variable {b : Binding} {row : Row}

/-- **The rows whose time a binding can read**: the field is a key, and it holds no number out of
range. -/
theorem reads_iff : b.Reads row ↔ ∀ field ∈ b.clock?,
    field.isHashable = true ∧ ∀ v ∈ Value.lookup? field row, ¬v.OutOfRange := by
  refine forall_congr' fun field => imp_congr_right fun _ => ?_
  cases hkey : field.isHashable with
  | false =>
    rw [stampOf_dict_of_not_isHashable hkey]
    exact ⟨fun ⟨_, h⟩ => (nomatch h), fun ⟨h, _⟩ => (nomatch h)⟩
  | true =>
    rw [stampOf_dict hkey]
    cases hheld : Value.lookup? field row with
    | none => exact ⟨fun _ => ⟨rfl, fun _ h => (nomatch h)⟩, fun _ => ⟨none, rfl⟩⟩
    | some v =>
      refine exists_epochMillis_iff.trans ⟨fun h => ⟨rfl, ?_⟩, fun h => h.2 v rfl⟩
      rintro _ ⟨⟩
      exact h

/-- **The time of a row is missing** just if its field holds nothing that is a time. -/
theorem Reads.timeOf_eq_none_iff (h : b.Reads row) : b.timeOf row = none ↔
    ∀ field ∈ b.clock?, ∀ v ∈ Value.lookup? field row, ¬v.IsTime := by
  cases hclock : b.clock? with
  | none => exact ⟨fun _ _ h => (nomatch h), fun _ => by rw [timeOf, hclock]; rfl⟩
  | some field =>
    have hread := h.stampOf_eq hclock
    have hkey := (reads_iff.1 h field hclock).1
    rw [stampOf_dict hkey] at hread
    simp only [Option.mem_some_iff, forall_eq']
    cases hheld : Value.lookup? field row with
    | none =>
      rw [hheld] at hread
      exact ⟨fun _ _ h => (nomatch h), fun _ => (Except.ok.inj hread).symm⟩
    | some v =>
      rw [hheld] at hread
      simp only [Option.mem_some_iff, forall_eq']
      exact epochMillis_eq_none_iff hread

end Binding

/-! ## Snapshots with a view -/

/-- Where a whole list can be computed, so can each of its items. -/
theorem exists_of_mapM_eq_ok {f : α → Result β} {l : List α} {r : List β} (h : l.mapM f = .ok r) :
    ∀ a ∈ l, ∃ b, f a = .ok b := by
  induction l generalizing r with
  | nil => simp
  | cons a l ih =>
    rw [List.mapM_cons, Result.bind_eq_ok] at h
    obtain ⟨b, hb, h⟩ := h
    obtain ⟨r', hr', -⟩ := Result.bind_eq_ok.1 h
    exact List.forall_mem_cons.2 ⟨⟨b, hb⟩, ih hr'⟩

/-- Where a whole list fails, so does one of its items. -/
theorem exists_of_mapM_eq_error {f : α → Result β} {l : List α} {e : Error}
    (h : l.mapM f = .error e) : ∃ a ∈ l, f a = .error e := by
  induction l with
  | nil => cases h
  | cons a l ih =>
    rw [List.mapM_cons] at h
    cases ha : f a with
    | error e' =>
      rw [ha] at h
      obtain rfl : e' = e := Except.error.inj h
      exact ⟨a, List.mem_cons_self, ha⟩
    | ok b =>
      cases hl : l.mapM f with
      | error e' =>
        rw [ha, hl] at h
        obtain rfl : e' = e := Except.error.inj h
        obtain ⟨c, hc, hfails⟩ := ih hl
        exact ⟨c, List.mem_cons_of_mem a hc, hfails⟩
      | ok r =>
        rw [ha, hl] at h
        cases h

/-- Where the times of all items can be read, so can the time of each. -/
theorem exists_of_withStamps_eq_ok {rowOf : α → Value} {field : Value} {items : List α}
    {r : List (Stamped α)} (h : withStamps rowOf field items = .ok r) :
    ∀ a ∈ items, ∃ time, stampOf field (rowOf a) = .ok time := by
  intro a ha
  obtain ⟨p, hp⟩ := exists_of_mapM_eq_ok h a ha
  obtain ⟨time, htime, -⟩ := Result.bind_eq_ok.1 hp
  exact ⟨time, htime⟩

/-- **The time of every row is read for a view.** -/
theorem Binding.reads_of_view {b : Binding} {snapshot v : List Row}
    (h : view (some b) snapshot = .ok v) : ∀ row ∈ snapshot, b.Reads row := by
  intro row hrow field hclock
  cases hfield : b.field with
  | none => simp [clock?, hfield] at hclock
  | some spec =>
    -- only an empty snapshot is shown without a look at its rows
    have hne : snapshot.isEmpty = false := by
      cases snapshot with
      | nil => exact absurd hrow List.not_mem_nil
      | cons => rfl
    unfold view viewOf at h
    simp only [hfield, hne, Bool.false_eq_true, if_false] at h
    unfold boundView at h
    cases hmode : b.mode with
    | axis =>
      simp only [hmode] at h
      obtain rfl : .text spec.first = field := by simpa [clock?, hfield, hmode] using hclock
      obtain ⟨r, hr, -⟩ := Result.bind_eq_ok.1 h
      exact exists_of_withStamps_eq_ok hr row hrow
    | frame =>
      simp only [hmode] at h
      obtain rfl : .text spec.first = field := by simpa [clock?, hfield, hmode] using hclock
      obtain ⟨r, hr, -⟩ := Result.bind_eq_ok.1 h
      exact exists_of_withStamps_eq_ok hr row hrow
    | key =>
      -- in key mode a time is read only if there is a field to order by
      have horder : b.orderField = some field := by simpa [clock?, hfield, hmode] using hclock
      simp only [hmode, horder] at h
      obtain ⟨r, hr, -⟩ := Result.bind_eq_ok.1 h
      exact exists_of_withStamps_eq_ok hr row hrow

/-- A binding without a field shows a snapshot as it is, and has no window. -/
theorem resolves_of_unbound {b : Binding} (h : b.isBound = false) (snapshot : List Row) :
    view (some b) snapshot = .ok snapshot ∧ timeWindow (some b) snapshot = .ok none := by
  have hnone : b.field = none := by simpa [Binding.isBound] using h
  constructor
  · simp only [view, viewOf, hnone]
  · simp only [timeWindow, timeWindowOf, hnone]

/-- **When a snapshot has a view and a window.**  It does under every binding unless, in a row, the
field of times holds a whole number out of the range of doubles, or that field can be no key of a
row.  Where it does, the rows are chosen by their times and keys, and what is no time counts as
missing. -/
theorem resolves_iff (binding : Option Binding) (snapshot : List Row) :
    ((∃ v w, view binding snapshot = .ok v ∧ timeWindow binding snapshot = .ok w) ↔
      ∀ b ∈ binding, ∀ row ∈ snapshot, ∀ field ∈ b.clock?,
        field.isHashable = true ∧ ∀ v ∈ Value.lookup? field row, ¬v.OutOfRange) ∧
    ∀ b ∈ binding, b.isBound = true → (∀ row ∈ snapshot, b.Reads row) →
      view binding snapshot = .ok (b.select b.timeOf b.rowKey snapshot) ∧
      timeWindow binding snapshot = .ok (b.span b.timeOf snapshot) ∧
      ∀ row ∈ snapshot, b.timeOf row = none ↔
        ∀ field ∈ b.clock?, ∀ v ∈ Value.lookup? field row, ¬v.IsTime := by
  have hreads : ∀ b, b.isBound = true → (∀ row ∈ snapshot, b.Reads row) →
      view (some b) snapshot = .ok (b.select b.timeOf b.rowKey snapshot) ∧
        timeWindow (some b) snapshot = .ok (b.span b.timeOf snapshot) := fun b hbound h =>
    ⟨viewOf_of_reads hbound id h, timeWindowOf_of_reads hbound id h⟩
  refine ⟨⟨?_, ?_⟩, ?_⟩
  · rintro ⟨v, w, hv, -⟩ b hb row hrow
    rw [Option.mem_def.1 hb] at hv
    exact Binding.reads_iff.1 (Binding.reads_of_view hv row hrow)
  · intro h
    cases binding with
    | none => exact ⟨snapshot, none, rfl, rfl⟩
    | some b =>
      cases hbound : b.isBound with
      | false => exact ⟨_, _, resolves_of_unbound hbound snapshot⟩
      | true =>
        exact ⟨_, _, hreads b hbound fun row hrow => Binding.reads_iff.2 (h b rfl row hrow)⟩
  · intro b hb hbound h
    rw [Option.mem_def.1 hb]
    exact ⟨(hreads b hbound h).1, (hreads b hbound h).2, fun row hrow =>
      (h row hrow).timeOf_eq_none_iff⟩

/-- A whole number out of range leaves a snapshot without a view of its latest rows. -/
theorem view_outOfRange :
    ¬∀ (binding : Option Binding) (snapshot : List Row),
      ∃ v w, view binding snapshot = .ok v ∧ timeWindow binding snapshot = .ok w := by
  intro h
  obtain ⟨v, w, hv, -⟩ := h (some { mode := .frame, field := some (.name "at") })
    (Binding.wholeThenTime (10 ^ 309))
  have hreads := Binding.reads_of_view hv _ List.mem_cons_self
  obtain ⟨-, hrange⟩ := Binding.reads_iff.1 hreads (.text "at") rfl
  have hlimit : Double.limit ≤ (10 ^ 309 : ℤ).natAbs := by decide +kernel
  exact hrange (.int (10 ^ 309)) rfl hlimit

end LiveChart

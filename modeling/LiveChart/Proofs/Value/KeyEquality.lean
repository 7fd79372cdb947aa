import LiveChart.Value.Key
import Mathlib.Algebra.Order.Ring.Int
/-!
# Equality of keys

Equality of keys is symmetric.  It is transitive through keys without ticks; a tick can equal a
tick of another unit that equals a moment, without equalling the moment itself.

* `Key.same_set` : equality of sets, as inclusion both ways;
* `Key.same_symm` and `Key.sameItems_symm` : symmetry;
* `Key.same_trans` and `Key.sameItems_trans` : transitivity through keys without ticks.
-/

namespace LiveChart

/-! ## Scalars -/

namespace Scalar

/-- Equality of amounts is symmetric. -/
theorem sameAmount_comm (a b : Scalar) : a.sameAmount b = b.sameAmount a := by
  unfold sameAmount
  cases a.amount? <;> cases b.amount? <;> simp only [Bool.beq_comm]

/-- Equality of moments is symmetric. -/
theorem sameMoment_comm (s t : Moment) : sameMoment s t = sameMoment t s := by
  unfold sameMoment
  cases s.ahead <;> cases t.ahead <;> simp only [Bool.beq_comm]

/-- Equality of ticks is symmetric. -/
theorem sameTick_comm (s t : Tick) : sameTick s t = sameTick t s := by
  unfold sameTick
  cases s.picos? <;> cases t.picos? <;> simp only [Bool.beq_comm]

/-- **Equality of scalars is symmetric.** -/
theorem same_comm (a b : Scalar) : a.same b = b.same a := by
  unfold same
  rw [sameAmount_comm a b, Bool.and_comm]
  split_ifs with h
  · rfl
  · cases a <;> cases b <;> simp only [Bool.beq_comm, sameMoment_comm, sameTick_comm]

/-- Whether a scalar is a tick. -/
def isTick : Scalar → Bool
  | .tick _ => true
  | _ => false

/-- Equality of amounts is transitive. -/
theorem sameAmount_trans {a b c : Scalar} (hab : a.sameAmount b = true)
    (hbc : b.sameAmount c = true) : a.sameAmount c = true := by
  unfold sameAmount at *
  cases ha : a.amount? <;> cases hb : b.amount? <;> cases hc : c.amount? <;>
    simp_all only [beq_iff_eq, Bool.false_eq_true]

/-- Equality of moments is transitive. -/
theorem sameMoment_trans {s t u : Moment} (hst : sameMoment s t = true)
    (htu : sameMoment t u = true) : sameMoment s u = true := by
  unfold sameMoment at *
  cases hs : s.ahead <;> cases ht : t.ahead <;> cases hu : u.ahead <;>
    simp_all only [beq_iff_eq, Bool.false_eq_true]

/-- A tick of a clock's unit at a moment is a tick at every equal moment. -/
theorem sameClock_of_sameMoment {t : Tick} {s u : Moment} (hts : sameClock t s = true)
    (hsu : sameMoment s u = true) : sameClock t u = true := by
  unfold sameClock sameMoment at *
  cases ht : t.picos? <;> cases hs : s.ahead <;> cases hu : u.ahead <;>
    simp_all only [beq_iff_eq, Bool.false_eq_true]

/-- Ticks at one moment are equal. -/
theorem sameTick_of_sameClock {t u : Tick} {s : Moment} (ht : sameClock t s = true)
    (hu : sameClock u s = true) : sameTick t u = true := by
  unfold sameClock sameTick at *
  cases htp : t.picos? <;> cases hup : u.picos? <;> cases hs : s.ahead <;>
    simp_all only [beq_iff_eq, Bool.false_eq_true, Bool.and_eq_true]

/-- Numbers are equal if their amounts are. -/
theorem same_of_isNumeric {a b : Scalar} (ha : a.isNumeric = true) (hb : b.isNumeric = true) :
    a.same b = a.sameAmount b := by
  unfold same
  rw [ha, hb, Bool.and_self, if_pos rfl]

/-- Equal scalars are both numbers or neither is. -/
theorem isNumeric_eq_of_same {a b : Scalar} (h : a.same b = true) : a.isNumeric = b.isNumeric := by
  cases a <;> cases b <;> first | rfl | cases h

/-- **Equality of scalars is transitive through a scalar that is no tick.** -/
theorem same_trans {a b c : Scalar} (hb : b.isTick = false) (hab : a.same b = true)
    (hbc : b.same c = true) : a.same c = true := by
  have hna := isNumeric_eq_of_same hab
  have hnc := isNumeric_eq_of_same hbc
  cases hn : b.isNumeric with
  | true =>
    rw [hn] at hna hnc
    rw [same_of_isNumeric hna hn] at hab
    rw [same_of_isNumeric hn hnc.symm] at hbc
    rw [same_of_isNumeric hna hnc.symm]
    exact sameAmount_trans hab hbc
  | false =>
    -- values of one sort remain, and the ticks that equal a moment
    cases b <;> cases hb <;> cases hn <;> cases a <;> try cases hab
    all_goals cases c <;> try cases hbc
    all_goals simp only [same, isNumeric, Bool.and_self, Bool.false_eq_true, if_false,
      beq_iff_eq] at *
    all_goals first
      | exact hab.trans hbc
      | exact sameMoment_trans hab hbc
      | exact sameClock_of_sameMoment hab hbc
      | exact sameTick_of_sameClock hab hbc
      | exact sameClock_of_sameMoment hbc (sameMoment_comm _ _ ▸ hab)

end Scalar

/-! ## Keys -/

namespace Key

/-- Induction over keys: what holds of a container's items holds of the container. -/
@[elab_as_elim]
theorem induct {P : Key → Prop} (undefined : P .undefined) (scalar : ∀ s, P (.scalar s))
    (tuple : ∀ items, (∀ k ∈ items, P k) → P (.tuple items))
    (set : ∀ items, (∀ k ∈ items, P k) → P (.set items)) (key : Key) : P key := by
  refine @Key.rec P (fun items => ∀ k ∈ items, P k) undefined scalar tuple set
    (fun _ h => absurd h List.not_mem_nil) ?_ key
  intro k items hk hitems j hj
  rcases List.mem_cons.1 hj with rfl | hj
  · exact hk
  · exact hitems j hj

/-- Whether every item has an equal, as a statement. -/
theorem allAmong_iff {xs ys : List Key} :
    allAmong xs ys = true ↔ ∀ x ∈ xs, ∃ y ∈ ys, same x y = true := by
  induction xs with
  | nil => simp [allAmong]
  | cons x xs ih => rw [allAmong, Bool.and_eq_true, ih, List.any_eq_true, List.forall_mem_cons]

/-- Whether an item equals a key, as a statement. -/
theorem anySame_iff {xs : List Key} {y : Key} :
    anySame xs y = true ↔ ∃ x ∈ xs, same x y = true := by
  induction xs with
  | nil => simp [anySame]
  | cons x xs ih => rw [anySame, Bool.or_eq_true, ih]; simp

/-- **Sets are equal if each item of either has an equal in the other.** -/
theorem same_set {xs ys : List Key} :
    same (.set xs) (.set ys) = true ↔
      (∀ x ∈ xs, ∃ y ∈ ys, same x y = true) ∧ ∀ y ∈ ys, ∃ x ∈ xs, same x y = true := by
  simp only [same, Bool.and_eq_true, allAmong_iff, List.all_eq_true, anySame_iff]

/-- Equality of items is symmetric if that of each item is. -/
theorem sameItems_symm_of {xs : List Key} (h : ∀ x ∈ xs, ∀ y, same x y = true → same y x = true)
    {ys : List Key} (hxy : sameItems xs ys = true) : sameItems ys xs = true := by
  induction xs generalizing ys with
  | nil => cases ys with
    | nil => rfl
    | cons y ys => cases hxy
  | cons x xs ih => cases ys with
    | nil => cases hxy
    | cons y ys =>
      rw [sameItems, Bool.and_eq_true] at hxy ⊢
      exact ⟨h x List.mem_cons_self y hxy.1,
        ih (fun z hz => h z (List.mem_cons_of_mem _ hz)) hxy.2⟩

/-- **Equality of keys is symmetric.** -/
theorem same_symm {a b : Key} (h : same a b = true) : same b a = true := by
  induction a using induct generalizing b with
  | undefined => cases b with
    | undefined => rfl
    | _ => cases h
  | scalar s => cases b with
    | scalar t =>
      rw [same, Scalar.same_comm]
      exact h
    | _ => cases h
  | tuple items ih => cases b with
    | tuple others => exact sameItems_symm_of (fun k hk _ => ih k hk) h
    | _ => cases h
  | set items ih => cases b with
    | set others =>
      -- the two halves of the equality of sets change places
      obtain ⟨hab, hba⟩ := same_set.1 h
      refine same_set.2 ⟨fun y hy => ?_, fun x hx => ?_⟩
      · obtain ⟨x, hx, hxy⟩ := hba y hy
        exact ⟨x, hx, ih x hx hxy⟩
      · obtain ⟨y, hy, hxy⟩ := hab x hx
        exact ⟨y, hy, ih x hx hxy⟩
    | _ => cases h

/-- Equality of composite keys is symmetric. -/
theorem sameItems_symm {xs ys : List Key} (h : sameItems xs ys = true) : sameItems ys xs = true :=
  sameItems_symm_of (fun _ _ _ => same_symm) h

/-- Composite keys are equal either way round. -/
theorem sameItems_comm (xs ys : List Key) : sameItems xs ys = sameItems ys xs :=
  Bool.eq_iff_iff.2 ⟨sameItems_symm, sameItems_symm⟩

mutual

/-- Whether a key holds no tick. -/
def tickFree : Key → Bool
  | .undefined => true
  | .scalar s => !s.isTick
  | .tuple items | .set items => allTickFree items

/-- Whether no key holds a tick. -/
def allTickFree : List Key → Bool
  | [] => true
  | k :: rest => k.tickFree && allTickFree rest

end

/-- Whether no key holds a tick, as a statement. -/
theorem allTickFree_iff {keys : List Key} :
    allTickFree keys = true ↔ ∀ k ∈ keys, k.tickFree = true := by
  induction keys with
  | nil => simp [allTickFree]
  | cons k keys ih => rw [allTickFree, Bool.and_eq_true, ih, List.forall_mem_cons]

/-- Equality of items is transitive through items of which each is passed through. -/
theorem sameItems_trans_of {ys : List Key}
    (h : ∀ y ∈ ys, ∀ x z, same x y = true → same y z = true → same x z = true) {xs zs : List Key}
    (hxy : sameItems xs ys = true) (hyz : sameItems ys zs = true) : sameItems xs zs = true := by
  induction ys generalizing xs zs with
  | nil =>
    cases xs with
    | nil => exact hyz
    | cons x xs => cases hxy
  | cons y ys ih =>
    cases xs with
    | nil => cases hxy
    | cons x xs =>
      cases zs with
      | nil => cases hyz
      | cons z zs =>
        rw [sameItems, Bool.and_eq_true] at hxy hyz ⊢
        exact ⟨h y List.mem_cons_self x z hxy.1 hyz.1,
          ih (fun w hw => h w (List.mem_cons_of_mem _ hw)) hxy.2 hyz.2⟩

/-- **Equality of keys is transitive through a key without ticks.** -/
theorem same_trans {a b c : Key} (hb : b.tickFree = true) (hab : same a b = true)
    (hbc : same b c = true) : same a c = true := by
  induction b using induct generalizing a c with
  | undefined => cases a with
    | undefined => exact hbc
    | _ => cases hab
  | scalar s => cases a with
    | scalar r => cases c with
      | scalar t =>
        rw [tickFree, Bool.not_eq_true'] at hb
        exact Scalar.same_trans hb hab hbc
      | _ => cases hbc
    | _ => cases hab
  | tuple items ih => cases a with
    | tuple firsts => cases c with
      | tuple lasts =>
        have hitems := allTickFree_iff.1 hb
        exact sameItems_trans_of (fun y hy _ _ => ih y hy (hitems y hy)) hab hbc
      | _ => cases hbc
    | _ => cases hab
  | set items ih => cases a with
    | set firsts => cases c with
      | set lasts =>
        have hitems := allTickFree_iff.1 hb
        obtain ⟨hab, hba⟩ := same_set.1 hab
        obtain ⟨hbc, hcb⟩ := same_set.1 hbc
        -- every member has an equal in the middle, and this one on the other side
        refine same_set.2 ⟨fun x hx => ?_, fun z hz => ?_⟩
        · obtain ⟨y, hy, hxy⟩ := hab x hx
          obtain ⟨z, hz, hyz⟩ := hbc y hy
          exact ⟨z, hz, ih y hy (hitems y hy) hxy hyz⟩
        · obtain ⟨y, hy, hyz⟩ := hcb z hz
          obtain ⟨x, hx, hxy⟩ := hba y hy
          exact ⟨x, hx, ih y hy (hitems y hy) hxy hyz⟩
      | _ => cases hbc
    | _ => cases hab

/-- Equality of composite keys is transitive through one without ticks. -/
theorem sameItems_trans {xs ys zs : List Key} (hys : allTickFree ys = true)
    (hxy : sameItems xs ys = true) (hyz : sameItems ys zs = true) : sameItems xs zs = true :=
  sameItems_trans_of (fun y hy _ _ => same_trans (allTickFree_iff.1 hys y hy)) hxy hyz

end Key

end LiveChart

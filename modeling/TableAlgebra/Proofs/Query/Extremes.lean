import TableAlgebra.Proofs.Query.FirstFailure
import TableAlgebra.Proofs.Value.Preorder

/-!
The extremes that MIN and MAX find. Numbers of both kinds have no common total
order: an integer is compared with a binary64 number through its rounding, and two
integers are not. But strict steps still carry through, since rounding keeps the
order of integers, and no more is needed for the running extreme to be unbeaten at
the end. For it to be the first of its place as well the whole order is needed, and
so are values among which nothing is rounded.
-/
namespace TableAlgebra

section Chains

variable {first second ends : Ordering} (chain : Chained first second ends)
include chain

theorem chained_lt_le (lt : first = .lt) (le : second.isLE) : ends = .lt := by
  subst lt
  exact chain rfl le

theorem chained_le_lt (le : first.isLE) (lt : second = .lt) : ends = .lt := by
  subst lt
  rw [chain le rfl]
  cases first with
  | lt => rfl
  | eq => rfl
  | gt => cases le

theorem chained_lt_lt (lt : first = .lt) (lt' : second = .lt) : ends = .lt :=
  chained_lt_le chain lt (by rw [lt']; rfl)

end Chains

namespace Binary64

variable {i j : Int64}

theorem order_of_words_le (le : (compare i j).isLE) :
    ((ofInt i.toInt).order (ofInt j.toInt)).isLE := by
  rw [Std.LawfulOrderOrd.isLE_compare, Int64.le_iff_toInt_le] at le
  simp only [order, of_int_not_nan]
  exact (Std.LawfulOrderOrd.isLE_compare _ _).mpr (of_int_mono le)

theorem words_of_order_lt (lt : (ofInt i.toInt).order (ofInt j.toInt) = .lt) :
    compare i j = .lt := by
  by_contra other
  have back : (compare j i).isLE := by
    rw [Std.OrientedOrd.eq_swap (a := j)]
    cases both : compare i j <;> simp_all
  have rounded := order_of_words_le back
  rw [← order_swap, lt] at rounded
  cases rounded

end Binary64

namespace Value

open Binary64 (order_of_words_le words_of_order_lt)

theorem number_lt_trans {a b c : Value} (ka : a.kind = .number) (kb : b.kind = .number)
    (kc : c.kind = .number) (first : a.order b = .lt) (second : b.order c = .lt) :
    a.order c = .lt := by
  have le : (a.order b).isLE := by rw [first]; rfl
  have le' : (b.order c).isLE := by rw [second]; rfl
  cases a with
  | int i =>
    cases b with
    | int j =>
      cases c with
      | int k => exact chained_lt_lt (chained_compare i j k) first second
      | float z => exact chained_le_lt (Binary64.order_chained _ _ _) (order_of_words_le le) second
      | _ => cases kc
    | float y =>
      cases c with
      | int k => exact words_of_order_lt (chained_lt_lt (Binary64.order_chained _ _ _) first second)
      | float z => exact chained_lt_lt (Binary64.order_chained _ _ _) first second
      | _ => cases kc
    | _ => cases kb
  | float x =>
    cases b with
    | int j =>
      cases c with
      | int k => exact chained_lt_le (Binary64.order_chained _ _ _) first (order_of_words_le le')
      | float z => exact chained_lt_lt (Binary64.order_chained _ _ _) first second
      | _ => cases kc
    | float y =>
      cases c with
      | int k => exact chained_lt_lt (Binary64.order_chained _ _ _) first second
      | float z => exact chained_lt_lt (Binary64.order_chained _ _ _) first second
      | _ => cases kc
    | _ => cases kb
  | _ => cases ka

theorem compare_of_kinds {a b : Value} (same : a.kind = b.kind) (some_value : a.kind ≠ .null) :
    a.compare? b = some (a.order b) := by
  rw [compare?, if_pos ⟨same, some_value⟩]

theorem order_turned {a b : Value} {o : Ordering} : a.order b = o ↔ b.order a = o.swap := by
  rw [← order_swap a b, Ordering.swap_inj]

end Value

namespace Aggregate

open Value (Unmixed order_turned)

def StrictSteps (wanted : Ordering) (values : List Value) : Prop :=
  ∀ a ∈ values, ∀ b ∈ values, ∀ c ∈ values,
    a.order b = wanted → b.order c = wanted → a.order c = wanted

def Falls (wanted : Ordering) (values : List Value) : Prop :=
  ∀ a ∈ values, ∀ b ∈ values, ∀ c ∈ values,
    a.order b ≠ wanted → b.order c = wanted.swap → a.order c = wanted.swap

variable {f : Aggregate} {column : String} {wanted : Ordering} {values rest : List Value}
  {best out v : Value}

section Running

theorem extreme_from_step (done : f.extremeFrom column wanted best (v :: rest) = .ok out) :
    f.extremeFrom column wanted (if v.order best = wanted then v else best) rest = .ok out := by
  rw [extremeFrom, Value.compare?] at done
  by_cases comparable : v.kind = best.kind ∧ v.kind ≠ .null
  · rw [if_pos comparable] at done
    exact done
  · rw [if_neg comparable] at done
    cases done

theorem not_both_ways {a b : Value} (directed : wanted ≠ .eq) (beats : a.order b = wanted) :
    b.order a ≠ wanted := by
  intro back
  rw [order_turned, beats] at back
  exact directed (Ordering.eq_eq_of_eq_swap back)

/-- The result is the value at the start or beats it, and none that is passed over
beats the result: a new best value beats all that the old one has kept out. -/
theorem extreme_from_unbeaten (directed : wanted ≠ .eq) (steps : StrictSteps wanted values)
    (inside : ∀ v ∈ best :: rest, v ∈ values)
    (done : f.extremeFrom column wanted best rest = .ok out) :
    out ∈ best :: rest ∧ (out = best ∨ out.order best = wanted) ∧
      ∀ v ∈ best :: rest, v.order out ≠ wanted := by
  induction rest generalizing best with
  | nil =>
    cases done
    refine ⟨List.mem_cons_self, .inl rfl, List.forall_mem_singleton.mpr ?_⟩
    rw [Value.order_self]
    exact directed.symm
  | cons v rest ih =>
    have later := extreme_from_step done
    have insideBest : best ∈ values := inside best List.mem_cons_self
    have insideV : v ∈ values := inside v (List.mem_cons_of_mem _ List.mem_cons_self)
    have insideRest : ∀ u ∈ rest, u ∈ values := fun u member =>
      inside u (List.mem_cons_of_mem _ (List.mem_cons_of_mem _ member))
    by_cases beats : v.order best = wanted
    · rw [if_pos beats] at later
      have insideNext := List.forall_mem_cons.mpr ⟨insideV, insideRest⟩
      obtain ⟨member, ahead, unbeaten⟩ := ih insideNext later
      have beats_start : out.order best = wanted := by
        rcases ahead with rfl | ahead
        · exact beats
        · exact steps out (insideNext out member) v insideV best insideBest ahead beats
      refine ⟨List.mem_cons_of_mem _ member, .inr beats_start, ?_⟩
      exact List.forall_mem_cons.mpr ⟨not_both_ways directed beats_start, unbeaten⟩
    · rw [if_neg beats] at later
      have insideNext := List.forall_mem_cons.mpr ⟨insideBest, insideRest⟩
      obtain ⟨member, ahead, unbeaten⟩ := ih insideNext later
      obtain ⟨start, others⟩ := List.forall_mem_cons.mp unbeaten
      have passed : v.order out ≠ wanted := by
        rcases ahead with rfl | ahead
        · exact beats
        · intro v_beats
          exact beats (steps v insideV out (insideNext out member) best insideBest v_beats ahead)
      refine ⟨?_, ahead, List.forall_mem_cons.mpr ⟨start, List.forall_mem_cons.mpr
        ⟨passed, others⟩⟩⟩
      rcases List.mem_cons.mp member with rfl | member
      · exact List.mem_cons_self
      · exact List.mem_cons_of_mem _ (List.mem_cons_of_mem _ member)

def FirstIn (wanted : Ordering) (values : List Value) (best : Value) : Prop :=
  ∃ before after, values = before ++ best :: after ∧ ∀ v ∈ before, v.order best = wanted.swap

theorem first_in_behind (first : FirstIn wanted rest out) (short : v.order out = wanted.swap) :
    FirstIn wanted (v :: rest) out := by
  obtain ⟨before, after, rfl, shorts⟩ := first
  exact ⟨v :: before, after, rfl, List.forall_mem_cons.mpr ⟨short, shorts⟩⟩

theorem first_in_passed (first : FirstIn wanted (best :: rest) out)
    (short : best.order out = wanted.swap → v.order out = wanted.swap) :
    FirstIn wanted (best :: v :: rest) out := by
  obtain ⟨before, after, split, shorts⟩ := first
  cases before with
  | nil =>
    cases split
    exact ⟨[], v :: rest, rfl, fun _ none => absurd none List.not_mem_nil⟩
  | cons start before =>
    cases split
    obtain ⟨start_short, others⟩ := List.forall_mem_cons.mp shorts
    refine ⟨best :: v :: before, after, rfl, ?_⟩
    exact List.forall_mem_cons.mpr
      ⟨start_short, List.forall_mem_cons.mpr ⟨short start_short, others⟩⟩

theorem extreme_from_first (directed : wanted ≠ .eq) (steps : StrictSteps wanted values)
    (falls : Falls wanted values) (inside : ∀ v ∈ best :: rest, v ∈ values)
    (done : f.extremeFrom column wanted best rest = .ok out) :
    FirstIn wanted (best :: rest) out := by
  induction rest generalizing best with
  | nil =>
    cases done
    exact ⟨[], [], rfl, fun _ none => absurd none List.not_mem_nil⟩
  | cons v rest ih =>
    obtain ⟨member, ahead, unbeaten⟩ := extreme_from_unbeaten directed steps inside done
    have later := extreme_from_step done
    obtain ⟨insideBest, insideV, insideRest⟩ :
        best ∈ values ∧ v ∈ values ∧ ∀ u ∈ rest, u ∈ values := by
      simpa only [List.forall_mem_cons] using inside
    by_cases beats : v.order best = wanted
    · rw [if_pos beats] at later
      refine first_in_behind (ih (List.forall_mem_cons.mpr ⟨insideV, insideRest⟩) later) ?_
      rcases ahead with rfl | ahead
      · exact absurd beats (unbeaten v (List.mem_cons_of_mem _ List.mem_cons_self))
      · exact order_turned.mp ahead
    · rw [if_neg beats] at later
      refine first_in_passed (ih (List.forall_mem_cons.mpr ⟨insideBest, insideRest⟩) later) ?_
      exact falls v insideV best insideBest out (inside out member) beats

end Running

section Laws

theorem strict_steps_of_lt (directed : wanted ≠ .eq)
    (trans : ∀ a ∈ values, ∀ b ∈ values, ∀ c ∈ values,
      a.order b = .lt → b.order c = .lt → a.order c = .lt) : StrictSteps wanted values := by
  intro a ha b hb c hc first second
  cases wanted with
  | lt => exact trans a ha b hb c hc first second
  | eq => exact absurd rfl directed
  | gt =>
    rw [order_turned] at first second ⊢
    exact trans c hc b hb a ha second first

theorem unmixed_three (unmixed : Unmixed values) {a b c : Value} (ha : a ∈ values)
    (hb : b ∈ values) (hc : c ∈ values) : Unmixed [a, b, c] := by
  refine Value.unmixed_among unmixed (List.forall_mem_cons.mpr ⟨ha, ?_⟩)
  exact List.forall_mem_cons.mpr ⟨hb, List.forall_mem_singleton.mpr hc⟩

theorem falls_of_unmixed (directed : wanted ≠ .eq) (unmixed : Unmixed values) :
    Falls wanted values := by
  intro a ha b hb c hc not_beyond short
  cases wanted with
  | lt =>
    have le : (b.order a).isLE := by
      rw [Ordering.isLE_iff_ne_gt, order_turned]
      exact not_beyond
    rw [order_turned] at short ⊢
    exact chained_lt_le (Value.order_chained (unmixed_three unmixed hc hb ha)) short le
  | eq => exact absurd rfl directed
  | gt =>
    exact chained_le_lt (Value.order_chained (unmixed_three unmixed ha hb hc))
      (Ordering.isLE_iff_ne_gt.mpr not_beyond) short

end Laws

/-- Values with an extreme: truth values, numbers of any size and both kinds, or
texts; and lists or records in which no number is compared through a rounding. -/
def Comparable (values : List Value) : Prop :=
  (∀ v ∈ present values, v.kind = .bool) ∨ (∀ v ∈ present values, v.kind = .number) ∨
    (∀ v ∈ present values, v.kind = .string) ∨
    ((∀ v ∈ present values, v.kind = .list) ∨ ∀ v ∈ present values, v.kind = .record) ∧
      Unmixed values

theorem one_kind (comparable : Comparable values) :
    ∃ kind, ∀ v ∈ present values, v.kind = kind := by
  rcases comparable with bools | numbers | texts | ⟨lists | records, -⟩
  · exact ⟨_, bools⟩
  · exact ⟨_, numbers⟩
  · exact ⟨_, texts⟩
  · exact ⟨_, lists⟩
  · exact ⟨_, records⟩

theorem unmixed_present (unmixed : Unmixed values) : Unmixed (present values) :=
  Value.unmixed_among unmixed fun _ => List.mem_of_mem_filter

theorem not_real_of_kind {v : Value} (plain : v.kind = .bool ∨ v.kind = .string) :
    v.Everywhere Value.NotReal := by
  cases v with
  | bool b => trivial
  | str s => trivial
  | _ => simp [Value.kind] at plain

theorem numbers_or_unmixed (comparable : Comparable values) :
    (∀ v ∈ present values, v.kind = .number) ∨ Unmixed (present values) := by
  rcases comparable with bools | numbers | texts | ⟨-, unmixed⟩
  · exact .inr (.inl fun v member => not_real_of_kind (.inl (bools v member)))
  · exact .inl numbers
  · exact .inr (.inl fun v member => not_real_of_kind (.inr (texts v member)))
  · exact .inr (unmixed_present unmixed)

theorem strict_steps_of_comparable (directed : wanted ≠ .eq) (comparable : Comparable values) :
    StrictSteps wanted (present values) := by
  refine strict_steps_of_lt directed fun a ha b hb c hc first second => ?_
  rcases numbers_or_unmixed comparable with numbers | unmixed
  · exact Value.number_lt_trans (numbers a ha) (numbers b hb) (numbers c hc) first second
  · exact chained_lt_lt (Value.order_chained (unmixed_three unmixed ha hb hc)) first second

/-- One of the values that are not null, unchanged, which none of them goes beyond. -/
structure IsExtreme (wanted : Ordering) (values : List Value) (best : Value) : Prop where
  among : best ∈ present values
  unbeaten : ∀ v ∈ present values, ∃ found, v.compare? best = some found ∧ found ≠ wanted

/-- All values before it that are not null fall short of it. -/
def IsEarliest (wanted : Ordering) (values : List Value) (best : Value) : Prop :=
  ∃ before after, present values = before ++ best :: after ∧
    ∀ v ∈ before, v.compare? best = some wanted.swap

theorem extreme_is_first (directed : wanted ≠ .eq) (comparable : Comparable values)
    (done : f.extreme column wanted values = .ok best) :
    IsExtreme wanted values best ∧ (Unmixed values → IsEarliest wanted values best) := by
  obtain ⟨kind, alike⟩ := one_kind comparable
  have steps := strict_steps_of_comparable directed comparable
  cases split : present values with
  | nil =>
    rw [extreme, split] at done
    cases done
  | cons first rest =>
    rw [extreme, split] at done
    have inside : ∀ v ∈ first :: rest, v ∈ present values := fun v member => split ▸ member
    obtain ⟨member, -, unbeaten⟩ := extreme_from_unbeaten directed steps inside done
    have compares (v : Value) (listed : v ∈ present values) :
        v.compare? best = some (v.order best) := by
      refine Value.compare_of_kinds ?_ (kind_of_present listed)
      rw [alike v listed, alike best (inside best member)]
    refine ⟨⟨inside best member, fun v listed => ?_⟩, fun unmixed => ?_⟩
    · exact ⟨_, compares v listed, unbeaten v (split ▸ listed)⟩
    · have falls := falls_of_unmixed directed (unmixed_present unmixed)
      obtain ⟨before, after, place, shorts⟩ := extreme_from_first directed steps falls inside done
      refine ⟨before, after, split.trans place, fun v early => ?_⟩
      have listed : v ∈ present values := by
        rw [split, place]
        exact List.mem_append_left _ early
      rw [compares v listed, shorts v early]

theorem extreme_exists (compares : f = max ∨ f = min) (comparable : Comparable values)
    (some_value : present values ≠ []) : ∃ best, f.compute column values = .ok best := by
  obtain ⟨kind, alike⟩ := one_kind comparable
  cases outcome : f.compute column values with
  | ok best => exact ⟨best, rfl⟩
  | error e =>
    cases compute_error_iff.mp outcome with
    | nonNumeric adds => rcases compares with rfl | rfl <;> simp at adds
    | incomparable _ split _ other =>
      rw [split] at alike
      exact absurd ((alike _ (by simp)).trans (alike _ (by simp)).symm) other
    | empty _ none => exact absurd none some_value

/-- MAX and MIN of values of one kind, if any is not null, are one of these values as
it stands, and no other goes beyond it. For numbers this holds whatever their size
and kind; in lists and records no number may be compared through a rounding. Where
that holds of the values at all, the result is also the earliest such value. -/
theorem extremes_are_true_and_earliest (column : String) {values : List Value}
    (comparable : Comparable values) :
    (∀ best, max.compute column values = .ok best →
      IsExtreme .gt values best ∧ (Unmixed values → IsEarliest .gt values best)) ∧
    (∀ best, min.compute column values = .ok best →
      IsExtreme .lt values best ∧ (Unmixed values → IsEarliest .lt values best)) ∧
    (present values ≠ [] → (∃ best, max.compute column values = .ok best) ∧
      ∃ best, min.compute column values = .ok best) :=
  ⟨fun _ done => extreme_is_first (by decide) comparable done,
    fun _ done => extreme_is_first (by decide) comparable done,
    fun some_value => ⟨extreme_exists (.inl rfl) comparable some_value,
      extreme_exists (.inr rfl) comparable some_value⟩⟩

def largeNumbers : List Value :=
  [.null, .int 9007199254740993, .float ⟨0x4340000000000000⟩, .int 9007199254740992]

def oddNumbers : List Value :=
  [.float .negativeZero, .int 0, .float .nan, .null, .float ⟨0x7ff8000000000001⟩]

set_option maxRecDepth 2000 in
theorem extremes_of_large_and_odd_numbers :
    Comparable largeNumbers ∧ min.compute "x" largeNumbers = .ok (.int 9007199254740992) ∧
    IsExtreme .lt largeNumbers (.int 9007199254740992) ∧
    Comparable oddNumbers ∧ Unmixed oddNumbers ∧
    max.compute "x" oddNumbers = .ok (.float .nan) ∧
    IsEarliest .gt oddNumbers (.float .nan) := by
  have large : Comparable largeNumbers := .inr (.inl (by decide))
  have odd : Comparable oddNumbers := .inr (.inl (by decide))
  have unmixed : Unmixed oddNumbers := by decide
  have least : min.compute "x" largeNumbers = .ok (.int 9007199254740992) := rfl
  have greatest : max.compute "x" oddNumbers = .ok (.float .nan) := rfl
  obtain ⟨-, lower, -⟩ := extremes_are_true_and_earliest "x" large
  obtain ⟨upper, -, -⟩ := extremes_are_true_and_earliest "x" odd
  exact ⟨large, least, (lower _ least).1, odd, unmixed, greatest, (upper _ greatest).2 unmixed⟩

end Aggregate
end TableAlgebra

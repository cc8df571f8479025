import TableAlgebra.Proofs.Outcome
import TableAlgebra.Query.Aggregate

/-!
How aggregates fail. An aggregate that has the values of a group fails on these
values, and its error names it and its column. The running extreme changes its
value on the way but never its kind, so the pair that cannot be compared is always
the first value and the first one of another kind, in either direction.
-/
namespace TableAlgebra

namespace Aggregate

inductive ValueError (f : Aggregate) (column : String) : QueryError → Prop where
  | empty : ValueError f column (.emptyGroup f column)
  | kind (kind : Kind) (display : String) : ValueError f column (.nonNumeric f column kind display)
  | pair (left right : Kind) : ValueError f column (.incomparable f column left right)

/-- How an aggregate fails on the values of a group. Nulls do not count: a value
that is no number stands in the way of a sum, two values of different kinds in the
way of an extreme, and without any value there is neither. -/
inductive FailsOn (f : Aggregate) (column : String) (values : List Value) : QueryError → Prop where
  | nonNumeric {before after : List Value} {v : Value} (adds : f = sum ∨ f = avg)
      (split : present values = before ++ v :: after)
      (numbers : ∀ u ∈ before, u.kind = .number) (other : v.kind ≠ .number) :
      FailsOn f column values (.nonNumeric f column v.kind v.display)
  | incomparable {first v : Value} {between after : List Value} (compares : f = max ∨ f = min)
      (split : present values = first :: between ++ v :: after)
      (same : ∀ u ∈ between, u.kind = first.kind) (other : v.kind ≠ first.kind) :
      FailsOn f column values (.incomparable f column first.kind v.kind)
  | empty (needs : (f = sum ∨ f = avg) ∨ f = max ∨ f = min) (none : present values = []) :
      FailsOn f column values (.emptyGroup f column)

variable {f : Aggregate} {column : String} {values : List Value} {e : QueryError}

theorem first_other_iff {kind : Kind} {v : Value} :
    values.find? (fun u => u.kind != kind) = some v ↔
      ∃ before after, values = before ++ v :: after ∧
        (∀ u ∈ before, u.kind = kind) ∧ v.kind ≠ kind := by
  rw [List.find?_eq_some_iff_append]
  simp only [bne_iff_ne, Bool.not_eq_true', bne_eq_false_iff_eq]
  constructor
  · rintro ⟨other, before, after, split, same⟩
    exact ⟨before, after, split, same, other⟩
  · rintro ⟨before, after, split, same, other⟩
    exact ⟨other, before, after, split, same⟩

section Numbers

theorem numbers_error_iff : f.numbers column values = .error e ↔
    (∃ v, (present values).find? (fun u => u.kind != .number) = some v ∧
      e = .nonNumeric f column v.kind v.display) ∨
    present values = [] ∧ e = .emptyGroup f column := by
  have test : (present values).find? (!·.isNumber) =
      (present values).find? fun u => u.kind != .number := rfl
  rw [numbers, test]
  cases values_left : present values with
  | nil => simp [eq_comm]
  | cons first rest =>
    cases (first :: rest).find? fun u => u.kind != .number with
    | none => simp
    | some v => simp [eq_comm]

theorem fails_on_of_adds (adds : f = sum ∨ f = avg) :
    FailsOn f column values e ↔ f.numbers column values = .error e := by
  rw [numbers_error_iff]
  constructor
  · intro fails
    cases fails with
    | nonNumeric _ split numbers other =>
      exact .inl ⟨_, first_other_iff.mpr ⟨_, _, split, numbers, other⟩, rfl⟩
    | incomparable compares => rcases adds with rfl | rfl <;> simp at compares
    | empty _ none => exact .inr ⟨none, rfl⟩
  · rintro (⟨v, found, rfl⟩ | ⟨none, rfl⟩)
    · obtain ⟨before, after, split, numbers, other⟩ := first_other_iff.mp found
      exact .nonNumeric adds split numbers other
    · exact .empty (.inl adds) none

end Numbers

section Extremes

variable {wanted : Ordering} {best v : Value} {rest : List Value}

theorem kind_of_present (member : v ∈ present values) : v.kind ≠ .null := by
  have some_value := (List.mem_filter.mp member).2
  cases v <;> simp_all [Value.isNull, Value.kind]

theorem extreme_from_cons (some_value : v.kind ≠ .null) :
    f.extremeFrom column wanted best (v :: rest) =
      if v.kind = best.kind then
        f.extremeFrom column wanted (if v.order best = wanted then v else best) rest
      else .error (.incomparable f column best.kind v.kind) := by
  rw [extremeFrom, Value.compare?]
  by_cases same : v.kind = best.kind
  · rw [if_pos same, if_pos ⟨same, some_value⟩]
  · rw [if_neg same, if_neg fun both => same both.1]

/-- The running extreme keeps the kind of the first value. -/
theorem extreme_from_error_iff (some_value : ∀ v ∈ rest, v.kind ≠ .null) :
    f.extremeFrom column wanted best rest = .error e ↔
      ∃ v, rest.find? (fun u => u.kind != best.kind) = some v ∧
        e = .incomparable f column best.kind v.kind := by
  induction rest generalizing best with
  | nil => simp [extremeFrom]
  | cons v rest ih =>
    obtain ⟨here, later⟩ := List.forall_mem_cons.mp some_value
    rw [extreme_from_cons here, List.find?_cons]
    by_cases same : v.kind = best.kind
    · have kept : (if v.order best = wanted then v else best).kind = best.kind := by
        split
        · exact same
        · rfl
      rw [if_pos same, ih later, kept, same, bne_self_eq_false]
    · rw [if_neg same, bne_iff_ne.mpr same]
      simp [eq_comm]

theorem extreme_error_iff : f.extreme column wanted values = .error e ↔
    (∃ first rest v, present values = first :: rest ∧
      rest.find? (fun u => u.kind != first.kind) = some v ∧
      e = .incomparable f column first.kind v.kind) ∨
    present values = [] ∧ e = .emptyGroup f column := by
  rw [extreme]
  cases values_left : present values with
  | nil => simp [eq_comm]
  | cons first rest =>
    have some_value : ∀ v ∈ rest, v.kind ≠ .null := by
      intro v member
      exact kind_of_present (values_left ▸ List.mem_cons_of_mem _ member)
    simp only [extreme_from_error_iff some_value, List.cons.injEq, reduceCtorEq, false_and,
      or_false]
    constructor
    · rintro ⟨v, found, rfl⟩
      exact ⟨first, rest, v, ⟨rfl, rfl⟩, found, rfl⟩
    · rintro ⟨_, _, v, ⟨rfl, rfl⟩, found, rfl⟩
      exact ⟨v, found, rfl⟩

theorem fails_on_of_compares (compares : f = max ∨ f = min) :
    FailsOn f column values e ↔ f.extreme column wanted values = .error e := by
  rw [extreme_error_iff]
  constructor
  · intro fails
    cases fails with
    | nonNumeric adds => rcases compares with rfl | rfl <;> simp at adds
    | incomparable _ split same other =>
      exact .inl ⟨_, _, _, split, first_other_iff.mpr ⟨_, _, rfl, same, other⟩, rfl⟩
    | empty _ none => exact .inr ⟨none, rfl⟩
  · rintro (⟨first, rest, v, split, found, rfl⟩ | ⟨none, rfl⟩)
    · obtain ⟨between, after, rfl, same, other⟩ := first_other_iff.mp found
      exact .incomparable compares split same other
    · exact .empty (.inr compares) none

end Extremes

theorem compute_error_iff : f.compute column values = .error e ↔ FailsOn f column values e := by
  have never (counts : f = count ∨ f = arrayAgg) : ¬ FailsOn f column values e := by
    intro fails
    cases fails <;> rcases counts with rfl | rfl <;> simp_all
  cases f with
  | arrayAgg => simpa [compute] using never (.inr rfl)
  | count => simpa [compute] using never (.inl rfl)
  | avg => rw [fails_on_of_adds (.inr rfl), compute, bind_pure_eq_error_iff]
  | sum => rw [fails_on_of_adds (.inl rfl), compute, bind_pure_eq_error_iff]
  | max => rw [fails_on_of_compares (.inl rfl), compute]
  | min => rw [fails_on_of_compares (.inr rfl), compute]

theorem compute_error (failed : f.compute column values = .error e) : ValueError f column e := by
  cases compute_error_iff.mp failed with
  | nonNumeric => exact .kind _ _
  | incomparable => exact .pair _ _
  | empty => exact .empty

end Aggregate

end TableAlgebra

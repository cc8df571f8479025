import TableAlgebra.Proofs.Entries
import TableAlgebra.Proofs.Number.Units
import TableAlgebra.Proofs.Pairs
import TableAlgebra.Proofs.Value.Induction

/-!
Equality of values is symmetric and transitive, whatever symmetric and
transitive equality of binary64 numbers it is built on, as long as that one
respects the integers that numbers equal. It is taken here over two of them:
the equality that the program tests, which no NaN passes, and the one under
which all NaNs are one number. They differ exactly by the NaNs.
-/
namespace TableAlgebra

namespace Binary64

def alike (x y : Binary64) : Bool := x.equal y || (x.isNaN && y.isNaN)

/-- An equality of numbers that respects the integers that they equal. -/
structure IntegerEquality (sameReal : Binary64 → Binary64 → Bool) : Prop where
  symm : ∀ {x y}, sameReal x y = true → sameReal y x = true
  trans : ∀ {x y z}, sameReal x y = true → sameReal y z = true → sameReal x z = true
  same_integer : ∀ {x y}, sameReal x y = true → x.exactInt? = y.exactInt?
  of_integer : ∀ {x y i}, x.exactInt? = some i → y.exactInt? = some i → sameReal x y = true

theorem equal_of_integer {x y : Binary64} {i : Int64} (left : x.exactInt? = some i)
    (right : y.exactInt? = some i) : x.equal y = true := by
  refine equal_iff.mpr ⟨not_nan_of_exact_int left, not_nan_of_exact_int right, ?_⟩
  rw [exact_int_eq_some_iff.mp left, exact_int_eq_some_iff.mp right]

theorem nan_has_no_integer {x : Binary64} (nan : x.isNaN = true) : x.exactInt? = none := by
  cases found : x.exactInt? with
  | none => rfl
  | some i => simp [not_nan_of_exact_int found] at nan

theorem equal_integer_equality : IntegerEquality equal where
  symm same := by
    obtain ⟨hx, hy, units⟩ := equal_iff.mp same
    exact equal_iff.mpr ⟨hy, hx, units.symm⟩
  trans left right := by
    obtain ⟨hx, _, first⟩ := equal_iff.mp left
    obtain ⟨_, hz, second⟩ := equal_iff.mp right
    exact equal_iff.mpr ⟨hx, hz, first.trans second⟩
  same_integer same := exact_int_of_units (equal_iff.mp same).2.2
  of_integer := equal_of_integer

theorem alike_iff {x y : Binary64} :
    x.alike y = true ↔ x.equal y = true ∨ x.isNaN = true ∧ y.isNaN = true := by
  simp [alike]

theorem equal_iff_alike {x y : Binary64} :
    x.equal y = true ↔ x.alike y = true ∧ x.isNaN = false := by
  constructor
  · intro same
    exact ⟨alike_iff.mpr (Or.inl same), (equal_iff.mp same).1⟩
  · rintro ⟨same, number⟩
    rcases alike_iff.mp same with equal | ⟨nan, _⟩
    · exact equal
    · simp [number] at nan

theorem alike_integer_equality : IntegerEquality alike where
  symm same := by
    rcases alike_iff.mp same with equal | ⟨hx, hy⟩
    · exact alike_iff.mpr (Or.inl (equal_integer_equality.symm equal))
    · exact alike_iff.mpr (Or.inr ⟨hy, hx⟩)
  trans left right := by
    rcases alike_iff.mp left with first | ⟨hx, hy⟩
    · rcases alike_iff.mp right with second | ⟨hy, _⟩
      · exact alike_iff.mpr (Or.inl (equal_integer_equality.trans first second))
      · simp [(equal_iff.mp first).2.1] at hy
    · rcases alike_iff.mp right with second | ⟨_, hz⟩
      · simp [(equal_iff.mp second).1] at hy
      · exact alike_iff.mpr (Or.inr ⟨hx, hz⟩)
  same_integer same := by
    rcases alike_iff.mp same with equal | ⟨hx, hy⟩
    · exact equal_integer_equality.same_integer equal
    · rw [nan_has_no_integer hx, nan_has_no_integer hy]
  of_integer left right := alike_iff.mpr (Or.inl (equal_of_integer left right))

theorem alike_refl (x : Binary64) : x.alike x = true := by
  cases nan : x.isNaN
  · exact alike_iff.mpr (Or.inl (equal_iff.mpr ⟨nan, nan, rfl⟩))
  · exact alike_iff.mpr (Or.inr ⟨nan, nan⟩)

end Binary64

namespace Value

open Binary64 (IntegerEquality)

def alike (a b : Value) : Bool := equalBy Binary64.alike a b

def NotNaN : Value → Prop
  | float x => x.isNaN = false
  | _ => True

instance : DecidablePred NotNaN
  | float x => inferInstanceAs (Decidable (x.isNaN = false))
  | null | bool _ | int _ | str _ | list _ | record _ => .isTrue trivial

def NaNFree (v : Value) : Prop := v.Everywhere NotNaN

instance (v : Value) : Decidable v.NaNFree := inferInstanceAs (Decidable (v.Everywhere NotNaN))

theorem well_formed_list {items : List Value} :
    (list items).WellFormed ↔ ∀ item ∈ items, item.WellFormed := by
  simp [WellFormed, NamesDistinct]

theorem well_formed_record {entries : List (String × Value)} :
    (record entries).WellFormed ↔
      (entries.map Prod.fst).Nodup ∧ ∀ entry ∈ entries, entry.2.WellFormed := by
  simp [WellFormed, NamesDistinct]

theorem equal_symm {sameReal : Binary64 → Binary64 → Bool} (rules : IntegerEquality sameReal)
    {a b : Value} (formedA : a.WellFormed) (formedB : b.WellFormed)
    (same : equalBy sameReal a b = true) : equalBy sameReal b a = true := by
  induction a using structural_induction generalizing b with
  | null => cases b <;> simp_all [equalBy]
  | bool x => cases b <;> simp_all [equalBy]
  | int i => cases b <;> simp_all [equalBy]
  | str s => cases b <;> simp_all [equalBy]
  | float x =>
    cases b with
    | float y => exact rules.symm same
    | int i => exact same
    | _ => simp [equalBy] at same
  | list as ih =>
    cases b with
    | list bs =>
      rw [equal_list_iff] at same ⊢
      refine (pairs_imp same ?_).flip
      intro x hx y hy xy
      exact ih x hx (well_formed_list.mp formedA x hx) (well_formed_list.mp formedB y hy) xy
    | _ => simp [equalBy] at same
  | record es ih =>
    cases b with
    | record fs =>
      obtain ⟨distinctE, formedE⟩ := well_formed_record.mp formedA
      obtain ⟨distinctF, formedF⟩ := well_formed_record.mp formedB
      obtain ⟨size, found⟩ := (equal_record_iff sameReal es fs).mp same
      refine (equal_record_iff sameReal fs es).mpr ⟨size.symm, ?_⟩
      -- the names of `es` are as many as those of `fs` and among them, so they are all
      have names : ∀ e ∈ es, e.1 ∈ fs.map Prod.fst := by
        intro e he
        obtain ⟨w, lookup, _⟩ := found e he
        exact lookup_isSome_iff.mp (by simp [lookup])
      intro f hf
      obtain ⟨e, he, name⟩ := name_of_equal_size distinctE size names hf
      obtain ⟨w, lookup, value⟩ := found e he
      have member : (f.1, f.2) ∈ fs := hf
      rw [name, lookup_of_mem distinctF member] at lookup
      cases lookup
      refine ⟨e.2, ?_, ih e he (formedE e he) (formedF f hf) value⟩
      rw [← name]
      exact lookup_of_mem distinctE he
    | _ => simp [equalBy] at same

theorem equal_trans {sameReal : Binary64 → Binary64 → Bool} (rules : IntegerEquality sameReal)
    {a b c : Value} (left : equalBy sameReal a b = true) (right : equalBy sameReal b c = true) :
    equalBy sameReal a c = true := by
  induction a using structural_induction generalizing b c with
  | null => cases b <;> cases c <;> simp_all [equalBy]
  | bool x => cases b <;> cases c <;> simp_all [equalBy]
  | str s => cases b <;> cases c <;> simp_all [equalBy]
  | int i =>
    cases b <;> cases c <;> simp_all [equalBy]
    case float.float x y => rw [← rules.same_integer right, left]
  | float x =>
    cases b <;> cases c <;> simp_all [equalBy]
    case float.float y z => exact rules.trans left right
    case float.int y i => rw [rules.same_integer left, right]
    case int.float i y => exact rules.of_integer left right
  | list as ih =>
    cases b <;> cases c <;> try simp [equalBy] at left right
    case list.list bs cs =>
      rw [equal_items_iff] at left right
      rw [equal_list_iff]
      exact pairs_trans left right fun x hx y z => ih x hx
  | record es ih =>
    cases b <;> cases c <;> try simp [equalBy] at left right
    case record.record fs gs =>
      rw [entries_found_iff] at left right
      refine (equal_record_iff sameReal es gs).mpr ⟨left.1.trans right.1, ?_⟩
      intro e he
      obtain ⟨w, lookup, first⟩ := left.2 e he
      obtain ⟨u, next, second⟩ := right.2 (e.1, w) (mem_of_lookup lookup)
      exact ⟨u, next, ih e he first second⟩

theorem alike_refl {a : Value} (formed : a.WellFormed) : a.alike a = true := by
  induction a using structural_induction with
  | null => rfl
  | bool b => simp [alike, equalBy]
  | int i => simp [alike, equalBy]
  | float x => exact Binary64.alike_refl x
  | str s => simp [alike, equalBy]
  | list items ih =>
    rw [alike, equal_list_iff, List.forall₂_same]
    intro item member
    exact ih item member (well_formed_list.mp formed item member)
  | record entries ih =>
    obtain ⟨distinct, inner⟩ := well_formed_record.mp formed
    rw [alike, equal_record_iff]
    refine ⟨rfl, fun e he => ⟨e.2, lookup_of_mem distinct he, ?_⟩⟩
    exact ih e he (inner e he)

theorem equal_iff_alike {a b : Value} :
    a.equal b = true ↔ a.alike b = true ∧ a.NaNFree := by
  induction a using structural_induction generalizing b with
  | null => cases b <;> simp [equal, alike, equalBy, NaNFree, Everywhere, NotNaN]
  | bool x => cases b <;> simp [equal, alike, equalBy, NaNFree, Everywhere, NotNaN]
  | int i => cases b <;> simp [equal, alike, equalBy, NaNFree, Everywhere, NotNaN]
  | str s => cases b <;> simp [equal, alike, equalBy, NaNFree, Everywhere, NotNaN]
  | float x =>
    cases b with
    | float y => exact Binary64.equal_iff_alike
    | int i =>
      simp only [equal, alike, equalBy, beq_iff_eq, NaNFree, Everywhere, NotNaN]
      exact ⟨fun found => ⟨found, Binary64.not_nan_of_exact_int found⟩, And.left⟩
    | _ => simp [equal, alike, equalBy]
  | list as ih =>
    cases b with
    | list bs =>
      have items : ∀ x ∈ as, ∀ y, equalBy Binary64.equal x y = true ↔
          x.NaNFree ∧ equalBy Binary64.alike x y = true :=
        fun x hx y => (ih x hx).trans and_comm
      rw [equal, alike, equal_list_iff, equal_list_iff]
      have free : (list as).NaNFree ↔ ∀ x ∈ as, x.NaNFree := by simp [NaNFree, NotNaN]
      rw [free, and_comm, ← List.forall₂_and_left]
      constructor
      · intro pairs
        exact pairs_imp pairs fun x hx y _ => (items x hx y).mp
      · intro pairs
        exact pairs_imp pairs fun x hx y _ => (items x hx y).mpr
    | _ => simp [equal, alike, equalBy]
  | record es ih =>
    cases b with
    | record fs =>
      have free : (record es).NaNFree ↔ ∀ e ∈ es, e.2.NaNFree := by simp [NaNFree, NotNaN]
      rw [equal, alike, equal_record_iff, equal_record_iff, free]
      constructor
      · rintro ⟨size, found⟩
        refine ⟨⟨size, fun e he => ?_⟩, fun e he => ?_⟩
        · obtain ⟨w, lookup, value⟩ := found e he
          exact ⟨w, lookup, ((ih e he).mp value).1⟩
        · obtain ⟨w, lookup, value⟩ := found e he
          exact ((ih e he).mp value).2
      · rintro ⟨⟨size, found⟩, numbers⟩
        refine ⟨size, fun e he => ?_⟩
        obtain ⟨w, lookup, value⟩ := found e he
        exact ⟨w, lookup, (ih e he).mpr ⟨value, numbers e he⟩⟩
    | _ => simp [equal, alike, equalBy]

/-- No NaN-free value is alike one that holds a NaN, so equality cannot tell alike
values apart. -/
theorem equal_of_alike {a b : Value} (formedA : a.WellFormed) (formedB : b.WellFormed)
    (same : a.alike b = true) (v : Value) : a.equal v = b.equal v := by
  have through {a b : Value} (formedA : a.WellFormed) (formedB : b.WellFormed)
      (same : a.alike b = true) (found : a.equal v = true) : b.equal v = true := by
    have equal : a.equal b = true := equal_iff_alike.mpr ⟨same, (equal_iff_alike.mp found).2⟩
    have back := equal_symm Binary64.equal_integer_equality formedA formedB equal
    exact equal_trans Binary64.equal_integer_equality back found
  rw [Bool.eq_iff_iff]
  exact ⟨through formedA formedB same,
    through formedB formedA (equal_symm Binary64.alike_integer_equality formedA formedB same)⟩

theorem equal_comm {a b : Value} (formedA : a.WellFormed) (formedB : b.WellFormed) :
    a.equal b = b.equal a := by
  rw [Bool.eq_iff_iff]
  exact ⟨equal_symm Binary64.equal_integer_equality formedA formedB,
    equal_symm Binary64.equal_integer_equality formedB formedA⟩

theorem text_of_alike {a b : Value} (same : a.alike b = true) : a.toText? = b.toText? := by
  cases a <;> cases b <;> simp_all [alike, equalBy, toText?]

end Value
end TableAlgebra

import TableAlgebra.Proofs.Number.Rounding
import TableAlgebra.Proofs.Value.Equality
import TableAlgebra.Value.Order

/-!
The order of values against their equality. Two things keep them apart. An
integer beyond 2^53 is compared with a binary64 number through its rounding, so
the order can call two numbers the same that are not equal. And records are
compared entry by entry as they are stored, so two that are equal as maps can
differ in the order. Where neither happens, the two agree on every value.
-/
namespace TableAlgebra

namespace Binary64

theorem order_eq_iff {x y : Binary64} : x.order y = .eq ↔ x.alike y = true := by
  rw [order, alike, equal]
  cases x.isNaN <;> cases y.isNaN <;> simp

theorem rounded_of_exact {x : Binary64} {i : Int64} (found : x.exactInt? = some i) :
    (ofInt i.toInt).alike x = true :=
  alike_iff.mpr (.inl (equal_iff.mpr
    ⟨of_int_not_nan _, not_nan_of_exact_int found, of_int_of_exact found⟩))

theorem exact_of_rounded {x : Binary64} {i : Int64} (small : i.toInt.natAbs ≤ 0x20000000000000)
    (same : (ofInt i.toInt).alike x = true) : x.exactInt? = some i := by
  rcases alike_iff.mp same with equal | ⟨nan, -⟩
  · rw [exact_int_eq_some_iff, ← (equal_iff.mp equal).2.2, of_small_int small]
  · simp [of_int_not_nan] at nan

end Binary64

namespace Value

open Binary64 (alike_integer_equality exact_of_rounded rounded_of_exact)

section Layout

mutual

/-- Lists have one length and records list the same names in the same order,
wherever both values have one. -/
def sameLayout : Value → Value → Bool
  | list a, list b => sameLayoutItems a b
  | record a, record b => sameLayoutEntries a b
  | _, _ => true

def sameLayoutItems : List Value → List Value → Bool
  | [], [] => true
  | a :: as, b :: bs => sameLayout a b && sameLayoutItems as bs
  | _, _ => false

def sameLayoutEntries : List (String × Value) → List (String × Value) → Bool
  | [], [] => true
  | (name, value) :: rest, (other, against) :: others =>
    (name == other && sameLayout value against) && sameLayoutEntries rest others
  | _, _ => false

end

theorem same_layout_list (as bs : List Value) :
    (list as).sameLayout (list bs) = true ↔
      List.Forall₂ (fun a b => a.sameLayout b = true) as bs := by
  rw [sameLayout]
  induction as generalizing bs with
  | nil => cases bs <;> simp [sameLayoutItems]
  | cons a as ih => cases bs <;> simp [sameLayoutItems, ih]

theorem same_layout_record (es fs : List (String × Value)) :
    (record es).sameLayout (record fs) = true ↔
      List.Forall₂ (fun e f => e.1 = f.1 ∧ e.2.sameLayout f.2 = true) es fs := by
  rw [sameLayout]
  induction es generalizing fs with
  | nil => cases fs <;> simp [sameLayoutEntries]
  | cons e es ih => cases fs <;> simp [sameLayoutEntries, ih]

end Layout

section Kinds

theorem order_of_kinds {a b : Value} (differ : a.kind ≠ b.kind) :
    a.order b = compare a.kind.rank b.kind.rank := by
  cases a <;> cases b <;> simp_all [order, kind]

theorem kind_of_order {a b : Value} (same : a.order b = .eq) : a.kind = b.kind := by
  by_contra differ
  rw [order_of_kinds differ, Std.compare_eq_iff_eq] at same
  exact differ (Kind.rank_injective same)

theorem order_list_iff (as bs : List Value) :
    (list as).order (list bs) = .eq ↔ List.Forall₂ (fun a b => a.order b = .eq) as bs := by
  rw [order]
  induction as generalizing bs with
  | nil => cases bs <;> simp [orderItems]
  | cons a as ih => cases bs <;> simp [orderItems, Ordering.then_eq_eq, ih]

theorem order_record_iff (es fs : List (String × Value)) :
    (record es).order (record fs) = .eq ↔
      List.Forall₂ (fun e f => e.1 = f.1 ∧ e.2.order f.2 = .eq) es fs := by
  rw [order]
  induction es generalizing fs with
  | nil => cases fs <;> simp [orderEntries]
  | cons e es ih =>
    cases fs <;> simp [orderEntries, Ordering.then_eq_eq, ih]

end Kinds

section Mixing

def NotReal : Value → Prop
  | float _ => False
  | _ => True

instance : DecidablePred NotReal
  | float _ => .isFalse id
  | null | bool _ | int _ | str _ | list _ | record _ => .isTrue trivial

def SmallInt : Value → Prop
  | int i => i.toInt.natAbs ≤ 0x20000000000000
  | _ => True

instance : DecidablePred SmallInt
  | int i => inferInstanceAs (Decidable (i.toInt.natAbs ≤ 0x20000000000000))
  | null | bool _ | float _ | str _ | list _ | record _ => .isTrue trivial

/-- Together the values hold, at any depth, no binary64 number at all or no
integer beyond 2^53, so no two numbers are compared through a rounding. -/
def Unmixed (values : List Value) : Prop :=
  (∀ v ∈ values, v.Everywhere NotReal) ∨ ∀ v ∈ values, v.Everywhere SmallInt

instance (values : List Value) : Decidable (Unmixed values) :=
  inferInstanceAs (Decidable ((∀ v ∈ values, v.Everywhere NotReal) ∨
    ∀ v ∈ values, v.Everywhere SmallInt))

theorem unmixed_of {values parts : List Value} (unmixed : Unmixed values)
    (inside : ∀ holds : Value → Prop, (∀ v ∈ values, v.Everywhere holds) →
      ∀ part ∈ parts, part.Everywhere holds) : Unmixed parts :=
  unmixed.imp (inside NotReal) (inside SmallInt)

theorem unmixed_among {values parts : List Value} (unmixed : Unmixed values)
    (inside : ∀ v ∈ parts, v ∈ values) : Unmixed parts :=
  unmixed_of unmixed fun _ everywhere part member => everywhere part (inside part member)

theorem unmixed_items {as bs : List Value} (unmixed : Unmixed [list as, list bs]) {x y : Value}
    (hx : x ∈ as) (hy : y ∈ bs) : Unmixed [x, y] := by
  refine unmixed_of unmixed fun holds everywhere => ?_
  simp only [List.mem_cons, List.not_mem_nil, or_false, forall_eq_or_imp, forall_eq,
    everywhere_list] at everywhere ⊢
  exact ⟨everywhere.1.2 x hx, everywhere.2.2 y hy⟩

theorem unmixed_entries {es fs : List (String × Value)} (unmixed : Unmixed [record es, record fs])
    {e f : String × Value} (he : e ∈ es) (hf : f ∈ fs) : Unmixed [e.2, f.2] := by
  refine unmixed_of unmixed fun holds everywhere => ?_
  simp only [List.mem_cons, List.not_mem_nil, or_false, forall_eq_or_imp, forall_eq,
    everywhere_record] at everywhere ⊢
  exact ⟨everywhere.1.2 e he, everywhere.2.2 f hf⟩

theorem unmixed_symm {a b : Value} (unmixed : Unmixed [a, b]) : Unmixed [b, a] :=
  unmixed_among unmixed fun part member => by simpa [or_comm] using member

theorem small_of_unmixed {i : Int64} {x : Binary64} (unmixed : Unmixed [int i, float x]) :
    i.toInt.natAbs ≤ 0x20000000000000 := by
  rcases unmixed with integers | small
  · exact absurd (integers (float x) (by simp)) id
  · exact small (int i) (by simp)

end Mixing

theorem layout_of_order {a b : Value} (same : a.order b = .eq) : a.sameLayout b = true := by
  induction a using structural_induction generalizing b with
  | list as ih =>
    cases b with
    | list bs =>
      rw [same_layout_list]
      exact pairs_imp ((order_list_iff as bs).mp same) fun x hx y _ xy => ih x hx xy
    | _ => rfl
  | record es ih =>
    cases b with
    | record fs =>
      rw [same_layout_record]
      exact pairs_imp ((order_record_iff es fs).mp same) fun e he f _ ef => ⟨ef.1, ih e he ef.2⟩
    | _ => rfl
  | _ => rfl

theorem alike_of_order {a b : Value} (formed : b.WellFormed) (unmixed : Unmixed [a, b])
    (same : a.order b = .eq) : a.alike b = true := by
  have kinds := kind_of_order same
  induction a using structural_induction generalizing b with
  | null => cases b <;> first | rfl | cases kinds
  | bool x =>
    cases b with
    | bool y => simpa [alike, equalBy, order, Std.compare_eq_iff_eq] using same
    | _ => cases kinds
  | str x =>
    cases b with
    | str y => simpa [alike, equalBy, order, Std.compare_eq_iff_eq] using same
    | _ => cases kinds
  | int i =>
    cases b with
    | int j => simpa [alike, equalBy, order, Std.compare_eq_iff_eq] using same
    | float y =>
      have exact := exact_of_rounded (small_of_unmixed unmixed) (Binary64.order_eq_iff.mp same)
      simp [alike, equalBy, exact]
    | _ => cases kinds
  | float x =>
    cases b with
    | int j =>
      have rounded := alike_integer_equality.symm (Binary64.order_eq_iff.mp same)
      have exact := exact_of_rounded (small_of_unmixed (unmixed_symm unmixed)) rounded
      simp [alike, equalBy, exact]
    | float y => exact Binary64.order_eq_iff.mp same
    | _ => cases kinds
  | list as ih =>
    cases b with
    | list bs =>
      rw [alike, equal_list_iff]
      exact pairs_imp ((order_list_iff as bs).mp same) fun x hx y hy xy =>
        ih x hx (well_formed_list.mp formed y hy) (unmixed_items unmixed hx hy) xy (kind_of_order xy)
    | _ => cases kinds
  | record es ih =>
    cases b with
    | record fs =>
      obtain ⟨distinct, inner⟩ := well_formed_record.mp formed
      have pairs := (order_record_iff es fs).mp same
      refine (equal_record_iff _ es fs).mpr ⟨pairs.length_eq, fun e he => ?_⟩
      obtain ⟨f, hf, name, value⟩ := pairs_left pairs he
      refine ⟨f.2, ?_, ih e he (inner f hf) (unmixed_entries unmixed he hf) value
        (kind_of_order value)⟩
      rw [name]
      exact lookup_of_mem distinct hf
    | _ => cases kinds

theorem order_of_alike {a b : Value} (formed : b.WellFormed) (same : a.alike b = true)
    (layout : a.sameLayout b = true) : a.order b = .eq := by
  induction a using structural_induction generalizing b with
  | null => cases b <;> simp_all [alike, equalBy, order]
  | bool x => cases b <;> simp_all [alike, equalBy, order]
  | str x => cases b <;> simp_all [alike, equalBy, order]
  | int i =>
    cases b with
    | int j => simp_all [alike, equalBy, order]
    | float y =>
      have exact : y.exactInt? = some i := by simpa [alike, equalBy] using same
      exact Binary64.order_eq_iff.mpr (rounded_of_exact exact)
    | _ => simp [alike, equalBy] at same
  | float x =>
    cases b with
    | int j =>
      have exact : x.exactInt? = some j := by simpa [alike, equalBy] using same
      exact Binary64.order_eq_iff.mpr (alike_integer_equality.symm (rounded_of_exact exact))
    | float y => exact Binary64.order_eq_iff.mpr same
    | _ => simp [alike, equalBy] at same
  | list as ih =>
    cases b with
    | list bs =>
      rw [order_list_iff]
      have both := List.Forall₂.mp (fun _ _ => And.intro) ((equal_list_iff _ as bs).mp same)
        ((same_layout_list as bs).mp layout)
      exact pairs_imp both fun x hx y hy xy =>
        ih x hx (well_formed_list.mp formed y hy) xy.1 xy.2
    | _ => simp [alike, equalBy] at same
  | record es ih =>
    cases b with
    | record fs =>
      obtain ⟨distinct, inner⟩ := well_formed_record.mp formed
      rw [order_record_iff]
      refine pairs_imp ((same_layout_record es fs).mp layout) fun e he f hf both => ?_
      obtain ⟨name, laid⟩ := both
      -- the entry that equality looks up by name is the one at the same place
      obtain ⟨w, found, value⟩ := ((equal_record_iff _ es fs).mp same).2 e he
      rw [name, lookup_of_mem distinct hf] at found
      cases found
      exact ⟨name, ih e he (inner f hf) value laid⟩
    | _ => simp [alike, equalBy] at same

/-- Equality and order agree but for two things. Equal values have one place in
the order if their records list the same names in the same order; and if no
integer beyond 2^53 stands beside a binary64 number, values of one place are
equal and laid out alike. Then they also compare as equal, unless they are null. -/
theorem equality_and_order_agree {a b : Value} (formed : b.WellFormed) (free : a.NaNFree) :
    ((a == b) = true → a.sameLayout b = true → a.order b = .eq) ∧
    (Unmixed [a, b] → a.order b = .eq → (a == b) = true ∧ a.sameLayout b = true) ∧
    (a.order b = .eq → a.compare? b = if a.kind = .null then none else some .eq) := by
  refine ⟨?_, ?_, ?_⟩
  · intro same layout
    exact order_of_alike formed (equal_iff_alike.mp same).1 layout
  · intro unmixed same
    exact ⟨equal_iff_alike.mpr ⟨alike_of_order formed unmixed same, free⟩, layout_of_order same⟩
  · intro same
    rw [compare?, same]
    simp [kind_of_order same]

def wholeNumbers : Value :=
  .record [("limit", .int 9007199254740992), ("ones", .list [.int 1, .null])]

def realNumbers : Value :=
  .record [("limit", .float ⟨0x4340000000000000⟩), ("ones", .list [.float ⟨0x3ff0000000000000⟩, .null])]

theorem whole_and_real_numbers_agree :
    realNumbers.WellFormed ∧ wholeNumbers.NaNFree ∧ Unmixed [wholeNumbers, realNumbers] ∧
    wholeNumbers.order realNumbers = .eq ∧ (wholeNumbers == realNumbers) = true ∧
    wholeNumbers.compare? realNumbers = some .eq := by
  have formed : realNumbers.WellFormed := by decide
  have free : wholeNumbers.NaNFree := by decide
  have unmixed : Unmixed [wholeNumbers, realNumbers] := by decide
  have order : wholeNumbers.order realNumbers = .eq := by decide +kernel
  obtain ⟨-, equal, compare⟩ := equality_and_order_agree formed free
  exact ⟨formed, free, unmixed, order, (equal unmixed order).1, compare order⟩

/-- The first integer that is rounded has the place of the number it is rounded
to and does not equal it; a record and itself in another order are equal and have
two places. -/
theorem equality_and_order_differ :
    (int 9007199254740993).order (float ⟨0x4340000000000000⟩) = .eq ∧
    (int 9007199254740993 == float ⟨0x4340000000000000⟩) = false ∧
    (record [("x", int 1), ("y", int 2)] == record [("y", int 2), ("x", int 1)]) = true ∧
    (record [("x", int 1), ("y", int 2)]).order (record [("y", int 2), ("x", int 1)]) = .lt := by
  decide +kernel

end Value
end TableAlgebra

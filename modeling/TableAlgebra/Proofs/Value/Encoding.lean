import Mathlib.Data.List.Nodup
import TableAlgebra.Proofs.Bytes
import TableAlgebra.Proofs.Value.Equality

/-!
The bytes of a value against its equality. Values that are alike have the same
bytes, and from the front of a longer byte string no two values can be read
that are not alike. The lengths written in front of texts, lists and records
have to fit a word for that.
-/
namespace TableAlgebra
namespace Value

open Binary64 (alike_integer_equality)

def FitsWords : Value → Prop
  | str s => (utf8Bytes s).length < wordCount
  | list items => items.length < wordCount
  | record entries =>
    entries.length < wordCount ∧ ∀ entry ∈ entries, (utf8Bytes entry.1).length < wordCount
  | _ => True

instance : DecidablePred FitsWords
  | str s => inferInstanceAs (Decidable ((utf8Bytes s).length < wordCount))
  | list items => inferInstanceAs (Decidable (items.length < wordCount))
  | record entries => inferInstanceAs (Decidable (entries.length < wordCount ∧
      ∀ entry ∈ entries, (utf8Bytes entry.1).length < wordCount))
  | null | bool _ | int _ | float _ => .isTrue trivial

/-- What every value in memory satisfies: the names in a record are distinct, and
the lengths of texts, lists and records are words. -/
structure Storable (v : Value) : Prop where
  formed : v.WellFormed
  sized : v.Everywhere FitsWords

instance (v : Value) : Decidable v.Storable :=
  decidable_of_iff (v.WellFormed ∧ v.Everywhere FitsWords)
    ⟨fun both => ⟨both.1, both.2⟩, fun storable => ⟨storable.formed, storable.sized⟩⟩

theorem storable_null : null.Storable := ⟨trivial, trivial⟩

theorem storable_list {items : List Value} :
    (list items).Storable ↔ items.length < wordCount ∧ ∀ item ∈ items, item.Storable := by
  constructor
  · rintro ⟨formed, sized⟩
    obtain ⟨size, inner⟩ := (everywhere_list items).mp sized
    exact ⟨size, fun item member => ⟨well_formed_list.mp formed item member, inner item member⟩⟩
  · rintro ⟨size, inner⟩
    exact ⟨well_formed_list.mpr fun item member => (inner item member).formed,
      (everywhere_list items).mpr ⟨size, fun item member => (inner item member).sized⟩⟩

theorem storable_record {entries : List (String × Value)} :
    (record entries).Storable ↔
      (entries.map Prod.fst).Nodup ∧ entries.length < wordCount ∧
        ∀ entry ∈ entries, (utf8Bytes entry.1).length < wordCount ∧ entry.2.Storable := by
  constructor
  · rintro ⟨formed, sized⟩
    obtain ⟨distinct, formed⟩ := well_formed_record.mp formed
    obtain ⟨⟨size, names⟩, inner⟩ := (everywhere_record entries).mp sized
    exact ⟨distinct, size, fun entry member =>
      ⟨names entry member, formed entry member, inner entry member⟩⟩
  · rintro ⟨distinct, size, inner⟩
    refine ⟨well_formed_record.mpr ⟨distinct, fun entry member => (inner entry member).2.formed⟩, ?_⟩
    refine (everywhere_record entries).mpr ⟨⟨size, fun entry member => (inner entry member).1⟩, ?_⟩
    exact fun entry member => (inner entry member).2.sized

section Numbers

theorem int_bytes_split {i j : Int64} {s t : List UInt8}
    (same : intBytes i ++ s = intBytes j ++ t) : i = j ∧ s = t := by
  simp only [intBytes, List.cons_append, List.cons.injEq, true_and] at same
  obtain ⟨words, rest⟩ := word_split i.toUInt64.toNat_lt j.toUInt64.toNat_lt same
  exact ⟨by simpa using congrArg UInt64.toInt64 (UInt64.toNat_inj.mp words), rest⟩

theorem float_bytes_integer {x : Binary64} {i : Int64} (found : x.exactInt? = some i) :
    floatBytes x = intBytes i := by
  simp only [floatBytes, found]

theorem float_bytes_other {x : Binary64} (none : x.exactInt? = none) :
    floatBytes x = 3 :: wordBytes (if x.isNaN then Binary64.nan else x).bits.toNat := by
  simp only [floatBytes, none]

theorem int_float_split {i : Int64} {x : Binary64} {s t : List UInt8}
    (same : intBytes i ++ s = floatBytes x ++ t) : x.exactInt? = some i ∧ s = t := by
  cases found : x.exactInt? with
  | none => simp [float_bytes_other found, intBytes] at same
  | some j =>
    rw [float_bytes_integer found] at same
    obtain ⟨integers, rest⟩ := int_bytes_split same
    exact ⟨by rw [integers], rest⟩

theorem alike_of_written {x y : Binary64}
    (same : (if x.isNaN then Binary64.nan else x) = if y.isNaN then Binary64.nan else y) :
    x.alike y = true := by
  have written : Binary64.nan.isNaN = true := by decide
  cases hx : x.isNaN <;> cases hy : y.isNaN <;> simp only [hx, hy, if_true] at same
  · simp only [Bool.false_eq_true, if_false] at same
    rw [same]
    exact Binary64.alike_refl y
  · simp only [Bool.false_eq_true, if_false] at same
    simp [same, written] at hx
  · simp only [Bool.false_eq_true, if_false] at same
    simp [← same, written] at hy
  · exact Binary64.alike_iff.mpr (Or.inr ⟨hx, hy⟩)

theorem float_bytes_split {x y : Binary64} {s t : List UInt8}
    (same : floatBytes x ++ s = floatBytes y ++ t) : x.alike y = true ∧ s = t := by
  cases found : x.exactInt? with
  | some i =>
    rw [float_bytes_integer found] at same
    obtain ⟨other, rest⟩ := int_float_split same
    exact ⟨alike_integer_equality.of_integer found other, rest⟩
  | none =>
    cases other : y.exactInt? with
    | some j =>
      rw [float_bytes_integer other] at same
      obtain ⟨absurd, _⟩ := int_float_split same.symm
      simp [found] at absurd
    | none =>
      rw [float_bytes_other found, float_bytes_other other] at same
      simp only [List.cons_append, List.cons.injEq, true_and] at same
      obtain ⟨words, rest⟩ := word_split (UInt64.toNat_lt _) (UInt64.toNat_lt _) same
      exact ⟨alike_of_written (Binary64.eq_of_bits words), rest⟩

theorem float_bytes_alike {x y : Binary64} (same : x.alike y = true) :
    floatBytes x = floatBytes y := by
  have integers := alike_integer_equality.same_integer same
  cases found : x.exactInt? with
  | some i => rw [float_bytes_integer found, float_bytes_integer (integers.symm.trans found)]
  | none =>
    rw [float_bytes_other found, float_bytes_other (integers.symm.trans found)]
    rcases Binary64.alike_iff.mp same with equal | ⟨hx, hy⟩
    · have nonzero : x.units ≠ 0 := by
        intro zero
        have integer : x.exactInt? = some 0 := Binary64.exact_int_eq_some_iff.mpr (by simp [zero])
        simp [found] at integer
      rw [Binary64.eq_of_units (Binary64.equal_iff.mp equal).2.2 nonzero]
    · rw [if_pos hx, if_pos hy]

end Numbers

section Records

theorem mem_sort_entries {α : Type} {entries : List (String × α)} {entry : String × α} :
    entry ∈ sortEntries entries ↔ entry ∈ entries := List.mem_mergeSort

theorem sort_entries_perm {α : Type} {es fs : List (String × α)}
    (distinct : (es.map Prod.fst).Nodup) (perm : es.Perm fs) : sortEntries es = sortEntries fs := by
  have sorted : ∀ entries : List (String × α),
      (sortEntries entries).Pairwise fun a b => (compare a.1 b.1).isLE = true := by
    refine List.pairwise_mergeSort ?_ ?_
    · exact fun a b c => Std.TransOrd.isLE_trans
    · intro a b
      rw [Std.OrientedOrd.eq_swap (a := b.1)]
      cases compare a.1 b.1 <;> rfl
  refine List.Perm.eq_of_pairwise ?_ (sorted es) (sorted fs)
    ((List.mergeSort_perm _ _).trans (perm.trans (List.mergeSort_perm _ _).symm))
  intro a b ha hb below above
  have name : a.1 = b.1 := Std.LawfulEqOrd.eq_of_compare (Std.OrientedCmp.isLE_antisymm below above)
  exact List.inj_on_of_nodup_map distinct (mem_sort_entries.mp ha)
    (perm.mem_iff.mpr (mem_sort_entries.mp hb)) name

def entryBytes (entry : String × Value) : List UInt8 := textBytes entry.1 ++ entry.2.encode

theorem encode_record (entries : List (String × Value)) :
    (record entries).encode =
      6 :: wordBytes entries.length ++ (sortEntries entries).flatMap entryBytes := by
  have sorted : sortEntries (encodeEntries entries) = encodeEntries (sortEntries entries) := by
    rw [encode_entries_eq, encode_entries_eq]
    exact (@List.map_mergeSort _ _ _ _ (fun entry => (entry.1, entry.2.encode)) entries
      fun _ _ _ _ => rfl).symm
  rw [encode, sorted, encode_entries_eq, List.flatMap_map]
  rfl

end Records

theorem encode_list (items : List Value) :
    (list items).encode = 5 :: wordBytes items.length ++ items.flatMap encode := by
  rw [encode, encode_items_eq]

def kindOfTag (tag : UInt8) : Kind :=
  if tag = 0 then .null
  else if tag = 1 then .bool
  else if tag = 2 ∨ tag = 3 then .number
  else if tag = 4 then .string
  else if tag = 5 then .list
  else .record

theorem encode_tag (v : Value) : ∃ tag rest, v.encode = tag :: rest ∧ kindOfTag tag = v.kind := by
  cases v with
  | float x =>
    cases found : x.exactInt? with
    | none => exact ⟨3, _, float_bytes_other found, rfl⟩
    | some i => exact ⟨2, _, float_bytes_integer found, rfl⟩
  | _ => exact ⟨_, _, rfl, rfl⟩

theorem encode_ne_nil (v : Value) : v.encode ≠ [] := by
  obtain ⟨tag, rest, bytes, _⟩ := encode_tag v
  simp [bytes]

theorem same_kind {a b : Value} {s t : List UInt8} (same : a.encode ++ s = b.encode ++ t) :
    a.kind = b.kind := by
  obtain ⟨left, _, bytesA, kindA⟩ := encode_tag a
  obtain ⟨right, _, bytesB, kindB⟩ := encode_tag b
  rw [bytesA, bytesB] at same
  rw [← kindA, ← kindB, (List.cons.inj same).1]

/-- Two values at the front of one byte string are alike and end at one place. -/
theorem encode_split {a b : Value} (storableA : a.Storable) (storableB : b.Storable)
    {s t : List UInt8} (same : a.encode ++ s = b.encode ++ t) : a.alike b = true ∧ s = t := by
  have kinds := same_kind same
  induction a using structural_induction generalizing b s t with
  | null =>
    cases b with
    | null => exact ⟨rfl, by simpa [encode] using same⟩
    | _ => cases kinds
  | bool x =>
    cases b with
    | bool y => cases x <;> cases y <;> simp_all [encode, alike, equalBy]
    | _ => cases kinds
  | int i =>
    cases b with
    | int j =>
      obtain ⟨integers, rest⟩ := int_bytes_split same
      exact ⟨by simp [alike, equalBy, integers], rest⟩
    | float y =>
      obtain ⟨integer, rest⟩ := int_float_split same
      exact ⟨by simp [alike, equalBy, integer], rest⟩
    | _ => cases kinds
  | float x =>
    cases b with
    | int j =>
      obtain ⟨integer, rest⟩ := int_float_split same.symm
      exact ⟨by simp [alike, equalBy, integer], rest.symm⟩
    | float y => exact float_bytes_split same
    | _ => cases kinds
  | str x =>
    cases b with
    | str y =>
      simp only [encode, List.cons_append, List.cons.injEq, true_and] at same
      obtain ⟨texts, rest⟩ := text_split storableA.sized storableB.sized same
      exact ⟨by simp [alike, equalBy, texts], rest⟩
    | _ => cases kinds
  | list as ih =>
    cases b with
    | list bs =>
      obtain ⟨sizeA, innerA⟩ := storable_list.mp storableA
      obtain ⟨sizeB, innerB⟩ := storable_list.mp storableB
      simp only [encode_list, List.cons_append, List.append_assoc, List.cons.injEq,
        true_and] at same
      obtain ⟨size, items⟩ := word_split sizeA sizeB same
      obtain ⟨pairs, rest⟩ := parts_split (R := fun x y => x.alike y = true)
        (fun x hx y hy s t bytes => ih x hx (innerA x hx) (innerB y hy) bytes (same_kind bytes))
        size items
      exact ⟨(equal_list_iff _ as bs).mpr pairs, rest⟩
    | _ => cases kinds
  | record es ih =>
    cases b with
    | record fs =>
      obtain ⟨distinctE, sizeE, innerE⟩ := storable_record.mp storableA
      obtain ⟨distinctF, sizeF, innerF⟩ := storable_record.mp storableB
      simp only [encode_record, List.cons_append, List.append_assoc, List.cons.injEq,
        true_and] at same
      obtain ⟨size, entries⟩ := word_split sizeE sizeF same
      have sorted : (sortEntries es).length = (sortEntries fs).length := by
        simp [sortEntries, size]
      -- sorted entries match one by one: first the name, then the value under it
      obtain ⟨pairs, rest⟩ := parts_split (R := fun e f => e.1 = f.1 ∧ e.2.alike f.2 = true)
        (fun e he f hf s t bytes => by
          obtain ⟨nameE, valueE⟩ := innerE e (mem_sort_entries.mp he)
          obtain ⟨nameF, valueF⟩ := innerF f (mem_sort_entries.mp hf)
          simp only [entryBytes, List.append_assoc] at bytes
          obtain ⟨name, others⟩ := text_split nameE nameF bytes
          obtain ⟨value, tails⟩ :=
            ih e (mem_sort_entries.mp he) valueE valueF others (same_kind others)
          exact ⟨⟨name, value⟩, tails⟩) sorted entries
      refine ⟨(equal_record_iff _ es fs).mpr ⟨size, fun e he => ?_⟩, rest⟩
      obtain ⟨f, hf, name, value⟩ := pairs_left pairs (mem_sort_entries.mpr he)
      refine ⟨f.2, ?_, value⟩
      rw [name]
      exact lookup_of_mem distinctF (mem_sort_entries.mp hf)
    | _ => cases kinds

theorem encode_alike {a b : Value} (formedA : a.WellFormed) (formedB : b.WellFormed)
    (same : a.alike b = true) : a.encode = b.encode := by
  induction a using structural_induction generalizing b with
  | null => cases b <;> simp_all [alike, equalBy]
  | bool x => cases b <;> simp_all [alike, equalBy]
  | str x => cases b <;> simp_all [alike, equalBy]
  | int i =>
    cases b with
    | int j => simp_all [alike, equalBy]
    | float y => exact (float_bytes_integer (by simpa [alike, equalBy] using same)).symm
    | _ => simp [alike, equalBy] at same
  | float x =>
    cases b with
    | int j => exact float_bytes_integer (by simpa [alike, equalBy] using same)
    | float y => exact float_bytes_alike same
    | _ => simp [alike, equalBy] at same
  | list as ih =>
    cases b with
    | list bs =>
      have pairs := (equal_list_iff _ as bs).mp same
      have bytes : List.Forall₂ (fun x y => x.encode = y.encode) as bs :=
        pairs_imp pairs fun x hx y hy xy =>
          ih x hx (well_formed_list.mp formedA x hx) (well_formed_list.mp formedB y hy) xy
      rw [encode_list, encode_list, pairs.length_eq, parts_join bytes]
    | _ => simp [alike, equalBy] at same
  | record es ih =>
    cases b with
    | record fs =>
      obtain ⟨distinctE, formedE⟩ := well_formed_record.mp formedA
      obtain ⟨distinctF, formedF⟩ := well_formed_record.mp formedB
      obtain ⟨size, found⟩ := (equal_record_iff _ es fs).mp same
      have included : encodeEntries es ⊆ encodeEntries fs := by
        rw [encode_entries_eq, encode_entries_eq]
        intro entry member
        obtain ⟨e, he, rfl⟩ := List.mem_map.mp member
        obtain ⟨w, lookup, value⟩ := found e he
        have other := mem_of_lookup lookup
        rw [ih e he (formedE e he) (formedF _ other) value]
        exact List.mem_map.mpr ⟨(e.1, w), other, rfl⟩
      have names : ((encodeEntries es).map Prod.fst).Nodup := by
        simpa [encode_entries_eq, Function.comp_def] using distinctE
      have perm : (encodeEntries es).Perm (encodeEntries fs) :=
        (List.subperm_of_subset (List.Nodup.of_map _ names) included).perm_of_length_le
          (by simp [encode_entries_eq, size])
      rw [encode, encode, size, sort_entries_perm names perm]
    | _ => simp [alike, equalBy] at same

theorem encode_eq_iff_alike {a b : Value} (storableA : a.Storable) (storableB : b.Storable) :
    a.encode = b.encode ↔ a.alike b = true := by
  constructor
  · intro same
    exact (encode_split storableA storableB (by rw [same] : a.encode ++ [] = b.encode ++ [])).1
  · exact encode_alike storableA.formed storableB.formed

end Value
end TableAlgebra

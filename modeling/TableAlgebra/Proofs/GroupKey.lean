import TableAlgebra.Proofs.Projection
import TableAlgebra.Proofs.Value.Encoding

namespace TableAlgebra

open Value (alike_refl encode_alike encode_split equal_iff_alike equal_symm equal_trans)

namespace Row

/-- Every cell holds a value as it can stand in memory. -/
def Storable (row : Row) : Prop := ∀ cell ∈ row.cells.toList, cell.2.Storable

instance (row : Row) : Decidable row.Storable :=
  inferInstanceAs (Decidable (∀ cell ∈ row.cells.toList, cell.2.Storable))

def WellFormed (row : Row) : Prop := ∀ cell ∈ row.cells.toList, cell.2.WellFormed

instance (row : Row) : Decidable row.WellFormed :=
  inferInstanceAs (Decidable (∀ cell ∈ row.cells.toList, cell.2.WellFormed))

theorem value_of_cells {row : Row} {p : Value → Prop} (null : p .null)
    (cells : ∀ cell ∈ row.cells.toList, p cell.2) (column : String) : p (row.value column) := by
  rw [value, get?, Entries.get?]
  cases found : row.cells.toList.lookup column with
  | none => exact null
  | some v => exact cells (column, v) (mem_of_lookup found)

theorem value_storable {row : Row} (storable : row.Storable) (column : String) :
    (row.value column).Storable := value_of_cells Value.storable_null storable column

theorem value_well_formed {row : Row} (formed : row.WellFormed) (column : String) :
    (row.value column).WellFormed := value_of_cells trivial formed column

variable {r q : Row} {C D : List String}

theorem key_bytes_split (storableR : r.Storable) (storableQ : q.Storable)
    (sizeC : C.length < wordCount) (sizeD : D.length < wordCount) {s t : List UInt8}
    (same : r.keyBytes C ++ s = q.keyBytes D ++ t) :
    List.Forall₂ (fun c d => (r.value c).alike (q.value d) = true) C D ∧ s = t := by
  simp only [keyBytes, List.append_assoc] at same
  obtain ⟨size, values⟩ := word_split sizeC sizeD same
  exact parts_split (fun c _ d _ s t bytes =>
    encode_split (value_storable storableR c) (value_storable storableQ d) bytes) size values

theorem key_bytes_eq_iff (storableR : r.Storable) (storableQ : q.Storable)
    (sizeC : C.length < wordCount) (sizeD : D.length < wordCount) :
    r.keyBytes C = q.keyBytes D ↔
      List.Forall₂ (fun c d => (r.value c).alike (q.value d) = true) C D := by
  constructor
  · intro same
    exact (key_bytes_split storableR storableQ sizeC sizeD
      (by rw [same] : r.keyBytes C ++ [] = q.keyBytes D ++ [])).1
  · intro pairs
    have values := pairs.imp fun c d => encode_alike (value_storable storableR c).formed
      (value_storable storableQ d).formed
    rw [keyBytes, keyBytes, pairs.length_eq, parts_join values]

theorem key_bytes_eq_iff_each (storableR : r.Storable) (storableQ : q.Storable) :
    r.keyBytes C = q.keyBytes C ↔ ∀ c ∈ C, (r.value c).alike (q.value c) = true := by
  constructor
  · intro same
    have values : (C.flatMap fun c => (r.value c).encode) = C.flatMap fun c => (q.value c).encode :=
      List.append_cancel_left same
    have split : ∀ c ∈ C, ∀ d ∈ C, ∀ s t, (r.value c).encode ++ s = (q.value d).encode ++ t →
        (r.value c).alike (q.value d) = true ∧ s = t := fun c _ d _ s t =>
      encode_split (value_storable storableR c) (value_storable storableQ d)
    exact List.forall₂_same.mp (parts_split split rfl (congrArg (· ++ []) values)).1
  · intro each
    exact key_bytes_of_each fun c listed => encode_alike (value_storable storableR c).formed
      (value_storable storableQ c).formed (each c listed)

theorem coarser_key (storableR : r.Storable) (storableQ : q.Storable)
    (contained : ∀ c ∈ C, c ∈ D) (same : r.keyBytes D = q.keyBytes D) :
    r.keyBytes C = q.keyBytes C := by
  rw [key_bytes_eq_iff_each storableR storableQ] at same ⊢
  exact fun c listed => same c (contained c listed)

end Row

namespace Value

theorem tuple_bytes_eq_iff {vs ws : List Value} (storableV : ∀ v ∈ vs, v.Storable)
    (storableW : ∀ w ∈ ws, w.Storable) :
    vs.flatMap encode = ws.flatMap encode ↔
      List.Forall₂ (fun v w => v.alike w = true) vs ws := by
  constructor
  · exact parts_split_all (fun v hv w hw s t => encode_split (storableV v hv) (storableW w hw))
      encode_ne_nil encode_ne_nil
  · intro pairs
    exact parts_join (pairs_imp pairs fun v hv w hw =>
      encode_alike (storableV v hv).formed (storableW w hw).formed)

theorem equal_iff_encode {a b : Value} (storableA : a.Storable) (storableB : b.Storable) :
    (a == b) = true ↔ a.encode = b.encode ∧ a.NaNFree := by
  rw [encode_eq_iff_alike storableA storableB]
  exact equal_iff_alike

theorem equal_self_iff {a : Value} (formed : a.WellFormed) : (a == a) = true ↔ a.NaNFree :=
  equal_iff_alike.trans ⟨And.right, fun free => ⟨alike_refl formed, free⟩⟩

theorem encode_entry_order {es fs : List (String × Value)} (distinct : (es.map Prod.fst).Nodup)
    (perm : es.Perm fs) : (record es).encode = (record fs).encode := by
  rw [encode_record, encode_record, perm.length_eq, sort_entries_perm distinct perm]

end Value

/-- Group keys decide equality. Part by part: the bytes behind a key against the
values of its columns, with a count so that no key's bytes begin another's; the
bytes of one value against `==`; the laws of `==`; entries in another order; and
the bytes of several values without a count. -/
theorem key_bytes_decide_equality :
    (∀ (r q : Row) (C D : List String), r.Storable → q.Storable → C.length < wordCount →
      D.length < wordCount →
      (r.keyBytes C = q.keyBytes D ↔
        List.Forall₂ (fun c d => (r.value c).alike (q.value d) = true) C D) ∧
      ∀ s t, r.keyBytes C ++ s = q.keyBytes D ++ t → r.keyBytes C = q.keyBytes D) ∧
    (∀ a b : Value, a.Storable → b.Storable →
      ((a == b) = true ↔ a.encode = b.encode ∧ a.NaNFree)) ∧
    (∀ a b : Value, a.WellFormed → b.WellFormed → (a == b) = true → (b == a) = true) ∧
    (∀ a b c : Value, (a == b) = true → (b == c) = true → (a == c) = true) ∧
    (∀ a : Value, a.WellFormed → ((a == a) = true ↔ a.NaNFree)) ∧
    (∀ es fs : List (String × Value), (es.map Prod.fst).Nodup → es.Perm fs →
      (Value.record es).encode = (Value.record fs).encode) ∧
    (∀ vs ws : List Value, (∀ v ∈ vs, v.Storable) → (∀ w ∈ ws, w.Storable) →
      (vs.flatMap Value.encode = ws.flatMap Value.encode ↔
        List.Forall₂ (fun v w => v.alike w = true) vs ws)) := by
  refine ⟨?_, ?_, ?_, ?_, ?_, ?_, ?_⟩
  · intro r q C D storableR storableQ sizeC sizeD
    refine ⟨Row.key_bytes_eq_iff storableR storableQ sizeC sizeD, fun s t same => ?_⟩
    exact (Row.key_bytes_eq_iff storableR storableQ sizeC sizeD).mpr
      (Row.key_bytes_split storableR storableQ sizeC sizeD same).1
  · exact fun a b => Value.equal_iff_encode
  · exact fun a b => equal_symm Binary64.equal_integer_equality
  · exact fun a b c => equal_trans Binary64.equal_integer_equality
  · exact fun a => Value.equal_self_iff
  · exact fun es fs => Value.encode_entry_order
  · exact fun vs ws => Value.tuple_bytes_eq_iff

def payloadRow : Row :=
  .ofCells (.ofList [("n", .int 1),
    ("m", .record [("a", .float ⟨0x7ff0000000000001⟩), ("b", .list [.float .zero])])])

def plainRow : Row :=
  .ofCells (.ofList [
    ("y", .record [("b", .list [.float .negativeZero]), ("a", .float .nan)]),
    ("x", .float ⟨0x3ff0000000000000⟩)])

/-- Two rows with one key: an integer against a float, entries in another order,
signed zeros, two NaNs, and columns that neither row has. The two records are
not equal, since they hold NaNs. -/
theorem key_bytes_of_payload_and_plain_row :
    payloadRow.Storable ∧ plainRow.Storable ∧
    payloadRow.keyBytes ["n", "m", "p"] = plainRow.keyBytes ["x", "y", "q"] ∧
    payloadRow.keyBytes ["n", "m"] ≠ plainRow.keyBytes ["y", "x"] ∧
    (payloadRow.value "m" == plainRow.value "y") = false ∧
    (payloadRow.value "n" == plainRow.value "x") = true ∧
    (plainRow.value "x" == payloadRow.value "n") = true := by
  have payload : payloadRow.Storable := by decide +kernel
  have plain : plainRow.Storable := by decide +kernel
  obtain ⟨keys, single, symm, _⟩ := key_bytes_decide_equality
  have one : (payloadRow.value "n" == plainRow.value "x") = true := by
    refine (single _ _ (by decide +kernel) (by decide +kernel)).mpr ⟨?_, ?_⟩ <;> decide +kernel
  refine ⟨payload, plain, ?_, ?_, ?_, one, symm _ _ (by decide +kernel) (by decide +kernel) one⟩
  · refine (keys _ _ _ _ payload plain (by decide) (by decide)).1.mpr ?_
    exact .cons (by decide +kernel) (.cons (by decide +kernel) (.cons (by decide +kernel) .nil))
  · intro same
    cases (keys _ _ _ _ payload plain (by decide) (by decide)).1.mp same with
    | cons first _ => exact absurd first (by decide +kernel)
  · rw [Bool.eq_false_iff]
    intro equal
    exact absurd ((single _ _ (by decide +kernel) (by decide +kernel)).mp equal).2
      (by decide +kernel)

end TableAlgebra

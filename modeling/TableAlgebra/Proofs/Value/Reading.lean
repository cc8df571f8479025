import TableAlgebra.Proofs.Json.Reading
import TableAlgebra.Proofs.Value.JsonForm

namespace TableAlgebra
namespace Value

mutual

def depth : Value → Nat
  | list items => depthItems items + 1
  | record entries => depthEntries entries + 1
  | _ => 0

def depthItems : List Value → Nat
  | [] => 0
  | item :: rest => max item.depth (depthItems rest)

def depthEntries : List (String × Value) → Nat
  | [] => 0
  | (_, value) :: rest => max value.depth (depthEntries rest)

end

theorem depth_items_le {items : List Value} {n : Nat} :
    depthItems items ≤ n ↔ ∀ item ∈ items, item.depth ≤ n := by
  induction items with
  | nil => simp [depthItems]
  | cons item rest ih => rw [depthItems, Nat.max_le, ih, List.forall_mem_cons]

theorem depth_entries_le {entries : List (String × Value)} {n : Nat} :
    depthEntries entries ≤ n ↔ ∀ entry ∈ entries, entry.2.depth ≤ n := by
  induction entries with
  | nil => simp [depthEntries]
  | cons entry rest ih => rw [depthEntries, Nat.max_le, ih, List.forall_mem_cons]

/-- A finite binary64 number is what its written text is read as. -/
def ReadsBack : Value → Prop
  | float x => x.isFinite → Document.number? (writeReal x) = some (.real x)
  | _ => True

instance : DecidablePred ReadsBack
  | float x => inferInstanceAs (Decidable
      (x.isFinite → Document.number? (writeReal x) = some (.real x)))
  | null | bool _ | int _ | str _ | list _ | record _ => .isTrue trivial

structure Spells (text : List Char) (depth : Nat) (d : Document) (v : Value) : Prop where
  reads : Document.Reads text depth d
  content : ∀ levels, depth ≤ levels → ofDocument? levels d = some v

variable {text : List Char} {d : Document} {v : Value} {n : Nat}

theorem Spells.mono {m : Nat} (spells : Spells text n d v) (within : n ≤ m) :
    Spells text m d v where
  reads := spells.reads.mono within
  content levels deep := spells.content levels (by omega)

section Scalars

theorem spells_null : Spells "null".toList 0 .null null :=
  ⟨Document.reads_null, fun levels _ => by cases levels <;> rfl⟩

theorem spells_bool (b : Bool) : Spells (writeBool b) 0 (.bool b) (bool b) :=
  ⟨Document.reads_bool b, fun levels _ => by cases levels <;> rfl⟩

theorem of_string (pieces : List Piece) (levels : Nat) :
    ofDocument? levels (.string pieces) = (Piece.join? pieces).map str := by
  cases levels <;> rfl

theorem of_numeral (m : Numeral) (levels : Nat) :
    ofDocument? levels (.numeral m) = m.value?.map ofJsonNumber := by
  have tried : ofDocument? levels (.numeral m) = (int? (.numeral m) <|> float? (.numeral m)) := by
    cases levels <;> simp [ofDocument?, null?, bool?, str?]
  rw [tried, int?, float?]
  cases m.value? with
  | none => rfl
  | some k =>
    cases k with
    | real x => rfl
    | integer i =>
      have meant : (some (JsonNumber.integer i)).map ofJsonNumber = some (ofInteger i) := rfl
      rw [meant, ofInteger]
      cases fits : int64? i <;> simp [fits]

theorem spells_str (s : String) : ∃ d, Spells (quoted s) 0 d (str s) := by
  obtain ⟨pieces, meant, reads⟩ := Document.reads_string s
  exact ⟨.string pieces, reads, fun levels _ => by rw [of_string, meant, Option.map_some]⟩

theorem spells_number {k : JsonNumber} (whole : Document.number? text = some k) :
    ∃ d, Spells text 0 d (ofJsonNumber k) := by
  obtain ⟨m, value, read⟩ := Document.numeral_of_number whole
  exact ⟨.numeral m, Document.reads_numeral read, fun levels _ => by rw [of_numeral, value, Option.map_some]⟩

end Scalars

section Containers

theorem items_of_documents {ds : List Document} {vs : List Value}
    (pairs : List.Forall₂ (fun d v => ofDocument? n d = some v) ds vs) :
    itemsOfDocuments? n ds = some vs := by
  induction pairs with
  | nil => cases n <;> rfl
  | cons first rest ih =>
    rw [itemsOfDocuments?, first, ih]
    rfl

theorem entries_of_documents {members : List (List Piece × Document)}
    {entries : List (String × Value)}
    (pairs : List.Forall₂ (fun member entry => Piece.join? member.1 = some entry.1 ∧
      ofDocument? n member.2 = some entry.2) members entries) :
    entriesOfDocuments? n members = some entries := by
  induction pairs with
  | nil => cases n <;> rfl
  | cons first rest ih =>
    rw [entriesOfDocuments?, first.1, first.2, ih]
    rfl

theorem spells_list {items : List Value} {ds : List Document}
    (pairs : List.Forall₂ (fun item d => Spells item.write n d item.jsonForm) items ds) :
    Spells (list items).write (n + 1) (.array ds) (list items).jsonForm := by
  constructor
  · rw [write, write_items_eq]
    refine Document.reads_array (List.forall₂_map_left_iff.mpr ?_)
    exact pairs.imp fun item d spells => spells.reads
  · intro levels within
    obtain ⟨levels, rfl⟩ : ∃ left, levels = left + 1 :=
      Nat.exists_eq_add_one_of_ne_zero (by omega)
    have content : List.Forall₂ (fun d v => ofDocument? levels d = some v) ds
        (items.map jsonForm) := by
      refine List.forall₂_map_right_iff.mpr (List.Forall₂.flip ?_)
      exact pairs.imp fun item d spells => spells.content levels (by omega)
    rw [ofDocument?, items_of_documents content, jsonForm, json_form_items, Option.map_some]

structure SpellsEntry (entry : String × Value) (n : Nat) (member : List Piece × Document) :
    Prop where
  named : ∀ rest, Document.readString (quoted entry.1 ++ rest) = some (member.1, rest)
  meant : Piece.join? member.1 = some entry.1
  spells : Spells entry.2.write n member.2 entry.2.jsonForm

theorem spells_record {entries : List (String × Value)} {members : List (List Piece × Document)}
    (distinct : (entries.map Prod.fst).Nodup)
    (pairs : List.Forall₂ (fun entry member => SpellsEntry entry n member) entries members) :
    Spells (record entries).write (n + 1) (.object members) (record entries).jsonForm := by
  constructor
  · rw [write, write_entries_eq]
    refine Document.reads_object (List.forall₂_map_left_iff.mpr ?_)
    exact pairs.imp fun entry member spells =>
      ⟨_, [], _, rfl, Document.blanks_nil, spells.named, spells.spells.reads⟩
  · intro levels within
    obtain ⟨levels, rfl⟩ : ∃ left, levels = left + 1 :=
      Nat.exists_eq_add_one_of_ne_zero (by omega)
    have content : List.Forall₂ (fun member entry => Piece.join? member.1 = some entry.1 ∧
        ofDocument? levels member.2 = some entry.2) members
        (entries.map fun entry => (entry.1, entry.2.jsonForm)) := by
      refine List.forall₂_map_right_iff.mpr (List.Forall₂.flip ?_)
      exact pairs.imp fun entry member spells =>
        ⟨spells.meant, spells.spells.content levels (by omega)⟩
    have names : ((entries.map fun entry => (entry.1, entry.2.jsonForm)).map Prod.fst).Nodup := by
      rw [List.map_map]
      exact distinct
    rw [ofDocument?, entries_of_documents content, Option.map_some, Entries.toList_ofList names,
      jsonForm, json_form_entries]

end Containers

/-- Every value without a repeated name is written as the text of a document that
stands for what JSON keeps of it. -/
theorem spelled (v : Value) (formed : v.WellFormed) (back : v.Everywhere ReadsBack) :
    ∃ d, Spells v.write v.depth d v.jsonForm := by
  induction v using structural_induction with
  | null => exact ⟨_, spells_null⟩
  | bool b => exact ⟨_, spells_bool b⟩
  | int i =>
    obtain ⟨d, spells⟩ := spells_number (number_of_int i)
    rw [ofJsonNumber, ofInteger, int64?_toInt] at spells
    exact ⟨d, spells⟩
  | float x =>
    rw [jsonForm, write]
    by_cases finite : x.isFinite
    · rw [if_pos finite]
      exact spells_number (back finite)
    · rw [if_neg finite, writeReal, if_neg finite]
      exact ⟨_, spells_null⟩
  | str s => exact spells_str s
  | list items ih =>
    rw [WellFormed, everywhere_list] at formed
    rw [everywhere_list] at back
    obtain ⟨ds, pairs⟩ := pairs_of_forall fun item member =>
      ih item member (formed.2 item member) (back.2 item member)
    have deep := depth_items_le.mp (Nat.le_refl (depthItems items))
    exact ⟨_, spells_list (pairs_imp pairs fun item member d _ spells =>
      spells.mono (deep item member))⟩
  | record entries ih =>
    rw [WellFormed, everywhere_record] at formed
    rw [everywhere_record] at back
    have deep := depth_entries_le.mp (Nat.le_refl (depthEntries entries))
    have each : ∀ entry ∈ entries, ∃ member, SpellsEntry entry (depthEntries entries) member := by
      intro entry member
      obtain ⟨pieces, meant, named⟩ := Document.string_written entry.1
      obtain ⟨d, spells⟩ := ih entry member (formed.2 entry member) (back.2 entry member)
      exact ⟨(pieces, d), named, meant, spells.mono (deep entry member)⟩
    obtain ⟨members, pairs⟩ := pairs_of_forall each
    exact ⟨_, spells_record formed.1 pairs⟩

theorem depth_le_length (v : Value) : v.depth ≤ v.write.length := by
  induction v using structural_induction with
  | list items ih =>
    have inside : depthItems items ≤ (commaSeparated (writeItems items)).length := by
      rw [write_items_eq]
      refine depth_items_le.mpr fun item member => (ih item member).trans ?_
      exact Document.length_of_part (List.mem_map_of_mem member)
    rw [depth, write, List.length_append, List.length_cons]
    omega
  | record entries ih =>
    have inside : depthEntries entries ≤ (commaSeparated (writeEntries entries)).length := by
      rw [write_entries_eq]
      refine depth_entries_le.mpr fun entry member => (ih entry member).trans ?_
      have part := Document.length_of_part
        (List.mem_map_of_mem (f := fun entry => quoted entry.1 ++ ':' :: entry.2.write) member)
      rw [List.length_append, List.length_cons] at part
      omega
    rw [depth, write, List.length_append, List.length_cons]
    omega
  | _ => exact Nat.zero_le _

theorem parse_write (v : Value) (formed : v.WellFormed) (back : v.Everywhere ReadsBack) :
    ∃ d, Document.parse? (String.ofList v.write) = some d ∧
      ∀ levels, v.depth ≤ levels → ofDocument? levels d = some v.jsonForm := by
  obtain ⟨d, spells⟩ := v.spelled formed back
  have parsed := Document.parse_reads spells.reads v.depth_le_length Document.blanks_nil
  rw [List.append_nil] at parsed
  exact ⟨d, parsed, spells.content⟩

end Value

namespace Row

variable {entries : List (String × Value)} {d : Document} {levels : Nat}

theorem of_document_record (read : Value.ofDocument? levels d = some (.record entries)) :
    ofDocument? levels d = some (ofCells (Entries.ofList entries)) := by
  cases d with
  | null => cases levels <;> cases read
  | bool b => cases levels <;> cases read
  | numeral m =>
    rw [Value.of_numeral] at read
    obtain ⟨k, -, same⟩ := Option.map_eq_some_iff.mp read
    cases k with
    | real x => cases same
    | integer i =>
      rw [Value.ofJsonNumber, Value.ofInteger] at same
      split at same <;> cases same
  | string pieces =>
    rw [Value.of_string] at read
    obtain ⟨s, -, same⟩ := Option.map_eq_some_iff.mp read
    cases same
  | array items =>
    cases levels with
    | zero => cases read
    | succ levels =>
      obtain ⟨found, -, same⟩ := Option.map_eq_some_iff.mp read
      cases same
  | object members =>
    cases levels with
    | zero => cases read
    | succ levels =>
      obtain ⟨found, inside, same⟩ := Option.map_eq_some_iff.mp read
      cases same
      rw [ofDocument?, inside, Option.map_some, Entries.ofList_toList]

def toRecord (row : Row) : Value := .record row.cells.toList

theorem parse_write (row : Row) (formed : row.toRecord.WellFormed)
    (back : row.toRecord.Everywhere Value.ReadsBack)
    (shallow : row.toRecord.depth ≤ Document.maxDepth) :
    parse? (String.ofList row.write) = some row.jsonForm := by
  obtain ⟨d, parsed, content⟩ := row.toRecord.parse_write formed back
  have kept : row.toRecord.jsonForm = .record (row.cells.mapValues Value.jsonForm).toList := by
    rw [toRecord, Value.jsonForm, Value.json_form_entries]
    rfl
  have read := content Document.maxDepth shallow
  rw [kept] at read
  have written : row.toRecord.write = row.write := rfl
  rw [written] at parsed
  rw [parse?, parsed, Option.bind_some, of_document_record read, Entries.ofList_toList]
  rfl

end Row
end TableAlgebra

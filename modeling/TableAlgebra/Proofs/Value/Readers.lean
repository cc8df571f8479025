import TableAlgebra.Proofs.Value.Reading
import TableAlgebra.Row

namespace TableAlgebra
namespace Value

variable {depth : Nat}

section Kinds

def list? : Nat → Document → Option Value
  | depth + 1, .array items => (itemsOfDocuments? depth items).map list
  | _, _ => none

def record? : Nat → Document → Option Value
  | depth + 1, .object members =>
    (entriesOfDocuments? depth members).map fun entries => record (Entries.ofList entries).toList
  | _, _ => none

def kindsInTurn (depth : Nat) : List (Document → Option Value) :=
  [null?, bool?, int?, float?, str?, list? depth, record? depth]

theorem try_in_turn (d : Document) (first : Document → Option Value)
    (rest : List (Document → Option Value)) :
    (first :: rest).findSome? (fun read => read d) =
      (first d <|> rest.findSome? (fun read => read d)) := by
  rw [List.findSome?_cons]
  cases first d <;> rfl

/-- No document is of two kinds, so lists and records can be told apart first. -/
theorem of_document_first_kind (depth : Nat) (d : Document) :
    ofDocument? depth d = (kindsInTurn depth).findSome? (fun read => read d) := by
  simp only [kindsInTurn, try_in_turn, List.findSome?_nil]
  cases depth with
  | zero => cases d <;> simp [ofDocument?, list?, record?]
  | succ depth => cases d <;> simp [ofDocument?, null?, bool?, int?, float?, str?, list?, record?]

end Kinds

section Trees

theorem json_of_numeral (depth : Nat) (n : Numeral) :
    Json.ofDocument? depth (.numeral n) = n.value?.map .number := by
  cases depth <;> rfl

theorem json_of_string (depth : Nat) (pieces : List Piece) :
    Json.ofDocument? depth (.string pieces) = (Piece.join? pieces).map .string := by
  cases depth <;> rfl

theorem items_agree (inside : ∀ d, ofDocument? depth d = (Json.ofDocument? depth d).map ofJson)
    (items : List Document) :
    itemsOfDocuments? depth items = (Json.itemsOfDocuments? depth items).map itemsOfJson := by
  induction items with
  | nil => cases depth <;> rfl
  | cons item rest ih =>
    rw [itemsOfDocuments?, Json.itemsOfDocuments?, inside, ih]
    cases Json.ofDocument? depth item with
    | none => rfl
    | some first => cases Json.itemsOfDocuments? depth rest <;> rfl

theorem entries_agree (inside : ∀ d, ofDocument? depth d = (Json.ofDocument? depth d).map ofJson)
    (members : List (List Piece × Document)) :
    entriesOfDocuments? depth members =
      (Json.membersOfDocuments? depth members).map entriesOfJson := by
  induction members with
  | nil => cases depth <;> rfl
  | cons member rest ih =>
    obtain ⟨name, value⟩ := member
    rw [entriesOfDocuments?, Json.membersOfDocuments?, inside, ih]
    cases Piece.join? name with
    | none => rfl
    | some name =>
      cases Json.ofDocument? depth value with
      | none => rfl
      | some first => cases Json.membersOfDocuments? depth rest <;> rfl

theorem merged_entries (members : List (String × Json)) :
    (Entries.ofList (entriesOfJson members)).toList =
      entriesOfJson (Entries.ofList members).toList := by
  rw [entries_of_json_eq, entries_of_json_eq, Entries.ofList_map]
  rfl

theorem numeral_agrees (depth : Nat) (n : Numeral) :
    ofDocument? depth (.numeral n) = (Json.ofDocument? depth (.numeral n)).map ofJson := by
  rw [of_numeral, json_of_numeral, Option.map_map]
  rfl

theorem string_agrees (depth : Nat) (pieces : List Piece) :
    ofDocument? depth (.string pieces) = (Json.ofDocument? depth (.string pieces)).map ofJson := by
  rw [of_string, json_of_string, Option.map_map]
  rfl

theorem of_document_of_json (depth : Nat) (d : Document) :
    ofDocument? depth d = (Json.ofDocument? depth d).map ofJson := by
  -- every list and record takes one level, and the readers agree on what is inside
  induction depth generalizing d with
  | zero =>
    cases d with
    | numeral n => exact numeral_agrees _ n
    | string pieces => exact string_agrees _ pieces
    | _ => rfl
  | succ depth ih =>
    cases d with
    | numeral n => exact numeral_agrees _ n
    | string pieces => exact string_agrees _ pieces
    | array items =>
      rw [ofDocument?, Json.ofDocument?, items_agree ih, Option.map_map, Option.map_map]
      rfl
    | object members =>
      rw [ofDocument?, Json.ofDocument?, entries_agree ih, Option.map_map, Option.map_map]
      refine congrArg (fun read => Option.map read _) ?_
      funext merged
      exact congrArg record (merged_entries merged)
    | _ => rfl

end Trees

section Members

def ReadsMember (depth : Nat) (member : List Piece × Document) (pair : String × Value) : Prop :=
  Piece.join? member.1 = some pair.1 ∧ ofDocument? depth member.2 = some pair.2

theorem entries_of_documents_iff {members : List (List Piece × Document)}
    {pairs : List (String × Value)} :
    entriesOfDocuments? depth members = some pairs ↔
      List.Forall₂ (ReadsMember depth) members pairs := by
  constructor
  · intro read
    induction members generalizing pairs with
    | nil =>
      cases depth <;> cases read <;> exact .nil
    | cons member rest ih =>
      obtain ⟨name, value⟩ := member
      simp only [entriesOfDocuments?, Option.bind_eq_bind, Option.bind_eq_some_iff,
        Option.some.injEq] at read
      obtain ⟨text, joined, first, here, others, later, rfl⟩ := read
      exact .cons ⟨joined, here⟩ (ih later)
  · exact entries_of_documents

theorem of_object_eq_some_iff {members : List (List Piece × Document)} {v : Value} :
    ofDocument? (depth + 1) (.object members) = some v ↔
      ∃ pairs, List.Forall₂ (ReadsMember depth) members pairs ∧
        ∃ entries : Entries Value, entries.names = (pairs.map Prod.fst).eraseDups ∧
          (∀ name, entries.get? name = pairs.reverse.lookup name) ∧ v = record entries.toList := by
  rw [ofDocument?, Option.map_eq_some_iff]
  constructor
  · rintro ⟨pairs, read, rfl⟩
    exact ⟨pairs, entries_of_documents_iff.mp read, .ofList pairs, Entries.names_ofList pairs,
      Entries.get?_ofList pairs, rfl⟩
  · rintro ⟨pairs, read, entries, names, found, rfl⟩
    have merged : Entries.ofList pairs = entries := by
      refine Entries.ext_lookup ?_ ?_
      · rw [names, Entries.names_ofList]
      · intro name
        rw [found, Entries.get?_ofList]
    exact ⟨pairs, entries_of_documents_iff.mpr read, congrArg (record ·.toList) merged⟩

end Members

end Value

theorem Row.of_document_of_json (depth : Nat) (d : Document) :
    Row.ofDocument? depth d =
      (Json.ofDocument? depth d).bind fun tree => (Row.ofJson tree).toOption := by
  cases d with
  | object members =>
    cases depth with
    | zero => rfl
    | succ depth =>
      rw [Row.ofDocument?, Json.ofDocument?,
        Value.entries_agree (Value.of_document_of_json depth)]
      cases Json.membersOfDocuments? depth members with
      | none => rfl
      | some merged =>
        have cells : Entries.ofList (Value.entriesOfJson (Entries.ofList merged).toList) =
            Entries.ofList (Value.entriesOfJson merged) := by
          rw [← Value.merged_entries, Entries.ofList_toList]
        exact congrArg (fun cells => some (Row.ofCells cells)) cells.symm
  | array items =>
    cases depth with
    | zero => rfl
    | succ depth =>
      rw [Json.ofDocument?]
      cases Json.itemsOfDocuments? depth items <;> rfl
  | numeral n =>
    rw [Value.json_of_numeral]
    cases n.value? <;> cases depth <;> rfl
  | string pieces =>
    rw [Value.json_of_string]
    cases Piece.join? pieces <;> cases depth <;> rfl
  | null => cases depth <;> rfl
  | bool b => cases depth <;> rfl

namespace Value

/-- The readers agree. Trying the kinds of value in turn on a document gives the value
that its tree is converted to, at any depth and in particular for every text, and
nothing where there is no tree; the row of a document is that of its tree. Of the
members of an object the first gives a name its place and the last its value. -/
theorem json_readers_agree :
    (∀ depth d, ofDocument? depth d = (kindsInTurn depth).findSome? (fun read => read d)) ∧
    (∀ depth d, ofDocument? depth d = (Json.ofDocument? depth d).map ofJson) ∧
    (∀ depth d, Row.ofDocument? depth d =
      (Json.ofDocument? depth d).bind fun tree => (Row.ofJson tree).toOption) ∧
    (∀ text, (Document.parse? text).bind (ofDocument? Document.maxDepth) =
      (Json.parse? text).map ofJson) ∧
    (∀ text, Row.parse? text = (Json.parse? text).bind fun tree => (Row.ofJson tree).toOption) ∧
    ∀ depth members v, ofDocument? (depth + 1) (.object members) = some v ↔
      ∃ pairs, List.Forall₂ (ReadsMember depth) members pairs ∧
        ∃ entries : Entries Value, entries.names = (pairs.map Prod.fst).eraseDups ∧
          (∀ name, entries.get? name = pairs.reverse.lookup name) ∧ v = record entries.toList := by
  refine ⟨of_document_first_kind, of_document_of_json, Row.of_document_of_json, ?_, ?_, ?_⟩
  · intro text
    rw [Json.parse?, Json.parseWithin?, Option.map_bind]
    exact Option.bind_congr fun d _ => of_document_of_json Document.maxDepth d
  · intro text
    rw [Row.parse?, Json.parse?, Json.parseWithin?, Option.bind_assoc]
    exact Option.bind_congr fun d _ => Row.of_document_of_json Document.maxDepth d
  · intro depth members v
    exact of_object_eq_some_iff

end Value
end TableAlgebra

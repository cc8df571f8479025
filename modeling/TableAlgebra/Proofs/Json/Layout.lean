import TableAlgebra.Proofs.Json.Decimals
import TableAlgebra.Proofs.Json.Reading

namespace TableAlgebra
namespace Json

/-- A property holds of every tree if the items of an array and the values of an
object hand it on to the whole. -/
@[elab_as_elim]
theorem structural_induction {motive : Json → Prop} (null : motive .null)
    (bool : ∀ b, motive (.bool b)) (number : ∀ n, motive (.number n))
    (string : ∀ s, motive (.string s))
    (array : ∀ items, (∀ item ∈ items, motive item) → motive (.array items))
    (object : ∀ members, (∀ member ∈ members, motive member.2) → motive (.object members))
    (j : Json) : motive j := by
  refine @Json.rec motive (fun items => ∀ item ∈ items, motive item)
    (fun members => ∀ member ∈ members, motive member.2) (fun member => motive member.2)
    null bool number string array object ?_ ?_ ?_ ?_ (fun _ _ value => value) j
  · simp
  · intro head tail first rest item member
    rcases List.mem_cons.mp member with rfl | later
    · exact first
    · exact rest item later
  · simp
  · intro head tail first rest entry member
    rcases List.mem_cons.mp member with rfl | later
    · exact first
    · exact rest entry later

section Lists

theorem write_items_eq (items : List Json) : writeItems items = items.map write := by
  induction items with
  | nil => rfl
  | cons item rest ih => rw [writeItems, ih, List.map_cons]

theorem write_members_eq (members : List (String × Json)) :
    writeMembers members = members.map fun member => quoted member.1 ++ ':' :: member.2.write := by
  induction members with
  | nil => rfl
  | cons member rest ih => rw [writeMembers, ih, List.map_cons]

theorem indented_items_eq (level : Nat) (items : List Json) :
    indentedItems level items = items.map (writeIndented level) := by
  induction items with
  | nil => rfl
  | cons item rest ih => rw [indentedItems, ih, List.map_cons]

theorem indented_members_eq (level : Nat) (members : List (String × Json)) :
    indentedMembers level members =
      members.map fun member => quoted member.1 ++ ':' :: ' ' :: member.2.writeIndented level := by
  induction members with
  | nil => rfl
  | cons member rest ih => rw [indentedMembers, ih, List.map_cons]

end Lists

section Blocks

open Document (Blanks Reads ReadsMember)

variable {parts : List (List Char)} {depth : Nat}

theorem line_break_blank (level : Nat) : Blanks (lineBreak level) := by
  intro c member
  rcases List.mem_cons.mp member with rfl | blank
  · rfl
  · rw [List.eq_of_mem_replicate blank]
    rfl

theorem reads_block_array {ds : List Document} (level : Nat)
    (pairs : List.Forall₂ (fun part d => Reads part depth d) parts ds) :
    Reads (block '[' ']' level parts) (depth + 1) (.array ds) := by
  cases parts with
  | nil => exact Document.reads_array pairs
  | cons part parts =>
    exact Document.reads_spaced_array (line_break_blank _) (line_break_blank _) pairs

theorem reads_block_object {members : List (List Piece × Document)} (level : Nat)
    (pairs : List.Forall₂ (fun part member => ReadsMember part depth member) parts members) :
    Reads (block '{' '}' level parts) (depth + 1) (.object members) := by
  cases parts with
  | nil => exact Document.reads_object pairs
  | cons part parts =>
    exact Document.reads_spaced_object (line_break_blank _) (line_break_blank _) pairs

theorem separated_length_le (lead : List Char) (parts : List (List Char)) :
    (commaSeparated parts).length ≤ (commaSeparated (parts.map (lead ++ ·))).length := by
  induction parts with
  | nil => exact Nat.le_refl _
  | cons part rest ih =>
    cases rest with
    | nil => simp [commaSeparated]
    | cons next rest =>
      simp only [List.map_cons] at ih
      simp only [List.map_cons, commaSeparated, List.length_append, List.length_cons]
      omega

theorem block_length_le (opening closing : Char) (level : Nat) (parts : List (List Char)) :
    (commaSeparated parts).length + 1 ≤ (block opening closing level parts).length := by
  have longer := separated_length_le (lineBreak (level + 1)) parts
  rw [block]
  split
  · rename_i none
    rw [List.isEmpty_iff.mp none]
    exact Nat.le_succ 1
  · simp only [List.length_append, List.length_cons]
    omega

end Blocks

/-- Both texts of the tree are read as the document, the indented one at every level.
No text is nested deeper than it is long. -/
structure ReadAs (j : Json) (d : Document) : Prop where
  compact : Document.Reads j.write j.write.length d
  indented : ∀ level, Document.Reads (j.writeIndented level) (j.writeIndented level).length d

structure MemberReadAs (member : String × Json) (found : List Piece × Document) : Prop where
  named : ∀ rest, Document.readString (quoted member.1 ++ rest) = some (found.1, rest)
  meant : Piece.join? found.1 = some member.1
  value : ReadAs member.2 found.2

section Texts

open Document (Reads ReadsMember)

variable {parts : List (List Char)} {j : Json} {d : Document}

theorem reads_within {ds : List Document}
    (pairs : List.Forall₂ (fun part d => Reads part part.length d) parts ds) :
    List.Forall₂ (fun part d => Reads part (commaSeparated parts).length d) parts ds :=
  pairs_imp pairs fun _ member _ _ reads => reads.mono (Document.length_of_part member)

theorem reads_members_within {members : List (List Piece × Document)}
    (pairs : List.Forall₂ (fun part member => ReadsMember part part.length member) parts members) :
    List.Forall₂ (fun part member => ReadsMember part (commaSeparated parts).length member)
      parts members := by
  refine pairs_imp pairs fun part listed member _ reads => ?_
  obtain ⟨name, gap, text, shape, blank, named, reads⟩ := reads
  exact ⟨name, gap, text, shape, blank, named, reads.mono (Document.length_of_part listed)⟩

theorem scalar_read_as (reads : Reads j.write 0 d)
    (same : ∀ level, j.writeIndented level = j.write) : ReadAs j d where
  compact := reads.mono (Nat.zero_le _)
  indented level := by
    rw [same]
    exact reads.mono (Nat.zero_le _)

theorem array_read_as {items : List Json} {ds : List Document}
    (pairs : List.Forall₂ ReadAs items ds) : ReadAs (.array items) (.array ds) where
  compact := by
    have inside := reads_within
      (List.forall₂_map_left_iff.mpr (pairs.imp fun _ _ found => found.compact))
    rw [write, write_items_eq]
    exact (Document.reads_array inside).mono (by simp)
  indented level := by
    have inside := reads_within
      (List.forall₂_map_left_iff.mpr (pairs.imp fun _ _ found => found.indented (level + 1)))
    rw [writeIndented, indented_items_eq]
    exact (reads_block_array level inside).mono (block_length_le _ _ _ _)

theorem object_read_as {members : List (String × Json)} {found : List (List Piece × Document)}
    (pairs : List.Forall₂ MemberReadAs members found) :
    ReadAs (.object members) (.object found) where
  compact := by
    rw [write, write_members_eq]
    refine (Document.reads_object (reads_members_within ?_)).mono (by simp)
    refine List.forall₂_map_left_iff.mpr (pairs.imp fun member _ here => ?_)
    exact ⟨member.1, [], _, rfl, Document.blanks_nil, here.named,
      here.value.compact.mono (by simp; omega)⟩
  indented level := by
    rw [writeIndented, indented_members_eq]
    refine (reads_block_object level (reads_members_within ?_)).mono (block_length_le _ _ _ _)
    refine List.forall₂_map_left_iff.mpr (pairs.imp fun member _ here => ?_)
    have blank : Document.Blanks [' '] := by simp [Document.Blanks, Document.isBlank]
    exact ⟨member.1, [' '], _, rfl, blank, here.named,
      (here.value.indented (level + 1)).mono (by simp; omega)⟩

theorem members_read_as {members : List (String × Json)}
    (each : ∀ member ∈ members, ∃ d, ReadAs member.2 d) :
    ∃ found, List.Forall₂ MemberReadAs members found := by
  refine pairs_of_forall fun member listed => ?_
  obtain ⟨pieces, meant, named⟩ := Document.string_written member.1
  obtain ⟨d, value⟩ := each member listed
  exact ⟨(pieces, d), named, meant, value⟩

theorem read_as (j : Json) : ∃ d, ReadAs j d := by
  induction j using structural_induction with
  | null => exact ⟨_, scalar_read_as Document.reads_null fun _ => rfl⟩
  | bool b => exact ⟨_, scalar_read_as (Document.reads_bool b) fun _ => rfl⟩
  | number n =>
    cases n with
    | integer i =>
      obtain ⟨n, whole⟩ := numeral_of_int i
      exact ⟨_, scalar_read_as (Document.reads_numeral whole) fun _ => rfl⟩
    | real x =>
      by_cases finite : x.isFinite
      · obtain ⟨n, whole⟩ := numeral_of_real finite
        exact ⟨_, scalar_read_as (Document.reads_numeral whole) fun _ => rfl⟩
      · have null : (Json.number (.real x)).write = "null".toList := if_neg finite
        exact ⟨_, scalar_read_as (null ▸ Document.reads_null) fun _ => rfl⟩
  | string s =>
    obtain ⟨pieces, -, reads⟩ := Document.reads_string s
    exact ⟨_, scalar_read_as reads fun _ => rfl⟩
  | array items ih =>
    obtain ⟨ds, pairs⟩ := pairs_of_forall ih
    exact ⟨_, array_read_as pairs⟩
  | object members ih =>
    obtain ⟨found, pairs⟩ := members_read_as ih
    exact ⟨_, object_read_as pairs⟩

theorem ReadAs.parse_text (found : ReadAs j d) : Document.parse? j.text = some d := by
  have parsed := Document.parse_reads found.compact (Nat.le_refl _) Document.blanks_nil
  rwa [List.append_nil] at parsed

theorem ReadAs.parse_indented (found : ReadAs j d) {gap : List Char} (blank : Document.Blanks gap) :
    Document.parse? (j.indentedText ++ String.ofList gap) = some d := by
  rw [indentedText, ← String.ofList_append]
  exact Document.parse_reads (found.indented 0) (Nat.le_refl _) blank

end Texts

end Json
end TableAlgebra

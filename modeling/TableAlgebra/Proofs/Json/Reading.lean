import Mathlib.Data.List.DropRight
import TableAlgebra.Proofs.Json.Numbers
import TableAlgebra.Proofs.Json.Strings
import TableAlgebra.Proofs.Pairs

/-!
Reading written JSON. A text is read as a document if that holds in front of
anything that ends a number; this passes from the items of a list and the members
of an object to the whole, since what is between them ends a number too. Blanks
between them change nothing.
-/
namespace TableAlgebra
namespace Document

variable {α : Type} {text rest cs gap : List Char} {c : Char} {fuel depth levels : Nat}
  {d : Document}

def Opens (c : Char) : Prop := c ∉ [' ', '\t', '\n', '\r', ']', '}']

/-- The text is that of a document nested `depth` deep, whatever ends it. -/
def Reads (text : List Char) (depth : Nat) (d : Document) : Prop :=
  ∀ fuel levels rest, text.length ≤ fuel → depth ≤ levels → EndsNumber rest →
    readValue fuel levels (text ++ rest) = some (d, rest)

theorem Reads.mono {deeper : Nat} (reads : Reads text depth d) (within : depth ≤ deeper) :
    Reads text deeper d :=
  fun fuel levels rest enough deep => reads fuel levels rest enough (Nat.le_trans within deep)

theorem opens_of_read {found : Document × List Char}
    (read : readValue fuel levels (c :: cs) = some found) : Opens c := by
  intro member
  simp only [List.mem_cons, List.not_mem_nil, or_false] at member
  rcases member with rfl | rfl | rfl | rfl | rfl | rfl <;> cases levels <;> cases read

theorem opens_of_reads (reads : Reads text depth d) : ∃ c cs, text = c :: cs ∧ Opens c := by
  have read := reads text.length depth [] (Nat.le_refl _) (Nat.le_refl _) ends_number_nil
  cases text with
  | nil => cases depth <;> cases read
  | cons c cs => exact ⟨c, cs, rfl, opens_of_read read⟩

theorem skip_blanks_opens (opens : Opens c) (cs : List Char) : skipBlanks (c :: cs) = c :: cs := by
  have solid : isBlank c = false := by
    simp only [Opens, List.mem_cons, List.not_mem_nil, or_false, not_or] at opens
    simp [isBlank, opens]
  rw [skipBlanks, List.dropWhile_cons_of_neg (by simp [solid])]

def Blanks (gap : List Char) : Prop := ∀ c ∈ gap, isBlank c = true

theorem blanks_nil : Blanks [] := fun _ member => absurd member List.not_mem_nil

theorem skip_blanks_append (blank : Blanks gap) (cs : List Char) :
    skipBlanks (gap ++ cs) = skipBlanks cs :=
  List.dropWhile_append_of_pos blank

theorem ends_number_blanks (blank : Blanks gap) (ends : EndsNumber rest) :
    EndsNumber (gap ++ rest) := by
  cases gap with
  | nil => exact ends
  | cons c gap =>
    have first := blank c List.mem_cons_self
    simp only [isBlank, Bool.or_eq_true, decide_eq_true_eq, or_assoc] at first
    refine ends_number_cons ?_
    rcases first with rfl | rfl | rfl | rfl <;> decide

section Scalars

theorem read_scalar_levels (other : ∀ c ∈ cs.head?, c ≠ '[' ∧ c ≠ '{') (fuel levels : Nat) :
    readValue fuel levels cs = readScalar cs := by
  cases levels with
  | zero => rfl
  | succ levels =>
    unfold readValue
    split
    · exact absurd rfl (other _ rfl).1
    · exact absurd rfl (other _ rfl).2
    · rfl

theorem reads_scalar (scalar : ∀ rest, EndsNumber rest → readScalar (text ++ rest) = some (d, rest))
    (other : ∀ c ∈ text.head?, c ≠ '[' ∧ c ≠ '{') (some : text ≠ []) : Reads text 0 d := by
  intro fuel levels rest _ _ ends
  rw [read_scalar_levels]
  · exact scalar rest ends
  · rw [List.head?_append_of_ne_nil _ some]
    exact other

theorem reads_null : Reads "null".toList 0 null :=
  reads_scalar (fun _ _ => rfl) (by simp) (by simp)

theorem reads_bool (b : Bool) : Reads (writeBool b) 0 (bool b) := by
  cases b
  · exact reads_scalar (fun _ _ => rfl) (by simp [writeBool]) (by simp [writeBool])
  · exact reads_scalar (fun _ _ => rfl) (by simp [writeBool]) (by simp [writeBool])

theorem read_scalar_numeral {found : Numeral × List Char} (read : readNumeral cs = some found) :
    readScalar cs = some (numeral found.1, found.2) ∧ ∀ c ∈ cs.head?, c ≠ '[' ∧ c ≠ '{' := by
  cases cs with
  | nil => cases read
  | cons c cs =>
    have front : c ∉ ['n', 't', 'f', '"', '[', '{'] := by
      intro member
      simp only [List.mem_cons, List.not_mem_nil, or_false] at member
      have opens := sign_or_digit_of_read read
      rcases member with rfl | rfl | rfl | rfl | rfl | rfl <;> simp at opens
    simp only [List.mem_cons, List.not_mem_nil, or_false, not_or] at front
    constructor
    · unfold readScalar
      split <;> simp_all
    · intro d first
      cases first
      exact front.2.2.2.2

theorem reads_numeral {n : Numeral} (whole : readNumeral text = some (n, [])) :
    Reads text 0 (numeral n) := by
  refine reads_scalar (fun rest ends => ?_) (read_scalar_numeral whole).2 ?_
  · exact (read_scalar_numeral (read_numeral_stops _ _ _ _ ends whole)).1
  · rintro rfl
    cases whole

theorem reads_string (s : String) :
    ∃ pieces, Piece.join? pieces = some s ∧ Reads (quoted s) 0 (string pieces) := by
  obtain ⟨pieces, meant, read⟩ := string_written s
  have scalar (rest : List Char) : readScalar (quoted s ++ rest) = some (string pieces, rest) := by
    have inside : readScalar (quoted s ++ rest) =
        (readString (quoted s ++ rest)).map fun found => (string found.1, found.2) := rfl
    rw [inside, read]
    rfl
  exact ⟨pieces, meant, reads_scalar (fun rest _ => scalar rest) (by simp [quoted])
    (by simp [quoted])⟩

end Scalars

section Brackets

variable {item : List Char → Option (α × List Char)} {closing : Char} {parts : List (List Char)}
  {xs : List α} {lead : List Char}

def Item (item : List Char → Option (α × List Char)) (part : List Char) (x : α) : Prop :=
  (∃ c cs, part = c :: cs ∧ Opens c) ∧
    ∀ rest, EndsNumber rest → item (part ++ rest) = some (x, rest)

theorem read_item {part : List Char} {x : α} {mark : Char} (here : Item item part x)
    (before : Blanks lead) (behind : Blanks gap) (marks : mark ∈ [',', ']', '}'])
    (rest : List Char) :
    item (skipBlanks (lead ++ part ++ (gap ++ mark :: rest))) = some (x, gap ++ mark :: rest) ∧
      skipBlanks (gap ++ mark :: rest) = mark :: rest := by
  obtain ⟨⟨c, cs, rfl, opens⟩, read⟩ := here
  rw [List.append_assoc, skip_blanks_append before, skip_blanks_append behind, List.cons_append,
    skip_blanks_opens opens, ← List.cons_append]
  simp only [List.mem_cons, List.not_mem_nil, or_false] at marks
  constructor
  · refine read _ (ends_number_blanks behind (ends_number_cons ?_))
    rcases marks with rfl | rfl | rfl <;> decide
  · rcases marks with rfl | rfl | rfl <;> rfl

theorem read_items (closes : closing ∈ [']', '}']) (nonempty : parts ≠ [])
    (before : Blanks lead) (behind : Blanks gap) (pairs : List.Forall₂ (Item item) parts xs)
    (enough : parts.length ≤ fuel) (rest : List Char) :
    readItems item closing fuel
      (commaSeparated (parts.map (lead ++ ·)) ++ (gap ++ closing :: rest)) = some (xs, rest) := by
  have last : closing ≠ ',' := by
    rintro rfl
    exact absurd closes (by decide)
  -- every part takes one unit of fuel, and only the last one has no comma behind it
  induction pairs generalizing fuel with
  | nil => exact absurd rfl nonempty
  | @cons part x parts xs here later ih =>
    obtain ⟨fuel, rfl⟩ : ∃ left, fuel = left + 1 :=
      Nat.exists_eq_add_one_of_ne_zero (by simp at enough; omega)
    cases later with
    | nil =>
      have read := read_item here before behind (List.mem_cons_of_mem _ closes) rest
      rw [List.map_singleton, commaSeparated, readItems, read.1]
      simp only [Option.bind_eq_bind, Option.bind_some]
      rw [read.2]
      simp [last]
    | @cons next y parts xs second later =>
      have others := ih (by simp) (by simpa using enough)
      have comma : ',' ∈ [',', ']', '}'] := by decide
      have read := read_item here before blanks_nil comma
        (commaSeparated ((next :: parts).map (lead ++ ·)) ++ (gap ++ closing :: rest))
      rw [List.nil_append] at read
      rw [List.map_cons] at others
      rw [List.map_cons, commaSeparated, List.append_assoc, List.cons_append, readItems, read.1]
      · simp only [Option.bind_eq_bind, Option.bind_some]
        rw [read.2]
        simp [others]
      · simp

theorem length_of_part {part : List Char} (member : part ∈ parts) :
    part.length ≤ (commaSeparated parts).length := by
  induction parts with
  | nil => simp at member
  | cons first rest ih =>
    cases rest with
    | nil => simp_all [commaSeparated]
    | cons next rest =>
      rw [commaSeparated, List.length_append, List.length_cons]
      · rcases List.mem_cons.mp member with rfl | later
        · omega
        · have := ih later
          omega
      · simp

theorem count_of_parts (parts : List (List Char)) :
    parts.length ≤ (commaSeparated parts).length + 1 := by
  induction parts with
  | nil => simp
  | cons first rest ih =>
    cases rest with
    | nil => simp
    | cons next rest =>
      rw [commaSeparated, List.length_append]
      · simp only [List.length_cons] at ih ⊢
        omega
      · simp

theorem read_items_skipped (cs : List Char) :
    readItems item closing fuel (skipBlanks cs) = readItems item closing fuel cs := by
  cases fuel with
  | zero => rfl
  | succ fuel => rw [readItems, readItems, skipBlanks, skipBlanks, List.dropWhile_idempotent]

theorem separated_front (part : List Char) (parts : List (List Char)) :
    ∃ tail, commaSeparated (part :: parts) = part ++ tail := by
  cases parts with
  | nil => exact ⟨[], (List.append_nil part).symm⟩
  | cons next parts => exact ⟨',' :: commaSeparated (next :: parts), by simp [commaSeparated]⟩

/-- Behind the opening bracket stands, after blanks, what opens the first part, and
then the parts are read up to the closing bracket. -/
theorem read_parts (closes : closing ∈ [']', '}']) (nonempty : parts ≠ [])
    (before : Blanks lead) (behind : Blanks gap) (pairs : List.Forall₂ (Item item) parts xs)
    (enough : parts.length ≤ fuel) (rest : List Char) :
    ∃ c cs, skipBlanks (commaSeparated (parts.map (lead ++ ·)) ++ (gap ++ closing :: rest)) =
      c :: cs ∧ c ≠ closing ∧ readItems item closing fuel (c :: cs) = some (xs, rest) := by
  have read := read_items closes nonempty before behind pairs enough rest
  obtain ⟨c, cs, front, opens⟩ : ∃ c cs, commaSeparated (parts.map (lead ++ ·)) ++
      (gap ++ closing :: rest) = lead ++ c :: cs ∧ Opens c := by
    cases pairs with
    | nil => exact absurd rfl nonempty
    | @cons part x parts xs first later =>
      obtain ⟨⟨c, cs, rfl, opens⟩, -⟩ := first
      obtain ⟨tail, shape⟩ := separated_front (lead ++ c :: cs) (parts.map (lead ++ ·))
      exact ⟨c, cs ++ tail ++ (gap ++ closing :: rest), by simp [shape], opens⟩
  have skipped : skipBlanks (lead ++ c :: cs) = c :: cs := by
    rw [skip_blanks_append before, skip_blanks_opens opens]
  rw [← read_items_skipped, front, skipped] at read
  refine ⟨c, cs, by rw [front, skipped], ?_, read⟩
  rintro rfl
  exact opens (List.mem_append_right [' ', '\t', '\n', '\r'] closes)

theorem read_array {ds : List Document} (before : Blanks lead) (behind : Blanks gap)
    (pairs : List.Forall₂ (Item (readValue fuel levels)) parts ds)
    (enough : parts.length ≤ fuel) (rest : List Char) :
    readValue fuel (levels + 1)
      ('[' :: (commaSeparated (parts.map (lead ++ ·)) ++ (gap ++ ']' :: rest))) =
      some (array ds, rest) := by
  rw [readValue]
  by_cases nonempty : parts = []
  · subst nonempty
    cases pairs
    rw [List.map_nil, commaSeparated, List.nil_append, skip_blanks_append behind]
    rfl
  · have closes : ']' ∈ [']', '}'] := by decide
    obtain ⟨c, cs, front, other, read⟩ :=
      read_parts closes nonempty before behind pairs enough rest
    rw [front]
    split
    · rename_i same
      cases same
      exact absurd rfl other
    · rw [read]
      rfl

theorem read_object {members : List (List Piece × Document)} (before : Blanks lead)
    (behind : Blanks gap)
    (pairs : List.Forall₂ (Item (readMember (readValue fuel levels))) parts members)
    (enough : parts.length ≤ fuel) (rest : List Char) :
    readValue fuel (levels + 1)
      ('{' :: (commaSeparated (parts.map (lead ++ ·)) ++ (gap ++ '}' :: rest))) =
      some (object members, rest) := by
  rw [readValue]
  by_cases nonempty : parts = []
  · subst nonempty
    cases pairs
    rw [List.map_nil, commaSeparated, List.nil_append, skip_blanks_append behind]
    rfl
  · have closes : '}' ∈ [']', '}'] := by decide
    obtain ⟨c, cs, front, other, read⟩ :=
      read_parts closes nonempty before behind pairs enough rest
    rw [front]
    split
    · rename_i same
      cases same
      exact absurd rfl other
    · rw [read]
      rfl

theorem item_of_reads {part : List Char} (reads : Reads part depth d) (enough : part.length ≤ fuel)
    (within : depth ≤ levels) : Item (readValue fuel levels) part d :=
  ⟨opens_of_reads reads, fun rest ends => reads fuel levels rest enough within ends⟩

theorem item_of_member {name : String} {part : List Char} {pieces : List Piece}
    (named : ∀ rest, readString (quoted name ++ rest) = some (pieces, rest))
    (blank : Blanks gap) (reads : Reads part depth d) (enough : part.length ≤ fuel)
    (within : depth ≤ levels) :
    Item (readMember (readValue fuel levels)) (quoted name ++ ':' :: (gap ++ part))
      (pieces, d) := by
  constructor
  · exact ⟨'"', _, rfl, by simp [Opens]⟩
  · intro rest ends
    obtain ⟨c, cs, rfl, opens⟩ := opens_of_reads reads
    have value := reads fuel levels rest enough within ends
    have front : skipBlanks (gap ++ (c :: cs) ++ rest) = (c :: cs) ++ rest := by
      rw [List.append_assoc, skip_blanks_append blank, List.cons_append, skip_blanks_opens opens]
    rw [List.append_assoc, List.cons_append, readMember, named]
    have colon : skipBlanks (':' :: (gap ++ (c :: cs) ++ rest)) =
        ':' :: (gap ++ (c :: cs) ++ rest) := rfl
    simp only [Option.bind_eq_bind, Option.bind_some]
    rw [colon]
    split
    · rename_i same
      cases same
      rw [front, value]
      rfl
    · rename_i no_colon
      exact absurd rfl (no_colon _)

theorem reads_spaced_array {ds : List Document} (before : Blanks lead) (behind : Blanks gap)
    (pairs : List.Forall₂ (fun part d => Reads part depth d) parts ds) :
    Reads ('[' :: commaSeparated (parts.map (lead ++ ·)) ++ gap ++ [']']) (depth + 1)
      (array ds) := by
  intro fuel levels rest enough within _
  obtain ⟨levels, rfl⟩ : ∃ left, levels = left + 1 :=
    Nat.exists_eq_add_one_of_ne_zero (by omega)
  simp only [List.length_append, List.length_cons, List.length_nil] at enough
  have count := count_of_parts (parts.map (lead ++ ·))
  rw [List.length_map] at count
  have items : List.Forall₂ (Item (readValue fuel levels)) parts ds := by
    refine pairs_imp pairs fun part member d _ reads => ?_
    have size := length_of_part (List.mem_map_of_mem (f := (lead ++ ·)) member)
    rw [List.length_append] at size
    exact item_of_reads reads (by omega) (by omega)
  simp only [List.cons_append, List.append_assoc]
  exact read_array before behind items (by omega) rest

theorem reads_array {ds : List Document}
    (pairs : List.Forall₂ (fun part d => Reads part depth d) parts ds) :
    Reads ('[' :: commaSeparated parts ++ [']']) (depth + 1) (array ds) := by
  simpa using reads_spaced_array blanks_nil blanks_nil pairs

def ReadsMember (part : List Char) (depth : Nat) (member : List Piece × Document) : Prop :=
  ∃ name gap text, part = quoted name ++ ':' :: (gap ++ text) ∧ Blanks gap ∧
    (∀ rest, readString (quoted name ++ rest) = some (member.1, rest)) ∧ Reads text depth member.2

theorem reads_spaced_object {members : List (List Piece × Document)} (before : Blanks lead)
    (behind : Blanks gap)
    (pairs : List.Forall₂ (fun part member => ReadsMember part depth member) parts members) :
    Reads ('{' :: commaSeparated (parts.map (lead ++ ·)) ++ gap ++ ['}']) (depth + 1)
      (object members) := by
  intro fuel levels rest enough within _
  obtain ⟨levels, rfl⟩ : ∃ left, levels = left + 1 :=
    Nat.exists_eq_add_one_of_ne_zero (by omega)
  simp only [List.length_append, List.length_cons, List.length_nil] at enough
  have count := count_of_parts (parts.map (lead ++ ·))
  rw [List.length_map] at count
  have items : List.Forall₂ (Item (readMember (readValue fuel levels))) parts members := by
    refine pairs_imp pairs fun part listed member _ reads => ?_
    have size := length_of_part (List.mem_map_of_mem (f := (lead ++ ·)) listed)
    obtain ⟨name, inner, text, rfl, blank, named, reads⟩ := reads
    simp only [List.length_append, List.length_cons] at size
    exact item_of_member named blank reads (by omega) (by omega)
  simp only [List.cons_append, List.append_assoc]
  exact read_object before behind items (by omega) rest

theorem reads_object {members : List (List Piece × Document)}
    (pairs : List.Forall₂ (fun part member => ReadsMember part depth member) parts members) :
    Reads ('{' :: commaSeparated parts ++ ['}']) (depth + 1) (object members) := by
  simpa using reads_spaced_object blanks_nil blanks_nil pairs

end Brackets

theorem parse_reads (reads : Reads text depth d) (within : depth ≤ text.length)
    (blank : Blanks gap) : parse? (String.ofList (text ++ gap)) = some d := by
  obtain ⟨c, cs, rfl, opens⟩ := opens_of_reads reads
  have ends : EndsNumber gap := by
    have := ends_number_blanks blank ends_number_nil
    rwa [List.append_nil] at this
  have size : (c :: cs).length ≤ (c :: cs ++ gap).length := by simp
  have read := reads (c :: cs ++ gap).length (c :: cs ++ gap).length gap size
    (Nat.le_trans within size) ends
  have nothing : skipBlanks gap = [] := List.dropWhile_eq_nil_iff.mpr blank
  rw [parse?, String.toList_ofList]
  simp only [Option.bind_eq_bind]
  rw [List.cons_append, skip_blanks_opens opens, ← List.cons_append, read, Option.bind_some,
    nothing]
  rfl

end Document
end TableAlgebra

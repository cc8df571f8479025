/-!
Named entries in order of first insertion. Writing under a present name
replaces the value where it stands; a new name goes last. Records, the cells
of a row and the tables of a database are all kept in this order.
-/
namespace TableAlgebra

variable {κ α β : Type} [DecidableEq κ]

def putEntry (key : κ) (value : α) : List (κ × α) → List (κ × α)
  | [] => [(key, value)]
  | (other, old) :: rest =>
    if other = key then (key, value) :: rest else (other, old) :: putEntry key value rest

theorem names_putEntry (key : κ) (value : α) (entries : List (κ × α)) :
    (putEntry key value entries).map Prod.fst =
      if key ∈ entries.map Prod.fst then entries.map Prod.fst
      else entries.map Prod.fst ++ [key] := by
  induction entries with
  | nil => simp [putEntry]
  | cons entry rest ih =>
    obtain ⟨other, old⟩ := entry
    by_cases same : other = key
    · simp [putEntry, same]
    · have differ : ¬ key = other := fun h => same h.symm
      simp only [putEntry, if_neg same, List.map_cons, ih, List.mem_cons, differ, false_or]
      split <;> simp

theorem putEntry_new {key : κ} {entries : List (κ × α)} (new : key ∉ entries.map Prod.fst)
    (value : α) : putEntry key value entries = entries ++ [(key, value)] := by
  induction entries with
  | nil => rfl
  | cons entry rest ih =>
    obtain ⟨other, old⟩ := entry
    rw [List.map_cons, List.mem_cons, not_or] at new
    rw [putEntry, if_neg (Ne.symm new.1), ih new.2, List.cons_append]

theorem putEntry_twice (key : κ) (first second : α) (entries : List (κ × α)) :
    putEntry key second (putEntry key first entries) = putEntry key second entries := by
  induction entries with
  | nil => simp [putEntry]
  | cons entry rest ih =>
    obtain ⟨other, old⟩ := entry
    by_cases same : other = key
    · simp [putEntry, same]
    · simp [putEntry, same, ih]

theorem putEntry_map (f : α → β) (key : κ) (value : α) (entries : List (κ × α)) :
    (putEntry key value entries).map (fun entry => (entry.1, f entry.2)) =
      putEntry key (f value) (entries.map fun entry => (entry.1, f entry.2)) := by
  induction entries with
  | nil => rfl
  | cons entry rest ih =>
    obtain ⟨other, old⟩ := entry
    simp only [putEntry, List.map_cons]
    split
    · rfl
    · rw [List.map_cons, ih]

theorem lookup_cons_entry (key other : κ) (value : α) (rest : List (κ × α)) :
    ((other, value) :: rest).lookup key = if key = other then some value else rest.lookup key := by
  rw [List.lookup_cons]
  by_cases same : key = other
  · simp [same]
  · rw [beq_false_of_ne same, if_neg same]

theorem lookup_putEntry (key other : κ) (value : α) (entries : List (κ × α)) :
    (putEntry key value entries).lookup other =
      if other = key then some value else entries.lookup other := by
  induction entries with
  | nil => rw [putEntry, lookup_cons_entry]
  | cons entry rest ih =>
    obtain ⟨first, old⟩ := entry
    by_cases same : first = key
    · subst same
      rw [putEntry, if_pos rfl, lookup_cons_entry, lookup_cons_entry]
      split <;> rfl
    · rw [putEntry, if_neg same, lookup_cons_entry, lookup_cons_entry, ih]
      by_cases h : other = first
      · rw [if_pos h, if_pos h, if_neg (h ▸ same)]
      · rw [if_neg h, if_neg h]

structure Entries (α : Type) where
  toList : List (String × α)
  distinct : (toList.map Prod.fst).Nodup
deriving DecidableEq

namespace Entries

@[ext] theorem ext {a b : Entries α} (same : a.toList = b.toList) : a = b := by
  cases a; cases b; cases same; rfl

def empty : Entries α := ⟨[], by simp⟩

instance : Inhabited (Entries α) := ⟨empty⟩

def size (entries : Entries α) : Nat := entries.toList.length

def isEmpty (entries : Entries α) : Bool := entries.toList.isEmpty

def names (entries : Entries α) : List String := entries.toList.map Prod.fst

def get? (entries : Entries α) (name : String) : Option α := entries.toList.lookup name

def contains (entries : Entries α) (name : String) : Bool := (entries.get? name).isSome

def insert (entries : Entries α) (name : String) (value : α) : Entries α where
  toList := putEntry name value entries.toList
  distinct := by
    rw [names_putEntry]
    split
    · exact entries.distinct
    · rename_i absent
      exact List.nodup_append.mpr ⟨entries.distinct, by simp, by
        intro a ha b hb same
        simp only [List.mem_singleton] at hb
        subst hb
        exact absent (same ▸ ha)⟩

def erase (entries : Entries α) (name : String) : Entries α where
  toList := entries.toList.filter (·.1 != name)
  distinct := List.Nodup.sublist (List.filter_sublist.map Prod.fst) entries.distinct

/-- Inserts the pairs one after the other, so a repeated name keeps its first
place and its last value. -/
def insertAll (entries : Entries α) (pairs : List (String × α)) : Entries α :=
  pairs.foldl (fun made pair => made.insert pair.1 pair.2) entries

def ofList (pairs : List (String × α)) : Entries α := empty.insertAll pairs

def mapValues (f : α → β) (entries : Entries α) : Entries β where
  toList := entries.toList.map fun entry => (entry.1, f entry.2)
  distinct := by
    have same : (entries.toList.map fun entry => (entry.1, f entry.2)).map Prod.fst =
        entries.toList.map Prod.fst := by simp
    rw [same]
    exact entries.distinct

@[simp] theorem toList_insert (entries : Entries α) (name : String) (value : α) :
    (entries.insert name value).toList = putEntry name value entries.toList := rfl

theorem names_insert (entries : Entries α) (name : String) (value : α) :
    (entries.insert name value).names =
      if name ∈ entries.names then entries.names else entries.names ++ [name] :=
  names_putEntry name value entries.toList

theorem get?_insert (entries : Entries α) (name other : String) (value : α) :
    (entries.insert name value).get? other =
      if other = name then some value else entries.get? other :=
  lookup_putEntry name other value entries.toList

theorem insert_twice (entries : Entries α) (name : String) (first second : α) :
    (entries.insert name first).insert name second = entries.insert name second :=
  ext (putEntry_twice name first second entries.toList)

@[simp] theorem insertAll_nil (entries : Entries α) : entries.insertAll [] = entries := rfl

@[simp] theorem insertAll_cons (entries : Entries α) (pair : String × α)
    (rest : List (String × α)) :
    entries.insertAll (pair :: rest) = (entries.insert pair.1 pair.2).insertAll rest := rfl

theorem insertAll_append (entries : Entries α) (first second : List (String × α)) :
    entries.insertAll (first ++ second) = (entries.insertAll first).insertAll second :=
  List.foldl_append

end Entries
end TableAlgebra

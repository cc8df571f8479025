import Mathlib.Data.List.Perm.Subperm
import TableAlgebra.Entries
import TableAlgebra.Proofs.Distinct

namespace TableAlgebra

variable {α β : Type}

theorem mem_of_lookup {name : String} {value : α} {entries : List (String × α)}
    (found : entries.lookup name = some value) : (name, value) ∈ entries := by
  obtain ⟨before, after, rfl, -⟩ := List.lookup_eq_some_iff.mp found
  simp

theorem lookup_of_mem {name : String} {value : α} {entries : List (String × α)}
    (distinct : (entries.map Prod.fst).Nodup) (member : (name, value) ∈ entries) :
    entries.lookup name = some value := by
  induction entries with
  | nil => simp at member
  | cons entry rest ih =>
    obtain ⟨key, old⟩ := entry
    simp only [List.map_cons, List.nodup_cons] at distinct
    rw [lookup_cons_entry]
    rcases List.mem_cons.mp member with same | later
    · cases same
      simp
    · have differ : name ≠ key := by
        intro same
        exact distinct.1 (same ▸ List.mem_map_of_mem (f := Prod.fst) later)
      rw [if_neg differ]
      exact ih distinct.2 later

theorem lookup_eq_some_iff {name : String} {value : α} {entries : List (String × α)}
    (distinct : (entries.map Prod.fst).Nodup) :
    entries.lookup name = some value ↔ (name, value) ∈ entries :=
  ⟨mem_of_lookup, lookup_of_mem distinct⟩

theorem lookup_isSome_iff {name : String} {entries : List (String × α)} :
    (entries.lookup name).isSome ↔ name ∈ entries.map Prod.fst := by
  rw [List.lookup_isSome_iff, List.mem_map]
  simp only [beq_iff_eq, eq_comm (a := name)]

theorem lookup_reverse {entries : List (String × α)} (distinct : (entries.map Prod.fst).Nodup)
    (name : String) : entries.reverse.lookup name = entries.lookup name := by
  have reversed : (entries.reverse.map Prod.fst).Nodup := by
    rw [List.map_reverse]
    exact List.nodup_reverse.mpr distinct
  apply Option.ext
  intro value
  rw [lookup_eq_some_iff reversed, lookup_eq_some_iff distinct, List.mem_reverse]

theorem lookup_renamed {rename : String → String} (injective : Function.Injective rename)
    (entries : List (String × α)) (name : String) :
    (entries.map fun entry => (rename entry.1, entry.2)).lookup (rename name) =
      entries.lookup name := by
  induction entries with
  | nil => rfl
  | cons entry rest ih =>
    obtain ⟨key, value⟩ := entry
    rw [List.map_cons, lookup_cons_entry, lookup_cons_entry, ih]
    simp only [injective.eq_iff]

theorem lookup_with_values (f : α → β) (entries : List (String × α)) (name : String) :
    (entries.map fun entry => (entry.1, f entry.2)).lookup name =
      (entries.lookup name).map f := by
  induction entries with
  | nil => rfl
  | cons entry rest ih =>
    obtain ⟨key, value⟩ := entry
    rw [List.map_cons, lookup_cons_entry, lookup_cons_entry, ih]
    split <;> rfl

theorem lookup_or_comm {first second : List (String × α)} {name : String}
    (apart : name ∈ first.map Prod.fst → name ∉ second.map Prod.fst) :
    (first.lookup name).or (second.lookup name) = (second.lookup name).or (first.lookup name) := by
  cases found : first.lookup name with
  | none => simp
  | some value =>
    have here : name ∈ first.map Prod.fst := lookup_isSome_iff.mp (by simp [found])
    have missing : second.lookup name = none :=
      Option.not_isSome_iff_eq_none.mp (mt lookup_isSome_iff.mp (apart here))
    rw [missing]
    rfl

/-- Distinct names that are found among equally many leave out none of them. -/
theorem name_of_equal_size {es : List (String × α)} {fs : List (String × β)}
    (distinct : (es.map Prod.fst).Nodup) (size : es.length = fs.length)
    (names : ∀ e ∈ es, e.1 ∈ fs.map Prod.fst) {f : String × β} (member : f ∈ fs) :
    ∃ e ∈ es, e.1 = f.1 := by
  have included : es.map Prod.fst ⊆ fs.map Prod.fst := by
    intro name present
    obtain ⟨e, he, rfl⟩ := List.mem_map.mp present
    exact names e he
  have all : (es.map Prod.fst).Perm (fs.map Prod.fst) :=
    (List.subperm_of_subset distinct included).perm_of_length_le (by simp [size])
  exact List.mem_map.mp (all.mem_iff.mpr (List.mem_map_of_mem member))

namespace Entries

theorem names_insertAll (entries : Entries α) (pairs : List (String × α)) :
    (entries.insertAll pairs).names = (entries.names ++ pairs.map Prod.fst).eraseDups := by
  induction pairs using List.reverseRecOn with
  | nil => simp [erase_dups_of_nodup entries.distinct, names]
  | append_singleton pairs pair ih =>
    rw [insertAll_append, insertAll_cons, insertAll_nil, names_insert, ih, List.map_append,
      ← List.append_assoc, List.map_singleton, erase_dups_concat]
    simp only [List.mem_eraseDups]

/-- The last value that is inserted under a name stands. -/
theorem get?_insertAll (entries : Entries α) (pairs : List (String × α)) (name : String) :
    (entries.insertAll pairs).get? name = (pairs.reverse.lookup name).or (entries.get? name) := by
  induction pairs using List.reverseRecOn with
  | nil => simp
  | append_singleton pairs pair ih =>
    rw [insertAll_append, insertAll_cons, insertAll_nil, get?_insert, ih, List.reverse_append,
      List.reverse_singleton, List.singleton_append, lookup_cons_entry]
    split <;> simp

theorem names_ofList (pairs : List (String × α)) :
    (ofList pairs).names = (pairs.map Prod.fst).eraseDups := by
  rw [ofList, names_insertAll]
  rfl

theorem get?_ofList (pairs : List (String × α)) (name : String) :
    (ofList pairs).get? name = pairs.reverse.lookup name := by
  rw [ofList, get?_insertAll]
  exact Option.or_none

theorem ext_lookup {a b : Entries α} (names : a.names = b.names)
    (found : ∀ name, a.get? name = b.get? name) : a = b := by
  have listed (entries : Entries α) :
      entries.toList = entries.names.filterMap fun name =>
        (entries.get? name).map fun value => (name, value) := by
    rw [Entries.names, List.filterMap_map]
    refine (List.filterMap_some.symm.trans (List.filterMap_congr ?_))
    intro entry member
    have here : entries.get? entry.1 = some entry.2 := lookup_of_mem entries.distinct member
    simp only [Function.comp_apply, here, Option.map_some]
  apply ext
  rw [listed a, listed b, names]
  simp only [found]

theorem insert_present {entries : Entries α} {name : String} {value : α}
    (present : entries.get? name = some value) : entries.insert name value = entries := by
  have there : name ∈ entries.names := lookup_isSome_iff.mp (Option.isSome_of_eq_some present)
  refine ext_lookup ?_ fun other => ?_
  · rw [names_insert, if_pos there]
  · rw [get?_insert]
    split
    · rename_i same
      rw [same, present]
    · rfl

theorem ofList_toList (entries : Entries α) : ofList entries.toList = entries := by
  refine ext_lookup ?_ fun name => ?_
  · rw [names_ofList]
    exact erase_dups_of_nodup entries.distinct
  · rw [get?_ofList, lookup_reverse entries.distinct]
    rfl

theorem toList_ofList {pairs : List (String × α)} (distinct : (pairs.map Prod.fst).Nodup) :
    (ofList pairs).toList = pairs :=
  congrArg toList (ofList_toList ⟨pairs, distinct⟩)

theorem insertAll_insert (base top : Entries α) (name : String) (value : α) :
    base.insertAll (top.insert name value).toList =
      (base.insertAll top.toList).insert name value := by
  refine ext_lookup ?_ fun other => ?_
  · have listed : (base.insertAll top.toList).names = (base.names ++ top.names).eraseDups :=
      names_insertAll base top.toList
    have set : (base.insertAll (top.insert name value).toList).names =
        (base.names ++ (top.insert name value).names).eraseDups := names_insertAll _ _
    rw [set, names_insert, names_insert, listed]
    by_cases old : name ∈ top.names
    · rw [if_pos old, if_pos (List.mem_eraseDups.mpr (List.mem_append_right _ old))]
    · rw [if_neg old, ← List.append_assoc, erase_dups_concat]
      simp only [List.mem_eraseDups]
  · rw [get?_insertAll, get?_insert, get?_insertAll, lookup_reverse (top.insert name value).distinct,
      lookup_reverse top.distinct, toList_insert, lookup_putEntry]
    split <;> simp

theorem insertAll_assoc (base top : Entries α) (pairs : List (String × α)) :
    base.insertAll (top.insertAll pairs).toList = (base.insertAll top.toList).insertAll pairs := by
  induction pairs using List.reverseRecOn with
  | nil => rfl
  | append_singleton pairs pair ih =>
    rw [insertAll_append, insertAll_cons, insertAll_nil, insertAll_insert, ih, insertAll_append,
      insertAll_cons, insertAll_nil]

theorem get?_mapValues (f : α → β) (entries : Entries α) (name : String) :
    (entries.mapValues f).get? name = (entries.get? name).map f :=
  lookup_with_values f entries.toList name

theorem ofList_map (f : α → β) (pairs : List (String × α)) :
    ofList (pairs.map fun pair => (pair.1, f pair.2)) = (ofList pairs).mapValues f := by
  refine ext_lookup ?_ fun name => ?_
  · have same : ((ofList pairs).mapValues f).names = (ofList pairs).names := List.map_map
    rw [same, names_ofList, names_ofList, List.map_map]
    rfl
  · rw [get?_ofList, get?_mapValues, get?_ofList, ← List.map_reverse, lookup_with_values]

theorem get?_overlay {base top : List (String × α)} (distinctBase : (base.map Prod.fst).Nodup)
    (distinctTop : (top.map Prod.fst).Nodup) (name : String) :
    ((ofList base).insertAll top).get? name = (top.lookup name).or (base.lookup name) := by
  rw [get?_insertAll, get?_ofList, lookup_reverse distinctTop, lookup_reverse distinctBase]

end Entries

end TableAlgebra

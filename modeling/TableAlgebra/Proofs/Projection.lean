import TableAlgebra.Proofs.Entries
import TableAlgebra.Query.Group

namespace TableAlgebra
namespace Row

/-- The cells that a projection is made of, in the order of the list. -/
def shown (row : Row) (listed : List (String × String)) : List (String × Value) :=
  listed.filterMap fun (column, output) => (row.get? column).map (output, ·)

variable {row : Row}

theorem contains_eq_isSome (column : String) :
    row.contains column = (row.get? column).isSome := rfl

theorem names_shown (listed : List (String × String)) :
    (row.shown listed).map Prod.fst =
      (listed.filter fun c => row.contains c.1).map Prod.snd := by
  induction listed with
  | nil => rfl
  | cons c rest ih =>
    obtain ⟨column, output⟩ := c
    rw [shown] at ih
    rw [shown, List.filterMap_cons, List.filter_cons, contains_eq_isSome]
    cases present : row.get? column with
    | none => simpa [present] using ih
    | some v => simpa [present] using ih

theorem columns_project (listed : List (String × String)) :
    (row.project listed).columns =
      ((listed.filter fun c => row.contains c.1).map Prod.snd).eraseDups := by
  rw [← names_shown]
  exact Entries.names_ofList _

open Table (sameNames)

theorem columns_project_same (listed : List String) :
    (row.project (sameNames listed)).columns = (listed.filter row.contains).eraseDups := by
  rw [columns_project, sameNames, List.filter_map, List.map_map]
  exact congrArg List.eraseDups (List.map_id _)

theorem mem_shown {listed : List (String × String)} {output : String} {v : Value} :
    (output, v) ∈ row.shown listed ↔
      ∃ column, (column, output) ∈ listed ∧ row.get? column = some v := by
  simp [shown]

theorem get?_project_eq_lookup (listed : List (String × String)) (output : String) :
    (row.project listed).get? output = (row.shown listed).reverse.lookup output :=
  Entries.get?_ofList _ _

theorem get?_project_listed {listed : List (String × String)} {column output : String}
    (here : (column, output) ∈ listed) (only : ∀ other, (other, output) ∈ listed → other = column) :
    (row.project listed).get? output = row.get? column := by
  have read {v : Value} (found : (row.shown listed).reverse.lookup output = some v) :
      row.get? column = some v := by
    obtain ⟨other, there, value⟩ := mem_shown.mp (List.mem_reverse.mp (mem_of_lookup found))
    rw [← only other there, value]
  rw [get?_project_eq_lookup]
  cases found : (row.shown listed).reverse.lookup output with
  | some v => rw [read found]
  | none =>
    cases present : row.get? column with
    | none => rfl
    | some v =>
      have member := List.mem_reverse.mpr (mem_shown.mpr ⟨column, here, present⟩)
      have some_found := lookup_isSome_iff.mpr (List.mem_map_of_mem (f := Prod.fst) member)
      rw [found] at some_found
      cases some_found

theorem get?_project_unlisted {listed : List (String × String)} {output : String}
    (unlisted : output ∉ listed.map Prod.snd) : (row.project listed).get? output = none := by
  rw [get?_project_eq_lookup]
  apply Option.not_isSome_iff_eq_none.mp
  intro found
  obtain ⟨entry, shown, same⟩ := List.mem_map.mp (lookup_isSome_iff.mp found)
  obtain ⟨column, there, -⟩ := mem_shown.mp (List.mem_reverse.mp shown)
  exact unlisted (same ▸ List.mem_map_of_mem (f := Prod.snd) there)

theorem mem_listed_as {listed : List String} {name : String → String} {column output : String} :
    (column, output) ∈ listed.map (fun c => (c, name c)) ↔
      column ∈ listed ∧ output = name column := by
  simp only [List.mem_map, Prod.mk.injEq]
  constructor
  · rintro ⟨c, inside, rfl, rfl⟩
    exact ⟨inside, rfl⟩
  · rintro ⟨inside, rfl⟩
    exact ⟨column, inside, rfl, rfl⟩

theorem get?_project_same (listed : List String) (column : String) :
    (row.project (sameNames listed)).get? column =
      if column ∈ listed then row.get? column else none := by
  split
  · rename_i here
    refine get?_project_listed (mem_listed_as.mpr ⟨here, rfl⟩) ?_
    intro other there
    exact (mem_listed_as.mp there).2.symm
  · rename_i absent
    refine get?_project_unlisted ?_
    intro listed
    obtain ⟨⟨other, _⟩, there, rfl⟩ := List.mem_map.mp listed
    obtain ⟨here, rfl⟩ := mem_listed_as.mp there
    exact absent here

variable {listed columns : List String} {other : Row}

theorem value_project_same {column : String} (here : column ∈ listed) :
    (row.project (sameNames listed)).value column = row.value column := by
  rw [value, value, get?_project_same, if_pos here]

theorem project_same_congr (each : ∀ c ∈ listed, row.get? c = other.get? c) :
    row.project (sameNames listed) = other.project (sameNames listed) := by
  rw [project, project, sameNames, List.filterMap_map, List.filterMap_map]
  refine congrArg (fun cells => ofCells (Entries.ofList cells)) (List.filterMap_congr ?_)
  intro c here
  exact congrArg (Option.map (c, ·)) (each c here)

theorem project_twice : (row.project (sameNames listed)).project (sameNames listed) =
    row.project (sameNames listed) :=
  project_same_congr fun c here => by rw [get?_project_same, if_pos here]

theorem key_bytes_of_each
    (each : ∀ c ∈ columns, (row.value c).encode = (other.value c).encode) :
    row.keyBytes columns = other.keyBytes columns := by
  rw [keyBytes, keyBytes, List.flatMap_def, List.map_congr_left each, ← List.flatMap_def]

theorem key_bytes_project (contained : ∀ c ∈ columns, c ∈ listed) :
    (row.project (sameNames listed)).keyBytes columns = row.keyBytes columns :=
  key_bytes_of_each fun c inside => by rw [value_project_same (contained c inside)]

end Row
end TableAlgebra

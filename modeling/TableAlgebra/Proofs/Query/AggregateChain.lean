import TableAlgebra.Proofs.Entries
import TableAlgebra.Proofs.Outcome
import TableAlgebra.Proofs.Pairs
import TableAlgebra.Query.Aggregate

/-!
Aggregates one after the other. An aggregate reads the members of a row and
writes one cell, under a name that tells the aggregate and the column apart from
all others. So no aggregate sees what another one wrote, and the order in which
they come shows only in the order of the new cells.
-/
namespace TableAlgebra

namespace Aggregate

variable {f g : Aggregate} {c d : String}

theorem name_injective (same : f.name = g.name) : f = g := by
  revert same
  cases f <;> cases g <;> decide

theorem name_of_output (f : Aggregate) (c : String) :
    (f.outputColumn c).toList.takeWhile (· != '(') = f.name.toList := by
  have plain : ∀ letter ∈ f.name.toList, (letter != '(') = true := by
    cases f <;> simp [name]
  have bracket : "(".toList = ['('] := rfl
  rw [outputColumn, String.toList_append, String.toList_append, String.toList_append, bracket,
    List.append_assoc, List.append_assoc, List.takeWhile_append_of_pos plain]
  simp

theorem output_column_injective (same : f.outputColumn c = g.outputColumn d) : f = g ∧ c = d := by
  have names : f.name.toList = g.name.toList := by
    rw [← name_of_output f c, same, name_of_output]
  have here : f = g := name_injective (String.toList_inj.mp names)
  subst here
  refine ⟨rfl, ?_⟩
  simpa [outputColumn, String.append_assoc] using same

end Aggregate

namespace Row

def aggregated? (row : Row) (call : Aggregate × String) : Option Value :=
  row.members.bind fun members =>
    (call.1.compute call.2 (members.map (·.value call.2))).toOption

def outputs (row : Row) (calls : List (Aggregate × String)) : List (String × Value) :=
  calls.filterMap fun call =>
    (row.aggregated? call).map fun v => (call.1.outputColumn call.2, v)

def annotated (row : Row) (calls : List (Aggregate × String)) : Row :=
  { row with cells := row.cells.insertAll (row.outputs calls) }

variable {row : Row} {calls : List (Aggregate × String)} {call : Aggregate × String} {v : Value}

theorem aggregated_eq_some_iff : row.aggregated? call = some v ↔
    ∃ members, row.members = some members ∧
      call.1.compute call.2 (members.map (·.value call.2)) = .ok v := by
  rw [aggregated?, Option.bind_eq_some_iff]
  refine exists_congr fun members => and_congr_right fun _ => ?_
  cases call.1.compute call.2 (members.map (·.value call.2)) <;> simp [Except.toOption]

theorem of_row_ok_iff {i : Nat} :
    call.1.ofRow call.2 i row = .ok v ↔ row.aggregated? call = some v := by
  rw [aggregated_eq_some_iff, Aggregate.ofRow]
  cases row.members <;> simp

theorem mem_outputs {name : String} : (name, v) ∈ row.outputs calls ↔
    ∃ call ∈ calls, row.aggregated? call = some v ∧ call.1.outputColumn call.2 = name := by
  simp only [outputs, List.mem_filterMap, Option.map_eq_some_iff, Prod.mk.injEq]
  constructor
  · rintro ⟨call, listed, found, computed, rfl, rfl⟩
    exact ⟨call, listed, computed, rfl⟩
  · rintro ⟨call, listed, computed, rfl⟩
    exact ⟨call, listed, v, computed, rfl, rfl⟩

theorem annotated_annotated (row : Row) (first second : List (Aggregate × String)) :
    (row.annotated first).annotated second = row.annotated (first ++ second) := by
  have outputs : (row.annotated first).outputs second = row.outputs second := rfl
  have listed : row.outputs (first ++ second) = row.outputs first ++ row.outputs second :=
    List.filterMap_append
  rw [annotated, outputs, annotated, annotated, listed, Entries.insertAll_append]

theorem get?_annotated (listed : call ∈ calls) (computed : row.aggregated? call = some v) :
    (row.annotated calls).get? (call.1.outputColumn call.2) = some v := by
  have written : (call.1.outputColumn call.2, v) ∈ (row.outputs calls).reverse :=
    List.mem_reverse.mpr (mem_outputs.mpr ⟨call, listed, computed, rfl⟩)
  have found : ((row.outputs calls).reverse.lookup (call.1.outputColumn call.2)).isSome :=
    lookup_isSome_iff.mpr (List.mem_map_of_mem (f := Prod.fst) written)
  obtain ⟨w, last⟩ := Option.isSome_iff_exists.mp found
  -- the last cell of that name comes from the same aggregate of the same column
  obtain ⟨other, -, computed', name⟩ := mem_outputs.mp (List.mem_reverse.mp (mem_of_lookup last))
  obtain ⟨function, column⟩ := Aggregate.output_column_injective name
  have same : other = call := Prod.ext function column
  rw [same, computed] at computed'
  cases computed'
  rw [annotated, get?, Entries.get?_insertAll, last]
  rfl

theorem get?_annotated_other {name : String}
    (other : ∀ call ∈ calls, call.1.outputColumn call.2 ≠ name) :
    (row.annotated calls).get? name = row.get? name := by
  have missing : (row.outputs calls).reverse.lookup name = none := by
    cases found : (row.outputs calls).reverse.lookup name with
    | none => rfl
    | some w =>
      obtain ⟨call, listed, -, same⟩ := mem_outputs.mp (List.mem_reverse.mp (mem_of_lookup found))
      exact absurd same (other call listed)
  rw [annotated, get?, Entries.get?_insertAll, missing]
  rfl

theorem annotated_one (computed : row.aggregated? call = some v) :
    row.annotated [call] = row.insert (call.1.outputColumn call.2) v := by
  have written : row.outputs [call] = [(call.1.outputColumn call.2, v)] := by
    rw [outputs, List.filterMap_cons, computed]
    rfl
  rw [annotated, written]
  rfl

theorem annotated_again (listed : call ∈ calls) (computed : (row.aggregated? call).isSome) :
    (row.annotated calls).annotated [call] = row.annotated calls := by
  obtain ⟨v, computed⟩ := Option.isSome_iff_exists.mp computed
  have still : (row.annotated calls).aggregated? call = some v := computed
  rw [annotated_one still, insert]
  exact congrArg (fun cells => { row.annotated calls with cells })
    (Entries.insert_present (get?_annotated listed computed))

/-- Rows that differ in the order of their cells at most. -/
structure SameContent (a b : Row) : Prop where
  provenance : a.provenance = b.provenance
  members : a.members = b.members
  cells : ∀ name, a.get? name = b.get? name

/-- What aggregates make of a row: each writes what it computes over the members
to a column of its own, and nothing else changes. -/
structure Annotates (calls : List (Aggregate × String)) (row out : Row) : Prop where
  provenance : out.provenance = row.provenance
  members : out.members = row.members
  results : ∀ call ∈ calls, ∃ members v, row.members = some members ∧
    call.1.compute call.2 (members.map (·.value call.2)) = .ok v ∧
    out.get? (call.1.outputColumn call.2) = some v
  others : ∀ name, (∀ call ∈ calls, call.1.outputColumn call.2 ≠ name) →
    out.get? name = row.get? name

theorem annotated_annotates (computed : ∀ call ∈ calls, (row.aggregated? call).isSome) :
    Annotates calls row (row.annotated calls) where
  provenance := rfl
  members := rfl
  results := by
    intro call listed
    obtain ⟨v, found⟩ := Option.isSome_iff_exists.mp (computed call listed)
    obtain ⟨members, grouped, value⟩ := aggregated_eq_some_iff.mp found
    exact ⟨members, v, grouped, value, get?_annotated listed found⟩
  others := fun name => get?_annotated_other

theorem same_content_of_annotates {others : List (Aggregate × String)} {out out' : Row}
    (same : ∀ call, call ∈ calls ↔ call ∈ others) (done : Annotates calls row out)
    (done' : Annotates others row out') : SameContent out out' where
  provenance := done.provenance.trans done'.provenance.symm
  members := done.members.trans done'.members.symm
  cells := by
    intro name
    by_cases written : ∃ call ∈ calls, call.1.outputColumn call.2 = name
    · obtain ⟨call, listed, rfl⟩ := written
      obtain ⟨members, v, grouped, value, found⟩ := done.results call listed
      obtain ⟨members', v', grouped', value', found'⟩ :=
        done'.results call ((same call).mp listed)
      rw [grouped] at grouped'
      cases grouped'
      rw [value] at value'
      cases value'
      rw [found, found']
    · have other : ∀ call ∈ calls, call.1.outputColumn call.2 ≠ name :=
        fun call listed same => written ⟨call, listed, same⟩
      have other' : ∀ call ∈ others, call.1.outputColumn call.2 ≠ name :=
        fun call listed => other call ((same call).mpr listed)
      rw [done.others name other, done'.others name other']

end Row

namespace Table

def aggregateAll (table : Table) (calls : List (Aggregate × String)) : Except QueryError Table :=
  calls.foldlM (fun table call => table.aggregate call.1 call.2) table

variable {table out : Table} {calls others : List (Aggregate × String)}
  {call : Aggregate × String}

def Computed (table : Table) (calls : List (Aggregate × String)) : Prop :=
  ∀ row ∈ table.rows, ∀ call ∈ calls, (row.aggregated? call).isSome

def annotated (table : Table) (calls : List (Aggregate × String)) : Table :=
  { table with rows := table.rows.map (·.annotated calls) }

theorem rows_annotated {rows : List Row} {results : List Value}
    (computed : List.Forall₂ (fun row v => row.aggregated? call = some v) rows results) :
    rows.zipWith (fun row v => row.insert (call.1.outputColumn call.2) v) results =
      rows.map (·.annotated [call]) := by
  induction computed with
  | nil => rfl
  | cons first rest ih => rw [List.zipWith_cons_cons, List.map_cons, ih, Row.annotated_one first]

theorem aggregate_ok_iff : table.aggregate call.1 call.2 = .ok out ↔
    table.Computed [call] ∧ out = table.annotated [call] := by
  have steps (results : List Value) :
      table.rows.zipIdx.mapM (fun entry => call.1.ofRow call.2 entry.2 entry.1) = .ok results ↔
        List.Forall₂ (fun row v => row.aggregated? call = some v) table.rows results := by
    conv_rhs => rw [← List.zipIdx_map_fst 0 table.rows]
    simp only [mapM_eq_ok_iff, List.forall₂_map_left_iff, Row.of_row_ok_iff]
  have unfolded : table.aggregate call.1 call.2 = .ok out ↔ ∃ results,
      List.Forall₂ (fun row v => row.aggregated? call = some v) table.rows results ∧
      ⟨table.name, table.rows.zipWith
        (fun row v => row.insert (call.1.outputColumn call.2) v) results⟩ = out := by
    simp only [← steps]
    exact bind_eq_ok_iff.trans (by simp [pure, Except.pure])
  rw [unfolded]
  constructor
  · rintro ⟨results, computed, rfl⟩
    refine ⟨fun row inside => ?_, by rw [annotated, rows_annotated computed]⟩
    obtain ⟨v, -, found⟩ := pairs_left computed inside
    simp [found]
  · rintro ⟨computed, rfl⟩
    obtain ⟨results, found⟩ := pairs_of_forall fun row inside =>
      Option.isSome_iff_exists.mp (computed row inside call (List.mem_singleton_self call))
    exact ⟨results, found, by rw [rows_annotated found, annotated]⟩

theorem computed_cons : table.Computed (call :: calls) ↔
    table.Computed [call] ∧ (table.annotated [call]).Computed calls := by
  -- the rows that an aggregate leaves have the members they had
  have kept : (table.annotated [call]).Computed calls ↔ table.Computed calls :=
    List.forall_mem_map
  rw [kept]
  constructor
  · intro computed
    refine ⟨fun row inside => ?_, fun row inside => ?_⟩
    · exact List.forall_mem_singleton.mpr (List.forall_mem_cons.mp (computed row inside)).1
    · exact (List.forall_mem_cons.mp (computed row inside)).2
  · rintro ⟨first, rest⟩ row inside
    exact List.forall_mem_cons.mpr
      ⟨first row inside call (List.mem_singleton_self call), rest row inside⟩

theorem annotated_nil (table : Table) : table.annotated [] = table := by
  have unchanged (row : Row) : row.annotated [] = row := by
    cases row
    rfl
  simp only [annotated, unchanged, List.map_id']

theorem annotated_cons : (table.annotated [call]).annotated calls =
    table.annotated (call :: calls) := by
  simp only [annotated, List.map_map, Function.comp_def, Row.annotated_annotated]
  rfl

theorem aggregate_all_ok_iff : table.aggregateAll calls = .ok out ↔
    table.Computed calls ∧ out = table.annotated calls := by
  induction calls generalizing table with
  | nil =>
    have done : table.aggregateAll [] = .ok table := rfl
    have nothing : table.Computed [] := fun _ _ call listed => absurd listed List.not_mem_nil
    rw [done, annotated_nil, Except.ok.injEq, eq_comm]
    exact (and_iff_right nothing).symm
  | cons call rest ih =>
    have step : table.aggregateAll (call :: rest) =
        table.aggregate call.1 call.2 >>= fun next => next.aggregateAll rest := List.foldlM_cons
    rw [step, bind_eq_ok_iff, computed_cons]
    constructor
    · rintro ⟨next, done, later⟩
      obtain ⟨first, rfl⟩ := aggregate_ok_iff.mp done
      obtain ⟨others, rfl⟩ := ih.mp later
      exact ⟨⟨first, others⟩, annotated_cons⟩
    · rintro ⟨⟨first, others⟩, rfl⟩
      exact ⟨_, aggregate_ok_iff.mpr ⟨first, rfl⟩, ih.mpr ⟨others, annotated_cons.symm⟩⟩

theorem computed_iff_each : table.Computed calls ↔
    ∀ call ∈ calls, ∃ out, table.aggregate call.1 call.2 = .ok out := by
  simp only [aggregate_ok_iff, exists_and_left, exists_eq, and_true]
  constructor
  · intro computed call listed row inside
    exact List.forall_mem_singleton.mpr (computed row inside call listed)
  · intro each row inside call listed
    exact each call listed row inside call (List.mem_singleton_self call)

theorem aggregate_again (done : table.aggregateAll calls = .ok out) (listed : call ∈ calls) :
    out.aggregate call.1 call.2 = .ok out := by
  obtain ⟨computed, rfl⟩ := aggregate_all_ok_iff.mp done
  have each : ∀ row ∈ table.rows, (row.aggregated? call).isSome :=
    fun row inside => computed row inside call listed
  refine aggregate_ok_iff.mpr ⟨?_, ?_⟩
  · exact List.forall_mem_map.mpr fun row inside => List.forall_mem_singleton.mpr (each row inside)
  · simp only [annotated, List.map_map]
    refine congrArg (Table.mk table.name) (List.map_congr_left fun row inside => ?_)
    exact (Row.annotated_again listed (each row inside)).symm

theorem aggregate_all_append (table : Table) (first second : List (Aggregate × String)) :
    table.aggregateAll (first ++ second) =
      table.aggregateAll first >>= fun next => next.aggregateAll second := List.foldlM_append

theorem repeated_changes_nothing {before after : List (Aggregate × String)}
    (earlier : call ∈ before) :
    table.aggregateAll (before ++ call :: after) = table.aggregateAll (before ++ after) := by
  rw [aggregate_all_append, aggregate_all_append]
  cases done : table.aggregateAll before with
  | error e => rfl
  | ok next =>
    have step : next.aggregateAll (call :: after) =
        next.aggregate call.1 call.2 >>= fun next => next.aggregateAll after := List.foldlM_cons
    simp only [bind, Except.bind] at step ⊢
    rw [step, aggregate_again done earlier]

/-- Aggregates are independent of their order. A run of them works exactly when
each works on the table alone; every one writes what it computes over the members
that the rows had at first, to a column that no other aggregate of no other column
writes to, and all else stays. So runs of the same aggregates, in any order and with
any repetitions, leave rows that differ in the order of their cells at most; and an
aggregate that came before changes nothing when it comes again. -/
theorem aggregates_in_any_order (table : Table) :
    (∀ calls, (∃ out, table.aggregateAll calls = .ok out) ↔
      ∀ call ∈ calls, ∃ out, table.aggregate call.1 call.2 = .ok out) ∧
    (∀ calls out, table.aggregateAll calls = .ok out →
      out.name = table.name ∧ List.Forall₂ (Row.Annotates calls) table.rows out.rows) ∧
    (∀ calls others out, (∀ call, call ∈ calls ↔ call ∈ others) →
      table.aggregateAll calls = .ok out → ∃ out', table.aggregateAll others = .ok out' ∧
        out'.name = out.name ∧ List.Forall₂ Row.SameContent out.rows out'.rows) ∧
    (∀ before call after, call ∈ before →
      table.aggregateAll (before ++ call :: after) = table.aggregateAll (before ++ after)) ∧
    ∀ (f g : Aggregate) (c d : String), f.outputColumn c = g.outputColumn d → f = g ∧ c = d := by
  refine ⟨?_, ?_, ?_, fun _ _ _ => repeated_changes_nothing,
    fun _ _ _ _ => Aggregate.output_column_injective⟩
  · intro calls
    simp only [aggregate_all_ok_iff, exists_and_left, exists_eq, and_true, computed_iff_each]
  · intro calls out done
    obtain ⟨computed, rfl⟩ := aggregate_all_ok_iff.mp done
    refine ⟨rfl, List.forall₂_map_right_iff.mpr (List.forall₂_same.mpr fun row inside => ?_)⟩
    exact Row.annotated_annotates (computed row inside)
  · intro calls others out same done
    obtain ⟨computed, rfl⟩ := aggregate_all_ok_iff.mp done
    have computed' : table.Computed others :=
      fun row inside call listed => computed row inside call ((same call).mpr listed)
    refine ⟨_, aggregate_all_ok_iff.mpr ⟨computed', rfl⟩, rfl, ?_⟩
    refine List.forall₂_map_left_iff.mpr (List.forall₂_map_right_iff.mpr ?_)
    exact List.forall₂_same.mpr fun row inside => Row.same_content_of_annotates same
      (Row.annotated_annotates (computed row inside))
      (Row.annotated_annotates (computed' row inside))

def visit (cost : Int64) : Row := .ofCells (.ofList [("cost", .int cost)])

def visitsByGuest : Table :=
  ⟨"visits", [⟨.ofList [("SUM(cost)", .null), ("guest", .int 1)], none, some [visit 3, visit 4]⟩,
    ⟨.ofList [("guest", .int 2)], none, some [visit 5]⟩]⟩

theorem sums_and_counts_of_visits :
    ∃ out out', visitsByGuest.aggregateAll [(.sum, "cost"), (.count, "cost")] = .ok out ∧
      visitsByGuest.aggregateAll [(.count, "cost"), (.sum, "cost"), (.count, "cost")] = .ok out' ∧
      List.Forall₂ Row.SameContent out.rows out'.rows ∧
      out.rows.map Row.columns =
        [["SUM(cost)", "guest", "COUNT(cost)"], ["guest", "SUM(cost)", "COUNT(cost)"]] ∧
      out'.rows.map Row.columns =
        [["SUM(cost)", "guest", "COUNT(cost)"], ["guest", "COUNT(cost)", "SUM(cost)"]] := by
  refine ⟨_, _, rfl, rfl, ?_, by decide, by decide⟩
  obtain ⟨-, -, orders, -, -⟩ := aggregates_in_any_order visitsByGuest
  have listed : ∀ call, call ∈ [(Aggregate.sum, "cost"), (.count, "cost")] ↔
      call ∈ [(Aggregate.count, "cost"), (.sum, "cost"), (.count, "cost")] := by
    intro call
    simp only [List.mem_cons, List.not_mem_nil, or_false]
    tauto
  obtain ⟨out', done, -, same⟩ := orders _ _ _ listed rfl
  cases done
  exact same

end Table
end TableAlgebra

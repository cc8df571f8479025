import TableAlgebra.Proofs.Query.Errors
import TableAlgebra.Proofs.Query.Grouping
import TableAlgebra.Proofs.Query.JoinFailure
import TableAlgebra.Proofs.Query.JoinedRows
import TableAlgebra.Proofs.Query.Runs

namespace TableAlgebra

namespace Table

variable {table out : Table} {f : Aggregate} {column : String} {e : QueryError}

def Grouped (table : Table) : Prop :=
  ∀ row ∈ table.rows, ∃ first rest, row.members = some (first :: rest)

def Ungrouped (table : Table) : Prop := ∀ row ∈ table.rows, row.members = none

theorem aggregate_members (done : table.aggregate f column = .ok out) :
    ∀ row ∈ out.rows, ∃ old ∈ table.rows, row.members = old.members := by
  obtain ⟨results, -, given⟩ := bind_eq_ok_iff.mp done
  cases given
  intro row member
  rw [← List.map_uncurry_zip_eq_zipWith] at member
  obtain ⟨⟨old, v⟩, paired, rfl⟩ := List.mem_map.mp member
  exact ⟨old, (List.of_mem_zip paired).1, rfl⟩

theorem aggregate_of_ungrouped (ungrouped : table.Ungrouped) :
    table.aggregate f column = .error e ↔ table.rows ≠ [] ∧ e = .notGrouped f column 0 := by
  obtain ⟨name, rows⟩ := table
  cases rows with
  | nil => simp [aggregate, pure, Except.pure, bind, Except.bind]
  | cons first rest =>
    have bare : first.members = none := ungrouped first (List.mem_cons_self ..)
    have failed : f.ofRow column 0 first = .error (.notGrouped f column 0) := by
      rw [Aggregate.ofRow, bare]
    simp [aggregate, failed, bind, Except.bind, eq_comm]

theorem aggregate_of_grouped (grouped : table.Grouped)
    (failed : table.aggregate f column = .error e) : f.ValueError column e := by
  have stuck := bind_pure_eq_error_iff.mp failed
  obtain ⟨before, ⟨row, i⟩, after, split, -, stuck⟩ := mapM_eq_error_iff.mp stuck
  have inside : (row, i) ∈ table.rows.zipIdx := by
    rw [split]
    exact List.mem_append_cons_self
  obtain ⟨first, rest, members⟩ := grouped row (List.fst_mem_of_mem_zipIdx inside)
  simp only [Aggregate.ofRow, members] at stuck
  exact Aggregate.compute_error stuck

theorem group_by_grouped (table : Table) (columns : List String) :
    (table.groupBy columns).Grouped := by
  intro row member
  obtain ⟨group, gathered, rfl⟩ := List.mem_map.mp member
  rw [gather_eq] at gathered
  obtain ⟨key, occurs, rfl⟩ := List.mem_map.mp gathered
  obtain ⟨first, rest, members, -⟩ := class_of_key (List.mem_eraseDups.mp occurs)
  exact ⟨first, rest, congrArg some members⟩

section Joins

variable {kind : JoinKind} {right : Table} {matching : Predicate} {policy : PaddingPolicy}

theorem inner_join_ungrouped : (innerJoin table right matching).Ungrouped := by
  intro row member
  obtain ⟨i, j, x, y, -, -, -, rfl⟩ := mem_inner_join.mp member
  rfl

theorem left_join_ungrouped (joined : leftJoin table right matching policy = .ok out) :
    out.Ungrouped := by
  intro row member
  rcases (mem_left_join joined).mp member with ⟨i, j, x, y, -, -, -, rfl⟩ | ⟨i, x, -, -, rfl⟩
  · rfl
  · rfl

theorem full_join_ungrouped (joined : fullJoin table right matching policy = .ok out) :
    out.Ungrouped := by
  intro row member
  rcases (mem_full_join joined).mp member with
    ⟨i, j, x, y, -, -, -, rfl⟩ | ⟨i, x, -, -, rfl⟩ | ⟨j, y, -, -, rfl⟩
  · rfl
  · rfl
  · rfl

theorem join_ungrouped (joined : table.join kind right matching policy = .ok out) :
    out.Ungrouped := by
  cases kind with
  | cross =>
    cases joined
    -- a cross join is an inner join that keeps every pair
    have whole : (crossJoin table right).rows = (innerJoin table right fun _ => true).rows :=
      (List.filter_true _).symm
    intro row member
    rw [whole] at member
    exact inner_join_ungrouped row member
  | inner =>
    cases joined
    exact inner_join_ungrouped
  | left => exact left_join_ungrouped joined
  | right => exact left_join_ungrouped joined
  | full => exact full_join_ungrouped joined

end Joins

end Table

namespace Stage

variable {stage : Stage} {table out : Table}

def rebuilds : Stage → Bool
  | join .. => true
  | distinct _ => true
  | select .. => true
  | _ => false

/-- What a stage does to members: it groups, or drops them all, or keeps those
of the rows that stay. -/
theorem apply_members (applied : stage.apply table = .ok out) :
    (∃ columns, stage = .groupBy columns) ∧ stage.rebuilds = false ∧ out.Grouped ∨
    stage.rebuilds = true ∧ out.Ungrouped ∨
    (∀ columns, stage ≠ .groupBy columns) ∧ stage.rebuilds = false ∧
      ∀ row ∈ out.rows, ∃ old ∈ table.rows, row.members = old.members := by
  -- rows of the old table itself
  have kept {rows : List Row} (sub : rows ⊆ table.rows) :
      ∀ row ∈ rows, ∃ old ∈ table.rows, row.members = old.members :=
    fun row member => ⟨row, sub member, rfl⟩
  cases stage with
  | groupBy columns =>
    cases applied
    exact .inl ⟨⟨columns, rfl⟩, rfl, table.group_by_grouped columns⟩
  | join kind right matching policy => exact .inr (.inl ⟨rfl, Table.join_ungrouped applied⟩)
  | distinct columns =>
    cases applied
    refine .inr (.inl ⟨rfl, fun row member => ?_⟩)
    obtain ⟨old, -, rfl⟩ := List.mem_map.mp member
    rfl
  | select columns aliases =>
    cases applied
    refine .inr (.inl ⟨rfl, fun row member => ?_⟩)
    obtain ⟨old, -, rfl⟩ := List.mem_map.mp member
    rfl
  | aggregate f column => exact .inr (.inr ⟨nofun, rfl, Table.aggregate_members applied⟩)
  | filter holds =>
    cases applied
    exact .inr (.inr ⟨nofun, rfl, kept (List.filter_subset_self _)⟩)
  | having holds =>
    cases applied
    exact .inr (.inr ⟨nofun, rfl, kept (List.filter_subset_self _)⟩)
  | sortBy compare =>
    cases applied
    exact .inr (.inr ⟨nofun, rfl, kept (List.mergeSort_perm _ _).subset⟩)
  | offset n =>
    cases applied
    exact .inr (.inr ⟨nofun, rfl, kept (List.drop_subset _ _)⟩)
  | limit n =>
    cases applied
    exact .inr (.inr ⟨nofun, rfl, kept (List.take_subset _ _)⟩)

theorem aggregate_of_not_grouped {f : Aggregate} {column : String} {i : Nat}
    (failed : stage.apply table = .error (.notGrouped f column i)) :
    ∃ g other, stage = .aggregate g other := by
  cases stage with
  | aggregate g other => exact ⟨g, other, rfl⟩
  | join kind right matching policy =>
    obtain ⟨-, ⟨-, -, -, other⟩ | ⟨-, -, -, other⟩⟩ := Table.join_error_iff.mp failed
    · cases other
    · cases other
  | _ => cases failed

end Stage

namespace Pipeline

variable {stages : List Stage} {stage : Stage} {table out : Table}

/-- Some stage groups, and none after it makes new rows. -/
def EndsGrouped (stages : List Stage) : Prop :=
  ∃ before columns after, stages = before ++ .groupBy columns :: after ∧
    ∀ stage ∈ after, stage.rebuilds = false

theorem ends_grouped_concat : EndsGrouped (stages ++ [stage]) ↔
    (∃ columns, stage = .groupBy columns) ∨ stage.rebuilds = false ∧ EndsGrouped stages := by
  constructor
  · rintro ⟨before, columns, after, split, kept⟩
    -- the grouping is the last stage, or the last stage comes after it
    cases after using List.reverseRecOn with
    | nil =>
      obtain ⟨-, last⟩ := List.append_inj' split rfl
      exact .inl ⟨columns, List.singleton_inj.mp last⟩
    | append_singleton after last =>
      rw [← List.cons_append, ← List.append_assoc] at split
      obtain ⟨rfl, same⟩ := List.append_inj' split rfl
      cases same
      refine .inr ⟨kept _ (List.mem_append_cons_self ..), before, columns, after, rfl, ?_⟩
      exact fun stage member => kept stage (List.mem_append_left _ member)
  · rintro (⟨columns, rfl⟩ | ⟨last, before, columns, after, rfl, kept⟩)
    · exact ⟨stages, columns, [], rfl, by simp⟩
    · refine ⟨before, columns, after ++ [stage], by simp, ?_⟩
      intro other member
      rcases List.mem_append.mp member with earlier | here
      · exact kept other earlier
      · cases List.mem_singleton.mp here
        exact last

theorem run_members {index : Nat} (plain : table.Ungrouped)
    (ran : OpenPipeline.runFrom index (stages.map Operator.own) table = .ok out) :
    (EndsGrouped stages → out.Grouped) ∧ (¬ EndsGrouped stages → out.Ungrouped) := by
  -- the last stage alone decides, unless it keeps the members it finds
  induction stages using List.reverseRecOn generalizing out with
  | nil =>
    cases ran
    refine ⟨?_, fun _ => plain⟩
    rintro ⟨before, columns, after, split, -⟩
    exact absurd split (by simp)
  | append_singleton stages stage ih =>
    rw [List.map_append, List.map_singleton] at ran
    obtain ⟨running, before, applied⟩ := OpenPipeline.run_from_last ran
    obtain ⟨grouped, ungrouped⟩ := ih before
    rw [ends_grouped_concat]
    rcases Stage.apply_members applied with ⟨groups, -, done⟩ | ⟨rebuilds, done⟩ |
      ⟨other, keeps, kept⟩
    · exact ⟨fun _ => done, fun never => absurd (.inl groups) never⟩
    · refine ⟨?_, fun _ => done⟩
      rintro (⟨columns, rfl⟩ | ⟨keeps, -⟩)
      · cases rebuilds
      · rw [rebuilds] at keeps
        cases keeps
    · constructor
      · rintro (⟨columns, same⟩ | ⟨-, earlier⟩) row member
        · exact absurd same (other columns)
        · obtain ⟨old, inside, same⟩ := kept row member
          rw [same]
          exact grouped earlier old inside
      · intro never row member
        obtain ⟨old, inside, same⟩ := kept row member
        rw [same]
        exact ungrouped (fun earlier => never (.inr ⟨keeps, earlier⟩)) old inside

/-- Members are all or nothing. Behind any number of stages either every row of
the running table has members, and at least one, or no row has any; the former
holds behind a grouping and up to the next join, distinct or select. So a run
misses members exactly at an aggregate that meets rows with no such grouping
behind them, and always in the first row. -/
theorem members_all_or_nothing (pipeline : Pipeline) (plain : table.Ungrouped) :
    (∀ i running, (pipeline.first i).run table = .ok running →
      (running.Grouped ∨ running.Ungrouped) ∧
      (EndsGrouped (pipeline.stages.take i) → running.Grouped) ∧
      (¬ EndsGrouped (pipeline.stages.take i) → running.Ungrouped)) ∧
    ∀ i operation f column row,
      pipeline.run table = .error ⟨i, operation, .notGrouped f column row⟩ ↔
        (∃ running, (pipeline.first i).run table = .ok running ∧ running.rows ≠ []) ∧
        pipeline.stages[i]? = some (.aggregate f column) ∧
        ¬ EndsGrouped (pipeline.stages.take i) ∧ operation = f.name ∧ row = 0 := by
  constructor
  · intro i running ran
    obtain ⟨grouped, ungrouped⟩ := run_members plain ran
    exact ⟨(em _).imp grouped ungrouped, grouped, ungrouped⟩
  · intro i operation f column row
    rw [run_error_iff]
    constructor
    · rintro ⟨stage, running, place, ran, failed, named⟩
      obtain ⟨grouped, ungrouped⟩ := run_members plain ran
      obtain ⟨g, other, rfl⟩ := Stage.aggregate_of_not_grouped failed
      have never : ¬ EndsGrouped (pipeline.stages.take i) := by
        intro behind
        cases Table.aggregate_of_grouped (grouped behind) failed
      obtain ⟨nonempty, same⟩ := (Table.aggregate_of_ungrouped (ungrouped never)).mp failed
      cases same
      exact ⟨⟨running, ran, nonempty⟩, place, never, named, rfl⟩
    · rintro ⟨⟨running, ran, nonempty⟩, place, never, rfl, rfl⟩
      obtain ⟨-, ungrouped⟩ := run_members plain ran
      refine ⟨_, running, place, ran, ?_, rfl⟩
      exact (Table.aggregate_of_ungrouped (ungrouped never)).mpr ⟨nonempty, rfl⟩

def sumOfSelected : Pipeline where
  settings := .default
  stages := [.groupBy ["region"], .having fun _ => true, .select ["region"] .empty,
    .aggregate .sum "region"]

def oneSale : Table := ⟨"sales", [Table.sale (.int 1) 0]⟩

theorem sum_of_selected_misses_members :
    oneSale.Ungrouped ∧
    (∀ running, (sumOfSelected.first 2).run oneSale = .ok running → running.Grouped) ∧
    sumOfSelected.run oneSale = .error ⟨3, "SUM", .notGrouped .sum "region" 0⟩ := by
  have plain : oneSale.Ungrouped := by
    intro row member
    cases List.mem_singleton.mp member
    rfl
  obtain ⟨running, missing⟩ := members_all_or_nothing sumOfSelected plain
  have behind : EndsGrouped (sumOfSelected.stages.take 2) :=
    ⟨[], ["region"], [.having fun _ => true], rfl, by simp [Stage.rebuilds]⟩
  have never : ¬ EndsGrouped (sumOfSelected.stages.take 3) := by
    intro grouped
    have last : EndsGrouped (sumOfSelected.stages.take 2 ++ [.select ["region"] .empty]) := grouped
    rcases ends_grouped_concat.mp last with ⟨columns, other⟩ | ⟨rebuilds, -⟩
    · cases other
    · cases rebuilds
  refine ⟨plain, fun table ran => (running 2 table ran).2.1 behind, ?_⟩
  exact (missing 3 "SUM" .sum "region" 0).mpr ⟨⟨_, rfl, List.cons_ne_nil _ _⟩, rfl, never, rfl, rfl⟩

end Pipeline
end TableAlgebra

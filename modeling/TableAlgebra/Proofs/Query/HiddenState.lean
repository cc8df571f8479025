import TableAlgebra.Proofs.Outcome
import TableAlgebra.Proofs.Query.Grouping
import TableAlgebra.Proofs.Query.Runs
import TableAlgebra.Report

/-!
What rows carry beside their cells does not reach the results. A stage that makes
new rows reads nothing but cells, and what its rows carry is its own work; up to
the first such stage there is no aggregate, and behind it the members that an
aggregate reads are alike in both runs as far as their cells go. So the runs are
compared under two views of a row, before that stage and behind it.
-/
namespace TableAlgebra

section Maps

variable {κ α β : Type} [DecidableEq κ]

theorem gather_map (key : β → κ) (f : α → β) (values : List α) :
    gather key (values.map f) =
      (gather (key ∘ f) values).map fun group => (group.1, group.2.map f) := by
  rw [gather_eq, gather_eq, List.map_map, List.map_map]
  simp only [List.filter_map, Function.comp_def]

theorem last_of_each_map (key : β → κ) (f : α → β) (values : List α) :
    lastOfEach key (values.map f) =
      (lastOfEach (key ∘ f) values).map fun kept => (kept.1, f kept.2) := by
  induction values using List.reverseRecOn with
  | nil => rfl
  | append_singleton values value ih =>
    rw [List.map_append, List.map_singleton, last_of_each_concat, ih, last_of_each_concat,
      putEntry_map]
    rfl

end Maps

namespace Table

def visible (table : Table) : Table := { table with rows := table.rows.map Row.visible }

section Rebuilding

variable (a b : Table) (matching : Predicate) (policy : PaddingPolicy)

theorem zip_idx_visible : a.visible.rows.zipIdx = a.rows.zipIdx.map (Prod.map Row.visible id) :=
  List.zipIdx_map

theorem size_visible : a.visible.size = a.size := List.length_map _

theorem cross_join_visible : crossJoin a.visible b.visible = crossJoin a b := by
  simp only [crossJoin, zip_idx_visible, List.flatMap_map, List.map_map]
  rfl

theorem padding_cells_visible : a.visible.paddingCells policy = a.paddingCells policy := by
  obtain ⟨name, rows⟩ := a
  cases rows <;> rfl

theorem left_rows_visible (i : Nat) (x : Row) (found : List Row) :
    leftRows a.visible b.visible policy i x.visible found = leftRows a b policy i x found := by
  cases found with
  | nil =>
    simp only [leftRows, leftPaddingRow, padding_cells_visible]
    rfl
  | cons row rest => rfl

theorem left_join_visible :
    leftJoin a.visible b.visible matching policy = leftJoin a b matching policy := by
  simp only [leftJoin, cross_join_visible, size_visible, zip_idx_visible, List.zip_map_left,
    List.mapM_map]
  refine congrArg (· >>= _) (congrArg (List.mapM · _) (funext fun x => ?_))
  exact left_rows_visible a b policy x.1.2 x.1.1 x.2

theorem right_padding_visible (j : Nat) (y : Row) :
    rightPaddingRow a.visible b.visible policy j y.visible = rightPaddingRow a b policy j y := by
  simp only [rightPaddingRow, padding_cells_visible]
  rfl

theorem full_join_visible :
    fullJoin a.visible b.visible matching policy = fullJoin a b matching policy := by
  simp only [fullJoin, left_join_visible, size_visible, zip_idx_visible, List.filter_map,
    List.mapM_map, Function.comp_def, Prod.map, right_padding_visible, id]

theorem join_visible (kind : JoinKind) :
    a.visible.join kind b.visible matching policy = a.join kind b matching policy := by
  cases kind with
  | cross => exact congrArg Except.ok (cross_join_visible a b)
  | inner =>
    have product := cross_join_visible a b
    exact congrArg (fun product => Except.ok (product.filter matching)) product
  | left => exact left_join_visible a b matching policy
  | right => exact left_join_visible b a matching policy
  | full => exact full_join_visible a b matching policy

theorem select_visible (columns : List String) (aliases : Entries String) :
    a.visible.select columns aliases = a.select columns aliases := by
  simp only [select, visible, List.map_map]
  rfl

theorem distinct_visible (columns : List String) :
    a.visible.distinct columns = a.distinct columns := by
  simp only [distinct, visible, last_of_each_map, List.map_map]
  rfl

end Rebuilding

def under {α : Type} (view : Row → α) (table : Table) : String × List α :=
  (table.name, table.rows.map view)

end Table

def Row.surface (row : Row) : Entries Value × Option (List (Entries Value)) :=
  (row.cells, row.members.map fun members => members.map Row.cells)

namespace Table

variable {a b : Table}

theorem cells_of_surface (same : a.under Row.surface = b.under Row.surface) :
    a.under Row.cells = b.under Row.cells := by
  have cells (table : Table) : table.under Row.cells =
      ((table.under Row.surface).1, (table.under Row.surface).2.map Prod.fst) := by
    simp only [under, List.map_map]
    rfl
  rw [cells, cells, same]

theorem visible_eq (same : a.under Row.cells = b.under Row.cells) : a.visible = b.visible := by
  have shown (table : Table) : table.visible =
      ⟨(table.under Row.cells).1, (table.under Row.cells).2.map Row.ofCells⟩ := by
    simp only [under, List.map_map]
    rfl
  rw [shown, shown, same]

theorem group_row_surface (columns : List String) (members : List Row) :
    (groupRow columns (members.map Row.visible)).surface = (groupRow columns members).surface := by
  have head : ((members.map Row.visible).headD .empty).cells = (members.headD .empty).cells := by
    cases members <;> rfl
  have cells : (members.map Row.visible).map Row.cells = members.map Row.cells := by
    rw [List.map_map]
    rfl
  simp only [Row.surface, groupRow, Option.map_some, cells, Row.project, Row.get?, head]

theorem group_by_visible (table : Table) (columns : List String) :
    (table.visible.groupBy columns).under Row.surface =
      (table.groupBy columns).under Row.surface := by
  simp only [under, groupBy, visible, gather_map, List.map_map, Function.comp_def,
    group_row_surface]
  rfl

section Kept

variable {α : Type} {view : Row → α} {cells : α → Entries Value}

theorem filter_under (sees : ∀ row, cells (view row) = row.cells) {holds : Predicate}
    (reads : ∀ row, holds row = holds row.visible) (table : Table) :
    (table.filter holds).under view =
      (table.name, (table.under view).2.filter fun seen => holds (.ofCells (cells seen))) := by
  have through : (fun row => holds (.ofCells (cells (view row)))) = holds := by
    funext row
    rw [sees, reads row]
    rfl
  simp only [under, filter, List.filter_map, Function.comp_def, through]

theorem sort_under (sees : ∀ row, cells (view row) = row.cells) {compare : Comparison}
    (reads : ∀ a b, compare a b = compare a.visible b.visible) (table : Table) :
    (table.sortBy compare).under view =
      (table.name, (table.under view).2.mergeSort fun x y =>
        (compare (.ofCells (cells x)) (.ofCells (cells y))).isLE) := by
  refine congrArg (Prod.mk table.name) (List.map_mergeSort ?_)
  intro x _ y _
  rw [sees, sees, reads x y]
  rfl

end Kept

section Aggregates

variable {f : Aggregate} {column : String}

def ofSurface (f : Aggregate) (column : String) (i : Nat)
    (surface : Entries Value × Option (List (Entries Value))) : Except QueryError Value :=
  f.ofRow column i ⟨surface.1, none, surface.2.map fun members => members.map Row.ofCells⟩

theorem of_row_surface (i : Nat) (row : Row) :
    f.ofRow column i row = ofSurface f column i row.surface := by
  obtain ⟨cells, provenance, members⟩ := row
  cases members with
  | none => rfl
  | some members =>
    simp only [ofSurface, Row.surface, Aggregate.ofRow, Option.map_some, List.map_map]
    rfl

theorem aggregate_under (table : Table) :
    (table.aggregate f column).map (under Row.surface) = (do
      let results ← (table.under Row.surface).2.zipIdx.mapM fun seen =>
        ofSurface f column seen.2 seen.1
      return (table.name, (table.under Row.surface).2.zipWith
        (fun surface v => (surface.1.insert (f.outputColumn column) v, surface.2)) results)) := by
  have steps : (table.under Row.surface).2.zipIdx.mapM
        (fun seen => ofSurface f column seen.2 seen.1) =
      table.rows.zipIdx.mapM fun entry => f.ofRow column entry.2 entry.1 := by
    simp only [under, List.zipIdx_map, List.mapM_map, of_row_surface]
    rfl
  rw [steps, aggregate]
  cases table.rows.zipIdx.mapM fun entry => f.ofRow column entry.2 entry.1 with
  | error e => rfl
  | ok results =>
    refine congrArg Except.ok (congrArg (Prod.mk table.name) ?_)
    simp only [under, List.map_zipWith, List.zipWith_map_left]
    rfl

end Aggregates

end Table

namespace Stage

def renews : Stage → Bool
  | join .. => true
  | groupBy _ => true
  | distinct _ => true
  | select .. => true
  | _ => false

/-- What the stage calls on rows looks at their cells alone. The predicate of a
join may look at anything: it is only ever called on rows that the join made. -/
def ReadsCells : Stage → Prop
  | filter holds => ∀ row, holds row = holds row.visible
  | having holds => ∀ row, holds row = holds row.visible
  | sortBy compare => ∀ a b, compare a b = compare a.visible b.visible
  | _ => True

theorem order_by_reads_cells (nulls : NullOrder) (keys : List SortKey) :
    (sortBy (SortKey.compareRows nulls keys)).ReadsCells := by
  intro a b
  induction keys with
  | nil => rfl
  | cons key rest ih =>
    rw [SortKey.compareRows, SortKey.compareRows, ih]
    rfl

variable {stage : Stage} {a b : Table}

theorem renewed (renews : stage.renews = true) (same : a.under Row.cells = b.under Row.cells) :
    (stage.apply a).map (Table.under Row.surface) =
      (stage.apply b).map (Table.under Row.surface) := by
  have bare := Table.visible_eq same
  cases stage with
  | join kind right matching policy =>
    simp only [apply]
    rw [← Table.join_visible a, ← Table.join_visible b, bare]
  | groupBy columns =>
    refine congrArg Except.ok ?_
    rw [← Table.group_by_visible a, ← Table.group_by_visible b, bare]
  | distinct columns =>
    simp only [apply]
    rw [← Table.distinct_visible a, ← Table.distinct_visible b, bare]
  | select columns aliases =>
    simp only [apply]
    rw [← Table.select_visible a, ← Table.select_visible b, bare]
  | _ => cases renews

theorem kept {α : Type} {view : Row → α} (cells : α → Entries Value)
    (sees : ∀ row, cells (view row) = row.cells) (reads : stage.ReadsCells)
    (keeps : stage.renews = false) (plain : ∀ f column, stage ≠ .aggregate f column)
    (same : a.under view = b.under view) :
    (stage.apply a).map (Table.under view) = (stage.apply b).map (Table.under view) := by
  have name : a.name = b.name := congrArg Prod.fst same
  have rows : a.rows.map view = b.rows.map view := congrArg Prod.snd same
  cases stage with
  | filter holds =>
    refine congrArg Except.ok ?_
    rw [Table.filter_under sees reads, Table.filter_under sees reads, same, name]
  | having holds =>
    refine congrArg Except.ok ?_
    rw [Table.having, Table.having, Table.filter_under sees reads, Table.filter_under sees reads,
      same, name]
  | sortBy compare =>
    refine congrArg Except.ok ?_
    rw [Table.sort_under sees reads, Table.sort_under sees reads, same, name]
  | offset n =>
    refine congrArg Except.ok ?_
    simp only [Table.under, Table.offset, List.map_drop, name, rows]
  | limit n =>
    refine congrArg Except.ok ?_
    simp only [Table.under, Table.limit, List.map_take, name, rows]
  | aggregate f column => exact absurd rfl (plain f column)
  | _ => cases keeps

theorem apply_surface (reads : stage.ReadsCells)
    (same : a.under Row.surface = b.under Row.surface) :
    (stage.apply a).map (Table.under Row.surface) =
      (stage.apply b).map (Table.under Row.surface) := by
  by_cases aggregates : ∃ f column, stage = .aggregate f column
  · obtain ⟨f, column, rfl⟩ := aggregates
    have name : a.name = b.name := congrArg Prod.fst same
    rw [apply, apply, Table.aggregate_under, Table.aggregate_under, same, name]
  · cases renews : stage.renews with
    | true => exact renewed renews (Table.cells_of_surface same)
    | false =>
      have plain (f : Aggregate) (column : String) : stage ≠ .aggregate f column :=
        fun here => aggregates ⟨f, column, here⟩
      exact kept Prod.fst (fun _ => rfl) reads renews plain same

end Stage

namespace Pipeline

open OpenPipeline (runFrom run_from_cons)

variable {stages : List Stage} {stage : Stage} {a b : Table}

/-- No aggregate comes before the first stage that makes new rows. -/
def AggregatesBehind (stages : List Stage) : Prop :=
  ∀ before f column after, stages = before ++ .aggregate f column :: after →
    ∃ stage ∈ before, stage.renews = true

theorem aggregates_behind_cons : AggregatesBehind (stage :: stages) ↔
    stage.renews = true ∨
      (∀ f column, stage ≠ .aggregate f column) ∧ AggregatesBehind stages := by
  constructor
  · intro behind
    cases renews : stage.renews with
    | true => exact .inl rfl
    | false =>
      refine .inr ⟨?_, ?_⟩
      · rintro f column rfl
        obtain ⟨other, earlier, -⟩ := behind [] f column stages rfl
        cases earlier
      · intro before f column after split
        obtain ⟨other, earlier, makes⟩ :=
          behind (stage :: before) f column after (congrArg (stage :: ·) split)
        rcases List.mem_cons.mp earlier with rfl | inside
        · rw [renews] at makes
          cases makes
        · exact ⟨other, inside, makes⟩
  · rintro (renews | ⟨plain, behind⟩) before f column after split
    · cases before with
      | nil =>
        cases split
        cases renews
      | cons first before =>
        cases split
        exact ⟨stage, List.mem_cons_self, renews⟩
    · cases before with
      | nil =>
        cases split
        exact absurd rfl (plain f column)
      | cons first before =>
        cases split
        obtain ⟨other, earlier, makes⟩ := behind before f column after rfl
        exact ⟨other, List.mem_cons_of_mem _ earlier, makes⟩

theorem run_surface (index : Nat) (reads : ∀ stage ∈ stages, stage.ReadsCells)
    (same : a.under Row.surface = b.under Row.surface) :
    (runFrom index (stages.map .own) a).map (Table.under Row.surface) =
      (runFrom index (stages.map .own) b).map (Table.under Row.surface) := by
  induction stages generalizing index a b with
  | nil => exact congrArg Except.ok same
  | cons stage rest ih =>
    obtain ⟨here, later⟩ := List.forall_mem_cons.mp reads
    rw [List.map_cons, run_from_cons, run_from_cons]
    refine bind_view (Operator.run_at_view (Stage.apply_surface here same)) ?_
    intro next next' alike
    exact ih (index + 1) later alike

theorem run_cells (index : Nat) (reads : ∀ stage ∈ stages, stage.ReadsCells)
    (behind : AggregatesBehind stages) (same : a.under Row.cells = b.under Row.cells) :
    (runFrom index (stages.map .own) a).map (Table.under Row.cells) =
      (runFrom index (stages.map .own) b).map (Table.under Row.cells) := by
  induction stages generalizing index a b with
  | nil => exact congrArg Except.ok same
  | cons stage rest ih =>
    obtain ⟨here, later⟩ := List.forall_mem_cons.mp reads
    rw [List.map_cons, run_from_cons, run_from_cons]
    cases renews : stage.renews with
    | true =>
      -- from here on the runs agree under the finer view
      refine bind_view (Operator.run_at_view (Stage.renewed renews same)) ?_
      intro next next' alike
      exact coarser_view (run_surface (index + 1) later alike) fun _ _ => Table.cells_of_surface
    | false =>
      obtain ⟨plain, still⟩ := (aggregates_behind_cons.mp behind).resolve_left (by simp [renews])
      refine bind_view
        (Operator.run_at_view (Stage.kept id (fun _ => rfl) here renews plain same)) ?_
      intro next next' alike
      exact ih (index + 1) later still alike

end Pipeline

namespace Table

variable {a b : Table}

def SameCells (a b : Table) : Prop := a.name = b.name ∧ a.rows.map Row.cells = b.rows.map Row.cells

theorem same_cells_iff : SameCells a b ↔ a.under Row.cells = b.under Row.cells := by
  rw [SameCells, under, under, Prod.mk.injEq]

theorem to_json_visible (table : Table) : table.visible.toJson = table.toJson := by
  have rows : Row.toJson ∘ Row.visible = Row.toJson := rfl
  simp only [toJson, visible, List.map_map, rows]

theorem text_visible (table : Table) : table.visible.text = table.text := by
  have name : table.visible.name = table.name := rfl
  have rows : table.visible.rows.map Row.write = table.rows.map Row.write := List.map_map ..
  -- by `delta`, since the equation of `write` spells out its literals
  unfold text
  delta write
  rw [name, rows]

theorem render_visible (table : Table) (format : OutputFormat) :
    table.visible.render format = table.render format := by
  have columns (row : Row) : row.visible.columns = row.columns := rfl
  have cell (row : Row) : gridCell row.visible = gridCell row := rfl
  have json : Row.toJson ∘ Row.visible = Row.toJson := rfl
  have line (writer : LineWriter) (row : Row) :
      writer.writeRow row.visible = writer.writeRow row := rfl
  cases format with
  | table =>
    simp only [render, gridText, allColumns, visible, List.flatMap_map, List.map_map,
      Function.comp_def, columns, cell]
  | json => simp only [render, visible, List.map_map, json]
  | jsonl => simp only [render, LineWriter.writeTable, visible, List.foldl_map, line]

end Table

namespace Pipeline

variable {pipeline : Pipeline} {a b : Table}

/-- What the rows of a table carry beside their cells has no effect. Two runs on
tables with the same cells fail at the same stage for the same reason, or end in
tables with the same cells, which are written and shown alike; provided that
predicates and comparisons look at cells, and that no aggregate comes before all
stages that make new rows. -/
theorem hidden_state_has_no_effect (reads : ∀ stage ∈ pipeline.stages, stage.ReadsCells)
    (behind : AggregatesBehind pipeline.stages) (same : a.SameCells b) :
    (∃ e, pipeline.run a = .error e ∧ pipeline.run b = .error e) ∨
    ∃ out out', pipeline.run a = .ok out ∧ pipeline.run b = .ok out' ∧ out.SameCells out' ∧
      out.toJson = out'.toJson ∧ out.text = out'.text ∧
      ∀ format, out.render format = out'.render format := by
  have runs := run_cells 0 reads behind (Table.same_cells_iff.mp same)
  rcases same_view_cases runs with failed | ⟨out, out', ran, ran', alike⟩
  · exact .inl failed
  · have bare := Table.visible_eq alike
    refine .inr ⟨out, out', ran, ran', Table.same_cells_iff.mpr alike, ?_, ?_, fun format => ?_⟩
    · rw [← Table.to_json_visible out, ← Table.to_json_visible out', bare]
    · rw [← Table.text_visible out, ← Table.text_visible out', bare]
    · rw [← Table.render_visible out, ← Table.render_visible out', bare]

def numbered (provenance : Option Provenance) (members : Option (List Row)) : Row where
  cells := .ofList [("number", .int 7)]
  provenance := provenance
  members := members

def bareNumber : Table := ⟨"n", [numbered none none]⟩

def ladenNumber : Table :=
  ⟨"n", [numbered (some (.pair 3 4)) (some [numbered none (some [.empty]), .empty])]⟩

def hasNumber (row : Row) : Bool := row.contains "number"

def groupNumbers : Pipeline where
  settings := .default
  stages := [.sortBy (SortKey.compareRows .last [⟨"number", true⟩]), .filter hasNumber,
    .groupBy ["number"], .having hasNumber]

def sumOfChosen : Pipeline where
  settings := .default
  stages := [.filter hasNumber, .select ["number"] .empty, .aggregate .sum "number"]

theorem bare_and_laden_numbers_run_alike :
    bareNumber.SameCells ladenNumber ∧
    (∀ stage ∈ groupNumbers.stages, stage.ReadsCells) ∧ AggregatesBehind groupNumbers.stages ∧
    (∃ out out', groupNumbers.run bareNumber = .ok out ∧ groupNumbers.run ladenNumber = .ok out' ∧
      out.SameCells out' ∧ out.text = out'.text) ∧
    (∀ stage ∈ sumOfChosen.stages, stage.ReadsCells) ∧ AggregatesBehind sumOfChosen.stages ∧
    ∃ e, sumOfChosen.run bareNumber = .error e ∧ sumOfChosen.run ladenNumber = .error e := by
  have same : bareNumber.SameCells ladenNumber := ⟨rfl, rfl⟩
  have reads : ∀ stage ∈ groupNumbers.stages, stage.ReadsCells := by
    simp only [groupNumbers, List.forall_mem_cons]
    exact ⟨Stage.order_by_reads_cells _ _, fun _ => rfl, trivial, fun _ => rfl, nofun⟩
  have behind : AggregatesBehind groupNumbers.stages := by
    simp [groupNumbers, aggregates_behind_cons, Stage.renews]
  have reads' : ∀ stage ∈ sumOfChosen.stages, stage.ReadsCells := by
    simp only [sumOfChosen, List.forall_mem_cons]
    exact ⟨fun _ => rfl, trivial, trivial, nofun⟩
  have behind' : AggregatesBehind sumOfChosen.stages := by
    simp [sumOfChosen, aggregates_behind_cons, Stage.renews]
  refine ⟨same, reads, behind, ?_, reads', behind', ?_⟩
  · rcases hidden_state_has_no_effect reads behind same with
      ⟨e, failed, -⟩ | ⟨out, out', ran, ran', alike, -, text, -⟩
    · cases failed
    · exact ⟨out, out', ran, ran', alike, text⟩
  · rcases hidden_state_has_no_effect reads' behind' same with
      failed | ⟨out, out', ran, -⟩
    · exact failed
    · cases ran

end Pipeline

end TableAlgebra

import TableAlgebra.Database.Calls
import TableAlgebra.Proofs.Entries
import TableAlgebra.Proofs.Outcome
import TableAlgebra.Proofs.Pairs

/-!
A database as the log of its calls. A call that creates a table decides what the
table holds and nothing else; every other call adds to one table at most, behind
what is there. So a table holds what came with its last creation, and then what
the calls after that added, in order; and the names stand in the order in which
they were first created.
-/
namespace TableAlgebra

namespace Json

def items : Json → List Json
  | .array items => items
  | single => [single]

def isObject : Json → Bool
  | .object _ => true
  | _ => false

end Json

theorem Row.of_json_ok_iff {item : Json} :
    (∃ row, Row.ofJson item = .ok row) ↔ item.isObject = true := by
  cases item <;> simp [Row.ofJson, Json.isObject]

theorem Row.of_json_error_iff {item : Json} {cause : SchemaError} :
    Row.ofJson item = .error cause ↔ item.isObject = false ∧ cause = .rowNotObject item := by
  cases item <;> simp [Row.ofJson, Json.isObject, eq_comm]

namespace Database

theorem rows_of_json_eq (json : Json) : rowsOfJson json = json.items.mapM Row.ofJson := by
  cases json with
  | array items => rfl
  | _ => simp [rowsOfJson, Json.items]

theorem rows_of_json_error_iff {json : Json} {cause : SchemaError} :
    rowsOfJson json = .error cause ↔
      ∃ before found later, json.items = before ++ found :: later ∧
        (∀ item ∈ before, item.isObject = true) ∧ found.isObject = false ∧
        cause = .rowNotObject found := by
  rw [rows_of_json_eq, mapM_eq_error_iff]
  simp only [Row.of_json_ok_iff, Row.of_json_error_iff]

theorem rows_of_json_ok_iff {json : Json} {rows : List Row} :
    rowsOfJson json = .ok rows ↔
      List.Forall₂ (fun item row => Row.ofJson item = .ok row) json.items rows := by
  rw [rows_of_json_eq, mapM_eq_ok_iff]

def Call.created? : Call → Option String
  | .create name _ => some name
  | _ => none

def created (calls : List Call) : List String := calls.filterMap Call.created?

/-- The rows that a call adds behind those of the table of this name. Where one
of several items is malformed none of them is added. -/
def Call.added (name : String) : Call → List Row
  | .create _ _ => []
  | .insert other rows => if other = name then rows else []
  | .insertJson other json =>
    match rowsOfJson json with
    | .ok rows => if other = name then rows else []
    | .error _ => []

section Calls

variable {db next : Database} {name : String} {n : Nat} {rows : List Row} {json : Json} {c : Call}

theorem table_ok_iff {table : Table} :
    db.table name = .ok table ↔ db.tables.get? name = some table := by
  unfold Database.table
  cases db.tables.get? name <;> simp

theorem table_unknown_iff :
    db.table name = .error (.unknownTable name) ↔ db.tables.get? name = none := by
  unfold Database.table
  cases db.tables.get? name <;> simp

theorem get?_isSome_iff : (db.tables.get? name).isSome ↔ name ∈ db.tables.names :=
  lookup_isSome_iff

theorem pushTo_created (db : Database) (name : String) (pushed : List Row) (row : Row) :
    pushTo ⟨db.tables.insert name ⟨name, pushed⟩⟩ name row =
      ⟨db.tables.insert name ⟨name, pushed ++ [row]⟩⟩ := by
  rw [pushTo, Entries.get?_insert, if_pos rfl]
  exact congrArg Database.mk (Entries.insert_twice ..)

theorem on_pushes (db : Database) (name : String) (pushed rows : List Row) :
    (rows.forM fun row => modify (·.pushTo name row) : InPlace Database DatabaseError Unit).on
        ⟨db.tables.insert name ⟨name, pushed⟩⟩ =
      (.ok (), ⟨db.tables.insert name ⟨name, pushed ++ rows⟩⟩) := by
  induction rows generalizing pushed with
  | nil =>
    rw [List.append_nil]
    rfl
  | cons row rest ih =>
    rw [List.forM_eq_forM, List.forM_cons, InPlace.on_bind, InPlace.on_modify, pushTo_created]
    exact (ih _).trans (by rw [List.append_assoc, List.singleton_append])

theorem on_create (db : Database) (name : String) (pushed : List Row) :
    (Call.create name pushed).work.on db =
      (.ok (), ⟨db.tables.insert name ⟨name, pushed⟩⟩) := by
  rw [Call.work, InPlace.on_bind, InPlace.on_modify]
  exact on_pushes db name [] pushed

theorem on_insert_into (name : String) (rows : List Row) (db : Database) :
    (insertInto name rows).on db =
      match db.tables.get? name with
      | some old =>
        (.ok rows.length, ⟨db.tables.insert name { old with rows := old.rows ++ rows }⟩)
      | none => (.error (.unknownTable name), db) := by
  simp only [insertInto, InPlace.on_bind, InPlace.on_get, InPlace.on_of_except, Database.table]
  cases db.tables.get? name with
  | none => rfl
  | some old =>
    have grown : (old.rows ++ rows).length - old.rows.length = rows.length := by simp
    simp only [InPlace.on_modify, InPlace.on_pure, Table.size, grown]

theorem on_insert_json (name : String) (json : Json) (db : Database) :
    (insertJson name json).on db =
      match rowsOfJson json with
      | .ok rows => (insertInto name rows).on db
      | .error cause => (.error (.schema cause), db) := by
  rw [insertJson, InPlace.on_bind, InPlace.on_of_except]
  cases rowsOfJson json <;> rfl

def Adds (db : Database) (c : Call) : Prop :=
  ∃ name old, db.tables.get? name = some old ∧
    c.work.on db =
      (.ok (), ⟨db.tables.insert name { old with rows := old.rows ++ c.added name }⟩) ∧
    ∀ other, other ≠ name → c.added other = []

/-- A call that fails. What it would add is for no table that is there. -/
def Fails (db : Database) (c : Call) : Prop :=
  (∃ e, c.work.on db = (.error e, db)) ∧ ∀ name ∈ db.tables.names, c.added name = []

theorem insert_cases (db : Database) (name : String) (rows : List Row) :
    Adds db (.insert name rows) ∨ Fails db (.insert name rows) := by
  have elsewhere : ∀ other, other ≠ name → Call.added other (.insert name rows) = [] :=
    fun other differ => if_neg (Ne.symm differ)
  cases found : db.tables.get? name with
  | some old =>
    refine .inl ⟨name, old, found, ?_, elsewhere⟩
    simp only [Call.work, InPlace.on_discard, on_insert_into, found, Call.added, if_pos]
    rfl
  | none =>
    refine .inr ⟨⟨.unknownTable name, ?_⟩, fun other there => elsewhere other ?_⟩
    · simp only [Call.work, InPlace.on_discard, on_insert_into, found]
      rfl
    · rintro rfl
      rw [← get?_isSome_iff, found] at there
      cases there

theorem call_cases (db : Database) (c : Call) :
    (∃ name pushed, c = .create name pushed) ∨
    c.created? = none ∧ (Adds db c ∨ Fails db c) := by
  cases c with
  | create name pushed => exact .inl ⟨name, pushed, rfl⟩
  | insert name rows => exact .inr ⟨rfl, insert_cases db name rows⟩
  | insertJson name json =>
    refine .inr ⟨rfl, ?_⟩
    cases made : rowsOfJson json with
    | ok rows =>
      -- the same call with the rows already made
      have same : (Call.insertJson name json).work.on db = (Call.insert name rows).work.on db := by
        simp only [Call.work, InPlace.on_discard, on_insert_json, made]
      have added : ∀ other, Call.added other (.insertJson name json) =
          Call.added other (.insert name rows) := by
        intro other
        simp only [Call.added, made]
      simp only [Adds, Fails, same, added]
      exact insert_cases db name rows
    | error cause =>
      refine .inr ⟨⟨.schema cause, ?_⟩, fun other _ => ?_⟩
      · simp only [Call.work, InPlace.on_discard, on_insert_json, made]
        rfl
      · simp only [Call.added, made]

theorem call_create (db : Database) (name : String) (pushed : List Row) :
    db.call (.create name pushed) = ⟨db.tables.insert name ⟨name, pushed⟩⟩ := by
  rw [call, on_create]

def Refuses (db : Database) (c : Call) : Prop := ∃ e, (c.work.on db).1 = .error e

theorem unchanged_of_refused (refused : db.Refuses c) : db.call c = db := by
  obtain ⟨e, failed⟩ := refused
  rcases call_cases db c with ⟨name, pushed, rfl⟩ | ⟨-, ⟨name, old, -, done, -⟩ | ⟨⟨d, left⟩, -⟩⟩
  · rw [on_create] at failed
    cases failed
  · rw [done] at failed
    cases failed
  · rw [call, left]

theorem get?_call (apart : c.created? ≠ some name) :
    (db.call c).tables.get? name =
      (db.tables.get? name).map fun old => { old with rows := old.rows ++ c.added name } := by
  have kept (nothing : c.added name = []) :
      (db.tables.get? name).map (fun old => { old with rows := old.rows ++ c.added name }) =
        db.tables.get? name := by
    simp [nothing]
  rcases call_cases db c with ⟨target, pushed, rfl⟩ | ⟨-, adds | fails⟩
  · have differ : name ≠ target := fun same => apart (congrArg some same.symm)
    rw [call_create, Entries.get?_insert, if_neg differ, kept rfl]
  · obtain ⟨target, old, found, done, elsewhere⟩ := adds
    rw [call, done, Entries.get?_insert]
    by_cases here : name = target
    · rw [if_pos here, here, found]
      rfl
    · rw [if_neg here, kept (elsewhere name here)]
  · obtain ⟨⟨e, left⟩, nothing⟩ := fails
    rw [call, left]
    cases found : db.tables.get? name with
    | none => rfl
    | some old =>
      have there : name ∈ db.tables.names := get?_isSome_iff.mp (by rw [found]; rfl)
      rw [← found, kept (nothing name there)]

theorem names_call (db : Database) (c : Call) :
    (db.call c).tables.names = (db.tables.names ++ c.created?.toList).eraseDups := by
  have distinct : db.tables.names.eraseDups = db.tables.names :=
    erase_dups_of_nodup db.tables.distinct
  rcases call_cases db c with ⟨name, pushed, rfl⟩ | ⟨none_created, adds | fails⟩
  · rw [call_create, Entries.names_insert, Call.created?, Option.toList_some, erase_dups_concat,
      distinct]
  · obtain ⟨name, old, found, done, -⟩ := adds
    have there : name ∈ db.tables.names := get?_isSome_iff.mp (by rw [found]; rfl)
    rw [none_created, Option.toList_none, List.append_nil, distinct, call, done,
      Entries.names_insert, if_pos there]
  · obtain ⟨⟨e, left⟩, -⟩ := fails
    rw [none_created, Option.toList_none, List.append_nil, distinct, call, left]

end Calls

section Runs

variable {calls : List Call} {name : String}

theorem of_calls_concat (calls : List Call) (c : Call) :
    ofCalls (calls ++ [c]) = (ofCalls calls).call c := List.foldl_append

theorem created_concat (calls : List Call) (c : Call) :
    created (calls ++ [c]) = created calls ++ c.created?.toList := by
  rw [created, List.filterMap_append, List.filterMap_cons, List.filterMap_nil]
  cases c.created? <;> rfl

theorem names_of_calls (calls : List Call) :
    (ofCalls calls).tables.names = (created calls).eraseDups := by
  induction calls using List.reverseRecOn with
  | nil => rfl
  | append_singleton calls c ih =>
    rw [of_calls_concat, names_call, ih, created_concat]
    cases c.created? with
    | none =>
      rw [Option.toList_none, List.append_nil, List.append_nil]
      exact erase_dups_of_nodup (erase_dups_nodup _)
    | some name =>
      simp only [Option.toList_some, erase_dups_concat, List.mem_eraseDups,
        erase_dups_of_nodup (erase_dups_nodup _)]

theorem there_iff_created : name ∈ (ofCalls calls).tables.names ↔ name ∈ created calls := by
  rw [names_of_calls, List.mem_eraseDups]

theorem rows_of_calls (there : name ∈ created calls) :
    ∃ before pushed later, calls = before ++ .create name pushed :: later ∧
      name ∉ created later ∧
      (ofCalls calls).tables.get? name =
        some ⟨name, pushed ++ later.flatMap (Call.added name)⟩ := by
  -- from the end: the last call creates the table, or it adds behind what is there
  induction calls using List.reverseRecOn with
  | nil => cases there
  | append_singleton calls c ih =>
    by_cases creates : c.created? = some name
    · obtain ⟨pushed, rfl⟩ : ∃ pushed, c = .create name pushed := by
        cases c with
        | create other pushed =>
          cases creates
          exact ⟨pushed, rfl⟩
        | _ => cases creates
      refine ⟨calls, pushed, [], rfl, List.not_mem_nil, ?_⟩
      rw [of_calls_concat, call_create, Entries.get?_insert, if_pos rfl, List.flatMap_nil,
        List.append_nil]
    · have absent : name ∉ c.created?.toList := by
        intro member
        exact creates (Option.mem_toList.mp member)
      rw [created_concat, List.mem_append] at there
      obtain ⟨before, pushed, later, rfl, fresh, held⟩ := ih (there.resolve_right absent)
      refine ⟨before, pushed, later ++ [c], by simp, ?_, ?_⟩
      · rw [created_concat, List.mem_append, not_or]
        exact ⟨fresh, absent⟩
      · rw [of_calls_concat, get?_call creates, held, List.flatMap_append, List.flatMap_singleton,
          ← List.append_assoc]
        rfl

structure Logs (db : Database) (calls : List Call) : Prop where
  names : db.tableList.map Table.name = (created calls).eraseDups
  tables : ∀ table ∈ db.tableList, db.table table.name = .ok table
  unknown : ∀ name, db.table name = .error (.unknownTable name) ↔ name ∉ created calls
  rows : ∀ name ∈ created calls, ∃ before pushed later,
    calls = before ++ .create name pushed :: later ∧ name ∉ created later ∧
    db.table name = .ok ⟨name, pushed ++ later.flatMap (Call.added name)⟩

theorem stored_under_name {entry : String × Table}
    (stored : entry ∈ (ofCalls calls).tables.toList) :
    (ofCalls calls).tables.get? entry.1 = some entry.2 ∧ entry.2.name = entry.1 := by
  have found : (ofCalls calls).tables.get? entry.1 = some entry.2 :=
    lookup_of_mem (ofCalls calls).tables.distinct stored
  have there : entry.1 ∈ created calls := there_iff_created.mp (List.mem_map_of_mem stored)
  obtain ⟨before, pushed, later, -, -, held⟩ := rows_of_calls there
  rw [found, Option.some.injEq] at held
  exact ⟨found, by rw [held]⟩

theorem calls_logged (calls : List Call) : (ofCalls calls).Logs calls where
  names := by
    rw [← names_of_calls, tableList, List.map_map]
    exact List.map_congr_left fun entry stored => (stored_under_name stored).2
  tables := by
    intro table member
    obtain ⟨entry, stored, rfl⟩ := List.mem_map.mp member
    obtain ⟨found, name⟩ := stored_under_name stored
    rw [name, table_ok_iff]
    exact found
  unknown := by
    intro name
    rw [table_unknown_iff, ← there_iff_created, ← get?_isSome_iff, Option.not_isSome_iff_eq_none]
  rows := by
    intro name there
    simp only [table_ok_iff]
    exact rows_of_calls there

end Runs

section Insertions

variable {db next : Database} {name : String} {n : Nat} {rows : List Row} {json : Json}
  {e : DatabaseError}

/-- The rows stand behind those of one table, and nothing else is changed. -/
def Appends (db next : Database) (name : String) (rows : List Row) : Prop :=
  next.tables.names = db.tables.names ∧
  (∀ other, other ≠ name → next.table other = db.table other) ∧
  ∃ old, db.table name = .ok old ∧ next.table name = .ok { old with rows := old.rows ++ rows }

theorem insert_into_ok (inserted : (insertInto name rows).on db = (.ok n, next)) :
    n = rows.length ∧ db.Appends next name rows := by
  rw [on_insert_into] at inserted
  cases found : db.tables.get? name with
  | none =>
    rw [found] at inserted
    cases inserted
  | some old =>
    rw [found] at inserted
    cases inserted
    have there : name ∈ db.tables.names := get?_isSome_iff.mp (by rw [found]; rfl)
    refine ⟨rfl, (Entries.names_insert _ _ _).trans (if_pos there), ?_, old, ?_, ?_⟩
    · intro other differ
      unfold Database.table
      rw [Entries.get?_insert, if_neg differ]
    · exact table_ok_iff.mpr found
    · rw [table_ok_iff, Entries.get?_insert, if_pos rfl]

theorem insert_into_error_iff :
    (insertInto name rows).on db = (.error e, next) ↔
      (name ∉ db.tables.names ∧ e = .unknownTable name) ∧ next = db := by
  rw [on_insert_into, ← get?_isSome_iff]
  cases db.tables.get? name <;> simp [eq_comm]

theorem insert_json_ok_iff :
    (insertJson name json).on db = (.ok n, next) ↔
      ∃ rows, rowsOfJson json = .ok rows ∧ (insertInto name rows).on db = (.ok n, next) := by
  rw [on_insert_json]
  cases rowsOfJson json <;> simp

theorem insert_json_error_iff :
    (insertJson name json).on db = (.error e, next) ↔
      ((∃ cause, rowsOfJson json = .error cause ∧ e = .schema cause) ∨
        (∃ rows, rowsOfJson json = .ok rows) ∧ name ∉ db.tables.names ∧ e = .unknownTable name) ∧
      next = db := by
  rw [on_insert_json]
  cases rowsOfJson json with
  | error cause => simp [eq_comm]
  | ok rows => simp [insert_into_error_iff]

theorem rows_made_iff :
    (∃ rows, rowsOfJson json = .ok rows) ↔ ∀ item ∈ json.items, item.isObject = true := by
  constructor
  · rintro ⟨rows, made⟩ item member
    obtain ⟨row, -, given⟩ := pairs_left (rows_of_json_ok_iff.mp made) member
    exact Row.of_json_ok_iff.mp ⟨row, given⟩
  · intro objects
    cases made : rowsOfJson json with
    | ok rows => exact ⟨rows, rfl⟩
    | error cause =>
      obtain ⟨before, found, later, split, -, malformed, -⟩ := rows_of_json_error_iff.mp made
      rw [objects found (by rw [split]; exact List.mem_append_cons_self)] at malformed
      cases malformed

end Insertions

/-- A database is the log of the calls on it. It knows the names that were
created, in order of first creation, and a table holds what came with its last
creation and was added since. An insertion tells how many rows it puts behind
those of its table, and touches nothing else. Rows from JSON are refused for the
first item that is no object, before it is asked whether there is the table;
and a refused insertion leaves the database as it was. -/
theorem database_logs_its_calls (calls : List Call) :
    (ofCalls calls).Logs calls ∧
    (∀ name rows n next, (insertInto name rows).on (ofCalls calls) = (.ok n, next) →
      n = rows.length ∧ (ofCalls calls).Appends next name rows) ∧
    (∀ name json n next, (insertJson name json).on (ofCalls calls) = (.ok n, next) →
      ∃ rows, List.Forall₂ (fun item row => Row.ofJson item = .ok row) json.items rows ∧
        n = rows.length ∧ (ofCalls calls).Appends next name rows) ∧
    (∀ name rows e next, (insertInto name rows).on (ofCalls calls) = (.error e, next) ↔
      (name ∉ created calls ∧ e = .unknownTable name) ∧ next = ofCalls calls) ∧
    (∀ name json e next, (insertJson name json).on (ofCalls calls) = (.error e, next) ↔
      ((∃ before found later, json.items = before ++ found :: later ∧
        (∀ item ∈ before, item.isObject = true) ∧ found.isObject = false ∧
        e = .schema (.rowNotObject found)) ∨
      (∀ item ∈ json.items, item.isObject = true) ∧ name ∉ created calls ∧
        e = .unknownTable name) ∧ next = ofCalls calls) ∧
    ∀ c, (ofCalls calls).Refuses c → ofCalls (calls ++ [c]) = ofCalls calls := by
  refine ⟨calls_logged calls, ?_, ?_, ?_, ?_, ?_⟩
  · intro name rows n next
    exact insert_into_ok
  · intro name json n next inserted
    obtain ⟨rows, made, inserted⟩ := insert_json_ok_iff.mp inserted
    exact ⟨rows, rows_of_json_ok_iff.mp made, insert_into_ok inserted⟩
  · intro name rows e next
    rw [insert_into_error_iff, there_iff_created]
  · intro name json e next
    rw [insert_json_error_iff, rows_made_iff, there_iff_created]
    refine and_congr_left' (or_congr_left ?_)
    constructor
    · rintro ⟨cause, failed, rfl⟩
      obtain ⟨before, found, later, split, objects, malformed, rfl⟩ :=
        rows_of_json_error_iff.mp failed
      exact ⟨before, found, later, split, objects, malformed, rfl⟩
    · rintro ⟨before, found, later, split, objects, malformed, rfl⟩
      refine ⟨_, rows_of_json_error_iff.mpr ?_, rfl⟩
      exact ⟨before, found, later, split, objects, malformed, rfl⟩
  · intro c refused
    rw [of_calls_concat]
    exact unchanged_of_refused refused

def ticket (number : Int64) : Row := .ofCells (.ofList [("ticket", .int number)])

def tornTickets : Json := .array [.object [("ticket", .null)], .bool true, .object []]

def counterCalls : List Call :=
  [.create "open" [ticket 1], .create "done" [ticket 2], .insert "open" [ticket 3, ticket 4],
    .insertJson "open" tornTickets, .create "open" [ticket 5],
    .insertJson "open" (.object [("ticket", .bool false)])]

theorem counter_is_log :
    (ofCalls counterCalls).tableList.map Table.name = ["open", "done"] ∧
    "open" ∈ created counterCalls ∧ "lost" ∉ created counterCalls ∧
    (ofCalls counterCalls).table "lost" = .error (.unknownTable "lost") ∧
    (∃ before pushed later, counterCalls = before ++ .create "open" pushed :: later ∧
      "open" ∉ created later ∧ (ofCalls counterCalls).table "open" =
        .ok ⟨"open", pushed ++ later.flatMap (Call.added "open")⟩) ∧
    (insertJson "lost" tornTickets).on (ofCalls counterCalls) =
      (.error (.schema (.rowNotObject (.bool true))), ofCalls counterCalls) ∧
    (insertInto "lost" []).on (ofCalls counterCalls) =
      (.error (.unknownTable "lost"), ofCalls counterCalls) ∧
    ofCalls (counterCalls ++ [.insertJson "open" tornTickets]) = ofCalls counterCalls ∧
    (∃ next, (insertInto "done" [ticket 6]).on (ofCalls counterCalls) = (.ok 1, next) ∧
      (ofCalls counterCalls).Appends next "done" [ticket 6]) ∧
    ∃ next rows, (insertJson "done" (.array [.object [], .object []])).on (ofCalls counterCalls) =
      (.ok 2, next) ∧ (ofCalls counterCalls).Appends next "done" rows := by
  obtain ⟨logs, inserted, read, unknown, malformed, unchanged⟩ :=
    database_logs_its_calls counterCalls
  have there : "open" ∈ created counterCalls := by decide
  have missing : "lost" ∉ created counterCalls := by decide
  have torn (name : String) : (insertJson name tornTickets).on (ofCalls counterCalls) =
      (.error (.schema (.rowNotObject (.bool true))), ofCalls counterCalls) :=
    (malformed name tornTickets _ _).mpr
      ⟨.inl ⟨[.object [("ticket", .null)]], .bool true, [.object []], rfl, by decide, rfl, rfl⟩, rfl⟩
  refine ⟨logs.names, there, missing, (logs.unknown "lost").mpr missing, logs.rows "open" there,
    torn "lost", (unknown "lost" [] _ _).mpr ⟨⟨missing, rfl⟩, rfl⟩, unchanged _ ?_, ?_, ?_⟩
  · rw [Refuses, Call.work, InPlace.on_discard, torn "open"]
    exact ⟨_, rfl⟩
  · exact ⟨_, rfl, (inserted "done" [ticket 6] 1 _ rfl).2⟩
  · obtain ⟨rows, -, -, appended⟩ := read "done" (.array [.object [], .object []]) 2 _ rfl
    exact ⟨_, rows, rfl, appended⟩

end Database
end TableAlgebra

/-
**A database session.**

A session runs statements on one connection.  Before a row is written, the payload is filtered by the
columns the table really has, so that a payload that comes from outside cannot name a column the table
lacks.  The columns come from the server's catalog and are remembered.

Main definitions:

* `Database`, `Session` — the connection with its settings, and the state of a session;
* `Database.prepareStatement` — a statement made with the session's dialect;
* `Database.columns` — the columns of a table;
* `keepKnown`, `Database.filterColumns` — a payload without the columns a table lacks;
* `Database.insert`, `insertReturning`, `update`, `delete`, `select`, `findOne`, `count`, … — the
  operations on tables.

Main results:

* `name_mem_of_mem_keepKnown` — every column of a filtered payload is one of the known columns;
* `cache_onLink` — running statements leaves the cache alone;
* `Database.columns_of_remembered` — remembered columns are not asked for again.
-/

import BoundQuery.Command
import BoundQuery.Connection
import BoundQuery.Settings

set_option relaxedAutoImplicit false
set_option autoImplicit false

namespace BoundQuery

/-- A connection and the settings it is used with. -/
structure Database (σ : Type) where
  /-- The connection. -/
  connection : Connection σ
  /-- The settings. -/
  settings : Settings

/-- The state of a session. -/
structure Session (σ : Type) where
  /-- The columns remembered. -/
  cache : ColumnCache
  /-- The connection's state and the events. -/
  link : Link σ

/-- The fault of a refused payload. -/
def Fault.ofPayload (f : PayloadFault) : Fault := .validation f.message

namespace Session

variable {σ β : Type}

/-- The start of a session. -/
def start (settings : Settings) (s : σ) : Session σ :=
  ⟨.empty settings.columnCapacity, ⟨s, []⟩⟩

/-- Run an action that does not concern the cache. -/
def onLink (x : Action (Link σ) β) : Action (Session σ) β :=
  x.within Session.link fun l s => { s with link := l }

/-- Log events. -/
def record (es : List Event) : Action (Session σ) Unit := onLink (.modify (Link.record es))

/-- The remembered columns of a table. -/
def remembered (table : Text) : Action (Session σ) (Option (List Text)) := fun s =>
  let (cols?, cache) := s.cache.get? table
  (.ok cols?, { s with cache })

/-- Remember the columns of a table. -/
def remember (table : Text) (cols : List Text) : Action (Session σ) Unit :=
  .modify fun s => { s with cache := s.cache.insert table cols }

/-- Running statements leaves the cache alone. -/
@[simp] theorem cache_onLink (x : Action (Link σ) β) (s : Session σ) :
    (onLink x s).2.cache = s.cache := rfl

end Session

/-! ### The catalog -/

/-- The catalog's query for the columns of a table of the current schema. -/
def catalogSql : Text :=
  ("SELECT column_name::text FROM information_schema.columns " ++
    "WHERE table_schema::text = current_schema() AND table_name::text = :table " ++
    "ORDER BY ordinal_position").toList

/-- The catalog's query for the columns of a table of a given schema. -/
def schemaCatalogSql : Text :=
  ("SELECT column_name::text FROM information_schema.columns " ++
    "WHERE table_schema::text = :schema AND table_name::text = :table " ++
    "ORDER BY ordinal_position").toList

/-- The query for the columns of a table; the part before the first dot is the schema. -/
def catalogQuery (table : Text) : Fragment Scalar :=
  let datum := fun t : Text => Value.scalar (some (Scalar.ofText t))
  match table.cut? '.' with
  | some (schema, name) =>
      ⟨schemaCatalogSql,
        .ofList [(.name "schema".toList, datum schema), (.name "table".toList, datum name)]⟩
  | none => ⟨catalogSql, .ofList [(.name "table".toList, datum table)]⟩

/-! ### Payloads -/

/-- The clause's column, if it has one and it is not among the known columns. -/
def Clause.unknownColumn? {α : Type} (known : List Text) : Clause α → Option Text
  | .column c _ => if known.contains c then none else some c
  | _ => none

/-- The clauses whose column is known or that have no column.  If nothing is known, all are kept. -/
def keepKnown {α : Type} (known : List Text) (data : List (Clause α)) : List (Clause α) :=
  if known.isEmpty then data else data.filter fun c => (c.unknownColumn? known).isNone

/-- The columns that are not kept. -/
def unknownColumns {α : Type} (known : List Text) (data : List (Clause α)) : List Text :=
  if known.isEmpty then [] else data.filterMap (Clause.unknownColumn? known)

/-- **Every column of a filtered payload is one of the known columns.** -/
theorem name_mem_of_mem_keepKnown {α : Type} {known : List Text} (hk : known ≠ [])
    {data : List (Clause α)} {c : Text} {v : Value α} (h : .column c v ∈ keepKnown known data) :
    c ∈ known := by
  have hne : known.isEmpty = false := by simpa using hk
  simp only [keepKnown, hne] at h
  have := (List.mem_filter.1 h).2
  simp only [Clause.unknownColumn?] at this
  split at this
  · simp_all
  · simp at this

/-! ### Operations -/

namespace Database

variable {σ β : Type}

/-- The fragment as a statement.  Dropped lists are reported if the dialect asks for it. -/
def prepareStatement (db : Database σ) (f : Fragment Scalar) :
    Action (Session σ) (Statement Scalar) := do
  if db.settings.dialect.reportDropped then
    Session.record (Event.ofDropped f.params.droppedLists)
  return .ofFragment f

/-- Report the list bindings that compiling a condition drops. -/
def reportCondition (db : Database σ) (cond : Condition Scalar) (b : Bindings Scalar) :
    Action (Session σ) Unit :=
  if db.settings.dialect.reportDropped then
    Session.record (Event.ofDropped (cond.droppedLists db.settings.dialect b))
  else pure ()

/-- Run a fragment and return the number of rows it affected. -/
def executeFragment (db : Database σ) (f : Fragment Scalar) : Action (Session σ) Nat := do
  let s ← db.prepareStatement f
  Session.onLink (s.execute db.connection db.settings.dumpOnFault)

/-- Run a fragment and return its rows. -/
def fetchFragment (db : Database σ) (f : Fragment Scalar) : Action (Session σ) (List Row) := do
  let s ← db.prepareStatement f
  Session.onLink (s.fetchAll db.connection db.settings.dumpOnFault)

/-- Run a fragment and read its rows. -/
def fetchFragmentAs (db : Database σ) (f : Fragment Scalar) (read : Row → Except Fault β) :
    Action (Session σ) (List β) := do
  let s ← db.prepareStatement f
  Session.onLink (s.fetchAllAs db.connection db.settings.dumpOnFault read)

/-- Run a fragment and read the first column of its first row. -/
def fetchScalar (db : Database σ) (f : Fragment Scalar) (read : Row → Except Fault β) :
    Action (Session σ) β := do
  let s ← db.prepareStatement f
  Session.onLink (s.fetchScalar db.connection db.settings.dumpOnFault read)

/-- The names in the first column of the catalog's rows. -/
def columnNames (reads : Decoder) (rows : List Row) : Except Fault (List Text) :=
  collect reads.text rows

/-- The columns of a table, in order; none if the table is not known.  What the catalog says is
remembered. -/
def columns (db : Database σ) (table : Text) : Action (Session σ) (List Text) := do
  match ← Session.remembered table with
  | some cols => return cols
  | none =>
      let rows ← db.fetchFragment (catalogQuery table)
      let cols ← .ofExcept (columnNames db.connection.decoder rows)
      Session.remember table cols
      return cols

/-- Remembered columns are not asked for again. -/
theorem columns_of_remembered (db : Database σ) {table : Text} {known : List Text} {s : Session σ}
    (h : Assoc.get? table s.cache.columns = some known) :
    db.columns table s = (.ok known, { s with cache := (s.cache.get? table).2 }) := by
  have hget : s.cache.get? table = (some known, (s.cache.get? table).2) := by
    simp only [ColumnCache.get?, h]
  rw [columns, Action.bind_apply, Session.remembered, hget]
  rfl

/-- A payload without the columns that the table lacks. -/
def filterColumns (db : Database σ) (table : Text) (data : List (Clause Scalar)) :
    Action (Session σ) (List (Clause Scalar)) := do
  let known ← db.columns table
  -- the columns dropped are logged before the payload is compiled
  Session.record ((unknownColumns known data).map (Event.columnDropped table))
  return keepKnown known data

/-- The fragment of a payload, or the fault of refusing it. -/
def compiled (r : Except PayloadFault (Fragment Scalar)) : Action (Session σ) (Fragment Scalar) :=
  .ofExcept (r.mapError Fault.ofPayload)

/-- Insert a row and return the number of rows affected. -/
def insert (db : Database σ) (table : Text) (data : List (Clause Scalar)) :
    Action (Session σ) Nat := do
  let data ← db.filterColumns table data
  let f ← compiled (Command.insert db.settings.dialect table data)
  db.executeFragment f

/-- Insert a row and read a column of the row that was inserted. -/
def insertReturning (db : Database σ) (table : Text) (data : List (Clause Scalar)) (column : Text)
    (read : Row → Except Fault β) : Action (Session σ) β := do
  let data ← db.filterColumns table data
  let f ← compiled (Command.insert db.settings.dialect table data)
  let returning := " RETURNING ".toList ++ db.settings.dialect.quote.quote column
  db.fetchScalar { f with sql := f.sql ++ returning } read

/-- Update the rows that meet a condition and return their number. -/
def update (db : Database σ) (table : Text) (set : List (Clause Scalar)) (cond : Condition Scalar)
    (b : Bindings Scalar) : Action (Session σ) Nat := do
  let set ← db.filterColumns table set
  let f ← compiled (Command.update db.settings.dialect table set cond b)
  db.reportCondition cond b
  db.executeFragment f

/-- Delete the rows that meet a condition and return their number. -/
def delete (db : Database σ) (table : Text) (cond : Condition Scalar) (b : Bindings Scalar) :
    Action (Session σ) Nat := do
  db.reportCondition cond b
  db.executeFragment (Command.delete db.settings.dialect table cond b)

/-- The rows that meet a condition. -/
def select (db : Database σ) (table : Text) (columns : List Text) (cond : Condition Scalar)
    (b : Bindings Scalar) (tail : Text) : Action (Session σ) (List Row) := do
  db.reportCondition cond b
  db.fetchFragment (Command.select db.settings.dialect table columns cond b tail)

/-- The rows that meet a condition, read. -/
def selectAs (db : Database σ) (table : Text) (columns : List Text) (cond : Condition Scalar)
    (b : Bindings Scalar) (tail : Text) (read : Row → Except Fault β) :
    Action (Session σ) (List β) := do
  db.reportCondition cond b
  db.fetchFragmentAs (Command.select db.settings.dialect table columns cond b tail) read

/-- The first row that meets a condition, read, if there is one. -/
def findOne (db : Database σ) (table : Text) (cond : Condition Scalar) (b : Bindings Scalar)
    (read : Row → Except Fault β) : Action (Session σ) (Option β) := do
  db.reportCondition cond b
  let s ← db.prepareStatement
    (Command.select db.settings.dialect table [] cond b "LIMIT 1".toList)
  Session.onLink (s.fetchOptionalAs db.connection db.settings.dumpOnFault read)

/-- The number of rows that meet a condition. -/
def count (db : Database σ) (table : Text) (cond : Condition Scalar) (b : Bindings Scalar) :
    Action (Session σ) Int64 := do
  db.reportCondition cond b
  db.fetchScalar (Command.count db.settings.dialect table cond b) db.connection.decoder.number

end Database

end BoundQuery

/-
**Connections to a server.**

A connection takes SQL with numbered placeholders and the values in order.  It may be able to prepare
statements; one that is not fails when it is asked to.  It comes with the driver's way of reading the
rows that it returns.

Main definitions:

* `Connection` — the operations of a connection over a state of its own;
* `Connection.unprepared` — a connection that cannot prepare statements;
* `Event` — what is logged while statements are built and run;
* `Link` — a connection's state with the events logged so far;
* `Statement.execute`, `Statement.fetchAll`, `fetchOne`, `fetchOptional`, `fetchScalar` — running a
  statement.

Main results:

* `unprepared_prepare` — preparing on such a connection fails and changes nothing.
-/

import BoundQuery.Action
import BoundQuery.Row
import BoundQuery.Statement.Dump

set_option relaxedAutoImplicit false
set_option autoImplicit false

namespace BoundQuery

/-! ### Connections -/

/-- The operations of a connection whose own state is a `σ`. -/
structure Connection (σ : Type) where
  /-- A statement that has been prepared. -/
  Prepared : Type
  /-- Whether statements are to be prepared. -/
  supportsPrepared : Bool
  /-- Run a statement and return its rows. -/
  query : Text → List (Option Scalar) → Action σ (List Row)
  /-- Run a statement and return the number of rows it affected. -/
  execute : Text → List (Option Scalar) → Action σ Nat
  /-- Prepare a statement. -/
  prepare : Text → Action σ Prepared
  /-- Run a prepared statement and return its rows. -/
  queryPrepared : Prepared → List (Option Scalar) → Action σ (List Row)
  /-- Run a prepared statement and return the number of rows it affected. -/
  executePrepared : Prepared → List (Option Scalar) → Action σ Nat
  /-- How its rows are read. -/
  decoder : Decoder := .typed

/-- The failure of a connection that does not support prepared statements. -/
def unsupported {σ β : Type} : Action σ β :=
  .fail (.other "prepared statements are not supported by this client".toList)

/-- A connection that cannot prepare statements. -/
def Connection.unprepared {σ : Type} (query : Text → List (Option Scalar) → Action σ (List Row))
    (execute : Text → List (Option Scalar) → Action σ Nat) : Connection σ where
  Prepared := Unit
  supportsPrepared := false
  query := query
  execute := execute
  prepare _ := unsupported
  queryPrepared _ _ := unsupported
  executePrepared _ _ := unsupported

/-- Preparing on a connection without that ability fails and changes nothing. -/
theorem Connection.unprepared_prepare {σ : Type}
    (query : Text → List (Option Scalar) → Action σ (List Row))
    (execute : Text → List (Option Scalar) → Action σ Nat) (sql : Text) (s : σ) :
    ((Connection.unprepared query execute).prepare sql s).2 = s := rfl

/-! ### Events -/

/-- What is logged while statements are built and run. -/
inductive Event where
  /-- A list binding was dropped, because it cannot be spread. -/
  | listDropped (key : Key) (length : Nat)
  /-- A statement is about to run. -/
  | executing (sent : Sent Scalar)
  /-- A statement failed. -/
  | failed (fault : Fault) (dump : Dump Scalar)
  /-- A column of a payload was dropped, because the table does not have it. -/
  | columnDropped (table column : Text)

/-- How much an event matters. -/
inductive Level where
  | debug
  | error
deriving DecidableEq, Repr

/-- The part of the library an event comes from. -/
inductive Channel where
  /-- The compilation of conditions. -/
  | compile
  /-- The running of statements. -/
  | sql
deriving DecidableEq, Repr

namespace Event

/-- How much an event matters. -/
def level : Event → Level
  | failed _ _ => .error
  | _ => .debug

/-- Where an event comes from. -/
def channel : Event → Channel
  | listDropped _ _ => .compile
  | _ => .sql

/-- The wording of an event. -/
def message : Event → Text
  | listDropped _ _ =>
      "array binding skipped: only non-empty lists under a non-numeric name are expanded".toList
  | executing _ => "executing statement".toList
  | failed _ _ => "statement failed".toList
  | columnDropped _ _ => "dropping unknown column".toList

/-- The events of dropped lists. -/
def ofDropped (dropped : List (Key × Nat)) : List Event :=
  dropped.map fun d => listDropped d.1 d.2

end Event

/-- The state of a connection in use, and the events logged so far. -/
structure Link (σ : Type) where
  /-- The state of the connection. -/
  state : σ
  /-- The events in order. -/
  log : List Event

namespace Link

variable {σ β : Type}

/-- Log events. -/
def record (es : List Event) (l : Link σ) : Link σ := { l with log := l.log ++ es }

/-- Run an action of the connection. -/
def onConnection (x : Action σ β) : Action (Link σ) β :=
  x.within Link.state fun s l => { l with state := s }

end Link

/-! ### Running statements -/

namespace Statement

variable {σ β : Type}

/-- Run a statement: log it, prepare it if the connection supports that, and run it.  If that fails
and `dumps` is on, the failure is logged with a description of the statement. -/
def perform (c : Connection σ) (dumps : Bool) (s : Statement Scalar)
    (direct : Text → List (Option Scalar) → Action σ β)
    (prepared : c.Prepared → List (Option Scalar) → Action σ β) : Action (Link σ) β := do
  let sent := s.sent
  -- logged before anything can fail
  Action.modify (Link.record [.executing sent])
  let run : Action σ β :=
    if c.supportsPrepared then do
      let p ← c.prepare sent.sql
      prepared p sent.values
    else direct sent.sql sent.values
  (Link.onConnection run).onFault fun e l => if dumps then l.record [.failed e s.dump] else l

/-- Run a statement and return the number of rows it affected. -/
def execute (c : Connection σ) (dumps : Bool) (s : Statement Scalar) : Action (Link σ) Nat :=
  s.perform c dumps c.execute c.executePrepared

/-- Run a statement and return its rows. -/
def fetchAll (c : Connection σ) (dumps : Bool) (s : Statement Scalar) :
    Action (Link σ) (List Row) :=
  s.perform c dumps c.query c.queryPrepared

/-- The first of some rows, of which one is expected. -/
def expectRow : List Row → Except Fault Row
  | [] => .error (.notFound "Expected one row, got none".toList)
  | r :: _ => .ok r

/-- Run a statement and return its first row; there must be one. -/
def fetchOne (c : Connection σ) (dumps : Bool) (s : Statement Scalar) : Action (Link σ) Row := do
  let rows ← s.fetchAll c dumps
  .ofExcept (expectRow rows)

/-- Run a statement and return its first row, if there is one. -/
def fetchOptional (c : Connection σ) (dumps : Bool) (s : Statement Scalar) :
    Action (Link σ) (Option Row) := do
  let rows ← s.fetchAll c dumps
  return rows.head?

/-- Run a statement and read the first column of its first row. -/
def fetchScalar (c : Connection σ) (dumps : Bool) (s : Statement Scalar)
    (read : Row → Except Fault β) : Action (Link σ) β := do
  let row ← s.fetchOne c dumps
  .ofExcept (read row)

/-- Run a statement and read its rows. -/
def fetchAllAs (c : Connection σ) (dumps : Bool) (s : Statement Scalar)
    (read : Row → Except Fault β) : Action (Link σ) (List β) := do
  let rows ← s.fetchAll c dumps
  .ofExcept (collect read rows)

/-- Run a statement and read its first row, if there is one. -/
def fetchOptionalAs (c : Connection σ) (dumps : Bool) (s : Statement Scalar)
    (read : Row → Except Fault β) : Action (Link σ) (Option β) := do
  let rows ← s.fetchAll c dumps
  match rows with
  | [] => return none
  | r :: _ => do
      let v ← Action.ofExcept (read r)
      return some v

end Statement

/-- Run SQL with bindings on a connection and return the number of rows it affected.  Nothing but the
running itself is logged. -/
def Connection.executeText {σ : Type} (c : Connection σ) (sql : Text) (b : Bindings Scalar) :
    Action (Link σ) Nat :=
  (Statement.ofFragment ⟨sql, b⟩).execute c false

end BoundQuery

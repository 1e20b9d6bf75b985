/-
**Connections that answer from a script.**

To run a session without a server, a connection can follow a script, one exchange for each statement
it prepares, and keep a transcript of the calls it gets.  The simplest connection has no script at
all: it keeps the transcript, returns no rows and reports three affected rows.

Main definitions:

* `Exchange` — what a scripted server does with one statement;
* `Call`, `Transcript` — the calls of a connection, and its state;
* `Connection.recorder` — the connection that only records;
* `Connection.scripted`, `Connection.scriptedPlain` — a scripted server used with and without
  prepared statements;
* `Connection.claiming`, `Connection.preparingOnly` — connections that leave some of the operations
  for prepared statements unsupported.

Main results:

* `prepareScripted_calls` — preparing a statement is recorded whether it succeeds or not.
-/

import BoundQuery.Connection
import BoundQuery.Json.Number

set_option relaxedAutoImplicit false
set_option autoImplicit false

namespace BoundQuery

/-- What a scripted server does with one statement. -/
structure Exchange where
  /-- The declared types of the parameters, if the script gives them. -/
  declared? : Option (List ServerType) := none
  /-- The columns of the result. -/
  columns : List Column := []
  /-- The rows of the result. -/
  rows : List (List (Option Atom)) := []
  /-- The number of rows affected. -/
  affected : Nat := 0
  /-- What the server reports when the statement is prepared. -/
  failPrepare? : Option ServerReport := none
  /-- What the server reports when the statement is run. -/
  failRun? : Option ServerReport := none

/-- A call that a connection got. -/
inductive Call where
  /-- A statement to run for its rows. -/
  | query (sql : Text) (values : List (Option Scalar))
  /-- A statement to run for its effect. -/
  | execute (sql : Text) (values : List (Option Scalar))
  /-- A statement to prepare. -/
  | prepare (sql : Text)
  /-- A prepared statement to run with encoded values. -/
  | run (values : List (Option (List UInt8)))

/-- The exchanges to come and the calls so far. -/
structure Transcript where
  /-- The exchanges to come. -/
  script : List Exchange
  /-- The calls in order. -/
  calls : List Call

/-- Record a call. -/
def Transcript.record (c : Call) (t : Transcript) : Transcript := { t with calls := t.calls ++ [c] }

/-! ### Recording only -/

/-- Record a call and return a result, or fail with a given text. -/
def recordOnly {β : Type} (failure? : Option Text) (call : Call) (result : β) :
    Action Transcript β := do
  Action.modify (Transcript.record call)
  match failure? with
  | some t => Action.fail (.other t)
  | none => return result

/-- The connection that records its calls; it fails with a given text, if there is one. -/
def Connection.recorder (failure? : Option Text) : Connection Transcript :=
  .unprepared (fun sql vs => recordOnly failure? (.query sql vs) [])
    (fun sql vs => recordOnly failure? (.execute sql vs) 3)

/-- A connection that says it supports prepared statements and does not. -/
def Connection.claiming (c : Connection Transcript) : Connection Transcript :=
  { Connection.unprepared c.query c.execute with supportsPrepared := true }

/-! ### A scripted server -/

/-- The highest number of a placeholder in a text. -/
def highestPlaceholder : Text → Nat
  | [] => 0
  | c :: rest =>
      if c = '$' then
        max (Json.valueOfDigits (rest.takeWhile Char.isDigit)) (highestPlaceholder rest)
      else highestPlaceholder rest

/-- The declared types of a statement's parameters: without a script, as many texts as the
placeholders need. -/
def Exchange.parameters (x : Exchange) (sql : Text) : List ServerType :=
  x.declared?.getD (List.replicate (highestPlaceholder sql) (.prim .text))

/-- A statement prepared by a scripted server. -/
structure PreparedExchange where
  /-- The declared types of the parameters. -/
  parameters : List ServerType
  /-- What the server does with the statement. -/
  exchange : Exchange

/-- Prepare a statement: the next exchange of the script applies to it. -/
def prepareScripted (fault : ServerReport → Fault) (sql : Text) : Action Transcript PreparedExchange :=
  fun t =>
    let x := t.script.head?.getD {}
    let t := { Transcript.record (.prepare sql) t with script := t.script.tail }
    match x.failPrepare? with
    | some r => (.error (fault r), t)
    | none => (.ok ⟨x.parameters sql, x⟩, t)

/-- Preparing a statement is recorded whether it succeeds or not. -/
theorem prepareScripted_calls (fault : ServerReport → Fault) (sql : Text) (t : Transcript) :
    (prepareScripted fault sql t).2.calls = t.calls ++ [.prepare sql] := by
  unfold prepareScripted
  dsimp only
  split <;> rfl

/-- The encoded values for declared types, or the position of the first that is not taken. -/
def encodeValues : Nat → List ServerType → List (Option Scalar) →
    Except DriverFault (List (Option (List UInt8)))
  | i, t :: ts, v :: vs =>
      match encodeDatum? t v with
      | none => .error (.parameterType i)
      | some bytes =>
          match encodeValues (i + 1) ts vs with
          | .error e => .error e
          | .ok rest => .ok (bytes :: rest)
  | _, _, _ => .ok []

/-- Run a prepared statement: nothing is sent unless every value is taken. -/
def runScripted (p : PreparedExchange) (values : List (Option Scalar)) : Action Transcript Exchange :=
  if p.parameters.length ≠ values.length then
    .fail (.query (.parameterCount p.parameters.length values.length))
  else match encodeValues 0 p.parameters values with
    | .error e => .fail (.query e)
    | .ok encoded => do
        Action.modify (Transcript.record (.run encoded))
        match p.exchange.failRun? with
        | some r => .fail (.ofReport r)
        | none => return p.exchange

/-- The rows of an exchange. -/
def Exchange.result (x : Exchange) : List Row := x.rows.map fun cells => ⟨x.columns, cells⟩

/-- Run a prepared statement for its rows. -/
def queryScripted (p : PreparedExchange) (values : List (Option Scalar)) :
    Action Transcript (List Row) := do
  let x ← runScripted p values
  return x.result

/-- Run a prepared statement for its effect. -/
def executeScripted (p : PreparedExchange) (values : List (Option Scalar)) : Action Transcript Nat := do
  let x ← runScripted p values
  return x.affected

/-- A scripted server used with prepared statements; running SQL directly prepares it on the way. -/
def Connection.scripted : Connection Transcript where
  Prepared := PreparedExchange
  supportsPrepared := true
  query sql values := do
    let p ← prepareScripted .ofReport sql
    queryScripted p values
  execute sql values := do
    let p ← prepareScripted .ofReport sql
    executeScripted p values
  prepare := prepareScripted fun _ => .prepare .server
  queryPrepared := queryScripted
  executePrepared := executeScripted

/-- A scripted server used without prepared statements. -/
def Connection.scriptedPlain : Connection Transcript :=
  .unprepared Connection.scripted.query Connection.scripted.execute

/-- A scripted server that prepares statements but cannot run what it has prepared. -/
def Connection.preparingOnly : Connection Transcript :=
  { Connection.scripted with
    queryPrepared := fun _ _ => unsupported
    executePrepared := fun _ _ => unsupported }

end BoundQuery

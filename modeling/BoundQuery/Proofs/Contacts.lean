/-
**What reaches a connection.**

A statement is tried once: it is prepared, if the connection supports that, and run.  This module
says which calls that makes, and lets one look on.  A connection can be observed: the observed
connection does what the connection does and writes down the calls that reach it, so what an
operation sends is what it leaves written down.  Observing does not interfere.

Main definitions:

* `Purpose`, `Contact` — what a statement is run for, and the calls that reach a connection;
* `Connection.attempt`, `Connection.contacts` — one attempt at a statement, and the calls it makes;
* `Observed`, `Connection.observed` — a connection with the calls written down.

Main results:

* `Connection.attempt_observed` — **an attempt on an observed connection** is the attempt on the
  connection, with its calls written down;
* `Statement.perform_apply` — running a statement is one attempt at what is sent for it.
-/

import BoundQuery.Session

set_option relaxedAutoImplicit false
set_option autoImplicit false

namespace BoundQuery

/-! ### Calls -/

/-- What a statement is run for. -/
inductive Purpose where
  /-- The rows it returns. -/
  | rows
  /-- The rows it affects, which are counted. -/
  | effect
deriving DecidableEq, Repr

/-- What running a statement gives. -/
def Purpose.Result : Purpose → Type
  | rows => List Row
  | effect => Nat

/-- A call that reaches a connection.  A prepared statement is told by the text that was prepared. -/
inductive Contact where
  /-- Run a statement. -/
  | direct (p : Purpose) (sql : Text) (values : List (Option Scalar))
  /-- Prepare a statement. -/
  | prepare (sql : Text)
  /-- Run a prepared statement. -/
  | prepared (p : Purpose) (sql : Text) (values : List (Option Scalar))

namespace Connection

variable {σ β : Type} (c : Connection σ)

/-- Run a statement. -/
def run : (p : Purpose) → Text → List (Option Scalar) → Action σ p.Result
  | .rows => c.query
  | .effect => c.execute

/-- Run a prepared statement. -/
def runPrepared : (p : Purpose) → c.Prepared → List (Option Scalar) → Action σ p.Result
  | .rows => c.queryPrepared
  | .effect => c.executePrepared

/-- One attempt at a statement: it is prepared, if the connection supports that, and run. -/
def attempt (p : Purpose) (sent : Sent Scalar) : Action σ p.Result :=
  if c.supportsPrepared then do
    let q ← c.prepare sent.sql
    c.runPrepared p q sent.values
  else c.run p sent.sql sent.values

/-- The calls of an attempt from a state: a statement that cannot be prepared is not run. -/
def contacts (p : Purpose) (sent : Sent Scalar) (s : σ) : List Contact :=
  if c.supportsPrepared then
    match (c.prepare sent.sql s).1 with
    | .error _ => [.prepare sent.sql]
    | .ok _ => [.prepare sent.sql, .prepared p sent.sql sent.values]
  else [.direct p sent.sql sent.values]

/-! ### Observed connections -/

end Connection

/-- The state of a connection, and the calls that reached it. -/
structure Observed (σ : Type) where
  /-- The state of the connection. -/
  state : σ
  /-- The calls in order. -/
  contacts : List Contact

/-- Write a call down and do it. -/
def observe {σ β : Type} (k : Contact) (x : Action σ β) : Action (Observed σ) β := fun s =>
  let (r, t) := x s.state
  (r, ⟨t, s.contacts ++ [k]⟩)

namespace Connection

variable {σ : Type} (c : Connection σ)

/-- The connection that does what `c` does and writes the calls down. -/
def observed : Connection (Observed σ) where
  Prepared := Text × c.Prepared
  supportsPrepared := c.supportsPrepared
  query sql values := observe (.direct .rows sql values) (c.query sql values)
  execute sql values := observe (.direct .effect sql values) (c.execute sql values)
  prepare sql := observe (.prepare sql) ((sql, ·) <$> c.prepare sql)
  queryPrepared q values := observe (.prepared .rows q.1 values) (c.queryPrepared q.2 values)
  executePrepared q values := observe (.prepared .effect q.1 values) (c.executePrepared q.2 values)
  decoder := c.decoder

theorem run_observed (p : Purpose) (sql : Text) (values : List (Option Scalar)) :
    c.observed.run p sql values = observe (.direct p sql values) (c.run p sql values) := by
  cases p <;> rfl

theorem runPrepared_observed (p : Purpose) (q : Text × c.Prepared)
    (values : List (Option Scalar)) :
    c.observed.runPrepared p q values =
      observe (.prepared p q.1 values) (c.runPrepared p q.2 values) := by
  cases p <;> rfl

/-- Preparing on an observed connection keeps the text with what is prepared. -/
theorem prepare_observed (sql : Text) (s : σ) (ks : List Contact) :
    c.observed.prepare sql ⟨s, ks⟩ =
      (((c.prepare sql s).1.map fun q => (sql, q)), ⟨(c.prepare sql s).2, ks ++ [.prepare sql]⟩) := by
  have hmap : ((sql, ·) <$> c.prepare sql : Action σ (Text × c.Prepared)) s =
      ((c.prepare sql s).1.map fun q => (sql, q), (c.prepare sql s).2) := by
    rw [map_eq_pure_bind, Action.bind_apply]
    rcases c.prepare sql s with ⟨_ | q, t⟩ <;> rfl
  change observe (.prepare sql) ((sql, ·) <$> c.prepare sql) ⟨s, ks⟩ = _
  rw [observe, hmap]

/-- **An attempt on an observed connection** has the outcome of the attempt on the connection, and
its calls are written down. -/
theorem attempt_observed (p : Purpose) (sent : Sent Scalar) (s : σ) (ks : List Contact) :
    c.observed.attempt p sent ⟨s, ks⟩ =
      ((c.attempt p sent s).1, ⟨(c.attempt p sent s).2, ks ++ c.contacts p sent s⟩) := by
  have hsupports : c.observed.supportsPrepared = c.supportsPrepared := rfl
  rw [attempt, attempt, contacts, hsupports]
  split
  · rw [Action.bind_apply, Action.bind_apply, prepare_observed]
    rcases c.prepare sent.sql s with ⟨_ | q, t⟩
    · rfl
    · simp only [Except.map, runPrepared_observed, observe, List.append_assoc, List.cons_append,
        List.nil_append]
  · rw [run_observed]
    rfl

end Connection

/-! ### Running a statement -/

namespace Statement

/-- What is logged while a statement is run, by its outcome. -/
def logged {β : Type} (s : Statement Scalar) (dumps : Bool) : Except Fault β → List Event
  | .error e => .executing s.sent :: if dumps then [.failed e s.dump] else []
  | .ok _ => [.executing s.sent]

/-- **Running a statement is one attempt** at what is sent for it, and is logged. -/
theorem perform_apply {σ : Type} (c : Connection σ) (dumps : Bool) (s : Statement Scalar)
    (p : Purpose) (l : Link σ) :
    s.perform c dumps (c.run p) (c.runPrepared p) l =
      ((c.attempt p s.sent l.state).1, ⟨(c.attempt p s.sent l.state).2,
        l.log ++ s.logged dumps (c.attempt p s.sent l.state).1⟩) := by
  have hattempt : s.perform c dumps (c.run p) (c.runPrepared p) l =
      (Link.onConnection (c.attempt p s.sent)).onFault
        (fun e l => if dumps then l.record [.failed e s.dump] else l)
        (l.record [.executing s.sent]) := rfl
  have hstate : (l.record [.executing s.sent]).state = l.state := rfl
  rw [hattempt, Action.onFault_apply, Link.onConnection, Action.within_apply, hstate]
  rcases c.attempt p s.sent l.state with ⟨e | x, t⟩
  · cases dumps <;> simp [logged, Link.record]
  · simp [logged, Link.record]

end Statement

end BoundQuery

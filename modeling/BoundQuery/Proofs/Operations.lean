/-
**The operations of a session, in stages.**

A session offers many operations, and all of them are made alike.  Those that write a payload, filter
one or want the columns of a table ask for these first; the others ask for nothing.  Once that is known,
no more is decided on the way: either there is an answer, or a fault, or there is one statement to run, and the
operation's answer is read from what the statement returns.  So what an operation does is a lookup,
some events and a task, and for a given driver and dialect the task is a function of the columns alone.

Main definitions:

* `Operation`, `Operation.run` — the operations, and what they do in a session;
* `Task`, `Operation.task` — what is left to do once the columns of the table are known;
* `Operation.table?`, `Operation.lookup` — the table whose columns are asked for first.

Main results:

* `Operation.run_eq_stages` — **every operation is a lookup, then events, then a task**;
* `Task.run_statement_apply` — **what a task with a statement does to a session**;
* `Database.columns_of_forgotten` — what a lookup does that the cache does not spare.
-/

import BoundQuery.Proofs.Contacts

set_option relaxedAutoImplicit false
set_option autoImplicit false

namespace BoundQuery

variable {σ ρ β γ : Type}

/-! ### Operations -/

/-- What a session is asked to do.  Rows are read as values of type `ρ`. -/
inductive Operation (ρ : Type) where
  | columns (table : Text)
  | filterColumns (table : Text) (data : List (Clause Scalar))
  | insert (table : Text) (data : List (Clause Scalar))
  | insertReturning (table : Text) (data : List (Clause Scalar)) (column : Text)
      (read : Row → Except Fault ρ)
  | update (table : Text) (set : List (Clause Scalar)) (cond : Condition Scalar)
      (b : Bindings Scalar)
  | delete (table : Text) (cond : Condition Scalar) (b : Bindings Scalar)
  | select (table : Text) (columns : List Text) (cond : Condition Scalar) (b : Bindings Scalar)
      (tail : Text)
  | selectAs (table : Text) (columns : List Text) (cond : Condition Scalar) (b : Bindings Scalar)
      (tail : Text) (read : Row → Except Fault ρ)
  | findOne (table : Text) (cond : Condition Scalar) (b : Bindings Scalar)
      (read : Row → Except Fault ρ)
  | count (table : Text) (cond : Condition Scalar) (b : Bindings Scalar)
  | execute (f : Fragment Scalar)
  | query (f : Fragment Scalar)
  | queryAs (f : Fragment Scalar) (read : Row → Except Fault ρ)

/-- What an operation answers. -/
inductive Answer (ρ : Type) where
  | columns (names : List Text)
  | clauses (cs : List (Clause Scalar))
  | affected (n : Nat)
  | rows (rs : List Row)
  | value (v : ρ)
  | values (vs : List ρ)
  | found (v? : Option ρ)
  | number (n : Int64)

namespace Operation

/-- What an operation does in a session. -/
def run (db : Database σ) : Operation ρ → Action (Session σ) (Answer ρ)
  | columns table => .columns <$> db.columns table
  | filterColumns table data => .clauses <$> db.filterColumns table data
  | insert table data => .affected <$> db.insert table data
  | insertReturning table data column read =>
      .value <$> db.insertReturning table data column read
  | update table set cond b => .affected <$> db.update table set cond b
  | delete table cond b => .affected <$> db.delete table cond b
  | select table cols cond b tail => .rows <$> db.select table cols cond b tail
  | selectAs table cols cond b tail read => .values <$> db.selectAs table cols cond b tail read
  | findOne table cond b read => .found <$> db.findOne table cond b read
  | count table cond b => .number <$> db.count table cond b
  | execute f => .affected <$> db.executeFragment f
  | query f => .rows <$> db.fetchFragment f
  | queryAs f read => .values <$> db.fetchFragmentAs f read

/-- The table whose columns an operation asks for. -/
def table? : Operation ρ → Option Text
  | columns table => some table
  | filterColumns table _ => some table
  | insert table _ => some table
  | insertReturning table _ _ _ => some table
  | update table _ _ _ => some table
  | _ => none

/-- Ask for the columns of the table, if there is one. -/
def lookup (db : Database σ) (op : Operation ρ) : Action (Session σ) (List Text) :=
  match op.table? with
  | some table => db.columns table
  | none => return []

end Operation

/-! ### Tasks -/

/-- What is to be done without the cache. -/
inductive Task (β : Type) where
  /-- There is nothing to run. -/
  | answer (r : Except Fault β)
  /-- One statement is run, and the answer read from what it returns. -/
  | statement (p : Purpose) (f : Fragment Scalar) (read : p.Result → Except Fault β)

namespace Task

/-- What a task does in a session. -/
def run (db : Database σ) : Task β → Action (Session σ) β
  | answer r => .ofExcept r
  | statement p f read => do
      let s ← db.prepareStatement f
      let x ← Session.onLink (s.perform db.connection db.settings.dumpOnFault
        (db.connection.run p) (db.connection.runPrepared p))
      .ofExcept (read x)

/-- A payload that is refused is the answer; the statement of another is run. -/
def ofPayload (r : Except PayloadFault (Fragment Scalar)) (p : Purpose)
    (read : p.Result → Except Fault β) : Task β :=
  match r with
  | .error e => .answer (.error (.ofPayload e))
  | .ok f => .statement p f read

/-- Asking the catalog for the columns of a table, and reading the rows. -/
def catalog (reads : Decoder) (table : Text) : Task (List Text) :=
  .statement .rows (catalogQuery table) (Database.columnNames reads)

end Task

/-- Read the first row, which there must be. -/
def readFirstRow (read : Row → Except Fault β) (rows : List Row) : Except Fault β :=
  (Statement.expectRow rows).bind read

/-- Read the first row, if there is one. -/
def readFirstRow? (read : Row → Except Fault β) : List Row → Except Fault (Option β)
  | [] => .ok none
  | r :: _ => (read r).map some

namespace Operation

/-- An insertion that returns a column. -/
def returning (d : Dialect) (column : Text) (f : Fragment Scalar) : Fragment Scalar :=
  { f with sql := f.sql ++ (" RETURNING ".toList ++ d.quote.quote column) }

/-- What is left of an operation when the columns of its table are `known`. -/
def task (d : Dialect) (reads : Decoder) (known : List Text) : Operation ρ → Task (Answer ρ)
  | columns _ => .answer (.ok (.columns known))
  | filterColumns _ data => .answer (.ok (.clauses (keepKnown known data)))
  | insert table data =>
      .ofPayload (Command.insert d table (keepKnown known data)) .effect fun n => .ok (.affected n)
  | insertReturning table data column read =>
      .ofPayload ((Command.insert d table (keepKnown known data)).map (returning d column)) .rows
        fun rows => (readFirstRow read rows).map .value
  | update table set cond b =>
      .ofPayload (Command.update d table (keepKnown known set) cond b) .effect
        fun n => .ok (.affected n)
  | delete table cond b =>
      .statement .effect (Command.delete d table cond b) fun n => .ok (.affected n)
  | select table cols cond b tail =>
      .statement .rows (Command.select d table cols cond b tail) fun rows => .ok (.rows rows)
  | selectAs table cols cond b tail read =>
      .statement .rows (Command.select d table cols cond b tail)
        fun rows => (collect read rows).map .values
  | findOne table cond b read =>
      .statement .rows (Command.select d table [] cond b "LIMIT 1".toList)
        fun rows => (readFirstRow? read rows).map .found
  | count table cond b =>
      .statement .rows (Command.count d table cond b)
        fun rows => (readFirstRow reads.number rows).map .number
  | execute f => .statement .effect f fun n => .ok (.affected n)
  | query f => .statement .rows f fun rows => .ok (.rows rows)
  | queryAs f read => .statement .rows f fun rows => (collect read rows).map .values

/-- The lists that a condition drops, if they are to be reported. -/
def conditionEvents (d : Dialect) (cond : Condition Scalar) (b : Bindings Scalar) : List Event :=
  if d.reportDropped then Event.ofDropped (cond.droppedLists d b) else []

/-- The columns that a filter drops. -/
def filterEvents (known : List Text) (table : Text) (data : List (Clause Scalar)) : List Event :=
  (unknownColumns known data).map (.columnDropped table)

/-- What is logged between the lookup and the task. -/
def events (d : Dialect) (known : List Text) : Operation ρ → List Event
  | filterColumns table data => filterEvents known table data
  | insert table data => filterEvents known table data
  | insertReturning table data _ _ => filterEvents known table data
  | update table set cond b =>
      filterEvents known table set ++
        match Command.update d table (keepKnown known set) cond b with
        -- a payload is refused before its condition is compiled
        | .error _ => []
        | .ok _ => conditionEvents d cond b
  | delete _ cond b => conditionEvents d cond b
  | select _ _ cond b _ => conditionEvents d cond b
  | selectAs _ _ cond b _ _ => conditionEvents d cond b
  | findOne _ cond b _ => conditionEvents d cond b
  | count _ cond b => conditionEvents d cond b
  | _ => []

end Operation

/-! ### Laws of actions -/

namespace Action

/-- Changing the result of a pure computation. -/
theorem map_ofExcept (f : β → γ) (r : Except Fault β) :
    (f <$> ofExcept r : Action σ γ) = ofExcept (r.map f) := by
  funext s
  cases r <;> rfl

theorem map_bind_ofExcept (f : β → γ) {α : Type} (x : Action σ α) (r : α → Except Fault β) :
    f <$> (x >>= fun a => ofExcept (r a)) = x >>= fun a => ofExcept ((r a).map f) := by
  rw [map_bind]
  exact congrArg (x >>= ·) (funext fun a => map_ofExcept f (r a))

end Action

namespace Session

theorem onLink_bind_ofExcept (x : Action (Link σ) β) (r : β → Except Fault γ) :
    onLink (x >>= fun b => .ofExcept (r b)) =
      (onLink x >>= fun b => .ofExcept (r b) : Action (Session σ) γ) := by
  funext s
  rw [onLink, onLink, Action.within_apply, Action.bind_apply, Action.bind_apply,
    Action.within_apply]
  rcases x s.link with ⟨e | b, l⟩ <;> rfl

theorem record_nil : (record [] : Action (Session σ) Unit) = pure () := by
  funext s
  simp only [record, onLink, Action.within_apply, Action.modify_apply, Link.record,
    List.append_nil, Action.pure_apply]

/-- Logging nothing does nothing. -/
theorem record_nil_bind (x : Action (Session σ) β) : (record [] >>= fun _ => x) = x := by
  rw [record_nil, pure_bind]

theorem record_append (es es' : List Event) :
    (record (es ++ es') : Action (Session σ) Unit) = record es >>= fun _ => record es' := by
  funext s
  simp only [record, onLink, Action.within_apply, Action.modify_apply, Link.record,
    Action.bind_apply, List.append_assoc]

end Session

/-! ### Every operation in stages -/

theorem Database.reportCondition_eq (db : Database σ) (cond : Condition Scalar)
    (b : Bindings Scalar) : db.reportCondition cond b =
      Session.record (Operation.conditionEvents db.settings.dialect cond b) := by
  rw [reportCondition, Operation.conditionEvents]
  split
  · rfl
  · exact Session.record_nil.symm

/-- What is done with a filtered payload is done after the lookup and the events of the filter. -/
theorem Database.map_filterColumns_bind (db : Database σ) (table : Text)
    (data : List (Clause Scalar)) (k : List (Clause Scalar) → Action (Session σ) β) (g : β → γ) :
    g <$> (db.filterColumns table data >>= k) = db.columns table >>= fun known =>
      Session.record (Operation.filterEvents known table data) >>= fun _ =>
        g <$> k (keepKnown known data) := by
  rw [filterColumns, bind_assoc, map_bind]
  refine congrArg (_ >>= ·) (funext fun known => ?_)
  rw [bind_assoc, map_bind, Operation.filterEvents]
  refine congrArg (_ >>= ·) (funext fun _ => ?_)
  rw [pure_bind]

/-- A change of the fragment after compiling is a change of what is compiled. -/
theorem Database.compiled_bind_map (h : Fragment Scalar → Fragment Scalar)
    (k : Fragment Scalar → Action (Session σ) β) (r : Except PayloadFault (Fragment Scalar)) :
    (compiled r >>= fun f => k (h f)) = compiled (r.map h) >>= k := by
  cases r <;> rfl

namespace Statement

variable (s : Statement Scalar) (c : Connection σ) (dumps : Bool)

theorem fetchScalar_eq (read : Row → Except Fault β) : s.fetchScalar c dumps read =
    s.fetchAll c dumps >>= fun rows => .ofExcept (readFirstRow read rows) := by
  rw [fetchScalar, fetchOne, bind_assoc]
  refine congrArg (_ >>= ·) (funext fun rows => funext fun l => ?_)
  rw [readFirstRow, Action.bind_apply]
  cases expectRow rows <;> rfl

theorem fetchOptionalAs_eq (read : Row → Except Fault β) : s.fetchOptionalAs c dumps read =
    s.fetchAll c dumps >>= fun rows => .ofExcept (readFirstRow? read rows) := by
  refine congrArg (_ >>= ·) (funext fun rows => funext fun l => ?_)
  cases rows with
  | nil => rfl
  | cons r rows =>
      change (Action.ofExcept (read r) >>= fun v => pure (some v)) l = _
      rw [readFirstRow?, Action.bind_apply]
      cases read r <;> rfl

end Statement

namespace Task

variable (db : Database σ) {p : Purpose}

/-- An action that runs the statement of a fragment and reads what it returns is a task. -/
theorem run_statement {body : Statement Scalar → Action (Link σ) β} {r : p.Result → Except Fault β}
    (hbody : ∀ s, body s = s.perform db.connection db.settings.dumpOnFault
      (db.connection.run p) (db.connection.runPrepared p) >>= fun x => .ofExcept (r x))
    (f : Fragment Scalar) (g : β → γ) :
    g <$> (db.prepareStatement f >>= fun s => Session.onLink (body s)) =
      (statement p f fun x => (r x).map g).run db := by
  rw [map_bind, run]
  refine congrArg (_ >>= ·) (funext fun s => ?_)
  rw [hbody, Session.onLink_bind_ofExcept, Action.map_bind_ofExcept]

theorem run_executeFragment (f : Fragment Scalar) :
    (.affected <$> db.executeFragment f : Action (Session σ) (Answer ρ)) =
      (statement .effect f fun n => .ok (.affected n)).run db :=
  run_statement db (p := .effect) (r := .ok) (fun _ => (bind_pure _).symm) f Answer.affected

theorem run_fetchFragment (f : Fragment Scalar) :
    (.rows <$> db.fetchFragment f : Action (Session σ) (Answer ρ)) =
      (statement .rows f fun rows => .ok (.rows rows)).run db :=
  run_statement db (p := .rows) (r := .ok) (fun _ => (bind_pure _).symm) f Answer.rows

theorem run_fetchFragmentAs (f : Fragment Scalar) (read : Row → Except Fault ρ) :
    Answer.values <$> db.fetchFragmentAs f read =
      (statement .rows f fun rows => (collect read rows).map .values).run db :=
  run_statement db (p := .rows) (fun _ => rfl) f Answer.values

theorem run_fetchScalar (f : Fragment Scalar) (read : Row → Except Fault β) (g : β → γ) :
    g <$> db.fetchScalar f read =
      (statement .rows f fun rows => (readFirstRow read rows).map g).run db :=
  run_statement db (p := .rows) (fun s => s.fetchScalar_eq _ _ read) f g

/-- An action on a payload is a task, if what it does with the fragment is one. -/
theorem run_ofPayload {k : Fragment Scalar → Action (Session σ) β} {g : β → γ}
    {read : p.Result → Except Fault γ}
    (hk : ∀ f, g <$> k f = (statement p f read).run db) (r : Except PayloadFault (Fragment Scalar)) :
    g <$> (Database.compiled r >>= k) = (ofPayload r p read).run db := by
  cases r with
  | error e => rfl
  | ok f => exact hk f

end Task

namespace Operation

/-- **Every operation is a lookup, then events, then a task.** -/
theorem run_eq_stages (db : Database σ) (op : Operation ρ) :
    op.run db = op.lookup db >>= fun known =>
      Session.record (op.events db.settings.dialect known) >>= fun _ =>
        (op.task db.settings.dialect db.connection.decoder known).run db := by
  cases op with
  | columns table =>
      rw [run, lookup, table?, map_eq_pure_bind]
      refine congrArg (_ >>= ·) (funext fun known => ?_)
      exact (Session.record_nil_bind _).symm
  | filterColumns table data =>
      rw [run, lookup, table?, Database.filterColumns, map_bind]
      refine congrArg (_ >>= ·) (funext fun known => ?_)
      rfl
  | insert table data =>
      rw [run, lookup, table?, Database.insert, Database.map_filterColumns_bind]
      refine congrArg (_ >>= ·) (funext fun known => congrArg (_ >>= ·) (funext fun _ => ?_))
      exact Task.run_ofPayload db (Task.run_executeFragment db) _
  | insertReturning table data column read =>
      rw [run, lookup, table?, Database.insertReturning, Database.map_filterColumns_bind]
      refine congrArg (_ >>= ·) (funext fun known => congrArg (_ >>= ·) (funext fun _ => ?_))
      have hreturning := Database.compiled_bind_map (returning db.settings.dialect column)
        (fun f => db.fetchScalar f read)
        (Command.insert db.settings.dialect table (keepKnown known data))
      exact (congrArg (Answer.value <$> ·) hreturning).trans
        (Task.run_ofPayload db (fun f => Task.run_fetchScalar db f read Answer.value) _)
  | update table set cond b =>
      rw [run, lookup, table?, Database.update, Database.map_filterColumns_bind]
      refine congrArg (_ >>= ·) (funext fun known => ?_)
      rw [events, task, Session.record_append, bind_assoc]
      refine congrArg (_ >>= ·) (funext fun _ => ?_)
      rw [Database.reportCondition_eq]
      cases Command.update db.settings.dialect table (keepKnown known set) cond b with
      | error e => exact (Session.record_nil_bind _).symm
      | ok f =>
          change Answer.affected <$> (Session.record _ >>= fun _ => db.executeFragment f) = _
          rw [map_bind, Task.run_executeFragment]
          rfl
  | delete table cond b =>
      rw [run, Database.delete, Database.reportCondition_eq, map_bind, Task.run_executeFragment]
      rfl
  | select table columns cond b tail =>
      rw [run, Database.select, Database.reportCondition_eq, map_bind, Task.run_fetchFragment]
      rfl
  | selectAs table columns cond b tail read =>
      rw [run, Database.selectAs, Database.reportCondition_eq, map_bind, Task.run_fetchFragmentAs]
      rfl
  | findOne table cond b read =>
      rw [run, Database.findOne, Database.reportCondition_eq, map_bind,
        Task.run_statement db (p := .rows) fun s => s.fetchOptionalAs_eq _ _ read]
      rfl
  | count table cond b =>
      rw [run, Database.count, Database.reportCondition_eq, map_bind, Task.run_fetchScalar]
      rfl
  | execute f =>
      rw [run, Task.run_executeFragment]
      exact (Session.record_nil_bind _).symm
  | query f =>
      rw [run, Task.run_fetchFragment]
      exact (Session.record_nil_bind _).symm
  | queryAs f read =>
      rw [run, Task.run_fetchFragmentAs]
      exact (Session.record_nil_bind _).symm

end Operation

/-! ### What the stages do -/

/-- The lists of a fragment that are dropped, if they are to be reported. -/
def Fragment.events (d : Dialect) (f : Fragment Scalar) : List Event :=
  if d.reportDropped then Event.ofDropped f.params.droppedLists else []

/-- Making a statement logs the lists that are dropped. -/
theorem Database.prepareStatement_apply (db : Database σ) (f : Fragment Scalar) (s : Session σ) :
    db.prepareStatement f s =
      (.ok (.ofFragment f), { s with link := s.link.record (f.events db.settings.dialect) }) := by
  rw [prepareStatement, Fragment.events]
  split
  · rfl
  · rw [Link.record, List.append_nil]
    rfl

/-- **A task with a statement** attempts the statement once and reads the answer; the cache stays. -/
theorem Task.run_statement_apply (db : Database σ) (p : Purpose) (f : Fragment Scalar)
    (read : p.Result → Except Fault β) (s : Session σ) :
    let r := (db.connection.attempt p (Statement.ofFragment f).sent s.link.state).1
    (statement p f read).run db s = (r.bind read, ⟨s.cache,
      (db.connection.attempt p (Statement.ofFragment f).sent s.link.state).2,
        s.link.log ++ f.events db.settings.dialect ++
          (Statement.ofFragment f).logged db.settings.dumpOnFault r⟩) := by
  rw [run, Action.bind_apply, Database.prepareStatement_apply]
  dsimp only
  rw [Action.bind_apply, Session.onLink, Action.within_apply, Statement.perform_apply]
  rw [show (s.link.record (f.events db.settings.dialect)).state = s.link.state from rfl]
  rcases db.connection.attempt p (Statement.ofFragment f).sent s.link.state with ⟨e | x, t⟩ <;> rfl

/-- A task with a statement that returns rows fetches them and reads them. -/
theorem Task.run_rows (db : Database σ) (f : Fragment Scalar) (read : List Row → Except Fault β) :
    (statement .rows f read).run db = db.fetchFragment f >>= fun rows => .ofExcept (read rows) := by
  rw [Database.fetchFragment, bind_assoc]
  rfl

/-- Remember the columns of a table and return them. -/
def Session.learn (table : Text) (names : List Text) : Action (Session σ) (List Text) := do
  remember table names
  return names

/-- Columns that are not remembered are asked for, and then remembered. -/
theorem Database.columns_of_forgotten (db : Database σ) {table : Text} {s : Session σ}
    (h : Assoc.get? table s.cache.columns = none) :
    db.columns table s = ((Task.catalog db.connection.decoder table).run db >>= Session.learn table) s := by
  rw [columns, Action.bind_apply, Session.remembered, ColumnCache.get?, h, Task.catalog,
    Task.run_rows, bind_assoc]
  rfl

end BoundQuery

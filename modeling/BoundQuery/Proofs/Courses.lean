/-
**The course of an operation.**

What an operation comes to is told here step by step, with every point at which it can stop.  A
statement is attempted once: it may fail to be prepared, it may fail when it is run.  A lookup may be
spared, may fail, and may return rows that cannot be read; how rows are read is up to the driver of the
connection.  A payload may be refused.  The first step that fails ends the operation, and its fault is
the operation's.

The steps say what becomes of the cache and which calls reach the connection.  That the operations
take these courses and no others is proved of the operations as they are run, with the calls as an
observed connection writes them down.

Main definitions:

* `Connection.Attempts`, `Task.Runs`, `Database.Finds`, `Operation.Course` — the courses of an attempt
  at a statement, of a task, of a lookup and of an operation;
* `Operation.contacts` — the calls that an operation makes;
* `Operation.StopsCleanly` — what holds of an operation wherever it stops.

Main results:

* `Operation.course` — **every operation takes one of its courses**;
* `Operation.failures_leave_the_cache` — **a failure leaves the cache as it is and ends the operation**.
-/

import BoundQuery.Proofs.Operations

set_option relaxedAutoImplicit false
set_option autoImplicit false

namespace BoundQuery

variable {σ ρ β γ : Type}

/-! ### One attempt -/

namespace Connection

variable (c : Connection σ) (p : Purpose) (sent : Sent Scalar)

/-- The courses of an attempt at a statement: its outcome, the state it leaves and the calls. -/
inductive Attempts (s : σ) : Except Fault p.Result → σ → List Contact → Prop
  /-- Statements are not prepared: it is run. -/
  | direct {r : Except Fault p.Result} {t : σ} (hplain : c.supportsPrepared = false)
      (hrun : c.run p sent.sql sent.values s = (r, t)) :
      Attempts s r t [.direct p sent.sql sent.values]
  /-- It cannot be prepared, and is not run. -/
  | unprepared {e : Fault} {t : σ} (hprepares : c.supportsPrepared = true)
      (hprepare : c.prepare sent.sql s = (.error e, t)) :
      Attempts s (.error e) t [.prepare sent.sql]
  /-- It is prepared, and what was prepared is run. -/
  | prepared {q : c.Prepared} {t u : σ} {r : Except Fault p.Result}
      (hprepares : c.supportsPrepared = true) (hprepare : c.prepare sent.sql s = (.ok q, t))
      (hrun : c.runPrepared p q sent.values t = (r, u)) :
      Attempts s r u [.prepare sent.sql, .prepared p sent.sql sent.values]

variable {c p sent}

/-- The courses of an attempt are the attempt and its calls. -/
theorem attempts_iff {s t : σ} {r : Except Fault p.Result} {ks : List Contact} :
    c.Attempts p sent s r t ks ↔ c.attempt p sent s = (r, t) ∧ c.contacts p sent s = ks := by
  rw [attempt, contacts]
  constructor
  · intro h
    cases h with
    | direct hplain hrun => rw [hplain]; exact ⟨hrun, rfl⟩
    | unprepared hprepares hprepare =>
        rw [hprepares, if_pos rfl, if_pos rfl, Action.bind_apply, hprepare]
        exact ⟨rfl, rfl⟩
    | prepared hprepares hprepare hrun =>
        rw [hprepares, if_pos rfl, if_pos rfl, Action.bind_apply, hprepare]
        exact ⟨hrun, rfl⟩
  · rintro ⟨hattempt, rfl⟩
    -- whether the connection prepares, and then whether it could, tells the course
    split at hattempt
    · next hprepares =>
        rw [Action.bind_apply] at hattempt
        rw [if_pos hprepares]
        rcases hprepare : c.prepare sent.sql s with ⟨e | q, u⟩
        · rw [hprepare] at hattempt
          obtain ⟨rfl, rfl⟩ := Prod.mk.inj hattempt
          exact .unprepared hprepares hprepare
        · rw [hprepare] at hattempt
          exact .prepared hprepares hprepare hattempt
    · next hplain =>
        rw [if_neg hplain]
        exact .direct (eq_false_of_ne_true hplain) hattempt

theorem attempts (c : Connection σ) (p : Purpose) (sent : Sent Scalar) (s : σ) :
    c.Attempts p sent s (c.attempt p sent s).1 (c.attempt p sent s).2 (c.contacts p sent s) :=
  attempts_iff.2 ⟨rfl, rfl⟩

end Connection

/-! ### The courses -/

/-- The courses of a task: its outcome, the state it leaves and the calls. -/
inductive Task.Runs (c : Connection σ) : Task β → σ → Except Fault β → σ → List Contact → Prop
  /-- There is nothing to run. -/
  | answered (r : Except Fault β) (s : σ) : Task.Runs c (.answer r) s r s []
  /-- The statement fails. -/
  | failed {p : Purpose} {f : Fragment Scalar} {read : p.Result → Except Fault β} {s t : σ}
      {e : Fault} {ks : List Contact}
      (h : c.Attempts p (Statement.ofFragment f).sent s (.error e) t ks) :
      Task.Runs c (.statement p f read) s (.error e) t ks
  /-- What the statement returns is read. -/
  | returned {p : Purpose} {f : Fragment Scalar} {read : p.Result → Except Fault β} {s t : σ}
      {x : p.Result} {ks : List Contact}
      (h : c.Attempts p (Statement.ofFragment f).sent s (.ok x) t ks) :
      Task.Runs c (.statement p f read) s (read x) t ks

/-- The answer of a task is read from what the attempt returns. -/
theorem Task.Runs.of_attempts {c : Connection σ} {p : Purpose} {f : Fragment Scalar}
    {read : p.Result → Except Fault β} {s t : σ} {x : Except Fault p.Result} {ks : List Contact}
    (h : c.Attempts p (Statement.ofFragment f).sent s x t ks) :
    Task.Runs c (.statement p f read) s (x.bind read) t ks := by
  cases x with
  | error e => exact .failed h
  | ok x => exact .returned h

/-- The catalog has said what can be read. -/
theorem Task.Runs.catalog {c : Connection σ} {reads : Decoder} {table : Text} {s t : σ}
    {rows : List Row} {names : List Text} {ks : List Contact}
    (h : c.Attempts .rows (Statement.ofFragment (catalogQuery table)).sent s (.ok rows) t ks)
    (hread : Database.columnNames reads rows = .ok names) :
    (Task.catalog reads table).Runs c s (.ok names) t ks :=
  hread ▸ .returned h

/-- The courses of asking for the columns of a table: the outcome, the cache and the state that are
left, and the calls. -/
inductive Database.Finds (db : Database σ) (table : Text) (cache : ColumnCache) (s : σ) :
    Except Fault (List Text) → ColumnCache → σ → List Contact → Prop
  /-- They are remembered, and nothing is asked. -/
  | remembered {names : List Text} (h : Assoc.get? table cache.columns = some names) :
      Finds db table cache s (.ok names) (cache.get? table).2 s []
  /-- The catalog fails, or what it returns cannot be read. -/
  | failed {e : Fault} {t : σ} {ks : List Contact} (hnew : Assoc.get? table cache.columns = none)
      (h : (Task.catalog db.connection.decoder table).Runs db.connection s (.error e) t ks) :
      Finds db table cache s (.error e) cache t ks
  /-- The catalog says, and that is remembered. -/
  | learned {names : List Text} {t : σ} {ks : List Contact}
      (hnew : Assoc.get? table cache.columns = none)
      (h : (Task.catalog db.connection.decoder table).Runs db.connection s (.ok names) t ks) :
      Finds db table cache s (.ok names) (cache.insert table names) t ks

/-- The courses of an operation: the outcome, the cache and the state that are left, and the calls. -/
inductive Operation.Course (db : Database σ) (op : Operation ρ) (cache : ColumnCache) (s : σ) :
    Except Fault (Answer ρ) → ColumnCache → σ → List Contact → Prop
  /-- No columns are asked for. -/
  | bare {r : Except Fault (Answer ρ)} {t : σ} {ks : List Contact} (hbare : op.table? = none)
      (htask : (op.task db.settings.dialect db.connection.decoder []).Runs db.connection s r t ks) :
      Course db op cache s r cache t ks
  /-- The columns cannot be found, and nothing else is done. -/
  | stopped {table : Text} {e : Fault} {cache' : ColumnCache} {t : σ} {ks : List Contact}
      (htable : op.table? = some table)
      (hfinds : db.Finds table cache s (.error e) cache' t ks) :
      Course db op cache s (.error e) cache' t ks
  /-- The columns are found, and the rest is done. -/
  | went {table : Text} {known : List Text} {cache' : ColumnCache} {t u : σ}
      {r : Except Fault (Answer ρ)} {ks ks' : List Contact} (htable : op.table? = some table)
      (hfinds : db.Finds table cache s (.ok known) cache' t ks)
      (htask : (op.task db.settings.dialect db.connection.decoder known).Runs db.connection
        t r u ks') :
      Course db op cache s r cache' u (ks ++ ks')

/-! ### Observed sessions -/

/-- The database on the observed connection. -/
def Database.observed (db : Database σ) : Database (Observed σ) :=
  ⟨db.connection.observed, db.settings⟩

/-- The session on the observed connection, with the calls so far. -/
def Session.observed (s : Session σ) (ks : List Contact) : Session (Observed σ) :=
  ⟨s.cache, ⟨⟨s.link.state, ks⟩, s.link.log⟩⟩

/-- **The calls that an operation makes.**  They are those that the observed connection writes down. -/
def Operation.contacts (db : Database σ) (op : Operation ρ) (s : Session σ) : List Contact :=
  (op.run db.observed (s.observed [])).2.link.state.contacts

/-- The action comes to `r` in the session `t`; on the observed connection, where it is `x'`, it comes
to the same, and the calls are `ks`. -/
structure Session.ComesTo (x : Action (Session σ) β) (x' : Action (Session (Observed σ)) β)
    (s : Session σ) (r : Except Fault β) (t : Session σ) (ks : List Contact) : Prop where
  apply : x s = (r, t)
  observed : ∀ before, x' (s.observed before) = (r, t.observed (before ++ ks))

namespace Session.ComesTo

variable {x : Action (Session σ) β} {x' : Action (Session (Observed σ)) β}
  {f : β → Action (Session σ) γ} {f' : β → Action (Session (Observed σ)) γ}
  {s t u : Session σ} {ks ks' : List Contact}

/-- An action that concerns the connection in no way makes no calls. -/
theorem of_silent {r : Except Fault β} (h : x s = (r, t))
    (h' : ∀ before, x' (s.observed before) = (r, t.observed before)) : ComesTo x x' s r t [] where
  apply := h
  observed before := by rw [h', List.append_nil]

/-- An action that fails is the end. -/
theorem bind_error {e : Fault} (h : ComesTo x x' s (.error e) t ks) :
    ComesTo (x >>= f) (x' >>= f') s (.error e) t ks where
  apply := by rw [Action.bind_apply, h.apply]
  observed before := by rw [Action.bind_apply, h.observed]

/-- What is done after an action makes its calls after those of the action. -/
theorem bind_ok {b : β} {r : Except Fault γ} (h : ComesTo x x' s (.ok b) t ks)
    (hf : ComesTo (f b) (f' b) t r u ks') : ComesTo (x >>= f) (x' >>= f') s r u (ks ++ ks') where
  apply := by
    rw [Action.bind_apply, h.apply]
    exact hf.apply
  observed before := by
    rw [Action.bind_apply, h.observed, ← List.append_assoc]
    exact hf.observed _

end Session.ComesTo

/-! ### Operations take their courses -/

/-- **A task takes one of its courses**, and leaves the cache alone. -/
theorem Task.exists_runs (db : Database σ) (task : Task β) (s : Session σ) :
    ∃ r l ks, Session.ComesTo (task.run db) (task.run db.observed) s r ⟨s.cache, l⟩ ks ∧
      task.Runs db.connection s.link.state r l.state ks := by
  cases task with
  | answer r => exact ⟨r, s.link, [], .of_silent rfl fun _ => rfl, .answered r _⟩
  | statement p f read =>
      refine ⟨_, _, db.connection.contacts p (Statement.ofFragment f).sent s.link.state,
        ⟨run_statement_apply db p f read s, fun before => ?_⟩, ?_⟩
      · rw [run_statement_apply db.observed p f read]
        have hattempt := db.connection.attempt_observed p (Statement.ofFragment f).sent
          s.link.state before
        change (db.observed.connection.attempt p (Statement.ofFragment f).sent
          (s.observed before).link.state) = _ at hattempt
        rw [hattempt]
        rfl
      · exact .of_attempts (db.connection.attempts p (Statement.ofFragment f).sent s.link.state)

/-- **A lookup takes one of its courses.** -/
theorem Database.exists_finds (db : Database σ) (table : Text) (s : Session σ) :
    ∃ r t ks, Session.ComesTo (db.columns table) (db.observed.columns table) s r t ks ∧
      db.Finds table s.cache s.link.state r t.cache t.link.state ks := by
  rcases hcols : Assoc.get? table s.cache.columns with _ | names
  -- the cache is touched only after the rows have been read
  · let catalog := Task.catalog db.connection.decoder table
    obtain ⟨r, l, ks, hcomes, hruns⟩ := catalog.exists_runs db s
    cases r with
    | error e =>
        have herror : Session.ComesTo (catalog.run db >>= Session.learn table)
            (catalog.run db.observed >>= Session.learn table) s (.error e) ⟨s.cache, l⟩ ks :=
          hcomes.bind_error
        exact ⟨_, _, ks, ⟨(db.columns_of_forgotten hcols).trans herror.apply, fun before =>
          (db.observed.columns_of_forgotten hcols).trans (herror.observed before)⟩,
          .failed hcols hruns⟩
    | ok names =>
        have hlearn : Session.ComesTo (Session.learn table names) (Session.learn table names)
            ⟨s.cache, l⟩ (.ok names) ⟨s.cache.insert table names, l⟩ [] :=
          .of_silent rfl fun _ => rfl
        have hlearned := hcomes.bind_ok hlearn
        rw [List.append_nil] at hlearned
        exact ⟨_, _, ks, ⟨(db.columns_of_forgotten hcols).trans hlearned.apply, fun before =>
          (db.observed.columns_of_forgotten hcols).trans (hlearned.observed before)⟩,
          .learned hcols hruns⟩
  · refine ⟨_, _, [], .of_silent (db.columns_of_remembered hcols) fun before => ?_,
      .remembered hcols⟩
    exact db.observed.columns_of_remembered (s := s.observed before) hcols

/-- Once the columns are known, an operation logs its events and does its task. -/
theorem Operation.exists_rest (db : Database σ) (op : Operation ρ) (known : List Text)
    (s : Session σ) :
    let task := op.task db.settings.dialect db.connection.decoder known
    ∃ r l ks, Session.ComesTo
        (Session.record (op.events db.settings.dialect known) >>= fun _ => task.run db)
        (Session.record (op.events db.settings.dialect known) >>= fun _ => task.run db.observed)
        s r ⟨s.cache, l⟩ ks ∧
      task.Runs db.connection s.link.state r l.state ks := by
  intro task
  obtain ⟨r, l, ks, hcomes, hruns⟩ := task.exists_runs db
    { s with link := s.link.record (op.events db.settings.dialect known) }
  have hrecord : Session.ComesTo (Session.record (op.events db.settings.dialect known))
      (Session.record (op.events db.settings.dialect known)) s (.ok ())
      { s with link := s.link.record (op.events db.settings.dialect known) } [] :=
    .of_silent rfl fun _ => rfl
  exact ⟨r, l, ks, hrecord.bind_ok hcomes, hruns⟩

/-- **Every operation takes one of its courses.** -/
theorem Operation.exists_course (db : Database σ) (op : Operation ρ) (s : Session σ) :
    ∃ r t ks, Session.ComesTo (op.run db) (op.run db.observed) s r t ks ∧
      op.Course db s.cache s.link.state r t.cache t.link.state ks := by
  rw [run_eq_stages, run_eq_stages, lookup, lookup]
  cases htable : op.table? with
  | none =>
      obtain ⟨r, l, ks, hcomes, hruns⟩ := op.exists_rest db [] s
      exact ⟨r, _, ks, hcomes, .bare htable hruns⟩
  | some table =>
      obtain ⟨found, t, ks, hcomes, hfinds⟩ := db.exists_finds table s
      cases found with
      | error e => exact ⟨_, t, ks, hcomes.bind_error, .stopped htable hfinds⟩
      | ok known =>
          obtain ⟨r, l, ks', hcomes', hruns⟩ := op.exists_rest db known t
          exact ⟨r, _, ks ++ ks', hcomes.bind_ok hcomes', .went htable hfinds hruns⟩

/-- An operation as it is run takes one of its courses, with the calls it makes. -/
theorem Operation.course (db : Database σ) (op : Operation ρ) (s : Session σ) :
    op.Course db s.cache s.link.state (op.run db s).1 (op.run db s).2.cache
      (op.run db s).2.link.state (op.contacts db s) := by
  obtain ⟨r, t, ks, hcomes, hcourse⟩ := op.exists_course db s
  have hcontacts : op.contacts db s = ks := by
    rw [contacts, hcomes.observed]
    rfl
  rw [hcomes.apply, hcontacts]
  exact hcourse

/-! ### There is one course -/

/-- The attempt at a statement is determined. -/
theorem Connection.Attempts.unique {c : Connection σ} {p : Purpose} {sent : Sent Scalar}
    {s t t' : σ} {r r' : Except Fault p.Result} {ks ks' : List Contact}
    (h : c.Attempts p sent s r t ks) (h' : c.Attempts p sent s r' t' ks') :
    r = r' ∧ t = t' ∧ ks = ks' := by
  obtain ⟨hattempt, hcontacts⟩ := attempts_iff.1 h
  obtain ⟨hattempt', hcontacts'⟩ := attempts_iff.1 h'
  obtain ⟨hr, ht⟩ := Prod.mk.inj (hattempt.symm.trans hattempt')
  exact ⟨hr, ht, hcontacts.symm.trans hcontacts'⟩

/-- A task is determined. -/
theorem Task.Runs.unique {c : Connection σ} {task : Task β} {s t t' : σ} {r r' : Except Fault β}
    {ks ks' : List Contact} (h : task.Runs c s r t ks) (h' : task.Runs c s r' t' ks') :
    r = r' ∧ t = t' ∧ ks = ks' := by
  cases h with
  | answered => cases h'; exact ⟨rfl, rfl, rfl⟩
  | failed ha =>
      cases h' with
      | failed ha' =>
          obtain ⟨he, ht, hks⟩ := ha.unique ha'
          exact ⟨congrArg Except.error (Except.error.inj he), ht, hks⟩
      | returned ha' => cases (ha.unique ha').1
  | returned ha =>
      cases h' with
      | failed ha' => cases (ha.unique ha').1
      | returned ha' =>
          obtain ⟨hx, ht, hks⟩ := ha.unique ha'
          exact ⟨congrArg _ (Except.ok.inj hx), ht, hks⟩

/-- A lookup is determined. -/
theorem Database.Finds.unique {db : Database σ} {table : Text} {cache c c' : ColumnCache}
    {s t t' : σ} {r r' : Except Fault (List Text)} {ks ks' : List Contact}
    (h : db.Finds table cache s r c t ks) (h' : db.Finds table cache s r' c' t' ks') :
    r = r' ∧ c = c' ∧ t = t' ∧ ks = ks' := by
  cases h with
  | remembered hold =>
      cases h' with
      | remembered hold' =>
          exact ⟨congrArg Except.ok (Option.some.inj (hold.symm.trans hold')), rfl, rfl, rfl⟩
      | failed hnew' => cases hold.symm.trans hnew'
      | learned hnew' => cases hold.symm.trans hnew'
  | failed hnew hruns =>
      cases h' with
      | remembered hold' => cases hnew.symm.trans hold'
      | failed hnew' hruns' =>
          obtain ⟨he, ht, hks⟩ := hruns.unique hruns'
          exact ⟨congrArg Except.error (Except.error.inj he), rfl, ht, hks⟩
      | learned hnew' hruns' => cases (hruns.unique hruns').1
  | learned hnew hruns =>
      cases h' with
      | remembered hold' => cases hnew.symm.trans hold'
      | failed hnew' hruns' => cases (hruns.unique hruns').1
      | learned hnew' hruns' =>
          obtain ⟨he, ht, hks⟩ := hruns.unique hruns'
          obtain rfl := Except.ok.inj he
          exact ⟨rfl, rfl, ht, hks⟩

/-- **An operation is determined.** -/
theorem Operation.Course.unique {db : Database σ} {op : Operation ρ} {cache c c' : ColumnCache}
    {s t t' : σ} {r r' : Except Fault (Answer ρ)} {ks ks' : List Contact}
    (h : op.Course db cache s r c t ks) (h' : op.Course db cache s r' c' t' ks') :
    r = r' ∧ c = c' ∧ t = t' ∧ ks = ks' := by
  cases h with
  | bare hbare htask =>
      cases h' with
      | bare _ htask' =>
          obtain ⟨hr, ht, hks⟩ := htask.unique htask'
          exact ⟨hr, rfl, ht, hks⟩
      | stopped htable' => cases hbare.symm.trans htable'
      | went htable' => cases hbare.symm.trans htable'
  | stopped htable hfinds =>
      cases h' with
      | bare hbare' => cases htable.symm.trans hbare'
      | stopped htable' hfinds' =>
          obtain rfl := Option.some.inj (htable.symm.trans htable')
          obtain ⟨he, hc, ht, hks⟩ := hfinds.unique hfinds'
          exact ⟨congrArg Except.error (Except.error.inj he), hc, ht, hks⟩
      | went htable' hfinds' =>
          obtain rfl := Option.some.inj (htable.symm.trans htable')
          cases (hfinds.unique hfinds').1
  | went htable hfinds htask =>
      cases h' with
      | bare hbare' => cases htable.symm.trans hbare'
      | stopped htable' hfinds' =>
          obtain rfl := Option.some.inj (htable.symm.trans htable')
          cases (hfinds.unique hfinds').1
      | went htable' hfinds' htask' =>
          obtain rfl := Option.some.inj (htable.symm.trans htable')
          obtain ⟨hknown, hc, rfl, rfl⟩ := hfinds.unique hfinds'
          obtain rfl := Except.ok.inj hknown
          obtain ⟨hr, hu, rfl⟩ := htask.unique htask'
          exact ⟨hr, hc, hu, rfl⟩

/-- **The course of an operation is what it comes to when it is run.** -/
theorem Operation.course_iff {db : Database σ} {op : Operation ρ} {s : Session σ}
    {r : Except Fault (Answer ρ)} {cache : ColumnCache} {t : σ} {ks : List Contact} :
    op.Course db s.cache s.link.state r cache t ks ↔
      (op.run db s).1 = r ∧ (op.run db s).2.cache = cache ∧ (op.run db s).2.link.state = t ∧
        op.contacts db s = ks := by
  constructor
  · intro h
    exact (op.course db s).unique h
  · rintro ⟨rfl, rfl, rfl, rfl⟩
    exact op.course db s

/-- Whatever a task is, it comes to something. -/
theorem Task.Runs.exists (c : Connection σ) (task : Task β) (s : σ) :
    ∃ r t ks, task.Runs c s r t ks := by
  cases task with
  | answer r => exact ⟨r, s, [], .answered r s⟩
  | statement p f read =>
      exact ⟨_, _, _, .of_attempts (c.attempts p (Statement.ofFragment f).sent s)⟩

/-! ### Where an operation stops -/

/-- The statement that an operation writes a payload with, if it writes one. -/
def Operation.payload? (d : Dialect) (known : List Text) :
    Operation ρ → Option (Except PayloadFault (Fragment Scalar))
  | insert table data => some (Command.insert d table (keepKnown known data))
  | insertReturning table data column _ =>
      some ((Command.insert d table (keepKnown known data)).map (returning d column))
  | update table set cond b => some (Command.update d table (keepKnown known set) cond b)
  | _ => none

/-- **What holds of an operation wherever it stops.** -/
structure Operation.StopsCleanly (db : Database σ) (op : Operation ρ) (s : Session σ) : Prop where
  /-- It takes the course that it comes to when it is run, with the calls that are written down. -/
  course : op.Course db s.cache s.link.state (op.run db s).1 (op.run db s).2.cache
    (op.run db s).2.link.state (op.contacts db s)
  /-- Only columns that the catalog returned, all of them read, change what is remembered. -/
  changes : (op.run db s).2.cache.columns ≠ s.cache.columns → ∃ table names t ks,
    op.table? = some table ∧ Assoc.get? table s.cache.columns = none ∧
      (Task.catalog db.connection.decoder table).Runs db.connection s.link.state (.ok names) t ks
  /-- Columns that the catalog returned are stored, and nothing else happens to the cache. -/
  learns : ∀ {table names t ks}, op.table? = some table →
    Assoc.get? table s.cache.columns = none →
    (Task.catalog db.connection.decoder table).Runs db.connection s.link.state (.ok names) t ks →
      (op.run db s).2.cache = s.cache.insert table names
  /-- If the catalog fails or its rows cannot be read, that is the end: the fault is that of the
  operation, the cache is as it was, and there are no other calls. -/
  unlearned : ∀ {table e t ks}, op.table? = some table →
    Assoc.get? table s.cache.columns = none →
    (Task.catalog db.connection.decoder table).Runs db.connection s.link.state (.error e) t ks →
      (op.run db s).1 = .error e ∧ (op.run db s).2.cache = s.cache ∧ op.contacts db s = ks
  /-- If the filtered payload is refused, that is the end, and there are no calls after those of the
  lookup. -/
  refused : ∀ {table known cache t ks f}, op.table? = some table →
    db.Finds table s.cache s.link.state (.ok known) cache t ks →
    op.payload? db.settings.dialect known = some (.error f) →
      (op.run db s).1 = .error (.ofPayload f) ∧ op.contacts db s = ks
  /-- Otherwise the statement of the payload is attempted once after the lookup; if it fails, that is
  the fault of the operation. -/
  sent : ∀ {table known cache t ks f}, op.table? = some table →
    db.Finds table s.cache s.link.state (.ok known) cache t ks →
    op.payload? db.settings.dialect known = some (.ok f) → ∃ p r u ks',
      db.connection.Attempts p (Statement.ofFragment f).sent t r u ks' ∧
        op.contacts db s = ks ++ ks' ∧ ∀ e, r = .error e → (op.run db s).1 = .error e

/-- A lookup that changes what is remembered has learned it. -/
theorem Database.Finds.learned_of_ne {db : Database σ} {table : Text} {cache cache' : ColumnCache}
    {s t : σ} {r : Except Fault (List Text)} {ks : List Contact}
    (h : db.Finds table cache s r cache' t ks) (hne : cache'.columns ≠ cache.columns) :
    ∃ names, Assoc.get? table cache.columns = none ∧
      (Task.catalog db.connection.decoder table).Runs db.connection s (.ok names) t ks := by
  cases h with
  | remembered => exact absurd (cache.get?_columns table) hne
  | failed => exact absurd rfl hne
  | learned hnew hruns => exact ⟨_, hnew, hruns⟩

namespace Operation

/-- An operation changes what is remembered by a lookup only. -/
theorem Course.finds_of_ne {db : Database σ} {op : Operation ρ} {cache cache' : ColumnCache}
    {s u : σ} {r : Except Fault (Answer ρ)} {ks : List Contact}
    (h : op.Course db cache s r cache' u ks) (hne : cache'.columns ≠ cache.columns) :
    ∃ table found t ks', op.table? = some table ∧ db.Finds table cache s found cache' t ks' := by
  cases h with
  | bare => exact absurd rfl hne
  | stopped htable hfinds => exact ⟨_, _, _, _, htable, hfinds⟩
  | went htable hfinds _ => exact ⟨_, _, _, _, htable, hfinds⟩

/-- The task of an operation that writes a payload is to run its statement. -/
theorem exists_task_of_payload {d : Dialect} {reads : Decoder} {known : List Text} {op : Operation ρ}
    {r : Except PayloadFault (Fragment Scalar)} (h : op.payload? d known = some r) :
    ∃ p read, op.task d reads known = .ofPayload r p read := by
  cases op <;> cases h <;> exact ⟨_, _, rfl⟩

/-- **A failure leaves the cache as it is and ends the operation.**  The columns that are remembered
change only by what the catalog returned; and an operation that writes a payload makes at most one
lookup and then at most one attempt at its statement, and fails as the first of its steps does that
fails. -/
theorem failures_leave_the_cache (db : Database σ) (op : Operation ρ) (s : Session σ) :
    op.StopsCleanly db s where
  course := op.course db s
  changes hne := by
    obtain ⟨table, found, t, ks, htable, hfinds⟩ := (op.course db s).finds_of_ne hne
    obtain ⟨names, hnew, hruns⟩ := hfinds.learned_of_ne hne
    exact ⟨table, names, t, ks, htable, hnew, hruns⟩
  learns {table names t ks} htable hnew hruns := by
    -- whatever the task comes to, the cache is that of the lookup
    obtain ⟨r, u, ks', htask⟩ := Task.Runs.exists db.connection
      (op.task db.settings.dialect db.connection.decoder names) t
    exact (course_iff.1 (.went htable (.learned hnew hruns) htask)).2.1
  unlearned htable hnew hruns := by
    obtain ⟨hr, hcache, -, hks⟩ := course_iff.1 (.stopped htable (.failed hnew hruns))
    exact ⟨hr, hcache, hks⟩
  refused {table known cache t ks f} htable hfinds hpayload := by
    obtain ⟨p, read, htask⟩ := exists_task_of_payload hpayload
    have hruns : (op.task db.settings.dialect db.connection.decoder known).Runs db.connection t
        (.error (.ofPayload f)) t [] := htask ▸ .answered _ t
    obtain ⟨hr, -, -, hks⟩ := course_iff.1 (.went htable hfinds hruns)
    exact ⟨hr, hks.trans (List.append_nil ks)⟩
  sent {table known cache t ks f} htable hfinds hpayload := by
    obtain ⟨p, read, htask⟩ := exists_task_of_payload hpayload
    have hattempts := db.connection.attempts p (Statement.ofFragment f).sent t
    have hruns : (Task.ofPayload (.ok f) p read).Runs db.connection t _ _ _ :=
      .of_attempts hattempts
    rw [← htask] at hruns
    obtain ⟨hr, -, -, hks⟩ := course_iff.1 (.went htable hfinds hruns)
    refine ⟨p, _, _, _, hattempts, hks, fun e he => ?_⟩
    rw [hr, he]
    rfl

end Operation

/-! ### A server with settled answers -/

/-- The rows of a catalog that knows one column. -/
def emailRows : List Row :=
  [⟨[⟨"column_name".toList, .prim .text⟩], [some ⟨.text, "email".toList⟩]⟩]

/-- A server that prepares what it gets and has one answer to queries and one to writes. -/
def settledServer (rows : Except Fault (List Row)) (write : Except Fault Nat) : Connection Unit where
  Prepared := Unit
  supportsPrepared := true
  query _ _ := .ofExcept rows
  execute _ _ := .ofExcept write
  prepare _ := pure ()
  queryPrepared _ _ := .ofExcept rows
  executePrepared _ _ := .ofExcept write

/-- **An update stops where it fails.**  A server that does not answer the lookup gets no update, and
what is remembered of another table stays.  If the catalog says that the table has one column, that is
remembered: a payload without the column is refused, and nothing is sent but the lookup; for a payload
with the column the update is attempted once, whether the server fails then or not. -/
theorem Operation.update_stops_where_it_fails :
    let e := Fault.other "connection closed".toList
    let silent : Database Unit := ⟨settledServer (.error e) (.error e), {}⟩
    let failing : Database Unit := ⟨settledServer (.ok emailRows) (.error e), {}⟩
    let serving : Database Unit := ⟨settledServer (.ok emailRows) (.ok 1), {}⟩
    let table := "users".toList
    let cache : ColumnCache := ⟨2, [("orders".toList, ["id".toList])], ["orders".toList]⟩
    let learned : ColumnCache := ⟨2, [("orders".toList, ["id".toList]), (table, ["email".toList])],
      ["orders".toList, table]⟩
    let s : Session Unit := ⟨cache, (), []⟩
    let clear : Text → Operation Unit := fun column =>
      .update table [.column column (.scalar none)] (.raw "id = 7".toList) .empty
    let email := clear "email".toList
    let role := clear "role".toList
    let lookup := (Statement.ofFragment (catalogQuery table)).sent
    let asked : List Contact := [.prepare lookup.sql, .prepared .rows lookup.sql lookup.values]
    let write : Sent Scalar :=
      ⟨"UPDATE \"users\" SET \"email\" = $1 WHERE id = 7".toList, ["set_email".toList], [none]⟩
    let written : List Contact := [.prepare write.sql, .prepared .effect write.sql write.values]
    (email.table? = some table ∧ Assoc.get? table s.cache.columns = none ∧
      (email.run silent s).1 = .error e ∧ (email.run silent s).2.cache = cache ∧
      email.contacts silent s = asked) ∧
    ((role.run failing s).1 = .error (.ofPayload .emptyUpdate) ∧
      (role.run failing s).2.cache = learned ∧ role.contacts failing s = asked) ∧
    ((email.run failing s).1 = .error e ∧ (email.run failing s).2.cache = learned ∧
      email.contacts failing s = asked ++ written) ∧
    ((email.run serving s).1 = .ok (.affected 1) ∧ (email.run serving s).2.cache = learned ∧
      email.contacts serving s = asked ++ written ∧
      ∃ p r u ks, serving.connection.Attempts p write () r u ks ∧
        email.contacts serving s = asked ++ ks) := by
  intro e silent failing serving table cache learned s clear email role lookup asked write written
  have hnew : Assoc.get? table s.cache.columns = none := by decide
  have hsilent : (Task.catalog silent.connection.decoder table).Runs silent.connection () (.error e)
      () asked := .failed (.prepared rfl rfl rfl)
  have hlearned : ∀ w, (Task.catalog Decoder.typed table).Runs (settledServer (.ok emailRows) w) ()
      (.ok ["email".toList]) () asked := fun w => .catalog (.prepared rfl rfl rfl) rfl
  have hfinds : ∀ w, Database.Finds ⟨settledServer (.ok emailRows) w, {}⟩ table cache ()
      (.ok ["email".toList]) (cache.insert table ["email".toList]) () asked := fun w =>
    .learned hnew (hlearned w)
  have hinsert : cache.insert table ["email".toList] = learned := rfl
  -- the update as it is compiled, and as it is sent
  let f : Fragment Scalar :=
    ⟨"UPDATE \"users\" SET \"email\" = :set_email WHERE id = 7".toList,
      .ofList [(.name "set_email".toList, .scalar none)]⟩
  have hupdate : Command.update ({} : Settings).dialect table
      (keepKnown ["email".toList] [.column "email".toList (.scalar none)])
      (.raw "id = 7".toList) .empty = .ok f := by rfl
  have hwrite : (Statement.ofFragment f).sent = write := by rfl
  have hwritten : ∀ w, let db : Database Unit := ⟨settledServer (.ok emailRows) w, {}⟩
      (email.run db s).1 = w.bind (fun n => .ok (.affected n)) ∧
        (email.run db s).2.cache = learned ∧ email.contacts db s = asked ++ written := by
    intro w db
    have hattempts : db.connection.Attempts .effect (Statement.ofFragment f).sent () w () written := by
      rw [hwrite]
      exact .prepared rfl rfl (by cases w <;> rfl)
    have htask : (email.task db.settings.dialect Decoder.typed ["email".toList]).Runs
        db.connection () (w.bind fun n => .ok (.affected n)) () written := by
      rw [task, hupdate]
      exact .of_attempts hattempts
    have hcourse := (failures_leave_the_cache db email s).course
    obtain ⟨hr, hcache, -, hks⟩ := hcourse.unique (.went rfl (hfinds w) htask)
    exact ⟨hr, hcache.trans hinsert, hks⟩
  refine ⟨⟨rfl, hnew, ?silent⟩, ?refused, hwritten (.error e), ?served⟩
  case silent => exact (failures_leave_the_cache silent email s).unlearned rfl hnew hsilent
  case refused =>
    have hrole := failures_leave_the_cache failing role s
    obtain ⟨hr, hks⟩ := hrole.refused rfl (hfinds _) rfl
    exact ⟨hr, (hrole.learns rfl hnew (hlearned _)).trans hinsert, hks⟩
  case served =>
    obtain ⟨hr, hcache, hks⟩ := hwritten (.ok 1)
    obtain ⟨p, r, u, ks, hattempts, hsent, -⟩ :=
      (failures_leave_the_cache serving email s).sent rfl (hfinds (.ok 1)) (congrArg some hupdate)
    rw [hwrite] at hattempts
    exact ⟨hr, hcache, hks, p, r, u, ks, hattempts, hsent⟩

end BoundQuery

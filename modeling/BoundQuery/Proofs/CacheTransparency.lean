/-
**The cache cannot be seen from outside.**

A catalog that always says the same of a table may be asked often or seldom.  If the connection does
not let its lookups show in what it does otherwise, then two sessions that remember different numbers
of tables answer every operation alike and send the same statements; they differ in their lookups
only, and a table whose columns are remembered is not looked up.

The two caches hold different tables at any time, so they are not compared with each other.  Each of
them is compared with the catalog: what it holds is what the catalog says.  An operation on a session
is then the lookup, if one is made, and a task that depends on the catalog alone.  A task runs one
statement or none, and it asks the catalog nothing.  So the calls of an operation are known: those of
the lookup, unless the columns are remembered, and those of the task.

Main definitions:

* `Connection.SteadyCatalog` — a connection whose catalog says the same of a table at all times, and
  whose lookups do not show;
* `ColumnCache.AgreesWith` — everything that is remembered is what the catalog says;
* `Turn`, `Database.turns` — what a run of operations answers and sends, operation by operation;
* `Turn.Makes` — the calls of a turn: its lookup, unless it is spared, and the calls of its task;
* `Turn.Matches` — two turns that differ in their lookups only.

Main results:

* `Operation.Course.steady` — **an operation is its lookup, if it makes one, and then a task that
  depends on the catalog alone**;
* `Database.turns_match` — **two capacities cannot be told apart**.
-/

import Mathlib.Data.List.Forall2
import BoundQuery.Proofs.Courses

set_option relaxedAutoImplicit false
set_option autoImplicit false

namespace BoundQuery

variable {σ ρ β : Type}

/-! ### Connections whose lookups do not show -/

/-- Two outcomes that are alike: the same fault, or results that are the same in a given sense, and
states that are alike. -/
inductive Agree (alike : σ → σ → Prop) (same : β → β → Prop) :
    Except Fault β × σ → Except Fault β × σ → Prop
  | error (e : Fault) {s t : σ} (h : alike s t) : Agree alike same (.error e, s) (.error e, t)
  | ok {a b : β} {s t : σ} (hsame : same a b) (h : alike s t) :
      Agree alike same (.ok a, s) (.ok b, t)

namespace Connection

/-- What is sent to ask for the columns of a table. -/
def lookupOf (table : Text) : Sent Scalar := (Statement.ofFragment (catalogQuery table)).sent

/-- The calls of an attempt that does not fail to prepare its statement. -/
def calls (c : Connection σ) (p : Purpose) (sent : Sent Scalar) : List Contact :=
  if c.supportsPrepared then [.prepare sent.sql, .prepared p sent.sql sent.values]
  else [.direct p sent.sql sent.values]

/-- A connection whose catalog says the same of a table at all times, and whose lookups do not show in
anything else it does: there is a sense in which states are alike, a lookup leaves a state that is
alike, and in states that are alike the connection does the same. -/
structure SteadyCatalog (c : Connection σ) where
  /-- States that are alike but for the lookups. -/
  alike : σ → σ → Prop
  /-- Prepared statements that are the same but for the lookups before them. -/
  same : c.Prepared → c.Prepared → Prop
  /-- The rows that the catalog returns for a table. -/
  rows : Text → List Row
  /-- The columns of a table. -/
  names : Text → List Text
  equivalence : Equivalence alike
  columnNames_rows : ∀ table, Database.columnNames c.decoder (rows table) = .ok (names table)
  lookup : ∀ table s, ∃ t, c.attempt .rows (lookupOf table) s = (.ok (rows table), t) ∧ alike t s
  run : ∀ p sql values {s t}, alike s t →
    Agree alike Eq (c.run p sql values s) (c.run p sql values t)
  prepare : ∀ sql {s t}, alike s t → Agree alike same (c.prepare sql s) (c.prepare sql t)
  runPrepared : ∀ p {q q'} values {s t}, same q q' → alike s t →
    Agree alike Eq (c.runPrepared p q values s) (c.runPrepared p q' values t)

/-- An attempt that succeeds has made all its calls. -/
theorem Attempts.contacts_of_ok {c : Connection σ} {p : Purpose} {sent : Sent Scalar} {s t : σ}
    {x : p.Result} {ks : List Contact} (h : c.Attempts p sent s (.ok x) t ks) :
    ks = c.calls p sent := by
  rw [calls]
  cases h with
  | direct hplain => rw [hplain]; rfl
  | prepared hprepares => rw [hprepares]; rfl

namespace SteadyCatalog

variable {c : Connection σ} (h : c.SteadyCatalog)

/-- A lookup succeeds, and its rows are those of the catalog. -/
theorem lookup_runs {table : Text} {s t : σ} {r : Except Fault (List Text)} {ks : List Contact}
    (hruns : (Task.catalog c.decoder table).Runs c s r t ks) :
    r = .ok (h.names table) ∧ h.alike t s ∧ ks = c.calls .rows (lookupOf table) := by
  obtain ⟨u, hattempt, halike⟩ := h.lookup table s
  have hattempts := Connection.attempts_iff.2 ⟨hattempt, rfl⟩
  obtain ⟨hr, rfl, hks⟩ := hruns.unique (.catalog hattempts (h.columnNames_rows table))
  exact ⟨hr, halike, hks.trans hattempts.contacts_of_ok⟩

/-- **Attempts at a statement in states that are alike** come to the same and make the same calls. -/
theorem attempts_alike {p : Purpose} {sent : Sent Scalar} {s s' t t' : σ}
    {r r' : Except Fault p.Result} {ks ks' : List Contact} (hs : h.alike s s')
    (ha : c.Attempts p sent s r t ks) (ha' : c.Attempts p sent s' r' t' ks') :
    r = r' ∧ h.alike t t' ∧ ks = ks' := by
  have hprep := h.prepare sent.sql hs
  cases ha with
  | direct hplain hrun =>
      cases ha' with
      | direct _ hrun' =>
          have hagree := h.run p sent.sql sent.values hs
          rw [hrun, hrun'] at hagree
          cases hagree with
          | error e ht => exact ⟨rfl, ht, rfl⟩
          | ok hx ht => exact ⟨congrArg Except.ok hx, ht, rfl⟩
      | unprepared hprepares' => cases hplain.symm.trans hprepares'
      | prepared hprepares' => cases hplain.symm.trans hprepares'
  | unprepared hprepares hprepare =>
      cases ha' with
      | direct hplain' => cases hplain'.symm.trans hprepares
      | unprepared _ hprepare' =>
          rw [hprepare, hprepare'] at hprep
          cases hprep with
          | error e ht => exact ⟨rfl, ht, rfl⟩
      | prepared _ hprepare' =>
          rw [hprepare, hprepare'] at hprep
          cases hprep
  | prepared hprepares hprepare hrun =>
      cases ha' with
      | direct hplain' => cases hplain'.symm.trans hprepares
      | unprepared _ hprepare' =>
          rw [hprepare, hprepare'] at hprep
          cases hprep
      | prepared _ hprepare' hrun' =>
          rw [hprepare, hprepare'] at hprep
          cases hprep with
          | ok hq ht =>
              have hagree := h.runPrepared p sent.values hq ht
              rw [hrun, hrun'] at hagree
              cases hagree with
              | error e hu => exact ⟨rfl, hu, rfl⟩
              | ok hx hu => exact ⟨congrArg Except.ok hx, hu, rfl⟩

/-- **A task in states that are alike** comes to the same and makes the same calls. -/
theorem runs_alike {task : Task β} {s s' t t' : σ} {r r' : Except Fault β} {ks ks' : List Contact}
    (hs : h.alike s s') (hruns : task.Runs c s r t ks) (hruns' : task.Runs c s' r' t' ks') :
    r = r' ∧ h.alike t t' ∧ ks = ks' := by
  cases hruns with
  | answered => cases hruns'; exact ⟨rfl, hs, rfl⟩
  | failed ha =>
      cases hruns' with
      | failed ha' =>
          obtain ⟨he, ht, hks⟩ := h.attempts_alike hs ha ha'
          exact ⟨congrArg Except.error (Except.error.inj he), ht, hks⟩
      | returned ha' => cases (h.attempts_alike hs ha ha').1
  | returned ha =>
      cases hruns' with
      | failed ha' => cases (h.attempts_alike hs ha ha').1
      | returned ha' =>
          obtain ⟨hx, ht, hks⟩ := h.attempts_alike hs ha ha'
          exact ⟨congrArg _ (Except.ok.inj hx), ht, hks⟩

end SteadyCatalog

end Connection

/-! ### What is remembered is what the catalog says -/

namespace ColumnCache

/-- Everything that is remembered is what the catalog says. -/
def AgreesWith (c : ColumnCache) (names : Text → List Text) : Prop :=
  ∀ table cols, Assoc.get? table c.columns = some cols → cols = names table

theorem agreesWith_empty (capacity : Nat) (names : Text → List Text) :
    (empty capacity).AgreesWith names := by
  intro table cols h
  cases h

/-- Dropping tables changes the columns of none that stays. -/
theorem get?_of_get?_dropOldest {capacity : Nat} {table : Text} {cols : List Text}
    {order : List Text} : ∀ {columns : List (Text × List Text)},
    Assoc.get? table (dropOldest capacity columns order).1 = some cols →
      Assoc.get? table columns = some cols := by
  induction order with
  | nil => exact fun h => h
  | cons t order ih =>
      intro columns h
      rw [dropOldest] at h
      split at h
      · have hkept := ih h
        rw [Assoc.get?_erase] at hkept
        split at hkept
        · cases hkept
        · exact hkept
      · exact h

theorem get?_of_get?_evict {capacity : Nat} {table : Text} {cols : List Text}
    {columns : List (Text × List Text)} {order : List Text}
    (h : Assoc.get? table (evict capacity columns order).1 = some cols) :
    Assoc.get? table columns = some cols := by
  unfold evict at h
  split at h
  · cases h
  · exact get?_of_get?_dropOldest h

namespace AgreesWith

variable {c : ColumnCache} {names : Text → List Text}

theorem get? (h : c.AgreesWith names) (table : Text) : (c.get? table).2.AgreesWith names := by
  intro t cols ht
  rw [get?_columns] at ht
  exact h t cols ht

/-- Storing what the catalog says keeps the agreement, whatever goes for it. -/
theorem insert (h : c.AgreesWith names) (table : Text) :
    (c.insert table (names table)).AgreesWith names := by
  intro t cols ht
  have hkept := get?_of_get?_evict ht
  rw [Assoc.get?_upsert] at hkept
  split at hkept
  · next htable =>
      rw [← htable]
      exact (Option.some.inj hkept).symm
  · exact h t cols hkept

end AgreesWith

end ColumnCache

/-! ### One operation -/

/-- The calls by which an operation looks up the columns of its table: none if it has no table or the
columns are remembered. -/
def Operation.lookups (c : Connection σ) (cache : ColumnCache) (op : Operation ρ) : List Contact :=
  match op.table? with
  | none => []
  | some table =>
      if (Assoc.get? table cache.columns).isSome then []
      else c.calls .rows (Connection.lookupOf table)

theorem Operation.lookups_of_remembered {c : Connection σ} {cache : ColumnCache} {op : Operation ρ}
    {table : Text} {cols : List Text} (htable : op.table? = some table)
    (hcols : Assoc.get? table cache.columns = some cols) : op.lookups c cache = [] := by
  simp only [lookups, htable, hcols, Option.isSome_some, if_true]

/-- The columns that an operation goes by. -/
def Operation.known (names : Text → List Text) (op : Operation ρ) : List Text :=
  (op.table?.map names).getD []

/-- **A lookup finds what the catalog says**, whether it is spared or not. -/
theorem Database.Finds.steady {db : Database σ} (h : db.connection.SteadyCatalog) {table : Text}
    {cache cache' : ColumnCache} {s t : σ} {r : Except Fault (List Text)} {ks : List Contact}
    (hagrees : cache.AgreesWith h.names) (hfinds : db.Finds table cache s r cache' t ks) :
    r = .ok (h.names table) ∧ cache'.AgreesWith h.names ∧ h.alike t s ∧
      ks = if (Assoc.get? table cache.columns).isSome then []
        else db.connection.calls .rows (Connection.lookupOf table) := by
  cases hfinds with
  | remembered hold =>
      refine ⟨?_, hagrees.get? table, h.equivalence.refl s, by rw [hold]; rfl⟩
      rw [hagrees table _ hold]
  | failed hnew hruns => cases (h.lookup_runs hruns).1
  | learned hnew hruns =>
      obtain ⟨hr, ht, hks⟩ := h.lookup_runs hruns
      obtain rfl := Except.ok.inj hr
      refine ⟨rfl, hagrees.insert table, ht, ?_⟩
      rw [hnew]
      exact hks

/-- **An operation is its lookup, if it makes one, and then a task that depends on the catalog
alone.** -/
theorem Operation.Course.steady {db : Database σ} (h : db.connection.SteadyCatalog)
    {op : Operation ρ} {cache cache' : ColumnCache} {s u : σ} {r : Except Fault (Answer ρ)}
    {ks : List Contact} (hagrees : cache.AgreesWith h.names)
    (hcourse : op.Course db cache s r cache' u ks) :
    cache'.AgreesWith h.names ∧ ∃ t rest, h.alike t s ∧
      (op.task db.settings.dialect db.connection.decoder (op.known h.names)).Runs db.connection
        t r u rest ∧
      ks = op.lookups db.connection cache ++ rest := by
  rw [known, lookups]
  cases hcourse with
  | bare hbare htask =>
      rw [hbare]
      exact ⟨hagrees, s, ks, h.equivalence.refl s, htask, rfl⟩
  | stopped htable hfinds => cases (hfinds.steady h hagrees).1
  | went htable hfinds htask =>
      obtain ⟨hr, hcache, ht, hks⟩ := hfinds.steady h hagrees
      obtain rfl := Except.ok.inj hr
      rw [htable, hks]
      exact ⟨hcache, _, _, ht, htask, rfl⟩

/-! ### Runs -/

/-- One operation of a run. -/
structure Turn (ρ : Type) where
  /-- The operation. -/
  operation : Operation ρ
  /-- What is remembered before it. -/
  cache : ColumnCache
  /-- Its answer. -/
  answer : Except Fault (Answer ρ)
  /-- The calls that reach the connection. -/
  contacts : List Contact

/-- An operation in a session, as a turn of a run. -/
def Operation.turn (db : Database σ) (op : Operation ρ) (s : Session σ) : Turn ρ :=
  ⟨op, s.cache, (op.run db s).1, op.contacts db s⟩

/-- A run of operations, one after the other, whether they fail or not. -/
def Database.turns (db : Database σ) : Session σ → List (Operation ρ) → List (Turn ρ)
  | _, [] => []
  | s, op :: ops => op.turn db s :: db.turns (op.run db s).2 ops

/-- The calls of a turn: the lookup that its cache does not spare it, and then `rest`, which are the
calls of its task for the columns that the catalog names. -/
structure Turn.Makes (c : Connection σ) (d : Dialect) (names : Text → List Text) (x : Turn ρ)
    (rest : List Contact) : Prop where
  /-- The task comes to the answer of the turn, and its calls are `rest`. -/
  task : ∃ t u, (x.operation.task d c.decoder (x.operation.known names)).Runs c t x.answer u rest
  /-- The lookup is made before the task. -/
  contacts : x.contacts = x.operation.lookups c x.cache ++ rest
  /-- If the columns of the table are remembered, there are no calls but those of the task. -/
  spared : ∀ table cols, x.operation.table? = some table →
    Assoc.get? table x.cache.columns = some cols → x.contacts = rest

/-- Two turns that differ in their lookups only: the operation and the answer are the same, and each
makes the lookup that its cache does not spare it and then the same calls of the same task. -/
structure Turn.Matches (c : Connection σ) (d : Dialect) (names : Text → List Text)
    (x y : Turn ρ) : Prop where
  operation : x.operation = y.operation
  answer : x.answer = y.answer
  contacts : ∃ rest, x.Makes c d names rest ∧ y.Makes c d names rest

/-- The calls of a turn are known from its lookup and the course of its task. -/
theorem Turn.Makes.of_runs {c : Connection σ} {d : Dialect} {names : Text → List Text} {x : Turn ρ}
    {rest : List Contact} {t u : σ}
    (hruns : (x.operation.task d c.decoder (x.operation.known names)).Runs c t x.answer u rest)
    (hcontacts : x.contacts = x.operation.lookups c x.cache ++ rest) : x.Makes c d names rest where
  task := ⟨t, u, hruns⟩
  contacts := hcontacts
  spared table cols htable hcols := by
    rw [hcontacts, Operation.lookups_of_remembered htable hcols, List.nil_append]

namespace Database

/-- **One operation in two sessions** that agree with the catalog and whose connections are alike. -/
theorem run_steady {c : Connection σ} (h : c.SteadyCatalog) {settings settings' : Settings}
    (hdialect : settings.dialect = settings'.dialect) (op : Operation ρ) {s s' : Session σ}
    (hs : h.alike s.link.state s'.link.state) (hcache : s.cache.AgreesWith h.names)
    (hcache' : s'.cache.AgreesWith h.names) :
    let db : Database σ := ⟨c, settings⟩
    let db' : Database σ := ⟨c, settings'⟩
    Turn.Matches c settings.dialect h.names (op.turn db s) (op.turn db' s') ∧
      h.alike (op.run db s).2.link.state (op.run db' s').2.link.state ∧
      (op.run db s).2.cache.AgreesWith h.names ∧ (op.run db' s').2.cache.AgreesWith h.names := by
  intro db db'
  obtain ⟨hafter, t, rest, ht, hruns, hks⟩ := (op.course db s).steady h hcache
  obtain ⟨hafter', t', rest', ht', hruns', hks'⟩ := (op.course db' s').steady h hcache'
  have hdialect' : db'.settings.dialect = settings.dialect := hdialect.symm
  rw [hdialect'] at hruns'
  -- both tasks start where only lookups have been made
  have halike : h.alike t t' :=
    h.equivalence.trans ht (h.equivalence.trans hs (h.equivalence.symm ht'))
  obtain ⟨hr, hu, rfl⟩ := h.runs_alike halike hruns hruns'
  have hmakes : (op.turn db s).Makes c settings.dialect h.names rest := .of_runs hruns hks
  have hmakes' : (op.turn db' s').Makes c settings.dialect h.names rest := .of_runs hruns' hks'
  exact ⟨⟨rfl, hr, rest, hmakes, hmakes'⟩, hu, hafter, hafter'⟩

/-- Runs from such sessions match turn by turn. -/
theorem turns_match_of_agree {c : Connection σ} (h : c.SteadyCatalog)
    {settings settings' : Settings} (hdialect : settings.dialect = settings'.dialect)
    (ops : List (Operation ρ)) : ∀ {s s' : Session σ}, h.alike s.link.state s'.link.state →
      s.cache.AgreesWith h.names → s'.cache.AgreesWith h.names →
      List.Forall₂ (Turn.Matches c settings.dialect h.names) (turns ⟨c, settings⟩ s ops)
        (turns ⟨c, settings'⟩ s' ops) := by
  -- the caches need not hold the same tables: each agrees with the catalog
  induction ops with
  | nil => exact fun _ _ _ => .nil
  | cons op ops ih =>
      intro s s' hs hcache hcache'
      obtain ⟨hmatches, hafter, hcaches, hcaches'⟩ := run_steady h hdialect op hs hcache hcache'
      exact .cons hmatches (ih hafter hcaches hcaches')

/-- **Two capacities cannot be told apart.**  If the catalog of a connection says the same of a table
at all times and its lookups do not show, then two sessions that remember up to `m` and up to `n`
tables answer the operations of a run alike and send the same statements; they differ in their lookups
only, and neither looks up a table whose columns it remembers.  The statements of an operation, apart
from the lookup, are those of its task. -/
theorem turns_match {c : Connection σ} (h : c.SteadyCatalog) (settings : Settings) (m n : Nat)
    (s : σ) (ops : List (Operation ρ)) :
    let small : Settings := { settings with columnCapacity := m }
    let large : Settings := { settings with columnCapacity := n }
    List.Forall₂ (Turn.Matches c settings.dialect h.names)
      (turns ⟨c, small⟩ (.start small s) ops) (turns ⟨c, large⟩ (.start large s) ops) := by
  intro small large
  have hsmall : (Session.start small s).cache.AgreesWith h.names :=
    ColumnCache.agreesWith_empty m h.names
  have hlarge : (Session.start large s).cache.AgreesWith h.names :=
    ColumnCache.agreesWith_empty n h.names
  have hdialect : small.dialect = large.dialect := rfl
  exact turns_match_of_agree h hdialect ops (h.equivalence.refl s) hsmall hlarge

end Database

/-! ### A server that counts -/

/-- What a server has counted. -/
structure Tally where
  /-- The statements that it has prepared. -/
  prepared : Nat
  /-- The statements that it has run for their effect. -/
  written : Nat
deriving DecidableEq

/-- A server that numbers the statements it prepares, counts the writes and says of every table that
it has one column. -/
def countingServer : Connection Tally where
  Prepared := Nat
  supportsPrepared := true
  query _ _ := pure emailRows
  execute _ _ s := (.ok s.written, { s with written := s.written + 1 })
  prepare _ s := (.ok s.prepared, { s with prepared := s.prepared + 1 })
  queryPrepared _ _ := pure emailRows
  executePrepared _ _ s := (.ok s.written, { s with written := s.written + 1 })

/-- Its lookups change the numbers of prepared statements only, and nothing depends on those. -/
def countingServer.steadyCatalog : countingServer.SteadyCatalog where
  alike s t := s.written = t.written
  same _ _ := True
  rows _ := emailRows
  names _ := ["email".toList]
  equivalence := ⟨fun _ => rfl, Eq.symm, Eq.trans⟩
  columnNames_rows _ := rfl
  lookup _ s := ⟨{ s with prepared := s.prepared + 1 }, rfl, rfl⟩
  run p _ _ s t h := by
    cases p with
    | rows => exact .ok rfl h
    | effect => exact .ok h (congrArg (· + 1) h)
  prepare _ _ _ h := .ok trivial h
  runPrepared p _ _ _ s t _ h := by
    cases p with
    | rows => exact .ok rfl h
    | effect => exact .ok h (congrArg (· + 1) h)

/-- **Two writes to a table** on a server that counts them: a session that remembers nothing looks the
table up twice, a session that remembers a table looks it up once. -/
theorem counted_writes_match :
    let row : List (Clause Scalar) := [.column "email".toList (.scalar none)]
    let ops : List (Operation Unit) := [.insert "users".toList row, .insert "users".toList row]
    let none : Settings := { columnCapacity := 0 }
    let one : Settings := { columnCapacity := 1 }
    let turns := Database.turns ⟨countingServer, none⟩ (.start none ⟨0, 0⟩) ops
    let turns' := Database.turns ⟨countingServer, one⟩ (.start one ⟨0, 0⟩) ops
    List.Forall₂ (Turn.Matches countingServer none.dialect fun _ => ["email".toList])
        turns turns' ∧
      turns.map (fun t => t.contacts.length) = [4, 4] ∧
      turns'.map (fun t => t.contacts.length) = [4, 2] := by
  intro row ops none one turns turns'
  refine ⟨Database.turns_match countingServer.steadyCatalog {} 0 1 ⟨0, 0⟩ ops, ?_, ?_⟩
  · decide +kernel
  · decide +kernel

end BoundQuery

/-
**What a filtered payload can write.**

A payload is a list of keys and values from outside.  Before a row is written, the payload is
filtered by the columns that the table has.  The filter looks at columns only, and not every key
becomes one: a key with a `?` outside quoted spans becomes SQL of its own, and passes.  An `INSERT`
takes nothing but columns and refuses such a payload, so its list of columns is closed whatever the
keys are.  An `UPDATE` writes the key into its SET list as it stands.  So its SET list is closed
exactly for payloads without such keys.

Main definitions:

* `Clauses.ofPairs` — the clauses of a payload;
* `Clause.IsKnownColumn` — a clause that names one of the columns of a table;
* `Command.insertStart` — an `INSERT` up to and including its list of columns;
* `Database.InsertsOnly`, `Database.UpdatesOnly` — a payload is refused or writes columns of a list.

Main results:

* `keepKnown_ofPairs`, `isKnownColumn_kept_iff` — **what passes the filter**;
* `Command.exists_sent_insert`, `Command.exists_sent_update` — the columns in the text that is sent;
* `Database.filtered_payload_iff` — **when a filtered payload writes columns of the table only**;
* `Database.payload_writes_unknown_column` — a payload that writes another.
-/

import BoundQuery.Connection.Transcript
import BoundQuery.Proofs.Assignments
import BoundQuery.Proofs.InsertedRow
import BoundQuery.Session

set_option relaxedAutoImplicit false
set_option autoImplicit false

namespace BoundQuery

open Token

variable {α : Type}

/-! ### Payloads -/

/-- The clauses of a payload. -/
def Clauses.ofPairs (pairs : List (Text × Value α)) : List (Clause α) :=
  pairs.map fun x => .of x.1 x.2

/-- A clause that names one of the columns `known`. -/
def Clause.IsKnownColumn (known : List Text) : Clause α → Prop
  | column n _ => n ∈ known
  | _ => False

/-- A key names a known column exactly if it is one and has no `?`. -/
theorem Clause.isKnownColumn_of_iff {known : List Text} {key : Text} {v : Value α} :
    (Clause.of key v).IsKnownColumn known ↔ countPositional key = 0 ∧ key ∈ known := by
  rw [Clause.of]
  split
  · next h => exact iff_of_false id fun hn => Nat.ne_of_gt h hn.1
  · next h => exact ⟨fun hn => ⟨Nat.eq_zero_of_not_pos h, hn⟩, And.right⟩

/-- The filter drops a key exactly if it has no `?` and is no known column. -/
theorem Clause.isNone_unknownColumn?_of (known : List Text) (key : Text) (v : Value α) :
    ((Clause.of key v).unknownColumn? known).isNone =
      (decide (0 < countPositional key) || known.contains key) := by
  rw [Clause.of]
  split
  · next h => simp [unknownColumn?, h]
  · next h =>
      rw [unknownColumn?]
      split
      · next hc => rw [hc, Bool.or_true]; rfl
      · next hc => rw [Bool.not_eq_true] at hc; rw [hc, decide_eq_false h]; rfl

/-- **What passes the filter**: the keys that have a `?` or are known columns. -/
theorem keepKnown_ofPairs {known : List Text} (hknown : known ≠ [])
    (pairs : List (Text × Value α)) :
    keepKnown known (Clauses.ofPairs pairs) =
      Clauses.ofPairs (pairs.filter fun x =>
        decide (0 < countPositional x.1) || known.contains x.1) := by
  have hne : known.isEmpty = false := by simpa using hknown
  rw [keepKnown, hne, Clauses.ofPairs, Clauses.ofPairs, List.filter_map]
  refine congrArg (List.map _) (List.filter_congr fun x _ => ?_)
  exact Clause.isNone_unknownColumn?_of known x.1 x.2

/-- **Only known columns pass the filter exactly if no key has a `?`.** -/
theorem isKnownColumn_kept_iff {known : List Text} (hknown : known ≠ [])
    (pairs : List (Text × Value α)) :
    (∀ c ∈ keepKnown known (Clauses.ofPairs pairs), c.IsKnownColumn known) ↔
      ∀ x ∈ pairs, countPositional x.1 = 0 := by
  rw [keepKnown_ofPairs hknown, Clauses.ofPairs]
  constructor
  · intro h x hx
    refine Nat.eq_zero_of_not_pos fun hpos => ?_
    have hmem : x ∈ pairs.filter fun x =>
        decide (0 < countPositional x.1) || known.contains x.1 :=
      List.mem_filter.2 ⟨hx, by simp [hpos]⟩
    exact Nat.ne_of_gt hpos (Clause.isKnownColumn_of_iff.1 (h _ (List.mem_map_of_mem hmem))).1
  · intro h c hc
    obtain ⟨x, hx, rfl⟩ := List.mem_map.1 hc
    obtain ⟨hmem, hkeep⟩ := List.mem_filter.1 hx
    have hzero := h x hmem
    exact Clause.isKnownColumn_of_iff.2 ⟨hzero, by simpa [hzero] using hkeep⟩

/-- Clauses that name known columns are a row of them. -/
theorem exists_row_of_isKnownColumn {known : List Text} {cs : List (Clause α)}
    (h : ∀ c ∈ cs, c.IsKnownColumn known) :
    ∃ row, cs = Command.rowClauses row ∧ ∀ x ∈ row, x.1 ∈ known := by
  induction cs with
  | nil => exact ⟨[], rfl, fun x hx => absurd hx List.not_mem_nil⟩
  | cons c cs ih =>
      obtain ⟨hc, hcs⟩ := List.forall_mem_cons.1 h
      obtain ⟨row, rfl, hrow⟩ := ih hcs
      cases c with
      | raw sql => exact hc.elim
      | bound sql v => exact hc.elim
      | column n v => exact ⟨(n, v) :: row, rfl, List.forall_mem_cons.2 ⟨hc, hrow⟩⟩

/-! ### The text that is sent -/

namespace Command

/-- Behind text that is inert, what is sent begins with that text. -/
theorem exists_sent_of_isInert {start : Text} (h : start.IsInert) (rest : Text) (b : Bindings α) :
    ∃ sent, (Statement.ofFragment ⟨start ++ rest, b⟩).sent.sql = start ++ sent := by
  rw [sql_sent_ofFragment, h.flatMap_append fun _ => rfl]
  exact ⟨_, rfl⟩

/-- An `INSERT` up to and including its list of columns. -/
def insertStart (d : Dialect) (table : Text) (columns : List Text) : Text :=
  if columns = [] then "INSERT INTO ".toList ++ d.quote.quotePath table ++ " DEFAULT VALUES".toList
  else insertHead d table columns

/-- **An `INSERT` that is not refused is sent with the columns of its clauses.** -/
theorem exists_sent_insert {d : Dialect} {table : Text} {data : List (Clause α)} {f : Fragment α}
    (h : insert d table data = .ok f) :
    ∃ row rest, data = rowClauses row ∧
      (Statement.ofFragment f).sent.sql = insertStart d table (row.map Prod.fst) ++ rest := by
  cases data with
  | nil =>
      cases h
      have hdefault : Text.IsInert " DEFAULT VALUES".toList :=
        Text.IsPlainJoiner.isInert (by decide) (by decide)
      have hstart := (isInert_insertInto d table).append hdefault
      obtain ⟨rest, hrest⟩ := exists_sent_of_isInert hstart [] (.empty : Bindings α)
      rw [List.append_nil] at hrest
      exact ⟨[], rest, rfl, hrest⟩
  | cons c cs =>
      obtain ⟨row, hrow⟩ : ∃ row, insertColumns (c :: cs) = .ok row := by
        cases hcolumns : insertColumns (c :: cs) with
        | ok row => exact ⟨row, rfl⟩
        | error e => simp [insert, hcolumns] at h
      obtain ⟨hdata, hscalar⟩ := insertColumns_eq_ok_iff.1 hrow
      have hne : row ≠ [] := by
        rintro rfl
        cases hdata
      rw [hdata, insert_rowClauses d table hne hscalar] at h
      cases h
      obtain ⟨rest, hrest⟩ := exists_sent_of_isInert
        (isInert_insertHead d table (row.map Prod.fst))
        (Text.join ", ".toList ((insertNames row).map (':' :: ·)) ++ ")".toList) (insertParams row)
      have hcolumns : row.map Prod.fst ≠ [] := by simpa using hne
      refine ⟨row, rest, hdata, ?_⟩
      rw [insertStart, if_neg hcolumns]
      exact hrest

/-- The part of a column that is a word: its quoted name, and what is written for its marker. -/
theorem flatMap_write_column {w : Token → Text} (hw : ∀ s, w (.text s) = s) (d : Dialect)
    {n : Text} (hn : ∀ c ∈ n, isWordChar c = true) {v : Value α} (hv : v.isList = false) :
    (tokenize ((Clause.column n v).write d setStem)).flatMap w =
      d.quote.quote n ++ " = ".toList ++ w (.named (setStem ++ n)) := by
  have hname : (setStem ++ n).isName = true :=
    (Text.isName_iff _).2 ⟨List.append_ne_nil_of_left_ne_nil (by decide) n,
      List.forall_mem_append.2 ⟨isWordChar_setStem, hn⟩⟩
  have hequals : Text.IsInert " = ".toList := Text.IsPlainJoiner.isInert (by decide) (by decide)
  have hmarker : tokenize (':' :: (setStem ++ n)) = [.named (setStem ++ n)] := by
    have hscan := scan_marker (m := .plain) (t := []) rfl rfl hname rfl
    rwa [List.append_nil] at hscan
  have hwrite : (Clause.column n v).write d setStem =
      (d.quote.quote n ++ " = ".toList) ++ (':' :: (setStem ++ n)) := by
    have hcolon : " = :".toList = " = ".toList ++ [':'] := by decide
    rw [Clause.write, hv, hcolon]
    simp
  rw [hwrite, ((d.quote.isInert_quote n).append hequals).flatMap_append hw, hmarker,
    List.flatMap_singleton]

section

variable {d : Dialect} {row : List (Text × Value α)}

theorem isClosed_rowClauses (hword : ∀ x ∈ row, ∀ c ∈ x.1, isWordChar c = true) :
    ∀ c ∈ rowClauses row, c.IsClosed := by
  intro c hc
  obtain ⟨x, hx, rfl⟩ := List.mem_map.1 hc
  exact hword x hx

/-- The SET list of columns that are words has nothing to be named. -/
theorem sql_compile_rowClauses (d : Dialect)
    (hword : ∀ x ∈ row, ∀ c ∈ x.1, isWordChar c = true) :
    (Clauses.compile d setStem ", ".toList (rowClauses row) .empty).sql =
      Text.join ", ".toList ((rowClauses row).map (Clause.write d setStem)) := by
  have hown : Clauses.ownSlots (rowClauses row) = [] := by
    refine List.flatMap_eq_nil_iff.2 fun c hc => ?_
    obtain ⟨x, -, rfl⟩ := List.mem_map.1 hc
    rfl
  have hnone := Clauses.countPositional_text d isWordChar_setStem
    (show Text.IsPlainJoiner ", ".toList by decide) (isClosed_rowClauses hword)
  rw [hown] at hnone
  exact (nameMarkers_of_none _ 0 hnone).trans (write_tokenize _)

/-- What is written for the tokens of the SET list of columns that are words. -/
theorem flatMap_compile_rowClauses {w : Token → Text} (hw : ∀ s, w (.text s) = s) (d : Dialect)
    (hword : ∀ x ∈ row, ∀ c ∈ x.1, isWordChar c = true)
    (hscalar : ∀ x ∈ row, x.2.isList = false) :
    (tokenize (Clauses.compile d setStem ", ".toList (rowClauses row) .empty).sql).flatMap w =
      Text.join ", ".toList (row.map fun x =>
        d.quote.quote x.1 ++ " = ".toList ++ w (.named (setStem ++ x.1))) := by
  rw [sql_compile_rowClauses d hword, isSeparator_comma.flatMap_join
    (Clauses.isClosed_parts d isWordChar_setStem (isClosed_rowClauses hword)) hw, rowClauses,
    List.map_map, List.map_map]
  refine congrArg (Text.join _) (List.map_congr_left fun x hx => ?_)
  exact flatMap_write_column hw d (hword x hx) (hscalar x hx)

end

/-- **An `UPDATE` of columns that are words is sent with these columns in its SET list.** -/
theorem exists_sent_update {d : Dialect} {table : Text} {row : List (Text × Value α)}
    {cond : Condition α} {b : Bindings α} {f : Fragment α}
    (h : update d table (rowClauses row) cond b = .ok f)
    (hword : ∀ x ∈ row, ∀ c ∈ x.1, isWordChar c = true) :
    ∃ rest, (Statement.ofFragment f).sent.sql =
      "UPDATE ".toList ++ d.quote.quotePath table ++ " SET ".toList ++
        (Text.join ", ".toList (row.map fun x => d.quote.quote x.1 ++ " = ".toList ++
          f.params.writePlaces (f.params.places f.sql) (.named (setStem ++ x.1))) ++
        (" WHERE ".toList ++ rest)) := by
  obtain ⟨hlist, hf⟩ := update_eq_ok h
  have hscalar : ∀ x ∈ row, x.2.isList = false := fun x hx =>
    isList_of_listColumn? hlist (List.mem_map_of_mem hx)
  have hstart := isInert_updateHead d table
  have hassigned :
      (Clauses.compile d setStem ", ".toList (rowClauses row) .empty).sql.IsClosed := by
    rw [sql_compile_rowClauses d hword]
    exact Text.isClosed_join (by decide)
      (Clauses.isClosed_parts d isWordChar_setStem (isClosed_rowClauses hword))
  have hw : ∀ s, f.params.writePlaces (f.params.places f.sql) (.text s) = s := fun _ => rfl
  have hwhere : Text.IsSeparator " WHERE ".toList :=
    Text.IsPlainJoiner.isSeparator (by decide) (by decide) rfl
  have hsql : f.sql = "UPDATE ".toList ++ d.quote.quotePath table ++ " SET ".toList ++
      ((Clauses.compile d setStem ", ".toList (rowClauses row) .empty).sql ++
        (" WHERE ".toList ++ (cond.compile d b).sql)) :=
    (congrArg Fragment.sql hf).trans (by simp only [List.append_assoc])
  have hsent := sql_sent_ofFragment f.sql f.params
  refine ⟨(tokenize (cond.compile d b).sql).flatMap
    (f.params.writePlaces (f.params.places f.sql)), hsent.trans ?_⟩
  generalize f.params.writePlaces (f.params.places f.sql) = w at hw ⊢
  rw [hsql, hstart.flatMap_append hw, hwhere.flatMap_closed_append hassigned hw,
    flatMap_compile_rowClauses hw d hword hscalar]

end Command

/-! ### Payloads in a session -/

/-- The session in which the columns that a table lacks have been logged. -/
def Session.logDropped {σ : Type} (s : Session σ) (table : Text) (known : List Text)
    (data : List (Clause Scalar)) : Session σ :=
  { s with link := s.link.record ((unknownColumns known data).map (Event.columnDropped table)) }

namespace Database

variable {σ : Type} {db : Database σ} {table : Text} {known : List Text} {s s' : Session σ}

theorem filterColumns_of_columns (h : db.columns table s = (.ok known, s'))
    (data : List (Clause Scalar)) : db.filterColumns table data s =
      (.ok (keepKnown known data), s'.logDropped table known data) := by
  rw [filterColumns, Action.bind_apply, h]
  rfl

/-- An insert runs the row that passes the filter, unless it is refused. -/
theorem insert_of_columns (h : db.columns table s = (.ok known, s'))
    (data : List (Clause Scalar)) : db.insert table data s =
      match Command.insert db.settings.dialect table (keepKnown known data) with
      | .error e => (.error (.ofPayload e), s'.logDropped table known data)
      | .ok f => db.executeFragment f (s'.logDropped table known data) := by
  rw [insert, Action.bind_apply, filterColumns_of_columns h]
  dsimp only
  rw [Action.bind_apply, compiled, Action.ofExcept_apply]
  cases Command.insert db.settings.dialect table (keepKnown known data) <;> rfl

/-- An update runs the SET list that passes the filter, unless it is refused. -/
theorem update_of_columns (h : db.columns table s = (.ok known, s'))
    (data : List (Clause Scalar)) (cond : Condition Scalar) (b : Bindings Scalar) :
    db.update table data cond b s =
      match Command.update db.settings.dialect table (keepKnown known data) cond b with
      | .error e => (.error (.ofPayload e), s'.logDropped table known data)
      | .ok f => (do db.reportCondition cond b; db.executeFragment f)
          (s'.logDropped table known data) := by
  rw [update, Action.bind_apply, filterColumns_of_columns h]
  dsimp only
  rw [Action.bind_apply, compiled, Action.ofExcept_apply]
  cases Command.update db.settings.dialect table (keepKnown known data) cond b <;> rfl

/-- From session `s` on, an insert is refused in `t` with nothing sent, or runs from `t` on a
statement whose list of columns holds known columns only. -/
def InsertsOnly (db : Database σ) (table : Text) (known : List Text) (data : List (Clause Scalar))
    (s t : Session σ) : Prop :=
  (∃ e, db.insert table data s = (.error e, t)) ∨
    ∃ (columns : List Text) (f : Fragment Scalar) (rest : Text), (∀ n ∈ columns, n ∈ known) ∧
      db.insert table data s = db.executeFragment f t ∧
      (Statement.ofFragment f).sent.sql =
        Command.insertStart db.settings.dialect table columns ++ rest

/-- From session `s` on, an update is refused in `t` with nothing sent, or runs from `t` on a
statement whose SET list sets known columns only, each to what is written for its marker. -/
def UpdatesOnly (db : Database σ) (table : Text) (known : List Text) (data : List (Clause Scalar))
    (s t : Session σ) : Prop :=
  ∀ cond b, (∃ e, db.update table data cond b s = (.error e, t)) ∨
    ∃ (columns : List Text) (f : Fragment Scalar) (rest : Text), (∀ n ∈ columns, n ∈ known) ∧
      db.update table data cond b s = (do db.reportCondition cond b; db.executeFragment f) t ∧
      (Statement.ofFragment f).sent.sql =
        "UPDATE ".toList ++ db.settings.dialect.quote.quotePath table ++ " SET ".toList ++
          (Text.join ", ".toList (columns.map fun n =>
            db.settings.dialect.quote.quote n ++ " = ".toList ++
              f.params.writePlaces (f.params.places f.sql) (.named (Command.setStem ++ n))) ++
          (" WHERE ".toList ++ rest))

/-- An insert writes known columns only, whatever the payload. -/
theorem insertsOnly_of_columns (h : db.columns table s = (.ok known, s')) (hknown : known ≠ [])
    (data : List (Clause Scalar)) :
    db.InsertsOnly table known data s (s'.logDropped table known data) := by
  have hinsert := insert_of_columns h data
  cases hok : Command.insert db.settings.dialect table (keepKnown known data) with
  | error e =>
      rw [hok] at hinsert
      exact .inl ⟨_, hinsert⟩
  | ok f =>
      rw [hok] at hinsert
      obtain ⟨row, rest, hrow, hsent⟩ := Command.exists_sent_insert hok
      refine .inr ⟨row.map Prod.fst, f, rest, fun n hn => ?_, hinsert, hsent⟩
      obtain ⟨x, hx, rfl⟩ := List.mem_map.1 hn
      have hmem : Clause.column x.1 x.2 ∈ keepKnown known data := by
        rw [hrow]
        exact List.mem_map_of_mem hx
      exact name_mem_of_mem_keepKnown hknown hmem

/-- An update writes known columns only, if only these pass the filter and they are words. -/
theorem updatesOnly_of_columns (h : db.columns table s = (.ok known, s'))
    {data : List (Clause Scalar)} (hdata : ∀ c ∈ keepKnown known data, c.IsKnownColumn known)
    (hword : ∀ n ∈ known, ∀ c ∈ n, isWordChar c = true) :
    db.UpdatesOnly table known data s (s'.logDropped table known data) := by
  intro cond b
  obtain ⟨row, hrow, hmem⟩ := exists_row_of_isKnownColumn hdata
  have hupdate := update_of_columns h data cond b
  cases hok : Command.update db.settings.dialect table (keepKnown known data) cond b with
  | error e =>
      rw [hok] at hupdate
      exact .inl ⟨_, hupdate⟩
  | ok f =>
      rw [hok] at hupdate
      rw [hrow] at hok
      obtain ⟨rest, hsent⟩ := Command.exists_sent_update hok fun x hx => hword _ (hmem x hx)
      refine .inr ⟨row.map Prod.fst, f, rest, fun n hn => ?_, hupdate, ?_⟩
      · obtain ⟨x, hx, rfl⟩ := List.mem_map.1 hn
        exact hmem x hx
      · rw [hsent, List.map_map]
        rfl

/-- **When a filtered payload writes columns of the table only.**  If a table has columns, what
passes the filter is one of them exactly if no key of the payload has a `?`.  An insert writes
columns of the table only, or is refused, whatever the payload; an update does if no key has a `?`
and the columns of the table are words.  Filtering itself sends nothing. -/
theorem filtered_payload_iff (h : db.columns table s = (.ok known, s')) (hknown : known ≠ [])
    (pairs : List (Text × Value Scalar)) :
    ∃ kept t, db.filterColumns table (Clauses.ofPairs pairs) s = (.ok kept, t) ∧
      t.link.state = s'.link.state ∧
      ((∀ c ∈ kept, c.IsKnownColumn known) ↔ ∀ x ∈ pairs, countPositional x.1 = 0) ∧
      db.InsertsOnly table known (Clauses.ofPairs pairs) s t ∧
      ((∀ x ∈ pairs, countPositional x.1 = 0) → (∀ n ∈ known, ∀ c ∈ n, isWordChar c = true) →
        db.UpdatesOnly table known (Clauses.ofPairs pairs) s t) := by
  have hiff := isKnownColumn_kept_iff hknown pairs
  exact ⟨_, _, filterColumns_of_columns h _, rfl, hiff, insertsOnly_of_columns h hknown _,
    fun hpairs hword => updatesOnly_of_columns h (hiff.2 hpairs) hword⟩

/-- A session on a connection that only records, which remembers the columns of one table. -/
def recorded (table : Text) (known : List Text) : Session Transcript :=
  let s := Session.start {} ⟨[], []⟩
  { s with cache := s.cache.insert table known }

/-- A payload with a column of the table, one that the table lacks, and a key whose `?` is quoted.
-/
theorem payload_of_known_columns :
    let db : Database Transcript := ⟨.recorder none, {}⟩
    let known := ["id".toList, "name".toList]
    let s := recorded "users".toList known
    let pairs : List (Text × Value Scalar) :=
      [("name".toList, .null), ("is_admin".toList, .null), ("\"a?\"".toList, .null)]
    ∃ s' kept t, db.columns "users".toList s = (.ok known, s') ∧ known ≠ [] ∧
      db.filterColumns "users".toList (Clauses.ofPairs pairs) s = (.ok kept, t) ∧
      (∀ c ∈ kept, c.IsKnownColumn known) ∧
      db.UpdatesOnly "users".toList known (Clauses.ofPairs pairs) s t := by
  intro db known s pairs
  have hcolumns : db.columns "users".toList s = (.ok known, _) :=
    columns_of_remembered db (by decide)
  have hknown : known ≠ [] := List.cons_ne_nil _ _
  have hword : ∀ n ∈ known, n.all isWordChar = true := by decide
  obtain ⟨kept, t, hkept, -, hiff, -, hupdates⟩ := filtered_payload_iff hcolumns hknown pairs
  exact ⟨_, kept, t, hcolumns, hknown, hkept, hiff.2 (by decide),
    hupdates (by decide) fun n hn => List.all_eq_true.1 (hword n hn)⟩

/-- The text of a call; running a prepared statement has none. -/
def callText : Call → Text
  | .query sql _ => sql
  | .execute sql _ => sql
  | .prepare sql => sql
  | .run _ => []

/-- **A payload that writes a column that the table lacks.**  Its one key is no column of the table
and has a `?`.  It passes the filter; an update is sent with the key in its SET list, and an insert
is refused with nothing sent. -/
theorem payload_writes_unknown_column :
    let db : Database Transcript := ⟨.recorder none, {}⟩
    let known := ["id".toList, "name".toList]
    let s := recorded "users".toList known
    let key := "is_admin = true, name = ?".toList
    let data := Clauses.ofPairs [(key, Value.scalar (some (Scalar.ofText "x".toList)))]
    (∃ s', db.columns "users".toList s = (.ok known, s')) ∧
    (∃ t, db.filterColumns "users".toList data s = (.ok data, t)) ∧
    ¬ (∀ c ∈ data, c.IsKnownColumn known) ∧
    (db.update "users".toList data (.raw "id = 1".toList) .empty s).2.link.state.calls.map
        callText =
      ["UPDATE \"users\" SET is_admin = true, name = $1 WHERE id = 1".toList] ∧
    (db.insert "users".toList data s).2.link.state.calls.map callText = [] := by
  intro db known s key data
  have hcolumns : db.columns "users".toList s = (.ok known, _) :=
    columns_of_remembered db (by decide)
  refine ⟨⟨_, hcolumns⟩, ⟨_, filterColumns_of_columns hcolumns data⟩, fun h => ?_, by decide,
    by decide⟩
  exact h (.bound key _) (List.mem_singleton_self _)

end Database

end BoundQuery

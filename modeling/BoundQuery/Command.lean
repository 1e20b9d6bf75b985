/-
**Statements on one table.**

Main definitions:

* `PayloadFault` — why a list of clauses is no payload of an `INSERT` or `UPDATE`;
* `Command.insert`, `Command.update`, `Command.delete`, `Command.select`, `Command.count` — the
  fragments of the five statements.

An `UPDATE` or `DELETE` with an empty condition is not given a special meaning: its text ends in
` WHERE `, and the server refuses it.

Main results:

* `insert_nil` — an empty payload inserts default values;
* `update_nil` — an update without clauses is refused.
-/

import BoundQuery.Condition

set_option relaxedAutoImplicit false
set_option autoImplicit false

namespace BoundQuery

/-- Why a list of clauses is refused as the payload of a statement. -/
inductive PayloadFault where
  /-- An inserted row has columns with values only. -/
  | rawInInsert
  /-- A column of an inserted row has one value, not a list. -/
  | listInInsert (column : Text)
  /-- An update sets something. -/
  | emptyUpdate
  /-- A column is set to one value, not to a list. -/
  | listInUpdate (column : Text)
deriving DecidableEq, Repr

/-- The wording of a payload fault. -/
def PayloadFault.message : PayloadFault → Text
  | rawInInsert => "insert accepts column/value pairs only".toList
  | listInInsert c =>
      "insert value for column ".toList ++ c ++
        " is a list; bind arrays with Value::scalar".toList
  | emptyUpdate => "update needs at least one column".toList
  | listInUpdate c =>
      "update value for column ".toList ++ c ++
        " is a list; bind arrays with Value::scalar".toList

namespace Command

variable {α : Type}

/-- The stem of the names of inserted values. -/
def insertStem : Text := "insert_".toList

/-- The stem of the names of values that are set. -/
def setStem : Text := "set_".toList

/-! ### Insert -/

/-- The column and value of a clause of an inserted row. -/
def insertColumn : Clause α → Except PayloadFault (Text × Value α)
  | .column c v => if v.isList then .error (.listInInsert c) else .ok (c, v)
  | _ => .error .rawInInsert

/-- The columns and values of an inserted row; the first clause that is refused decides. -/
def insertColumns : List (Clause α) → Except PayloadFault (List (Text × Value α))
  | [] => .ok []
  | c :: cs =>
      match insertColumn c with
      | .error e => .error e
      | .ok x =>
          match insertColumns cs with
          | .error e => .error e
          | .ok xs => .ok (x :: xs)

/-- Insert a row. -/
def insert (d : Dialect) (table : Text) (data : List (Clause α)) :
    Except PayloadFault (Fragment α) :=
  let into := "INSERT INTO ".toList ++ d.quote.quotePath table
  if data.isEmpty then .ok ⟨into ++ " DEFAULT VALUES".toList, .empty⟩
  else
    match insertColumns data with
    | .error e => .error e
    | .ok row =>
        .ok
          ⟨into ++ " (".toList ++ Text.join ", ".toList (row.map fun x => d.quote.quote x.1) ++
              ") VALUES (".toList ++
              Text.join ", ".toList (row.map fun x => ':' :: (insertStem ++ x.1)) ++ ")".toList,
            .ofList (row.map fun x => (.name (insertStem ++ x.1), x.2))⟩

/-- An empty payload inserts default values. -/
theorem insert_nil (d : Dialect) (table : Text) :
    insert d table ([] : List (Clause α)) =
      .ok ⟨"INSERT INTO ".toList ++ d.quote.quotePath table ++ " DEFAULT VALUES".toList,
        .empty⟩ := rfl

/-! ### Update -/

/-- The first column that a clause list would set to a list. -/
def listColumn? : List (Clause α) → Option Text
  | [] => none
  | .column c v :: cs => if v.isList then some c else listColumn? cs
  | _ :: cs => listColumn? cs

/-- Update the rows that meet a condition. -/
def update (d : Dialect) (table : Text) (set : List (Clause α)) (cond : Condition α)
    (b : Bindings α) : Except PayloadFault (Fragment α) :=
  if set.isEmpty then .error .emptyUpdate
  else match listColumn? set with
    | some c => .error (.listInUpdate c)
    | none =>
        let assigned := Clauses.compile d setStem ", ".toList set .empty
        let matched := cond.compile d b
        .ok
          ⟨"UPDATE ".toList ++ d.quote.quotePath table ++ " SET ".toList ++ assigned.sql ++
              " WHERE ".toList ++ matched.sql,
            assigned.params.merge matched.params⟩

/-- An update without clauses is refused. -/
theorem update_nil (d : Dialect) (table : Text) (cond : Condition α) (b : Bindings α) :
    update d table [] cond b = .error .emptyUpdate := rfl

/-! ### Delete and select -/

/-- Delete the rows that meet a condition. -/
def delete (d : Dialect) (table : Text) (cond : Condition α) (b : Bindings α) : Fragment α :=
  let matched := cond.compile d b
  ⟨"DELETE FROM ".toList ++ d.quote.quotePath table ++ " WHERE ".toList ++ matched.sql,
    matched.params⟩

/-- A selected column; a star stands for all columns and is not quoted. -/
def selectColumn (d : Dialect) (column : Text) : Text :=
  if column = ['*'] then ['*'] else d.quote.quote column

/-- The list of selected columns; no columns mean all of them. -/
def selectList (d : Dialect) (columns : List Text) : Text :=
  if columns.isEmpty then ['*'] else Text.join ", ".toList (columns.map (selectColumn d))

/-- A query with a condition, if it is not empty, and a tail of trusted SQL, if there is one. -/
def finish (d : Dialect) (head : Text) (cond : Condition α) (b : Bindings α) (tail : Text) :
    Fragment α :=
  let matched := cond.compile d b
  ⟨head ++ (if matched.sql.isEmpty then [] else " WHERE ".toList ++ matched.sql) ++
      (if tail.isEmpty then [] else ' ' :: tail),
    matched.params⟩

/-- Select columns of the rows that meet a condition. -/
def select (d : Dialect) (table : Text) (columns : List Text) (cond : Condition α)
    (b : Bindings α) (tail : Text) : Fragment α :=
  finish d
    ("SELECT ".toList ++ selectList d columns ++ " FROM ".toList ++ d.quote.quotePath table)
    cond b tail

/-- Count the rows that meet a condition. -/
def count (d : Dialect) (table : Text) (cond : Condition α) (b : Bindings α) : Fragment α :=
  finish d ("SELECT COUNT(*) FROM ".toList ++ d.quote.quotePath table) cond b []

end Command

end BoundQuery

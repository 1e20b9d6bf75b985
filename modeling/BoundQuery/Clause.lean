/-
**Lists of clauses, compiled to one text.**

A condition or a SET list can be given as a list of clauses: a column with its value, SQL as it
stands, or SQL whose first `?` has its own value.  Compiled, the clauses are joined to one text in
which every column has a marker named after it and every `?` a marker with a number.

The `?` markers of all clauses together form one sequence of slots.  The first `?` of a bound clause
takes the clause's value, and every other `?` takes the next positional value of the caller's extra
bindings; positional values that no `?` asks for stay behind the slots, in order.

Main definitions:

* `Dialect` — how identifiers are quoted, and whether dropped lists are reported;
* `Clause`, `Clause.of` — one clause, and the clause of a key and a value;
* `Clauses.slots` — the values of the slots, in order;
* `Clauses.compile` — the text and bindings of a list of clauses.

Main results:

* `slots_nil`, `slots_column`, `slots_raw`, `slots_bound` — what each clause does to the slots.
-/

import BoundQuery.Fragment
import BoundQuery.Identifier

set_option relaxedAutoImplicit false
set_option autoImplicit false

namespace BoundQuery

/-- The choices that compilation leaves to the caller. -/
structure Dialect where
  /-- How column and table names are quoted. -/
  quote : QuoteStyle := .backtick
  /-- Whether list bindings that are dropped are reported. -/
  reportDropped : Bool := false
deriving DecidableEq, Repr, Inhabited

/-- The dialect with double-quoted identifiers. -/
def Dialect.double : Dialect := ⟨.double, false⟩

/-- One element of a condition or of a SET list. -/
inductive Clause (α : Type) where
  /-- SQL as it stands. -/
  | raw (sql : Text)
  /-- A column compared with, or set to, a value. -/
  | column (name : Text) (value : Value α)
  /-- SQL whose first `?` has its own value. -/
  | bound (sql : Text) (value : Value α)
deriving DecidableEq, Repr

namespace Clause

variable {α : Type}

/-- The clause of a key and a value: a key with a `?` is SQL with its own value, any other key is a
column. -/
def of (key : Text) (value : Value α) : Clause α :=
  if countPositional key > 0 then bound key value else column key value

/-- The text a clause adds.  The marker of a column is named `stem` and the column; a list is
compared with `IN`. -/
def write (d : Dialect) (stem : Text) : Clause α → Text
  | raw sql => sql
  | bound sql _ => sql
  | column c v =>
      if v.isList then d.quote.quote c ++ " IN (:".toList ++ stem ++ c ++ ")".toList
      else d.quote.quote c ++ " = :".toList ++ stem ++ c

/-- The binding of a column's marker. -/
def columnEntry? (stem : Text) : Clause α → Option (Key × Value α)
  | column c v => some (Key.ofText (stem ++ c), v)
  | _ => none

/-- The number of slots a clause has: the `?` markers of its text, and none for a column. -/
def slotCount : Clause α → Nat
  | raw sql => countPositional sql
  | bound sql _ => countPositional sql
  | column _ _ => 0

end Clause

/-- The first `n` values as slots; slots that no value is left for are empty. -/
def draw {ν : Type} (n : Nat) (supply : List ν) : List (Option ν) :=
  (supply.take n).map some ++ List.replicate (n - supply.length) none

@[simp] theorem length_draw {ν : Type} (n : Nat) (supply : List ν) : (draw n supply).length = n := by
  simp only [draw, List.length_append, List.length_map, List.length_take, List.length_replicate]
  omega

namespace Clauses

variable {α : Type}

/-- The values of the slots of clauses, in order, when `supply` holds the positional values; what is
left of the supply stands behind them. -/
def slots : List (Clause α) → List (Value α) → List (Option (Value α))
  | [], supply => supply.map some
  | .column _ _ :: cs, supply => slots cs supply
  | .raw sql :: cs, supply =>
      draw (countPositional sql) supply ++ slots cs (supply.drop (countPositional sql))
  | .bound sql v :: cs, supply =>
      match countPositional sql with
      -- without a marker the value of the clause is not used
      | 0 => slots cs supply
      | n + 1 => some v :: draw n supply ++ slots cs (supply.drop n)

/-- The number of slots that a list of clauses has for itself. -/
def slotCount : List (Clause α) → Nat
  | [] => 0
  | c :: cs => c.slotCount + slotCount cs

/-- The bindings of the slots and of the named extra bindings: a slot's key is its position. -/
def slotEntries (cs : List (Clause α)) (extra : Bindings α) : List (Key × Value α) :=
  (slots cs extra.positional).zipIdx.filterMap fun s => s.1.map fun v => (Key.index s.2, v)

/-- The bindings of the columns' markers.  Of clauses on one column the last gives the value. -/
def columns (stem : Text) (cs : List (Clause α)) : Bindings α :=
  .ofList (cs.filterMap (Clause.columnEntry? stem))

/-- The bindings of everything that is no column: the slots, then the named extra bindings. -/
def others (cs : List (Clause α)) (extra : Bindings α) : Bindings α :=
  .ofList (slotEntries cs extra ++ extra.named)

/-- The clauses as one text with `joiner` between them.  Columns' markers are named `stem` and the
column; the `?` markers are named by a longer stem that starts no other name. -/
def compile (d : Dialect) (stem joiner : Text) (cs : List (Clause α)) (extra : Bindings α) :
    Fragment α :=
  let columns := columns stem cs
  let others := others cs extra
  let slotStem := freshStem stem (columns.names ++ others.names)
  let named := Fragment.namePositional slotStem (Text.join joiner (cs.map (Clause.write d stem))) others
  ⟨named.sql, columns.merge named.params⟩

/-! ### Slots -/

@[simp] theorem slots_nil (supply : List (Value α)) :
    slots ([] : List (Clause α)) supply = supply.map some := rfl

@[simp] theorem slots_column (c : Text) (v : Value α) (cs : List (Clause α))
    (supply : List (Value α)) : slots (.column c v :: cs) supply = slots cs supply := rfl

@[simp] theorem slots_raw (sql : Text) (cs : List (Clause α)) (supply : List (Value α)) :
    slots (.raw sql :: cs) supply =
      draw (countPositional sql) supply ++ slots cs (supply.drop (countPositional sql)) := rfl

/-- The first `?` of a bound clause takes its value and the others draw on the supply. -/
theorem slots_bound {sql : Text} {n : Nat} (h : countPositional sql = n + 1) (v : Value α)
    (cs : List (Clause α)) (supply : List (Value α)) :
    slots (.bound sql v :: cs) supply = some v :: draw n supply ++ slots cs (supply.drop n) := by
  simp [slots, h]

end Clauses

end BoundQuery

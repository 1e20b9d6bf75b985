/-
**Rows, and reading values from them.**

A row has declared columns and a cell for each.  A value is read as a type only if the column is
declared with a type that takes it; nothing is converted.  This is how the usual driver reads, and what
a session needs of a driver is a `Decoder`.

Main definitions:

* `Column`, `Row` — what a server returns;
* `Row.indexOf?` — the column meant by a name: one with exactly that name, or else one whose name
  differs in the case of ASCII letters only;
* `Row.cell?` — the cell of a column as a value of a type;
* `ReadType`, `Row.readColumn`, `Row.readFirst`, `Row.requireFirst` — typed reads;
* `Row.readAs` — a row read column by column;
* `Decoder`, `Decoder.typed` — how a driver reads the first column of a row.
-/

import BoundQuery.Fault
import BoundQuery.Scalar
import BoundQuery.Text.Blank

set_option relaxedAutoImplicit false
set_option autoImplicit false

namespace BoundQuery

/-- A column of a result. -/
structure Column where
  /-- The name. -/
  name : Text
  /-- The declared type. -/
  type : ServerType
deriving DecidableEq, Repr

/-- A row of a result. -/
structure Row where
  /-- The columns. -/
  columns : List Column
  /-- The cells, in the order of the columns; `none` is `NULL`. -/
  cells : List (Option Atom)

/-- The value of an atom as a value of a type, if it has that type. -/
def Atom.as? (a : Atom) (t : PrimType) : Option t.Carrier :=
  if h : a.type = t then some (h ▸ a.value) else none

/-- A type to read a value as. -/
structure ReadType where
  /-- The type. -/
  type : PrimType
  /-- Whether `NULL` can be read. -/
  nullable : Bool
deriving DecidableEq, Repr

namespace Row

/-- The position of the column meant by a name. -/
def indexOf? (r : Row) (name : Text) : Option Nat :=
  (r.columns.findIdx? fun c => c.name = name).or
    (r.columns.findIdx? fun c => c.name.lower = name.lower)

/-- The cell at a position as a value of a type.  There is none if the column is declared with a type
that does not take it. -/
def cell? (r : Row) (i : Nat) (t : PrimType) : Option (Option t.Carrier) :=
  match r.columns[i]?, r.cells[i]? with
  | some c, some cell =>
      if c.type.takes t then
        -- `NULL` is a cell of every type
        match cell with
        | none => some none
        | some a => (a.as? t).map some
      else none
  | _, _ => none

/-- The cell at a position as a type says. -/
def valueAt? (r : Row) (i : Nat) (t : ReadType) : Option (Option Atom) :=
  match r.cell? i t.type with
  | some (some v) => some (some ⟨t.type, v⟩)
  | some none => if t.nullable then some none else none
  | none => none

/-- The wording for a column that is not there. -/
def noColumn (name : Text) : Text := "invalid column `".toList ++ name ++ "`".toList

/-- The wording for a value that cannot be read. -/
def unreadable (i : Nat) : Text := "error deserializing column ".toList ++ decimal i

/-- A value that was looked for at a position, or the fault of not finding it. -/
def found {β : Type} (asked : Text) (i : Nat) : Option β → Except Fault β
  | some v => .ok v
  | none => .error (.decode asked (unreadable i))

/-- Read the column with a name. -/
def readColumn (r : Row) (name : Text) (t : ReadType) : Except Fault (Option Atom) :=
  match r.indexOf? name with
  | none => .error (.decode name (noColumn name))
  | some i => found name i (r.valueAt? i t)

/-- Look for a value in the first column. -/
def first {β : Type} (r : Row) (look : Nat → Option β) : Except Fault β :=
  match r.columns with
  | [] => .error (.decode ['0'] (noColumn ['0']))
  | c :: _ => found c.name 0 (look 0)

/-- Read the first column. -/
def readFirst (r : Row) (t : ReadType) : Except Fault (Option Atom) := r.first (r.valueAt? · t)

/-- Read the first column as a value of a type that is not `NULL`. -/
def requireFirst (r : Row) (t : PrimType) : Except Fault t.Carrier :=
  r.first fun i => (r.cell? i t).join

/-- Read the named columns in order; the first that cannot be read decides. -/
def readAs (r : Row) : List (Text × ReadType) → Except Fault (List (Option Atom))
  | [] => .ok []
  | (name, t) :: shape =>
      match r.readColumn name t with
      | .error e => .error e
      | .ok v =>
          match r.readAs shape with
          | .error e => .error e
          | .ok vs => .ok (v :: vs)

end Row

/-- How a driver reads the first column of a row. -/
structure Decoder where
  /-- As a text. -/
  text : Row → Except Fault Text
  /-- As a number. -/
  number : Row → Except Fault Int64

/-- Reading by the declared type of the column. -/
def Decoder.typed : Decoder := ⟨fun r => r.requireFirst .text, fun r => r.requireFirst .int8⟩

/-- The results of a list, or the first fault. -/
def collect {α β : Type} (f : α → Except Fault β) : List α → Except Fault (List β)
  | [] => .ok []
  | a :: as =>
      match f a with
      | .error e => .error e
      | .ok b =>
          match collect f as with
          | .error e => .error e
          | .ok bs => .ok (b :: bs)

end BoundQuery

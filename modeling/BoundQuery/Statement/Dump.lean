/-
**A statement described for diagnostics.**

The description shows the text before and after numbering, every value with the placeholder it is
sent for, and the markers that no value was found for.

Main definitions:

* `Dump`, `Statement.dump` — the facts of a description;
* `Dump.lines`, `Dump.write` — the description as lines and as text.

Main results:

* `dump_entries` — every binding is listed once, in order;
* `writePosition_eq_number_iff`, `writePosition_eq_unused_iff` — a position that is written can be
  read back.
-/

import BoundQuery.Scalar
import BoundQuery.Statement

set_option relaxedAutoImplicit false
set_option autoImplicit false

namespace BoundQuery

/-- What a description of a statement says. -/
structure Dump (α : Type) where
  /-- The statement's text. -/
  sql : Text
  /-- The text that is sent. -/
  sentSql : Text
  /-- The bindings in order, each with the number of its placeholder, if it is sent. -/
  entries : List (Key × Option Nat × Value α)
  /-- The markers left in the text that is sent. -/
  unresolved : List Token

/-- The description of a statement. -/
def Statement.dump {α : Type} (s : Statement α) : Dump α :=
  ⟨s.sql, s.sent.sql,
    s.params.entries.map fun e => (e.1, e.1.name?.bind (position? s.sent.names), e.2),
    Token.markers (tokenize s.sent.sql)⟩

/-- Every binding is listed once, in order. -/
theorem Statement.dump_entries {α : Type} (s : Statement α) :
    s.dump.entries.map (fun e => (e.1, e.2.2)) = s.params.entries := by
  simp [Statement.dump, Function.comp_def]

namespace Dump

/-- A text with its length in bytes before it. -/
def measured (t : Text) : Text := '[' :: (decimal t.utf8Length ++ "] ".toList ++ t)

/-- How the position of a binding is written. -/
def writePosition : Option Nat → Text
  | some p => '$' :: decimal p
  | none => "unused".toList

theorem unused_ne_number (p : Nat) : "unused".toList ≠ '$' :: decimal p := by
  intro h
  have hhead : some 'u' = some '$' := congrArg List.head? h
  exact absurd hhead (by decide)

/-- A position is written as a placeholder exactly if it has the number of the placeholder. -/
theorem writePosition_eq_number_iff {position? : Option Nat} {p : Nat} :
    writePosition position? = '$' :: decimal p ↔ position? = some p := by
  cases position? with
  | none => exact iff_of_false (unused_ne_number p) nofun
  | some q =>
      constructor
      · intro h
        exact congrArg some (decimal_injective (List.cons.inj h).2)
      · rintro ⟨⟩
        rfl

theorem writePosition_eq_unused_iff {position? : Option Nat} :
    writePosition position? = "unused".toList ↔ position? = none := by
  cases position? with
  | none => exact iff_of_true rfl rfl
  | some q => exact iff_of_false (unused_ne_number q).symm nofun

/-- The line of a binding. -/
def entryLine (e : Key × Option Nat × Value Scalar) : Text :=
  "Key: ".toList ++ e.1.written ++ " Position: ".toList ++ writePosition e.2.1 ++
    " Value: ".toList ++ e.2.2.write

/-- The lines of a description. -/
def lines (d : Dump Scalar) : List Text :=
  ["SQL: ".toList ++ measured d.sql, "Sent SQL: ".toList ++ measured d.sentSql,
    "Params: ".toList ++ decimal d.entries.length] ++ d.entries.map entryLine ++
  (if d.unresolved.isEmpty then []
    else ["Unresolved markers: ".toList ++ Text.join ", ".toList (d.unresolved.map Token.written)])

/-- The text of a description; every line ends with a line feed. -/
def write (d : Dump Scalar) : Text := d.lines.flatMap (· ++ ['\n'])

end Dump

end BoundQuery

/-
**JSON text as a tree.**

A tree keeps what the text says before anything is made of it: numbers as their digits, members of
objects in order and with repetitions.  Strings may hold escapes for halves of a surrogate pair; one
that stands alone denotes no character, and such a string has no text.

Main definitions:

* `Json.Numeral` — the digits of a number;
* `Json.Tree` — a JSON value as written;
* `Json.Tree.fields?` — the values of a record's fields, given as an object or as an array.
-/

import BoundQuery.Text

set_option relaxedAutoImplicit false
set_option autoImplicit false

namespace BoundQuery

namespace Json

/-- A number as written. -/
structure Numeral where
  /-- Whether it begins with a minus sign. -/
  negative : Bool
  /-- The digits before the point. -/
  whole : Text
  /-- The digits behind the point, none if there is no point. -/
  fraction : Text
  /-- The exponent, with the sign and the digits as written. -/
  exponent? : Option (Bool × Text)
deriving DecidableEq, Repr

/-- Whether a numeral has neither point nor exponent. -/
def Numeral.isWhole (n : Numeral) : Bool := n.fraction.isEmpty && n.exponent?.isNone

/-- A JSON value as written. -/
inductive Tree where
  /-- The value `null`. -/
  | null
  /-- A truth value. -/
  | bool (b : Bool)
  /-- A number. -/
  | number (n : Numeral)
  /-- A string, without text if it holds half a surrogate pair. -/
  | string (t? : Option Text)
  /-- An array. -/
  | array (items : List Tree)
  /-- An object. -/
  | object (members : List (Option Text × Tree))
deriving Inhabited

namespace Tree

/-- The text of a string. -/
def text? : Tree → Option Text
  | string t? => t?
  | _ => none

/-- The truth value. -/
def bool? : Tree → Option Bool
  | bool b => some b
  | _ => none

/-- The items of an array. -/
def array? : Tree → Option (List Tree)
  | array items => some items
  | _ => none

/-- The first member with a name. -/
def member? (name : Text) : Tree → Option Tree
  | object members => (members.find? fun m => m.1 = some name).map Prod.snd
  | _ => none

/-- The values of the members with a name, in order. -/
def valuesOf (name : Text) (members : List (Option Text × Tree)) : List Tree :=
  (members.filter fun m => m.1 = some name).map Prod.snd

/-- The values of the fields of a record.  An object may leave fields out and have other members,
but no field twice, and all its names are texts.  An array gives the fields in order; it may be
shorter than the list of fields, but no longer. -/
def fields? (names : List Text) : Tree → Option (List (Option Tree))
  | array items =>
      if items.length ≤ names.length then
        some (items.map some ++ List.replicate (names.length - items.length) none)
      else none
  | object members =>
      if members.all fun m => m.1.isSome then
        names.mapM fun name =>
          match valuesOf name members with
          | [] => some none
          | [v] => some (some v)
          | _ => none
      else none
  | _ => none

end Tree

end Json

end BoundQuery

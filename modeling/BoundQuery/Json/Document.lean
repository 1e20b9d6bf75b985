/-
**JSON documents as values.**

A document is a JSON value with its numbers evaluated and the members of its objects in the order of
their names, each name once.  It is written in two ways: as compact JSON text, which is what a server
receives, and as diagnostics show it, with the kind of every part.

Main definitions:

* `Json.Document` — a JSON value;
* `Json.Document.ofTree?` — the document of a tree;
* `Json.Document.write` — compact JSON text;
* `Json.Document.describe` — the text in diagnostics.
-/

import BoundQuery.Binary.Decimal
import BoundQuery.Json.Number
import BoundQuery.Text.Quoted

set_option relaxedAutoImplicit false
set_option autoImplicit false

namespace BoundQuery

/-- The decimal text of an integer. -/
def decimalInt (i : Int) : Text := if i < 0 then '-' :: decimal i.natAbs else decimal i.natAbs

namespace Json

/-- A JSON value. -/
inductive Document where
  /-- The value `null`. -/
  | null
  /-- A truth value. -/
  | bool (b : Bool)
  /-- A number. -/
  | number (n : Number)
  /-- A string. -/
  | string (t : Text)
  /-- An array. -/
  | array (items : List Document)
  /-- An object, in the order of its names. -/
  | object (members : List (Text × Document))
deriving Inhabited

/-- Whether a text comes before another in the order of code points. -/
def textBefore : Text → Text → Bool
  | [], [] => false
  | [], _ :: _ => true
  | _ :: _, [] => false
  | a :: s, b :: t => a.toNat < b.toNat || (a == b && textBefore s t)

/-- Put a member where its name belongs, in place of one with the same name. -/
def insertMember (name : Text) (v : Document) : List (Text × Document) → List (Text × Document)
  | [] => [(name, v)]
  | m :: ms =>
      if m.1 = name then (name, v) :: ms
      else if textBefore name m.1 then (name, v) :: m :: ms
      else m :: insertMember name v ms

namespace Document

mutual

/-- The document of a tree, unless a string has no text or a number is too large. -/
def ofTree? : Tree → Option Document
  | .null => some null
  | .bool b => some (bool b)
  | .number n => n.number?.map number
  | .string t? => t?.map string
  | .array items => (ofItems? items).map array
  | .object members => (ofMembers? members []).map object

/-- The documents of trees. -/
def ofItems? : List Tree → Option (List Document)
  | [] => some []
  | t :: ts =>
      match ofTree? t, ofItems? ts with
      | some d, some ds => some (d :: ds)
      | _, _ => none

/-- Members added to those already placed. -/
def ofMembers? : List (Option Text × Tree) → List (Text × Document) →
    Option (List (Text × Document))
  | [], placed => some placed
  | (some name, t) :: ms, placed =>
      match ofTree? t with
      | some d => ofMembers? ms (insertMember name d placed)
      | none => none
  | (none, _) :: _, _ => none

end

/-! ### Compact text -/

/-- A character of a string in JSON text. -/
def escape (c : Char) : Text :=
  if c = '\x22' ∨ c = '\\' then ['\\', c]
  else if c = '\x08' then ['\\', 'b']
  else if c = '\x0c' then ['\\', 'f']
  else if c = '\n' then ['\\', 'n']
  else if c = '\r' then ['\\', 'r']
  else if c = '\t' then ['\\', 't']
  else if c.toNat < 0x20 then
    let ds := hexadecimal c.toNat
    ['\\', 'u'] ++ List.replicate (4 - ds.length) '0' ++ ds
  else [c]

/-- A string in JSON text. -/
def writeString (t : Text) : Text := '\x22' :: (t.flatMap escape ++ ['\x22'])

/-- A number in JSON text. -/
def writeNumber : Number → Text
  | .integer i => decimalInt i
  | .float x => x.write .json

mutual

/-- **Compact JSON text.** -/
def write : Document → Text
  | null => "null".toList
  | bool b => if b then "true".toList else "false".toList
  | number n => writeNumber n
  | string t => writeString t
  | array items => '[' :: (Text.join [','] (writeItems items) ++ [']'])
  | object members => '\x7b' :: (Text.join [','] (writeMembers members) ++ ['\x7d'])

/-- The texts of documents. -/
def writeItems : List Document → List Text
  | [] => []
  | d :: ds => write d :: writeItems ds

/-- The texts of members. -/
def writeMembers : List (Text × Document) → List Text
  | [] => []
  | (name, d) :: ms => (writeString name ++ ':' :: write d) :: writeMembers ms

end

/-! ### Text in diagnostics -/

mutual

/-- A document with the kind of each of its parts. -/
def describe : Document → Text
  | null => "Null".toList
  | bool b => "Bool(".toList ++ (if b then "true".toList else "false".toList) ++ [')']
  | number n => "Number(".toList ++ writeNumber n ++ [')']
  | string t => "String(".toList ++ t.quoted ++ [')']
  | array items => "Array [".toList ++ Text.join ", ".toList (describeItems items) ++ [']']
  | object members =>
      "Object ".toList ++ '\x7b' :: (Text.join ", ".toList (describeMembers members) ++ ['\x7d'])

/-- The texts of documents. -/
def describeItems : List Document → List Text
  | [] => []
  | d :: ds => describe d :: describeItems ds

/-- The texts of members. -/
def describeMembers : List (Text × Document) → List Text
  | [] => []
  | (name, d) :: ms => (name.quoted ++ ": ".toList ++ describe d) :: describeMembers ms

end

end Document

end Json

end BoundQuery

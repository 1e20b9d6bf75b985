/-
**JSON as values to bind.**

A JSON document given where a value is expected is taken apart at its outermost level: `null` is SQL
`NULL`, an array is a list with one datum for each item, and truth values, numbers and strings are
data of their own types.  Objects, and arrays inside an array, are kept as documents.

Main definitions:

* `Json.Number.atom` — the datum of a number;
* `Scalar.ofDocument?` — the datum of a document, which is `NULL` for `null`;
* `Value.ofDocument` — the value of a document.

Main results:

* `isList_ofDocument`, `isNull_ofDocument` — the documents that become lists, and `NULL`;
* `type_ofDocument?` — every datum made from a document is of one of five types.
-/

import BoundQuery.Scalar

set_option relaxedAutoImplicit false
set_option autoImplicit false

namespace BoundQuery

/-- The datum of a number: an integer if it fits 64 bits with a sign, and a binary number if not. -/
def Json.Number.atom : Json.Number → Atom
  | .integer i =>
      if Int64.minValue.toInt ≤ i ∧ i ≤ Int64.maxValue.toInt then ⟨.int8, Int64.ofInt i⟩
      else ⟨.float8, .ofInt i⟩
  | .float x => ⟨.float8, x⟩

/-- The datum of a document; arrays and objects are kept as they are. -/
def Scalar.ofDocument? : Json.Document → Option Scalar
  | .null => none
  | .bool b => some (.atom ⟨.bool, b⟩)
  | .number n => some (.atom n.atom)
  | .string t => some (.ofText t)
  | .array items => some (.document (.array items))
  | .object members => some (.document (.object members))

/-- **The value of a document.** -/
def Value.ofDocument : Json.Document → Value Scalar
  | .null => .null
  | .array items => .list (items.map Scalar.ofDocument?)
  | d => .scalar (Scalar.ofDocument? d)

/-- A document becomes a list exactly if it is an array. -/
theorem Value.isList_ofDocument (d : Json.Document) :
    (Value.ofDocument d).isList = true ↔ ∃ items, d = .array items := by
  cases d <;> simp [Value.ofDocument, Value.isList]

/-- A document becomes `NULL` exactly if it is `null`. -/
theorem Value.isNull_ofDocument (d : Json.Document) :
    (Value.ofDocument d).isNull = true ↔ d = .null := by
  cases d <;> simp [Value.ofDocument, Value.isNull]

/-- Every datum made from a document is of one of five types. -/
theorem Scalar.type_ofDocument? {d : Json.Document} {s : Scalar}
    (h : Scalar.ofDocument? d = some s) :
    s.type ∈ [.prim .bool, .prim .int8, .prim .float8, .prim .text, .json] := by
  cases d with
  | null => simp [Scalar.ofDocument?] at h
  | number n =>
      cases h
      cases n with
      | integer i =>
          simp only [Scalar.type, Json.Number.atom]
          split <;> simp
      | float x => simp [Scalar.type, Json.Number.atom]
  | _ => cases h; simp [Scalar.type, Scalar.ofText]

end BoundQuery

/-
**The data that are sent to a server.**

A scalar is one datum of a primitive type of the server, an array of such data, or a JSON document.
An array is a single parameter: it is never spread over several markers.

Main definitions:

* `PrimType`, `PrimType.Carrier` — the primitive types and their values;
* `ServerType`, `ServerType.takes` — the types that parameters and columns are declared with, and the
  values they take;
* `Scalar`, `Scalar.type` — a datum, and the type it belongs to;
* `Scalar.write`, `Value.write` — the texts of scalars and values in diagnostics;
* `Scalar.encode?` — the binary form of a scalar for a declared type, if the type takes it.

Main results:

* `length_bigEndian` — a number is encoded in the given width;
* `length_encodeArray` — how many bytes an array takes;
* `isSome_encode_type` — every scalar is taken by its own type.
-/

import BoundQuery.Json.Document
import BoundQuery.Value

set_option relaxedAutoImplicit false
set_option autoImplicit false

namespace BoundQuery

/-! ### Types -/

/-- The primitive types of the server. -/
inductive PrimType where
  | bool
  /-- One byte. -/
  | char
  | int2
  | int4
  | int8
  /-- Object identifiers. -/
  | oid
  | float4
  | float8
  | text
deriving DecidableEq, Repr

namespace PrimType

/-- The values of a primitive type. -/
@[reducible] def Carrier : PrimType → Type
  | bool => Bool
  | char => Int8
  | int2 => Int16
  | int4 => Int32
  | int8 => Int64
  | oid => UInt32
  | float4 => Binary.Number Binary.single
  | float8 => Binary.Number Binary.double
  | text => Text

/-- The name of a primitive type. -/
def name : PrimType → Text
  | bool => "bool".toList
  | char => "char".toList
  | int2 => "int2".toList
  | int4 => "int4".toList
  | int8 => "int8".toList
  | oid => "oid".toList
  | float4 => "float4".toList
  | float8 => "float8".toList
  | text => "text".toList

/-- All primitive types. -/
def all : List PrimType := [bool, char, int2, int4, int8, oid, float4, float8, text]

end PrimType

/-- The types that parameters and columns are declared with. -/
inductive ServerType where
  /-- A primitive type. -/
  | prim (t : PrimType)
  /-- Text with a declared limit. -/
  | varchar
  /-- JSON kept as text. -/
  | json
  /-- JSON kept in parts. -/
  | jsonb
  /-- Arrays of a type. -/
  | array (element : ServerType)
  /-- Any other type. -/
  | other (name : Text)
deriving DecidableEq, Repr

namespace ServerType

/-- The type with a name.  The name of an array type is an underscore and the name of its element
type. -/
def ofName : Text → ServerType
  | '_' :: n => array (ofName n)
  | n =>
      if n = "varchar".toList then varchar
      else if n = "json".toList then json
      else if n = "jsonb".toList then jsonb
      else match PrimType.all.find? fun t => t.name = n with
        | some t => prim t
        | none => other n

/-- The name of a type. -/
def name : ServerType → Text
  | prim t => t.name
  | varchar => "varchar".toList
  | json => "json".toList
  | jsonb => "jsonb".toList
  | array e => '_' :: e.name
  | other n => n

/-- The object identifier of a type; zero if the library does not know it. -/
def oid : ServerType → Nat
  | prim .bool => 16
  | prim .char => 18
  | prim .int8 => 20
  | prim .int2 => 21
  | prim .int4 => 23
  | prim .text => 25
  | prim .oid => 26
  | json => 114
  | prim .float4 => 700
  | prim .float8 => 701
  | varchar => 1043
  | jsonb => 3802
  | other n =>
      if n = "name".toList then 19
      else if n = "unknown".toList then 705
      else if n = "bpchar".toList then 1042
      else 0
  | _ => 0

/-- The types of labels in trees and of queries for them. -/
def treeNames : List Text := ["ltree".toList, "lquery".toList, "ltxtquery".toList]

/-- The names of the other types whose values are texts. -/
def textNames : List Text :=
  ["bpchar".toList, "name".toList, "unknown".toList, "citext".toList] ++ treeNames

/-- Whether the values of a type are texts. -/
def isTextual : ServerType → Bool
  | prim .text => true
  | varchar => true
  | other n => textNames.contains n
  | _ => false

/-- Whether a declared type takes the values of a primitive type: its own, and for text also those
whose values are texts. -/
def takes (declared : ServerType) (t : PrimType) : Bool :=
  declared == prim t || t == .text && declared.isTextual

/-- What stands before a value in the binary form of a type.  The types for trees give the version of
their form. -/
def version : ServerType → List UInt8
  | other n => if treeNames.contains n then [1] else []
  | _ => []

end ServerType

/-- One value of a primitive type. -/
structure Atom where
  /-- The type. -/
  type : PrimType
  /-- The value. -/
  value : type.Carrier

/-- A datum to be sent. -/
inductive Scalar where
  /-- A value of a primitive type. -/
  | atom (a : Atom)
  /-- An array of values of one type. -/
  | array (element : PrimType) (values : List element.Carrier)
  /-- A JSON document. -/
  | document (d : Json.Document)

namespace Scalar

/-- A text as a datum. -/
def ofText (t : Text) : Scalar := atom ⟨.text, t⟩

/-- The type a scalar belongs to. -/
def type : Scalar → ServerType
  | atom a => .prim a.type
  | array e _ => .array (.prim e)
  | document _ => .json

end Scalar

/-! ### Text in diagnostics -/

/-- The text of a value of a primitive type. -/
def PrimType.write : (t : PrimType) → t.Carrier → Text
  | .bool, b => if b then "true".toList else "false".toList
  | .char, i => decimalInt i.toInt
  | .int2, i => decimalInt i.toInt
  | .int4, i => decimalInt i.toInt
  | .int8, i => decimalInt i.toInt
  | .oid, i => decimal i.toNat
  | .float4, x => x.write .diagnostic
  | .float8, x => x.write .diagnostic
  | .text, t => t.quoted

/-- Texts between brackets. -/
def bracketed (parts : List Text) : Text := '[' :: (Text.join ", ".toList parts ++ [']'])

/-- The text of a scalar. -/
def Scalar.write : Scalar → Text
  | atom a => a.type.write a.value
  | array e vs => bracketed (vs.map e.write)
  | document d => d.describe

/-- The text of a datum; a `NULL` among data is told apart from the value `NULL`. -/
def writeDatum : Option Scalar → Text
  | none => "SqlNull".toList
  | some s => s.write

/-- The text of a bound value. -/
def Value.write : Value Scalar → Text
  | .null => "NULL".toList
  | .scalar d => writeDatum d
  | .list ds => bracketed (ds.map writeDatum)

/-! ### Binary form -/

/-- The bytes of a number, the highest first. -/
def bigEndian (width n : Nat) : List UInt8 :=
  (List.range width).reverse.map fun i => UInt8.ofNat (n >>> (8 * i))

@[simp] theorem length_bigEndian (width n : Nat) : (bigEndian width n).length = width := by
  simp [bigEndian]

/-- The bytes of the UTF-8 form of a text. -/
def Text.utf8 (t : Text) : List UInt8 := (String.ofList t).toUTF8.toList

/-- The bytes of a value of a primitive type. -/
def PrimType.encode : (t : PrimType) → t.Carrier → List UInt8
  | .bool, b => [if b then 1 else 0]
  | .char, i => [i.toUInt8]
  | .int2, i => bigEndian 2 i.toUInt16.toNat
  | .int4, i => bigEndian 4 i.toUInt32.toNat
  | .int8, i => bigEndian 8 i.toUInt64.toNat
  | .oid, i => bigEndian 4 i.toNat
  | .float4, x => bigEndian 4 x.bits
  | .float8, x => bigEndian 8 x.bits
  | .text, t => t.utf8

/-- The bytes of an array with elements of a declared type: the number of dimensions, which is one
even for an empty array, a flag for `NULL` elements, the type of the elements, the length, the lower
bound, and the elements with their lengths. -/
def encodeArray (element : ServerType) (items : List (List UInt8)) : List UInt8 :=
  bigEndian 4 1 ++ bigEndian 4 0 ++ bigEndian 4 element.oid ++ bigEndian 4 items.length ++
    bigEndian 4 1 ++ items.flatMap fun bytes => bigEndian 4 bytes.length ++ bytes

/-- An array takes five words, and for each element one word and its bytes. -/
theorem length_encodeArray (element : ServerType) (items : List (List UInt8)) :
    (encodeArray element items).length =
      20 + items.foldr (fun bytes n => 4 + bytes.length + n) 0 := by
  have : (items.flatMap fun bytes => bigEndian 4 bytes.length ++ bytes).length =
      items.foldr (fun bytes n => 4 + bytes.length + n) 0 := by
    induction items with
    | nil => rfl
    | cons bytes items ih =>
        simp only [List.flatMap_cons, List.length_append, length_bigEndian, List.foldr_cons]
        omega
  simp only [encodeArray, List.length_append, length_bigEndian, this]

namespace Scalar

/-- The binary form of a scalar for a declared type, if the type takes it.  Nothing is converted. -/
def encode? (declared : ServerType) : Scalar → Option (List UInt8)
  | atom a =>
      if declared.takes a.type then some (declared.version ++ a.type.encode a.value) else none
  | array e vs =>
      match declared with
      | .array element =>
          if element.takes e then
            some (encodeArray element (vs.map fun v => element.version ++ e.encode v))
          else none
      | _ => none
  | document d =>
      match declared with
      | .json => some (Text.utf8 d.write)
      | .jsonb => some (1 :: Text.utf8 d.write)
      | _ => none

/-- Every scalar is taken by its own type. -/
theorem isSome_encode_type (s : Scalar) : (s.encode? s.type).isSome = true := by
  cases s with
  | atom a => simp [encode?, type, ServerType.takes]
  | array e vs => simp [encode?, type, ServerType.takes]
  | document d => rfl

end Scalar

/-- The binary form of a datum for a declared type: `NULL` is taken by every type and has none. -/
def encodeDatum? (declared : ServerType) : Option Scalar → Option (Option (List UInt8))
  | none => some none
  | some s => (s.encode? declared).map some

end BoundQuery

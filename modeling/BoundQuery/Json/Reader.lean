/-
**Reading JSON text.**

The reader follows the grammar of JSON without extensions: no comments, no comma before a closing
bracket, no leading zeros, nothing behind the value but blanks.  Values nest, so the reader recurses
on fuel; every step that uses fuel without taking a character is followed by one that takes one, so
twice the length of the text is enough.

Main definitions:

* `Json.readString`, `Json.readNumeral` — what stands behind a quote, and a number;
* `Json.readValue`, `Json.readItems`, `Json.readMembers` — a value, and the insides of brackets;
* `Json.read?` — the tree of a text.
-/

import BoundQuery.Json.Tree

set_option relaxedAutoImplicit false
set_option autoImplicit false

namespace BoundQuery

namespace Json

/-- The text without the blanks at its start. -/
def skipBlanks (t : Text) : Text :=
  t.dropWhile fun c => c == ' ' || c == '\n' || c == '\t' || c == '\r'

/-! ### Strings -/

/-- One unit of a string: a character, or a code that an escape gives. -/
inductive StringUnit where
  /-- A character. -/
  | char (c : Char)
  /-- The four hexadecimal digits of an escape, as a number. -/
  | code (n : Nat)

/-- The value of a hexadecimal digit. -/
def hexDigit? (c : Char) : Option Nat :=
  if c.isDigit then some (c.toNat - '0'.toNat)
  else if 'a' ≤ c ∧ c ≤ 'f' then some (c.toNat - 'a'.toNat + 10)
  else if 'A' ≤ c ∧ c ≤ 'F' then some (c.toNat - 'A'.toNat + 10)
  else none

/-- The value of four hexadecimal digits. -/
def hexCode? (a b c d : Char) : Option Nat := do
  let a ← hexDigit? a
  let b ← hexDigit? b
  let c ← hexDigit? c
  let d ← hexDigit? d
  return ((a * 16 + b) * 16 + c) * 16 + d

/-- The character that a backslash and a letter denote. -/
def simpleEscape? (c : Char) : Option Char :=
  if c = '\x22' ∨ c = '\\' ∨ c = '/' then some c
  else if c = 'b' then some '\x08'
  else if c = 'f' then some '\x0c'
  else if c = 'n' then some '\n'
  else if c = 'r' then some '\r'
  else if c = 't' then some '\t'
  else none

/-- The units of a string up to its closing quote, and what follows the quote. -/
def readUnits : Text → Option (List StringUnit × Text)
  | [] => none
  | '\x22' :: rest => some ([], rest)
  | '\\' :: 'u' :: a :: b :: c :: d :: rest =>
      match hexCode? a b c d, readUnits rest with
      | some n, some (us, rest') => some (.code n :: us, rest')
      | _, _ => none
  | '\\' :: c :: rest =>
      match simpleEscape? c, readUnits rest with
      | some e, some (us, rest') => some (.char e :: us, rest')
      | _, _ => none
  | c :: rest =>
      if c.toNat < 0x20 ∨ c = '\\' then none
      else (readUnits rest).map fun (us, rest') => (.char c :: us, rest')

/-- The characters of units.  Codes of surrogates make a character in pairs only. -/
def charsOfUnits : List StringUnit → Option Text
  | [] => some []
  | .char c :: us => (charsOfUnits us).map (c :: ·)
  | .code n :: .code m :: us =>
      -- the first half of a pair takes the second half with it
      if 0xD800 ≤ n ∧ n < 0xDC00 then
        if 0xDC00 ≤ m ∧ m < 0xE000 then
          (charsOfUnits us).map (Char.ofNat (0x10000 + (n - 0xD800) * 0x400 + (m - 0xDC00)) :: ·)
        else none
      else if 0xDC00 ≤ n ∧ n < 0xE000 then none
      else (charsOfUnits (.code m :: us)).map (Char.ofNat n :: ·)
  | .code n :: us =>
      if 0xD800 ≤ n ∧ n < 0xE000 then none else (charsOfUnits us).map (Char.ofNat n :: ·)

/-- The text of a string whose opening quote has been read, and what follows the string. -/
def readString (t : Text) : Option (Option Text × Text) :=
  (readUnits t).map fun (us, rest) => (charsOfUnits us, rest)

/-! ### Numbers -/

/-- The digits at the start of a text, and the rest. -/
def readDigits (t : Text) : Text × Text := (t.takeWhile Char.isDigit, t.dropWhile Char.isDigit)

/-- The digits before a point: a zero, or digits that do not start with one. -/
def readWhole (t : Text) : Option (Text × Text) :=
  match readDigits t with
  | ([], _) => none
  | ('0' :: _ :: _, _) => none
  | (ds, rest) => some (ds, rest)

/-- The digits behind a point, if there is one. -/
def readFraction : Text → Option (Text × Text)
  | '.' :: t =>
      match readDigits t with
      | ([], _) => none
      | (ds, rest) => some (ds, rest)
  | t => some ([], t)

/-- The digits of an exponent behind its sign. -/
def readExponentDigits (negative : Bool) (t : Text) : Option (Option (Bool × Text) × Text) :=
  match readDigits t with
  | ([], _) => none
  | (ds, rest) => some (some (negative, ds), rest)

/-- The exponent, if there is one. -/
def readExponent : Text → Option (Option (Bool × Text) × Text)
  | c :: t =>
      if c = 'e' ∨ c = 'E' then
        match t with
        | '+' :: t => readExponentDigits false t
        | '-' :: t => readExponentDigits true t
        | t => readExponentDigits false t
      else some (none, c :: t)
  | [] => some (none, [])

/-- A number at the start of a text, and the rest. -/
def readNumeral (t : Text) : Option (Numeral × Text) := do
  let negative := t.head? == some '-'
  let (whole, t) ← readWhole (if negative then t.tail else t)
  let (fraction, t) ← readFraction t
  let (exponent?, t) ← readExponent t
  return (⟨negative, whole, fraction, exponent?⟩, t)

/-! ### Values -/

mutual

/-- A value at the start of a text, and the rest. -/
def readValue : Nat → Text → Option (Tree × Text)
  | 0, _ => none
  | fuel + 1, t =>
      match skipBlanks t with
      | '\x7b' :: t =>
          match skipBlanks t with
          | '\x7d' :: rest => some (.object [], rest)
          | t => (readMembers fuel t).map fun (ms, rest) => (.object ms, rest)
      | '[' :: t =>
          match skipBlanks t with
          | ']' :: rest => some (.array [], rest)
          | t => (readItems fuel t).map fun (is, rest) => (.array is, rest)
      | '\x22' :: t => (readString t).map fun (s, rest) => (.string s, rest)
      | 'n' :: 'u' :: 'l' :: 'l' :: rest => some (.null, rest)
      | 't' :: 'r' :: 'u' :: 'e' :: rest => some (.bool true, rest)
      | 'f' :: 'a' :: 'l' :: 's' :: 'e' :: rest => some (.bool false, rest)
      | t => (readNumeral t).map fun (n, rest) => (.number n, rest)

/-- The items of an array up to its closing bracket; there is at least one. -/
def readItems : Nat → Text → Option (List Tree × Text)
  | 0, _ => none
  | fuel + 1, t =>
      match readValue fuel t with
      | none => none
      | some (v, t) =>
          match skipBlanks t with
          | ']' :: rest => some ([v], rest)
          | ',' :: t => (readItems fuel t).map fun (vs, rest) => (v :: vs, rest)
          | _ => none

/-- The members of an object up to its closing bracket; there is at least one. -/
def readMembers : Nat → Text → Option (List (Option Text × Tree) × Text)
  | 0, _ => none
  | fuel + 1, t =>
      match skipBlanks t with
      | '\x22' :: t =>
          match readString t with
          | none => none
          | some (name, t) =>
              match skipBlanks t with
              | ':' :: t =>
                  match readValue fuel t with
                  | none => none
                  | some (v, t) =>
                      match skipBlanks t with
                      | '\x7d' :: rest => some ([(name, v)], rest)
                      | ',' :: t =>
                          (readMembers fuel t).map fun (ms, rest) => ((name, v) :: ms, rest)
                      | _ => none
              | _ => none
      | _ => none

end

/-- **The tree of a JSON text.** -/
def read? (t : Text) : Option Tree :=
  match readValue (2 * t.length + 2) t with
  | some (v, rest) => if (skipBlanks rest).isEmpty then some v else none
  | none => none

end Json

end BoundQuery

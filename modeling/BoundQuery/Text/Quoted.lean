/-
**Text as diagnostics quote it.**

A quoted text stands between double quotes.  Quotes and backslashes inside have a backslash before
them, a few control characters have escapes of one letter, and every other unprintable character is
written as its code point in hexadecimal between braces.

Main definitions:

* `hexadecimal` — the hexadecimal numeral of a number;
* `escapeChar`, `Text.quoted` — one character in quotes, and a quoted text.

Main results:

* `quoted_nil`, `quoted_cons` — a text is quoted character by character.
-/

import BoundQuery.Text.Unprintable

set_option relaxedAutoImplicit false
set_option autoImplicit false

namespace BoundQuery

/-- The hexadecimal numeral of a number, in lower case and without leading zeros. -/
def hexadecimal (n : Nat) : Text := Nat.toDigits 16 n

/-- A character as it is written between quotes. -/
def escapeChar (c : Char) : Text :=
  if c = '\x22' ∨ c = '\\' then ['\\', c]
  else if c = '\n' then ['\\', 'n']
  else if c = '\r' then ['\\', 'r']
  else if c = '\t' then ['\\', 't']
  else if c = '\x00' then ['\\', '0']
  else if isUnprintable c then ['\\', 'u', '\x7b'] ++ hexadecimal c.toNat ++ ['\x7d']
  else [c]

/-- A text in quotes. -/
def Text.quoted (t : Text) : Text := '\x22' :: (t.flatMap escapeChar ++ ['\x22'])

theorem Text.quoted_nil : Text.quoted [] = ['\x22', '\x22'] := rfl

theorem Text.quoted_cons (c : Char) (t : Text) :
    Text.quoted (c :: t) = '\x22' :: (escapeChar c ++ (Text.quoted t).tail) := by
  simp [Text.quoted]

end BoundQuery

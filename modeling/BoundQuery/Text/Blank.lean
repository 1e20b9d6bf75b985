/-
**Blank characters at the ends of a text.**

Main definitions:

* `blankRanges`, `isBlank` — the characters with the property White_Space;
* `Text.trim` — a text without blanks at its ends;
* `Text.lower` — a text with its ASCII letters in lower case.

Main results:

* `isBlank_of_isWhitespace` — the ASCII blanks are blank.
-/

import BoundQuery.Text.CodeRanges

set_option relaxedAutoImplicit false
set_option autoImplicit false

namespace BoundQuery

/-- The ranges of characters with the property White_Space, first and last code point. -/
def blankRanges : CodeRanges :=
  [(0x0009, 0x000D), (0x0020, 0x0020), (0x0085, 0x0085), (0x00A0, 0x00A0), (0x1680, 0x1680),
   (0x2000, 0x200A), (0x2028, 0x2029), (0x202F, 0x202F), (0x205F, 0x205F), (0x3000, 0x3000)]

theorem blankRanges_inOrder : blankRanges.inOrder = true := by decide

/-- Whether a character is blank. -/
def isBlank (c : Char) : Bool := blankRanges.contains c

theorem isBlank_of_isWhitespace {c : Char} (h : c.isWhitespace = true) : isBlank c = true := by
  simp only [Char.isWhitespace, Bool.or_eq_true, decide_eq_true_eq] at h
  rcases h with ((rfl | rfl) | rfl) | rfl <;> decide

/-- A text without the blanks at its start. -/
def Text.trimStart (t : Text) : Text := t.dropWhile isBlank

/-- A text without the blanks at its ends. -/
def Text.trim (t : Text) : Text := (t.trimStart.reverse.dropWhile isBlank).reverse

/-- A text with its ASCII letters in lower case. -/
def Text.lower (t : Text) : Text := t.map Char.toLower

end BoundQuery

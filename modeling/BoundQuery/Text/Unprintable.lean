/-
**Characters that diagnostics do not show as they are.**

A character is unprintable if nothing would be seen of it, or if it would be seen as a part of the
character before it.  These are the controls, the format characters, the separators other than the
space, the characters for private use, the fillers of Hangul syllables, the characters that extend
the one before, and the code points that are no characters at all.

Main definitions:

* `invisibleRanges` — the general categories Cc, Cf, Co, Cs, Zl, Zp and Zs without the space;
* `fillerRanges` — the Hangul fillers, which are letters without a shape;
* `isUnprintable` — whether a character is unprintable.

Main results:

* `isUnprintable_of_isWhitespace` — of the ASCII blanks all but the space are unprintable;
* `isUnprintable_of_ascii` — the ASCII characters from the space to the tilde are not.
-/

import BoundQuery.Text.Extending
import BoundQuery.Text.Unassigned

set_option relaxedAutoImplicit false
set_option autoImplicit false

namespace BoundQuery

/-- Controls, format characters, separators other than the space, surrogates and private use. -/
def invisibleRanges : CodeRanges :=
  [(0x0000, 0x001F), (0x007F, 0x00A0), (0x00AD, 0x00AD), (0x0600, 0x0605), (0x061C, 0x061C),
   (0x06DD, 0x06DD), (0x070F, 0x070F), (0x0890, 0x0891), (0x08E2, 0x08E2), (0x1680, 0x1680),
   (0x180E, 0x180E), (0x2000, 0x200F), (0x2028, 0x202F), (0x205F, 0x2064), (0x2066, 0x206F),
   (0x3000, 0x3000), (0xD800, 0xF8FF), (0xFEFF, 0xFEFF), (0xFFF9, 0xFFFB), (0x110BD, 0x110BD),
   (0x110CD, 0x110CD), (0x13430, 0x1343F), (0x1BCA0, 0x1BCA3), (0x1D173, 0x1D17A),
   (0xE0001, 0xE0001), (0xE0020, 0xE007F), (0xF0000, 0xFFFFD), (0x100000, 0x10FFFD)]

theorem invisibleRanges_inOrder : invisibleRanges.inOrder = true := by decide

/-- The fillers of Hangul syllables. -/
def fillerRanges : CodeRanges :=
  [(0x115F, 0x1160), (0x3164, 0x3164), (0xFFA0, 0xFFA0)]

/-- Whether a character is unprintable.  In the ASCII range only the controls are, so the long
tables are for the characters beyond. -/
def isUnprintable (c : Char) : Bool :=
  invisibleRanges.contains c ||
    (0x7F < c.toNat &&
      (fillerRanges.contains c || extendingRanges.contains c || unassignedRanges.contains c))

theorem isUnprintable_of_isWhitespace {c : Char} (h : c.isWhitespace = true) (hs : c ≠ ' ') :
    isUnprintable c = true := by
  simp only [Char.isWhitespace, Bool.or_eq_true, decide_eq_true_eq] at h
  rcases h with ((rfl | rfl) | rfl) | rfl
  · exact absurd rfl hs
  all_goals decide

/-- The ASCII characters from the space to the tilde are printable. -/
theorem isUnprintable_of_ascii {c : Char} (h : 0x20 ≤ c.toNat) (h' : c.toNat < 0x7F) :
    isUnprintable c = false := by
  have hlater : CodeRanges.contains invisibleRanges.tail c = false :=
    CodeRanges.contains_eq_false_of_lt (by decide) h'
  have hfirst : ¬c.toNat ≤ 0x1F := by omega
  have hascii : ¬0x7F < c.toNat := by omega
  have hsplit : invisibleRanges.contains c =
      ((0x0000 ≤ c.toNat && c.toNat ≤ 0x1F) || CodeRanges.contains invisibleRanges.tail c) := rfl
  simp [isUnprintable, hsplit, hlater, hfirst, hascii]

end BoundQuery

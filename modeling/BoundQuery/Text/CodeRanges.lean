/-
**Classes of characters given by ranges.**

A property of characters that a standard defines by listing is a table of ranges of code points.

Main definitions:

* `CodeRanges` — ranges, each by its first and its last code point;
* `CodeRanges.contains` — whether a character lies in one of them;
* `CodeRanges.inOrder` — whether the ranges are in order and apart from each other.

Main results:

* `contains_eq_true_iff` — the characters of a table;
* `contains_eq_false_of_lt` — no character before the first range of an ordered table is in it.
-/

import BoundQuery.Text

set_option relaxedAutoImplicit false
set_option autoImplicit false

namespace BoundQuery

/-- Ranges of characters, each by its first and its last code point. -/
abbrev CodeRanges := List (Nat × Nat)

namespace CodeRanges

/-- Whether a character lies in one of the ranges. -/
def contains (rs : CodeRanges) (c : Char) : Bool :=
  rs.any fun r => r.1 ≤ c.toNat && c.toNat ≤ r.2

/-- Whether no range is empty and each ends before the next begins. -/
def inOrder : CodeRanges → Bool
  | [] => true
  | [r] => r.1 ≤ r.2
  | r :: s :: rs => r.1 ≤ r.2 && r.2 < s.1 && inOrder (s :: rs)

theorem contains_eq_true_iff (rs : CodeRanges) (c : Char) :
    rs.contains c = true ↔ ∃ r ∈ rs, r.1 ≤ c.toNat ∧ c.toNat ≤ r.2 := by
  simp [contains]

/-- No character before the first range of an ordered table is in the table. -/
theorem contains_eq_false_of_lt {r : Nat × Nat} {rs : CodeRanges} {c : Char}
    (ho : inOrder (r :: rs) = true) (hc : c.toNat < r.1) :
    CodeRanges.contains (r :: rs) c = false := by
  induction rs generalizing r with
  | nil =>
      simp only [contains, List.any_cons, List.any_nil, Bool.or_false, Bool.and_eq_false_iff,
        decide_eq_false_iff_not]
      omega
  | cons s rs ih =>
      simp only [inOrder, Bool.and_eq_true, decide_eq_true_eq] at ho
      have hs := ih ho.2 (by omega)
      simp only [contains, List.any_cons, Bool.or_eq_false_iff, Bool.and_eq_false_iff,
        decide_eq_false_iff_not] at hs ⊢
      exact ⟨by omega, hs⟩

end CodeRanges

end BoundQuery

/-
**Statements, and what is sent to the server.**

A statement is SQL with named markers and no list among its bindings.  The server knows numbered
placeholders only, so before a statement is sent its bound markers become `$1`, `$2`, …:

* the numbers follow the first appearances of the names, and a repeated name keeps its number;
* a marker without a value stays as written, as does any `?`, so that the server refuses the
  statement instead of running something else;
* values that no marker asks for are not sent.

Main definitions:

* `Statement`, `Statement.ofFragment` — a statement, and a fragment with its lists spread;
* `firsts` — the elements of a list without later repetitions;
* `Sent`, `Statement.sent` — text with placeholders, names by number and values by number.

Main results:

* `length_names_sent` — there are as many values as names;
* `nodup_names_sent` — no name has two numbers.
-/

import BoundQuery.Fragment

set_option relaxedAutoImplicit false
set_option autoImplicit false

namespace BoundQuery

/-- SQL with named markers and the values of its markers, ready to be sent. -/
structure Statement (α : Type) where
  /-- The text. -/
  sql : Text
  /-- The values. -/
  params : Bindings α

/-- A fragment as a statement: its list bindings are spread. -/
def Statement.ofFragment {α : Type} (f : Fragment α) : Statement α :=
  ⟨f.spread.sql, f.spread.params⟩

/-! ### First appearances -/

/-- The elements of a list at their first appearances. -/
def firsts {κ : Type} [DecidableEq κ] : List κ → List κ
  | [] => []
  | x :: xs => x :: (firsts xs).filter fun y => !decide (y = x)

theorem mem_firsts {κ : Type} [DecidableEq κ] {a : κ} {xs : List κ} : a ∈ firsts xs ↔ a ∈ xs := by
  induction xs with
  | nil => simp [firsts]
  | cons x xs ih =>
      by_cases h : a = x
      · simp [firsts, h]
      · simp [firsts, ih, h]

theorem nodup_firsts {κ : Type} [DecidableEq κ] (xs : List κ) : (firsts xs).Nodup := by
  induction xs with
  | nil => simp [firsts]
  | cons x xs ih =>
      simp only [firsts, List.nodup_cons]
      exact ⟨by simp, ih.filter _⟩

/-! ### Numbered placeholders -/

/-- What the server receives. -/
structure Sent (α : Type) where
  /-- The text with placeholders. -/
  sql : Text
  /-- The names of the markers by number; the first has number one. -/
  names : List Text
  /-- The values by number. -/
  values : List (Option α)
deriving DecidableEq, Repr

/-- The number of a name among the names that have one. -/
def position? (names : List Text) (n : Text) : Option Nat := (names.idxOf? n).map (· + 1)

/-- The text of a token once names have numbers. -/
def Token.writeNumbered (names : List Text) : Token → Text
  | .named n =>
      match position? names n with
      | some p => '$' :: decimal p
      | none => ':' :: n
  | t => t.written

namespace Statement

variable {α : Type}

/-- The names of the bound markers in the order of their first appearances. -/
def boundNames (s : Statement α) : List Text :=
  firsts ((Token.names (tokenize s.sql)).filter fun n => (s.params.datum? n).isSome)

/-- **What is sent for a statement.** -/
def sent (s : Statement α) : Sent α :=
  ⟨(tokenize s.sql).flatMap (Token.writeNumbered s.boundNames), s.boundNames,
    s.boundNames.filterMap s.params.datum?⟩

theorem isSome_datum?_of_mem {s : Statement α} {n : Text} (h : n ∈ s.boundNames) :
    (s.params.datum? n).isSome = true :=
  (List.mem_filter.1 (mem_firsts.1 h)).2

/-- There are as many values as names. -/
theorem length_names_sent (s : Statement α) : s.sent.values.length = s.sent.names.length := by
  have : ∀ ns : List Text, (∀ n ∈ ns, (s.params.datum? n).isSome = true) →
      (ns.filterMap s.params.datum?).length = ns.length := by
    intro ns
    induction ns with
    | nil => intro _; rfl
    | cons n ns ih =>
        intro h
        obtain ⟨d, hd⟩ := Option.isSome_iff_exists.1 (h n (by simp))
        simp [hd, ih fun m hm => h m (List.mem_cons_of_mem _ hm)]
  exact this _ fun n hn => isSome_datum?_of_mem hn

/-- No name has two numbers. -/
theorem nodup_names_sent (s : Statement α) : s.sent.names.Nodup := nodup_firsts _

end Statement

end BoundQuery

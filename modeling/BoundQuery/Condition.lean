/-
**Conditions, compiled to SQL with named markers.**

A condition is nothing at all, a SQL string, or a list of clauses.  Compiled together with bindings
it becomes a fragment in the following steps:

1. an empty condition is the empty text, with the bindings as they are;
2. the `?` markers get names, in a string under the stem `where_` and in clauses under a longer one;
3. list bindings are spread over one marker per element;
4. a text that now holds a named marker is the result;
5. a string without any marker is taken for a column if there is exactly one value: it becomes an
   equation of the quoted column and a marker;
6. every other text is the result as it stands.

Main definitions:

* `Condition`, `Condition.isEmpty` — what the caller gives;
* `Condition.compile` — the compiled fragment;
* `Condition.droppedLists` — the list bindings that step 3 drops.

Main results:

* `compile_of_isEmpty` — the bindings of an empty condition pass through;
* `hasList_compile` — the result of any other condition binds no list.
-/

import BoundQuery.Clause

set_option relaxedAutoImplicit false
set_option autoImplicit false

namespace BoundQuery

/-- The stem of every name that the compilation of a condition makes up. -/
def conditionStem : Text := "where_".toList

/-- A condition as the caller gives it. -/
inductive Condition (α : Type) where
  /-- No condition. -/
  | none
  /-- SQL, perhaps with markers, or the name of a column. -/
  | raw (sql : Text)
  /-- Clauses that must all hold. -/
  | clauses (cs : List (Clause α))
deriving DecidableEq, Repr

namespace Condition

variable {α : Type}

/-- Whether a condition has no text at all. -/
def isEmpty : Condition α → Bool
  | none => true
  | raw sql => sql.isEmpty
  | clauses cs => cs.isEmpty

/-- The condition with names for all its `?` markers. -/
def named (d : Dialect) (b : Bindings α) : Condition α → Fragment α
  | none => ⟨[], b⟩
  | raw sql => .namePositional conditionStem sql b
  | clauses cs => Clauses.compile d conditionStem " AND ".toList cs b

/-- The column that a string without `?` may stand for. -/
def bareColumn? : Condition α → Option Text
  | raw sql => if countPositional sql = 0 then some sql else Option.none
  | _ => Option.none

/-- The equation of a column and a value. -/
def equation (d : Dialect) (column : Text) (v : Value α) : Fragment α :=
  ⟨d.quote.quote column ++ " = :".toList ++ conditionStem ++ column,
    .ofList [(.name (conditionStem ++ column), v)]⟩

/-- What a text without markers means: an equation, if it is a column and there is one value. -/
def resolve (d : Dialect) (column? : Option Text) (f : Fragment α) : Fragment α :=
  if hasNamed f.sql then f
  else match column?, f.params.single? with
    | some c, some v => equation d c v
    | _, _ => f

/-- **The compiled condition.** -/
def compile (d : Dialect) (c : Condition α) (b : Bindings α) : Fragment α :=
  if c.isEmpty then ⟨[], b⟩ else resolve d c.bareColumn? (c.named d b).spread

/-- The list bindings that compiling the condition drops. -/
def droppedLists (d : Dialect) (c : Condition α) (b : Bindings α) : List (Key × Nat) :=
  if c.isEmpty then [] else (c.named d b).params.droppedLists

/-! ### First consequences -/

/-- The bindings of an empty condition pass through. -/
theorem compile_of_isEmpty (d : Dialect) {c : Condition α} (b : Bindings α)
    (h : c.isEmpty = true) : c.compile d b = ⟨[], b⟩ := by
  simp [compile, h]

/-- A text that stands for no column is left as it is. -/
theorem resolve_none (d : Dialect) (f : Fragment α) : resolve d Option.none f = f := by
  cases h : hasNamed f.sql with
  | true => simp only [resolve, h, if_true]
  | false => simp only [resolve, h, Bool.false_eq_true, if_false]

/-- **The result of a condition that is not empty binds no list.** -/
theorem hasList_compile (d : Dialect) {c : Condition α} (b : Bindings α)
    (h : c.isEmpty = false) : (c.compile d b).params.hasList = false := by
  simp only [compile, h, resolve]
  have hs := Fragment.hasList_spread (c.named d b)
  split
  · simp_all
  · split
    · exact hs
    · split
      · next c' v _ hv =>
          have hl := Bindings.isList_of_single? hv
          simp [equation, Bindings.ofList, Bindings.insertAll, Bindings.insert, Bindings.empty,
            Assoc.upsert, Bindings.hasList, hl]
      · exact hs

end Condition

end BoundQuery

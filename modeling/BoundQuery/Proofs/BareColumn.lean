/-
**A bare column with a value is a clause of that column.**

A condition on one column can be given in two ways: as a string that is nothing but the column, with
one value bound to whatever key, or as a clause.  The string is taken for a column at the very end
of compilation, when it turns out to hold no marker, and becomes an equation there.  The clause is
written as an equation at the start, and goes through every pass after that: it is joined with
nothing, searched for `?`, given a stem for them, merged with the bindings of others that are not
there, and looked through for lists and markers.

The equation holds the column twice, once quoted and once behind a colon, where it is read as part
of a name and whatever follows.  It can hold quote characters that open a span in the second copy
and a `?` inside that span.  The passes leave it alone nevertheless: the first copy is one span,
and the second is read with the spans that the column has by itself, in which every `?` lies.

Main results:

* `Condition.compile_bare_column` — a string without markers is compiled to the equation;
* `Condition.compile_single_column` — so is a clause;
* `Condition.bare_column_eq_clause` — **the two are the same**.
-/

import BoundQuery.Proofs.Canonical

set_option relaxedAutoImplicit false
set_option autoImplicit false

namespace BoundQuery

variable {α : Type}

namespace Condition

/-! ### The two ways -/

theorem hasList_equation (d : Dialect) (column : Text) {v : Value α} (hv : v.isList = false) :
    (equation d column v).params.hasList = false := by
  have hentries : (equation d column v).params.entries = [(.name (conditionStem ++ column), v)] :=
    rfl
  simp [Bindings.hasList, hentries, hv]

/-- **A string without markers is compiled to an equation**, if there is one value and it is no
list. -/
theorem compile_bare_column (d : Dialect) {column : Text} (hne : column ≠ [])
    (hslots : countPositional column = 0) (hnamed : hasNamed column = false) {b : Bindings α}
    {k : Key} {v : Value α} (hb : b.entries = [(k, v)]) (hv : v.isList = false) :
    (raw column).compile d b = equation d column v := by
  have hempty : (raw column : Condition α).isEmpty = false := List.isEmpty_eq_false_iff.2 hne
  have hbare : (raw column : Condition α).bareColumn? = some column := if_pos hslots
  have hsingle : b.single? = some v := by simp [Bindings.single?, hb, hv]
  have hspread : ((raw column).named d b).spread = ⟨column, b⟩ := by
    rw [named, Fragment.namePositional_of_none conditionStem b hslots]
    exact Fragment.spread_of_no_list (by simp [Bindings.hasList, hb, hv])
  simp only [compile, hempty, hspread, hbare, resolve, hnamed, hsingle, Bool.false_eq_true, if_false]

/-- The clause of a column is named as the equation, if the column has no `?` marker: there is
nothing to name in it and nothing to merge with it. -/
theorem named_single_column (d : Dialect) {column : Text} (hslots : countPositional column = 0)
    {v : Value α} (hv : v.isList = false) :
    (clauses [.column column v]).named d .empty = equation d column v := by
  have hwrite : (Clause.column column v).write d conditionStem = (equation d column v).sql := by
    rw [Clause.write, hv]
    rfl
  have hcolumns : Clauses.columns conditionStem [.column column v] =
      (equation d column v).params := by
    have hkey : Key.ofText (conditionStem ++ column) = .name (conditionStem ++ column) := by
      rw [conditionStem_eq]
      rfl
    simp [Clauses.columns, Clause.columnEntry?, hkey, equation]
  have hothers : Clauses.others [.column column v] (.empty : Bindings α) = .empty := rfl
  rw [named, Clauses.compile, List.map_singleton, Text.join_singleton, hothers, hwrite,
    Fragment.namePositional_of_none _ _ (countPositional_equation d v hslots), hcolumns]
  rfl

/-- **A clause of a column without `?` markers is compiled to an equation**, if its value is no
list. -/
theorem compile_single_column (d : Dialect) {column : Text} (hslots : countPositional column = 0)
    {v : Value α} (hv : v.isList = false) :
    (clauses [.column column v]).compile d .empty = equation d column v := by
  have hempty : (clauses [.column column v] : Condition α).isEmpty = false := rfl
  have hbare : (clauses [.column column v] : Condition α).bareColumn? = Option.none := rfl
  rw [compile, if_neg (by simp [hempty]), hbare, resolve_none, named_single_column d hslots hv]
  exact Fragment.spread_of_no_list (hasList_equation d column hv)

/-! ### The same -/

/-- **A bare column with a value is a clause of that column.**  For every way to quote, a string
without markers that is compiled with one value, which is no list and has whatever key, gives what
the clause of the string and the value gives without any bindings: the equation of the quoted string
and a marker named after it, and that marker's value. -/
theorem bare_column_eq_clause (d : Dialect) {column : Text} (hne : column ≠ [])
    (hslots : countPositional column = 0) (hnamed : hasNamed column = false) (k : Key)
    {v : Value α} (hv : v.isList = false) :
    (raw column).compile d (.ofList [(k, v)]) =
        (clauses [Clause.of column v]).compile d .empty ∧
      ((raw column).compile d (.ofList [(k, v)])).sql =
        d.quote.quote column ++ " = :where_".toList ++ column ∧
      ((raw column).compile d (.ofList [(k, v)])).params.entries =
        [(.name ("where_".toList ++ column), v)] := by
  have hclause : Clause.of column v = .column column v := by
    rw [Clause.of, hslots, if_neg (Nat.lt_irrefl 0)]
  have hsql : (equation d column v).sql =
      d.quote.quote column ++ " = :where_".toList ++ column := by
    have hstem : " = :where_".toList = " = :".toList ++ conditionStem := rfl
    rw [hstem, ← List.append_assoc]
    rfl
  have hbare := compile_bare_column d hne hslots hnamed (b := .ofList [(k, v)]) rfl hv
  rw [hbare, hclause, compile_single_column d hslots hv]
  exact ⟨rfl, hsql, rfl⟩

/-- A column with a cast, a colon, a span with a `?` in it and a quote character that opens a span in
its second copy, and a `NULL` at a position that the string has no marker for. -/
theorem bare_column_with_open_quote :
    let column := "a::b : 'why?' \"o".toList
    let v : Value Nat := .null
    column ≠ [] ∧ countPositional column = 0 ∧ hasNamed column = false ∧ v.isList = false ∧
      (raw column).compile .double (.ofList [(.index 3, v)]) =
        (clauses [Clause.of column v]).compile .double .empty ∧
      ((raw column).compile .double (.ofList [(.index 3, v)])).sql =
        "\"a::b : 'why?' \"\"o\" = :where_a::b : 'why?' \"o".toList := by
  intro column v
  have hne : column ≠ [] := List.cons_ne_nil _ _
  have hslots : countPositional column = 0 := by decide
  have hnamed : hasNamed column = false := by decide
  obtain ⟨heq, hsql, -⟩ :=
    bare_column_eq_clause .double hne hslots hnamed (.index 3) (v := v) rfl
  exact ⟨hne, hslots, hnamed, rfl, heq, hsql⟩

end Condition

end BoundQuery

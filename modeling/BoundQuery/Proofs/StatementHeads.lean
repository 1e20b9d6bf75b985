/-
**What stands before the condition of a statement.**

The statements that read or delete rows begin with fixed SQL, in which the names of a table and of
columns stand as quoted identifiers, and go on with a condition and perhaps a tail.  The names can
hold anything: quote characters, dots, `?`, a colon with a word behind it, or nothing at all.  The
quotes contain it.  What stands before the condition is inert, so the markers of the statement are
those of its condition and its tail, each read as if it stood alone.

A condition that opens a span and does not close it takes the tail with it, as it is the caller who
writes both.

Main definitions:

* `Command.selectHead`, `Command.countHead`, `Command.deleteHead` — the statements up to their
  condition;
* `Command.ReadsApart` — a statement in three parts, of which the first is inert.

Main results:

* `Command.isInert_selectHead`, `isInert_countHead`, `isInert_deleteHead` — **the statements begin
  with inert text**;
* `Statement.sent_of_isInert` — inert text is sent as it stands, with no values;
* `Command.identifiers_stay_quoted` — the markers of a statement are those of its condition and its
  tail, whatever its table and its columns hold.
-/

import BoundQuery.Proofs.InsertedRow

set_option relaxedAutoImplicit false
set_option autoImplicit false

namespace BoundQuery

open Token

variable {α : Type}

/-! ### Inert text as a statement -/

/-- Inert text has no place for a value. -/
theorem Bindings.places_of_isInert {s : Text} (h : s.IsInert) (b : Bindings α) :
    b.places s = [] := by
  have hnames : Token.names (tokenize s) = [] := by
    rw [names_eq_filterMap_markers, h.markers]
    rfl
  rw [places, hnames]
  rfl

/-- **Inert text is sent as it stands**, with no values, whatever bindings come with it. -/
theorem Statement.sent_of_isInert {s : Text} (h : s.IsInert) (b : Bindings α) :
    (Statement.ofFragment ⟨s, b⟩).sent = ⟨s, [], []⟩ := by
  have hplaces := b.places_of_isInert h
  have hsql : (Statement.ofFragment ⟨s, b⟩).sent.sql = s := by
    rw [sql_sent_ofFragment, flatMap_of_no_marker (fun _ => rfl) h.markers, write_tokenize]
  have hnames : (Statement.ofFragment ⟨s, b⟩).sent.names = [] := by
    rw [Statement.names_sent, boundNames_ofFragment, hplaces]
    rfl
  have hvalues : (Statement.ofFragment ⟨s, b⟩).sent.values = [] := by
    have hlength := Statement.length_names_sent (Statement.ofFragment ⟨s, b⟩)
    rw [hnames] at hlength
    exact List.length_eq_zero_iff.1 hlength
  generalize (Statement.ofFragment ⟨s, b⟩).sent = sent at hsql hnames hvalues
  cases sent
  simp only at hsql hnames hvalues
  rw [hsql, hnames, hvalues]

namespace Command

/-! ### The statements up to their condition -/

/-- A query for columns up to its condition. -/
def selectHead (d : Dialect) (table : Text) (columns : List Text) : Text :=
  "SELECT ".toList ++ selectList d columns ++ " FROM ".toList ++ d.quote.quotePath table

/-- A query for the number of rows up to its condition. -/
def countHead (d : Dialect) (table : Text) : Text :=
  "SELECT COUNT(*) FROM ".toList ++ d.quote.quotePath table

/-- A `DELETE` up to its condition, which is announced even if it is empty. -/
def deleteHead (d : Dialect) (table : Text) : Text :=
  "DELETE FROM ".toList ++ d.quote.quotePath table ++ " WHERE ".toList

/-- The text before the condition `matched` of a query: an empty condition is not announced. -/
def beforeCondition (head matched : Text) : Text :=
  head ++ if matched.isEmpty then [] else " WHERE ".toList

theorem isInert_selectColumn (d : Dialect) (column : Text) : (selectColumn d column).IsInert := by
  unfold selectColumn
  split
  · exact Text.IsPlainJoiner.isInert (by decide) (by decide)
  · exact d.quote.isInert_quote column

/-- The list of selected columns is inert, whatever they hold. -/
theorem isInert_selectList (d : Dialect) (columns : List Text) : (selectList d columns).IsInert := by
  unfold selectList
  split
  · exact Text.IsPlainJoiner.isInert (by decide) (by decide)
  · refine isInert_comma.join fun p hp => ?_
    obtain ⟨column, -, rfl⟩ := List.mem_map.1 hp
    exact isInert_selectColumn d column

theorem isInert_selectHead (d : Dialect) (table : Text) (columns : List Text) :
    (selectHead d table columns).IsInert := by
  have hselect : Text.IsInert "SELECT ".toList :=
    Text.IsPlainJoiner.isInert (by decide) (by decide)
  have hfrom : Text.IsInert " FROM ".toList := Text.IsPlainJoiner.isInert (by decide) (by decide)
  unfold selectHead
  exact ((hselect.append (isInert_selectList d columns)).append hfrom).append
    (d.quote.isInert_quotePath table)

theorem isInert_countHead (d : Dialect) (table : Text) : (countHead d table).IsInert := by
  have hcount : Text.IsInert "SELECT COUNT(*) FROM ".toList :=
    Text.IsPlainJoiner.isInert (by decide) (by decide)
  exact hcount.append (d.quote.isInert_quotePath table)

theorem isInert_where : Text.IsInert " WHERE ".toList :=
  Text.IsPlainJoiner.isInert (by decide) (by decide)

theorem isInert_deleteHead (d : Dialect) (table : Text) : (deleteHead d table).IsInert := by
  have hdelete : Text.IsInert "DELETE FROM ".toList :=
    Text.IsPlainJoiner.isInert (by decide) (by decide)
  exact (hdelete.append (d.quote.isInert_quotePath table)).append isInert_where

theorem isInert_beforeCondition {head : Text} (h : head.IsInert) (matched : Text) :
    (beforeCondition head matched).IsInert := by
  unfold beforeCondition
  split
  · rwa [List.append_nil]
  · exact h.append isInert_where

/-! ### Statements in parts -/

/-- A statement is read in parts: text without markers, behind which the reader stands outside spans
with nothing to remember, then a condition, then a tail. -/
structure ReadsApart (sql before matched tail : Text) : Prop where
  text : sql = before ++ (matched ++ if tail.isEmpty then [] else ' ' :: tail)
  inert : before.IsInert
  markers : tail = [] ∨ matched.IsClosed →
    markers (tokenize sql) = markers (tokenize matched) ++ markers (tokenize tail)

theorem ReadsApart.of_isInert {before : Text} (h : before.IsInert) (matched tail : Text) :
    ReadsApart (before ++ (matched ++ if tail.isEmpty then [] else ' ' :: tail)) before matched
      tail := by
  refine ⟨rfl, h, fun hclosed => ?_⟩
  rw [h.markers_append]
  cases tail with
  | nil => simp [Token.markers]
  | cons c tail =>
      have hspace : Text.IsSeparator [' '] :=
        Text.IsPlainJoiner.isSeparator (by decide) (by decide) rfl
      exact hspace.markers_closed_append (hclosed.resolve_left (List.cons_ne_nil c tail)) (c :: tail)

/-- A query that begins with inert text is read in parts. -/
theorem readsApart_finish {head : Text} (h : head.IsInert) (d : Dialect) (cond : Condition α)
    (b : Bindings α) (tail : Text) :
    ReadsApart (finish d head cond b tail).sql
      (beforeCondition head (cond.compile d b).sql) (cond.compile d b).sql tail := by
  have hparts := ReadsApart.of_isInert (isInert_beforeCondition h (cond.compile d b).sql)
    (cond.compile d b).sql tail
  have hsql : (finish d head cond b tail).sql =
      beforeCondition head (cond.compile d b).sql ++
        ((cond.compile d b).sql ++ if tail.isEmpty then [] else ' ' :: tail) := by
    unfold finish beforeCondition
    dsimp only
    generalize " WHERE ".toList = announced
    cases (cond.compile d b).sql with
    | nil => simp only [List.isEmpty_nil, if_true, List.append_nil, List.nil_append]
    | cons c matched =>
        simp only [List.isEmpty_cons, Bool.false_eq_true, if_false, List.append_assoc]
  rwa [← hsql] at hparts

theorem readsApart_delete (d : Dialect) (table : Text) (cond : Condition α) (b : Bindings α) :
    ReadsApart (delete d table cond b).sql (deleteHead d table) (cond.compile d b).sql [] := by
  have hparts := ReadsApart.of_isInert (isInert_deleteHead d table) (cond.compile d b).sql []
  rwa [if_pos List.isEmpty_nil, List.append_nil] at hparts

/-- **Identifiers stay within their quotes**, whatever they hold.  A query for columns, a query for
the number of rows and a `DELETE` begin with text that holds no marker and ends outside spans, and
their markers are those of the condition and the tail.  A `DELETE` with an empty condition is sent
as it stands with no values, whatever is bound. -/
theorem identifiers_stay_quoted (d : Dialect) (table : Text) (columns : List Text)
    (cond : Condition α) (b : Bindings α) (tail : Text) :
    ReadsApart (select d table columns cond b tail).sql
        (beforeCondition (selectHead d table columns) (cond.compile d b).sql)
        (cond.compile d b).sql tail ∧
      ReadsApart (count d table cond b).sql
        (beforeCondition (countHead d table) (cond.compile d b).sql) (cond.compile d b).sql [] ∧
      ReadsApart (delete d table cond b).sql (deleteHead d table) (cond.compile d b).sql [] ∧
      (cond.isEmpty = true →
        (Statement.ofFragment (delete d table cond b)).sent = ⟨deleteHead d table, [], []⟩) := by
  refine ⟨readsApart_finish (isInert_selectHead d table columns) d cond b tail,
    readsApart_finish (isInert_countHead d table) d cond b [], readsApart_delete d table cond b,
    fun hempty => ?_⟩
  have hdelete : delete d table cond b = ⟨deleteHead d table, b⟩ := by
    unfold delete deleteHead
    rw [cond.compile_of_isEmpty d b hempty]
    generalize "DELETE FROM ".toList ++ d.quote.quotePath table ++ " WHERE ".toList = head
    exact congrArg (Fragment.mk · b) (List.append_nil head)
  rw [hdelete]
  exact Statement.sent_of_isInert (isInert_deleteHead d table) b

/-- A path whose segments hold all the quote characters, a `?` and a colon, columns that hold a
marker or nothing, a condition with a list, and a tail with a `?`; and a `DELETE` from the same path
with an empty condition and a list. -/
theorem hostile_names_stay_quoted :
    let table := "a`` b.c:x\"?'".toList
    let columns := ["`:n`?".toList, "*".toList, []]
    let cond : Condition Nat := .raw "a = ? AND b IN (:n)".toList
    let b : Bindings Nat := .ofList [(.index 0, .scalar (some 5)),
      (.name "n".toList, .list [some 1, some 2])]
    let sql := (select {} table columns cond b "LIMIT ?".toList).sql
    ((cond.compile {} b).sql.IsClosed ∧
      markers (tokenize sql) = [.named "where_0".toList, .named "n0".toList, .named "n1".toList,
        .positional]) ∧
    (Condition.none : Condition Nat).isEmpty = true ∧
      (Statement.ofFragment (delete {} table .none b)).sent =
        ⟨"DELETE FROM `a```` b`.`c:x\"?'` WHERE ".toList, [], []⟩ := by
  intro table columns cond b sql
  have hclosed : (cond.compile {} b).sql.IsClosed := by decide
  obtain ⟨hselect, -, -, -⟩ := identifiers_stay_quoted {} table columns cond b "LIMIT ?".toList
  obtain ⟨-, -, -, hdelete⟩ := identifiers_stay_quoted {} table columns .none b []
  refine ⟨⟨hclosed, (hselect.markers (.inr hclosed)).trans (by decide)⟩, rfl, ?_⟩
  exact (hdelete rfl).trans (congrArg (Sent.mk · [] []) (by decide))

end Command

end BoundQuery

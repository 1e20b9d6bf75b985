/-
**Which value the marker of a column has.**

The marker of a column is named after the column alone, and its value is inserted into a map, into
which the named bindings of the caller are merged afterwards.  So two clauses on one column share a
marker, and so do a column and a binding of the caller's that has the marker's name: of clauses on
one column the last gives the value, and the caller's binding replaces it.

A column therefore keeps its own value exactly if nobody else gives its marker another.  Where this
fails nothing is refused, and a marker behind `=` can be bound to a list.

Main definitions:

* `Clause.valueOf?`, `Clauses.lastValue?` — the value that clauses last give a column;
* `Clauses.KeepsColumns` — the marker of every column is bound to the column's own value.

Main results:

* `Clauses.get?_compile_column` — **what the marker of a column is bound to**;
* `Clauses.keepsColumns_compile_iff` — **when every column keeps its value**;
* `Clauses.columns_lose_values` — clauses whose columns do not.
-/

import BoundQuery.Proofs.SlotAlignment

set_option relaxedAutoImplicit false
set_option autoImplicit false

namespace BoundQuery

open Token

variable {α : Type}

/-! ### The last value of a key -/

/-- The value that entries last give a key. -/
def Assoc.last? {κ ν : Type} [DecidableEq κ] (k : κ) (es : List (κ × ν)) : Option ν :=
  (es.filterMap fun e => if e.1 = k then some e.2 else none).getLast?

theorem Assoc.last?_cons {κ ν : Type} [DecidableEq κ] (k : κ) (e : κ × ν) (es : List (κ × ν)) :
    last? k (e :: es) = (last? k es).or (if e.1 = k then some e.2 else none) := by
  by_cases he : e.1 = k
  · simp only [last?, List.filterMap_cons, if_pos he, List.getLast?_cons]
    cases (es.filterMap fun e => if e.1 = k then some e.2 else none).getLast? <;> rfl
  · simp [last?, he]

/-- Of entries inserted one after the other, the last one with a key gives its value. -/
theorem Bindings.get?_insertAll_eq_last? (b : Bindings α) (es : List (Key × Value α)) (k : Key) :
    (b.insertAll es).get? k = (Assoc.last? k es).or (b.get? k) := by
  induction es generalizing b with
  | nil => rfl
  | cons e es ih =>
      have hstep : (b.insertAll (e :: es)).get? k = ((b.insert e.1 e.2).insertAll es).get? k := rfl
      rw [hstep, ih, get?_insert, Assoc.last?_cons, Option.or_assoc]
      by_cases he : e.1 = k
      · rw [if_pos he, if_pos he, Option.some_or]
      · rw [if_neg he, if_neg he, Option.none_or]

/-! ### Columns -/

/-- The value that a clause gives a column. -/
def Clause.valueOf? (name : Text) : Clause α → Option (Value α)
  | column c v => if c = name then some v else none
  | _ => none

/-- The columns of clauses are words. -/
def Clause.HasWordColumn : Clause α → Prop
  | column c _ => ∀ x ∈ c, isWordChar x = true
  | _ => True

instance : (c : Clause α) → Decidable c.HasWordColumn
  | .raw _ => .isTrue trivial
  | .bound _ _ => .isTrue trivial
  | .column c _ => List.decidableBAll (fun x => isWordChar x = true) c

/-- A word has no colon to be taken off. -/
theorem Key.ofText_of_word {t : Text} (h : ∀ x ∈ t, isWordChar x = true) : ofText t = name t := by
  cases t with
  | nil => rfl
  | cons x t =>
      have hx : x ≠ ':' := ne_of_isWordChar (h x List.mem_cons_self) isWordChar_colon
      simp only [ofText]
      split
      · next heq => exact absurd (List.cons.inj heq).1 hx
      · rfl

namespace Clauses

/-- The value that clauses last give a column. -/
def lastValue? (name : Text) (cs : List (Clause α)) : Option (Value α) :=
  (cs.filterMap (Clause.valueOf? name)).getLast?

theorem mem_lastValue? {name : Text} {cs : List (Clause α)} {v : Value α}
    (h : lastValue? name cs = some v) : Clause.column name v ∈ cs := by
  obtain ⟨c, hc, hv⟩ := List.mem_filterMap.1 (List.mem_of_getLast? h)
  cases c with
  | raw sql => cases hv
  | bound sql w => cases hv
  | column n w =>
      simp only [Clause.valueOf?] at hv
      split at hv
      · next hn =>
          cases hv
          exact hn ▸ hc
      · cases hv

theorem exists_lastValue? {name : Text} {cs : List (Clause α)} {v : Value α}
    (h : Clause.column name v ∈ cs) : ∃ w, lastValue? name cs = some w := by
  have hmem : v ∈ cs.filterMap (Clause.valueOf? name) :=
    List.mem_filterMap.2 ⟨_, h, if_pos rfl⟩
  exact ⟨_, List.getLast?_eq_some_getLast (List.ne_nil_of_mem hmem)⟩

variable {stem : Text} {cs : List (Clause α)}

/-- The key of a column's marker is its name. -/
theorem columnEntry?_eq (hstem : ∀ x ∈ stem, isWordChar x = true) {c : Clause α}
    (hc : c.HasWordColumn) {e : Key × Value α} (h : c.columnEntry? stem = some e) :
    ∃ n v, c = .column n v ∧ e = (.name (stem ++ n), v) := by
  cases c with
  | raw sql => cases h
  | bound sql v => cases h
  | column n v =>
      cases h
      exact ⟨n, v, rfl, by rw [Key.ofText_of_word (List.forall_mem_append.2 ⟨hstem, hc⟩)]⟩

/-- The marker of a column is bound to the last value that clauses give the column. -/
theorem get?_columns (hstem : ∀ x ∈ stem, isWordChar x = true) (hcs : ∀ c ∈ cs, c.HasWordColumn)
    (name : Text) : (columns stem cs).get? (.name (stem ++ name)) = lastValue? name cs := by
  have hentries : (cs.filterMap (Clause.columnEntry? stem)).filterMap (fun e =>
      if e.1 = .name (stem ++ name) then some e.2 else none) =
        cs.filterMap (Clause.valueOf? name) := by
    rw [List.filterMap_filterMap]
    refine List.filterMap_congr fun c hc => ?_
    cases hentry : c.columnEntry? stem with
    | none => cases c with
      | raw sql => rfl
      | bound sql v => rfl
      | column n v => cases hentry
    | some e =>
        obtain ⟨n, v, rfl, rfl⟩ := columnEntry?_eq hstem (hcs c hc) hentry
        simp [Clause.valueOf?]
  rw [columns, Bindings.ofList, Bindings.get?_insertAll_eq_last?, Assoc.last?, hentries]
  exact Option.or_none

theorem mem_names_columns_of_mem (hstem : ∀ x ∈ stem, isWordChar x = true)
    (hcs : ∀ c ∈ cs, c.HasWordColumn) {n : Text} {v : Value α} (h : Clause.column n v ∈ cs) :
    stem ++ n ∈ (columns stem cs).names := by
  obtain ⟨w, hw⟩ := exists_lastValue? h
  exact Bindings.mem_names_of_get? ((get?_columns hstem hcs n).trans hw)

/-- **What the marker of a column is bound to**: what the caller binds to its name, and else the
last value that the clauses give the column. -/
theorem get?_compile_column (d : Dialect) (joiner : Text)
    (hstem : ∀ x ∈ stem, isWordChar x = true) (hcs : ∀ c ∈ cs, c.HasWordColumn)
    (extra : Bindings α) {n : Text} {v : Value α} (h : Clause.column n v ∈ cs) :
    (compile d stem joiner cs extra).params.get? (.name (stem ++ n)) =
      (extra.get? (.name (stem ++ n))).or (lastValue? n cs) := by
  have hmem := mem_names_columns_of_mem hstem hcs h
  rw [get?_compile_name d joiner (.inl hmem), get?_columns hstem hcs]

end Clauses

/-! ### The marker that is written -/

/-- **The part of a column holds one marker**, named by the stem and the column. -/
theorem Clause.names_write_column (d : Dialect) {stem c : Text}
    (hstem : ∀ x ∈ stem, isWordChar x = true) (hc : ∀ x ∈ c, isWordChar x = true)
    (hne : stem ++ c ≠ []) (v : Value α) :
    names (tokenize ((Clause.column c v).write d stem)) = [stem ++ c] := by
  have hname : (stem ++ c).isName = true :=
    (Text.isName_iff _).2 ⟨hne, List.forall_mem_append.2 ⟨hstem, hc⟩⟩
  have hquote : names (scan .plain (d.quote.quote c)) = [] := by
    refine names_scan_of_no_colon (fun h => ?_) .plain
    rcases QuoteStyle.mem_quote h with h | h
    · exact absurd (h ▸ d.quote.isQuoteChar_char) (by decide)
    · exact absurd (hc _ h) (by decide)
  have hafter : Mode.plain.after (d.quote.quote c) = .plain := d.quote.after_quote c .plain rfl
  -- what is written behind the quoted column, for a list and for any other value
  have hrest : ∀ before after : Text, ':' ∉ before → before.startsWord = false → before ≠ [] →
      Mode.plain.after before = .plain → ':' ∉ after → after.startsWord = false →
      names (scan .plain (d.quote.quote c ++ (before ++ ':' :: (stem ++ c ++ after)))) =
        [stem ++ c] := by
    intro before after hcolon hword hbefore hplain hcolon' hword'
    have hstart : (before ++ ':' :: (stem ++ c ++ after)).startsWord = false := by
      rw [Text.startsWord_append hbefore, hword]
    have hmarker : Text.startsWord (':' :: (stem ++ c ++ after)) = false := isWordChar_colon
    rw [names_scan_append fun _ => hstart, hquote, hafter, names_scan_append fun _ => hmarker,
      names_scan_of_no_colon hcolon, hplain, scan_marker rfl rfl hname hword', names_cons,
      names_scan_of_no_colon hcolon']
    rfl
  rw [tokenize, write]
  cases hv : v.isList with
  | true =>
      have hlist := hrest " IN (".toList ")".toList (by decide) (by decide) (by decide) (by decide)
        (by decide) (by decide)
      simpa using hlist
  | false =>
      have hvalue := hrest " = ".toList [] (by decide) (by decide) (by decide) (by decide)
        (by decide) (by decide)
      simpa using hvalue

namespace Clauses

/-! ### When columns keep their values -/

/-- The marker of every column is bound to the column's own value. -/
def KeepsColumns (stem : Text) (cs : List (Clause α)) (params : Bindings α) : Prop :=
  ∀ n v, Clause.column n v ∈ cs → params.get? (.name (stem ++ n)) = some v

/-- **When every column keeps its value.**  The part of a column holds one marker, named after the
column; and every column's marker is bound to the column's own value exactly if the clauses give no
column two values and the caller binds the marker of no column to another. -/
theorem keepsColumns_compile_iff (d : Dialect) {stem : Text} (joiner : Text) {cs : List (Clause α)}
    (hstem : ∀ x ∈ stem, isWordChar x = true) (hcs : ∀ c ∈ cs, c.HasWordColumn)
    (extra : Bindings α) :
    (∀ n v, Clause.column n v ∈ cs → stem ++ n ≠ [] →
      names (tokenize ((Clause.column n v).write d stem)) = [stem ++ n]) ∧
    (KeepsColumns stem cs (compile d stem joiner cs extra).params ↔
      (∀ n v w, Clause.column n v ∈ cs → Clause.column n w ∈ cs → v = w) ∧
      ∀ n v w, Clause.column n v ∈ cs → extra.get? (.name (stem ++ n)) = some w → w = v) := by
  refine ⟨fun n v hn hne => Clause.names_write_column d hstem (hcs _ hn) hne v, ?_, ?_⟩
  · intro hkeeps
    refine ⟨fun n v w hv hw => ?_, fun n v w hv hw => ?_⟩
    · exact Option.some.inj ((hkeeps n v hv).symm.trans (hkeeps n w hw))
    · have hget := get?_compile_column d joiner hstem hcs extra hv
      rw [hkeeps n v hv, hw, Option.some_or] at hget
      exact (Option.some.inj hget).symm
  · rintro ⟨hsame, hextra⟩ n v hv
    rw [get?_compile_column d joiner hstem hcs extra hv]
    cases hw : extra.get? (.name (stem ++ n)) with
    | some w => rw [hextra n v w hv hw, Option.some_or]
    | none =>
        obtain ⟨w, hlast⟩ := exists_lastValue? hv
        rw [hlast, hsame n w v (mem_lastValue? hlast) hv, Option.none_or]

/-- A column that is given one list twice, and whose marker the caller binds to that list too. -/
theorem repeated_column_keeps :
    let ids : Value Nat := .list [some 1, none]
    let cs : List (Clause Nat) :=
      [.column "id".toList ids, .raw "a = ?".toList, .column "id".toList ids]
    let extra : Bindings Nat := .ofList [(.name "w_id".toList, ids), (.index 4, .null)]
    (∀ x ∈ "w_".toList, isWordChar x = true) ∧ (∀ c ∈ cs, c.HasWordColumn) ∧
    names (tokenize ((Clause.column "id".toList ids).write .double "w_".toList)) =
      ["w_id".toList] ∧
    KeepsColumns "w_".toList cs (compile .double "w_".toList " OR ".toList cs extra).params := by
  intro ids cs extra
  have hstem : ∀ x ∈ "w_".toList, isWordChar x = true := List.all_eq_true.1 (by decide)
  have hcs : ∀ c ∈ cs, c.HasWordColumn := by decide
  have hextra : extra.get? (.name ("w_".toList ++ "id".toList)) = some ids := by decide
  have hcolumn : ∀ {n v}, Clause.column n v ∈ cs → n = "id".toList ∧ v = ids := by
    intro n v h
    simpa [cs] using h
  obtain ⟨hmarker, hkeeps⟩ := keepsColumns_compile_iff .double " OR ".toList hstem hcs extra
  refine ⟨hstem, hcs, hmarker _ ids List.mem_cons_self (by decide), hkeeps.2 ⟨?_, ?_⟩⟩
  · intro n v w hv hw
    rw [(hcolumn hv).2, (hcolumn hw).2]
  · intro n v w hv hw
    rw [(hcolumn hv).1, hextra] at hw
    rw [(hcolumn hv).2, Option.some.inj hw]

/-- **Columns that lose their values**: a column given a value and a list, whose equation is sent
with the list, and a column whose marker the caller binds to another value. -/
theorem columns_lose_values :
    let mixed : List (Clause Nat) :=
      [.column "a".toList (.scalar (some 1)), .column "a".toList (.list [some 1, some 2])]
    let taken : List (Clause Nat) := [.column "status".toList (.scalar (some 1))]
    let extra : Bindings Nat := .ofList [(.name "where_status".toList, .scalar (some 9))]
    (¬ KeepsColumns conditionStem mixed
        (compile .double conditionStem " AND ".toList mixed .empty).params ∧
      (Statement.ofFragment ((Condition.clauses mixed).compile .double .empty)).sent =
        ⟨"\"a\" = $1,$2 AND \"a\" IN ($1,$2)".toList, ["where_a0".toList, "where_a1".toList],
          [some 1, some 2]⟩) ∧
    (¬ KeepsColumns conditionStem taken
        (compile .double conditionStem " AND ".toList taken extra).params ∧
      (Statement.ofFragment ((Condition.clauses taken).compile .double extra)).sent =
        ⟨"\"status\" = $1".toList, ["where_status".toList], [some 9]⟩) := by
  intro mixed taken extra
  refine ⟨⟨fun h => ?_, by decide⟩, ⟨fun h => ?_, by decide⟩⟩
  · exact absurd (h "a".toList (.scalar (some 1)) (by decide)) (by decide)
  · exact absurd (h "status".toList (.scalar (some 1)) (by decide)) (by decide)

end Clauses

end BoundQuery

/-
**What is sent for an inserted row.**

A column of an inserted row is written twice: quoted in the list of columns, where it can hold
anything, and behind a colon as the name of its marker, where the reader takes word characters only.
So a row is sent as it was given exactly if its columns are words.  In any other row a marker ends
early.  What it is read as has no value, or has the value of another column, and in both cases the
value of the column itself is not sent.

Main definitions:

* `Command.insertHead` — an `INSERT` up to its values;
* `rowTokens` — the tokens of the values;
* `Command.SendsRow` — a row is sent: a placeholder and a value for each column, in order.

Main results:

* `Command.insertColumns_eq_ok_iff` — which clauses are a row;
* `tokenize_row` — the values are read as one marker for each column, if these are words;
* `Command.boundNames_subset` — only the values of columns that are words are sent;
* `Command.insert_sendsRow_iff` — **a row is sent exactly if its columns are words**;
* `Command.row_not_sent` — rows that are not sent.
-/

import Mathlib.Data.List.Nodup
import BoundQuery.Command
import BoundQuery.Proofs.Grammar
import BoundQuery.Proofs.PlainText
import BoundQuery.Proofs.Positional

set_option relaxedAutoImplicit false
set_option autoImplicit false

namespace BoundQuery

open Token

variable {α : Type}

/-- The name of a marker is a word. -/
theorem isName_of_mem_names {t n : Text} (h : n ∈ names (tokenize t)) : n.isName = true := by
  obtain ⟨k, hk, hname⟩ := List.mem_filterMap.1 h
  cases k with
  | text s => cases hname
  | positional => cases hname
  | named m =>
      cases hname
      obtain ⟨us, vs, hsplit⟩ := List.append_of_mem hk
      obtain ⟨-, -, -, hrun, hne⟩ := ((isReading_tokenize t).named _ n).1 ⟨us, vs, hsplit, rfl⟩
      refine (Text.isName_iff n).2 ⟨hne, fun c hc => ?_⟩
      rw [hrun] at hc
      exact List.all_eq_true.1 List.all_takeWhile c hc

theorem Statement.names_sent (s : Statement α) : s.sent.names = s.boundNames := rfl

/-! ### The values of a row -/

/-- The tokens of the values of a row, up to the closing parenthesis. -/
def rowTokens : Text → List Text → List Token
  | n, [] => [.named n, .text ")".toList]
  | n, n' :: ns => .named n :: .text ", ".toList :: rowTokens n' ns

theorem names_rowTokens (n : Text) (ns : List Text) : names (rowTokens n ns) = n :: ns := by
  induction ns generalizing n with
  | nil => rfl
  | cons n' ns ih => rw [rowTokens, names_cons, names_cons, ih]; rfl

theorem flatMap_rowTokens {w : Token → Text} (hw : ∀ s, w (.text s) = s) (n : Text)
    (ns : List Text) : (rowTokens n ns).flatMap w =
      Text.join ", ".toList ((n :: ns).map fun m => w (.named m)) ++ ")".toList := by
  induction ns generalizing n with
  | nil => simp [rowTokens, hw]
  | cons n' ns ih =>
      simp only [rowTokens, List.flatMap_cons, ih, hw, List.map_cons, Text.join_cons_cons,
        List.append_assoc]

/-- The reader passes over a comma and a space. -/
theorem scan_comma (t : Text) :
    scan .name (", ".toList ++ t) = addText ',' (addText ' ' (tokenize t)) := rfl

/-- **The values of a row are read as one marker for each name.** -/
theorem tokenize_row {n : Text} {ns : List Text} (h : ∀ m ∈ n :: ns, m.isName = true) :
    tokenize (Text.join ", ".toList ((n :: ns).map (':' :: ·)) ++ ")".toList) = rowTokens n ns := by
  induction ns generalizing n with
  | nil =>
      rw [List.map_singleton, Text.join_singleton]
      exact scan_marker rfl rfl (h n List.mem_cons_self) rfl
  | cons n' ns ih =>
      have hrest := ih fun m hm => h m (List.mem_cons_of_mem n hm)
      rw [List.map_cons, List.map_cons, Text.join_cons_cons, List.append_assoc, List.append_assoc,
        ← List.map_cons, tokenize, List.cons_append,
        scan_marker rfl rfl (h n List.mem_cons_self) rfl, scan_comma, hrest]
      cases ns <;> rfl

namespace Command

/-! ### Rows -/

/-- The clauses of a row. -/
def rowClauses (row : List (Text × Value α)) : List (Clause α) :=
  row.map fun x => .column x.1 x.2

/-- **Which clauses are a row**: columns with values that are no lists. -/
theorem insertColumns_eq_ok_iff {cs : List (Clause α)} {row : List (Text × Value α)} :
    insertColumns cs = .ok row ↔ cs = rowClauses row ∧ ∀ x ∈ row, x.2.isList = false := by
  induction cs generalizing row with
  | nil =>
      constructor
      · rintro ⟨⟩
        exact ⟨rfl, fun x hx => absurd hx List.not_mem_nil⟩
      · rintro ⟨h, -⟩
        cases row with
        | nil => rfl
        | cons x row => cases h
  | cons c cs ih =>
      constructor
      · intro h
        simp only [insertColumns] at h
        split at h
        · cases h
        · next x hx =>
            split at h
            · cases h
            · next xs hxs =>
                cases h
                obtain ⟨rfl, hscalar⟩ := ih.1 hxs
                cases c with
                | raw sql => cases hx
                | bound sql v => cases hx
                | column n v =>
                    simp only [insertColumn] at hx
                    split at hx
                    · cases hx
                    · next hv =>
                        cases hx
                        exact ⟨rfl, List.forall_mem_cons.2 ⟨Bool.not_eq_true _ ▸ hv, hscalar⟩⟩
      · rintro ⟨h, hscalar⟩
        cases row with
        | nil => cases h
        | cons x row =>
            obtain ⟨rfl, hcs⟩ := List.cons.inj h
            obtain ⟨hx, hrow⟩ := List.forall_mem_cons.1 hscalar
            have hrest : insertColumns cs = .ok row := ih.2 ⟨hcs, hrow⟩
            simp [insertColumns, insertColumn, hx, hrest]

theorem insertStem_ne_nil : insertStem ≠ [] := by decide

theorem isWordChar_insertStem : ∀ c ∈ insertStem, isWordChar c = true :=
  List.all_eq_true.1 (by decide)

/-- An `INSERT` up to its values. -/
def insertHead (d : Dialect) (table : Text) (columns : List Text) : Text :=
  "INSERT INTO ".toList ++ d.quote.quotePath table ++ " (".toList ++
    Text.join ", ".toList (columns.map d.quote.quote) ++ ") VALUES (".toList

/-- The names of the markers of a row. -/
def insertNames (row : List (Text × Value α)) : List Text := row.map fun x => insertStem ++ x.1

/-- The bindings of a row. -/
def insertParams (row : List (Text × Value α)) : Bindings α :=
  .ofList (row.map fun x => (.name (insertStem ++ x.1), x.2))

/-- The fragment of a row. -/
def insertRow (d : Dialect) (table : Text) (row : List (Text × Value α)) : Fragment α :=
  ⟨insertHead d table (row.map Prod.fst) ++
      (Text.join ", ".toList ((insertNames row).map (':' :: ·)) ++ ")".toList),
    insertParams row⟩

/-- Every row can be inserted, if no value is a list. -/
theorem insert_rowClauses (d : Dialect) (table : Text) {row : List (Text × Value α)}
    (hrow : row ≠ []) (hscalar : ∀ x ∈ row, x.2.isList = false) :
    insert d table (rowClauses row) = .ok (insertRow d table row) := by
  have hcolumns : insertColumns (rowClauses row) = .ok row :=
    insertColumns_eq_ok_iff.2 ⟨rfl, hscalar⟩
  have hne : (rowClauses row).isEmpty = false := by simpa [rowClauses] using hrow
  simp only [insert, hne, hcolumns, Bool.false_eq_true, if_false]
  unfold insertRow insertHead insertNames insertParams
  simp only [List.map_map, Function.comp_def, List.append_assoc]

theorem isInert_comma : Text.IsInert ", ".toList :=
  Text.IsPlainJoiner.isInert (by decide) (by decide)

/-- The start of an `INSERT` is inert, whatever its table holds. -/
theorem isInert_insertInto (d : Dialect) (table : Text) :
    Text.IsInert ("INSERT INTO ".toList ++ d.quote.quotePath table) := by
  have hinto : Text.IsInert "INSERT INTO ".toList :=
    Text.IsPlainJoiner.isInert (by decide) (by decide)
  exact hinto.append (d.quote.isInert_quotePath table)

/-- Up to its values an `INSERT` is inert, whatever its table and columns hold. -/
theorem isInert_insertHead (d : Dialect) (table : Text) (columns : List Text) :
    (insertHead d table columns).IsInert := by
  have hopen : Text.IsInert " (".toList := Text.IsPlainJoiner.isInert (by decide) (by decide)
  have hvalues : Text.IsInert ") VALUES (".toList :=
    Text.IsPlainJoiner.isInert (by decide) (by decide)
  have hcolumns : (Text.join ", ".toList (columns.map d.quote.quote)).IsInert := by
    refine isInert_comma.join fun p hp => ?_
    obtain ⟨column, -, rfl⟩ := List.mem_map.1 hp
    exact d.quote.isInert_quote column
  unfold insertHead
  exact (((isInert_insertInto d table).append hopen).append hcolumns).append hvalues

section

variable {d : Dialect} {table : Text} {row : List (Text × Value α)}

theorem nodup_insertNames (hdistinct : (row.map Prod.fst).Nodup) : (insertNames row).Nodup := by
  have hinj : Function.Injective fun n : Text => insertStem ++ n := fun _ _ heq =>
    List.append_cancel_left heq
  have h := hdistinct.map hinj
  rwa [List.map_map] at h

theorem entries_insertParams (hdistinct : (row.map Prod.fst).Nodup) :
    (insertParams row).entries = row.map fun x => (Key.name (insertStem ++ x.1), x.2) := by
  refine Bindings.entries_ofList ?_
  have h := (nodup_insertNames hdistinct).map fun _ _ heq => Key.name.inj heq
  rw [insertNames, List.map_map] at h
  rwa [Assoc.keys, List.map_map]

/-- The marker of a column is bound to its value. -/
theorem datum?_insertParams (hdistinct : (row.map Prod.fst).Nodup) {x : Text × Value α}
    (hx : x ∈ row) : (insertParams row).datum? (insertStem ++ x.1) = x.2.datum? := by
  have hget : (insertParams row).get? (.name (insertStem ++ x.1)) = some x.2 := by
    rw [Bindings.get?_eq_some_iff, entries_insertParams hdistinct]
    exact List.mem_map.2 ⟨x, hx, rfl⟩
  rw [Bindings.datum?, hget]
  rfl

/-- Every marker of a row has a datum. -/
theorem isSome_datum?_insertParams (hdistinct : (row.map Prod.fst).Nodup)
    (hscalar : ∀ x ∈ row, x.2.isList = false) :
    ∀ n ∈ insertNames row, ((insertParams row).datum? n).isSome = true := by
  intro n hn
  obtain ⟨x, hx, rfl⟩ := List.mem_map.1 hn
  rw [datum?_insertParams hdistinct hx, Value.isSome_datum?, hscalar x hx]
  rfl

/-- A name with a datum is that of a column's marker. -/
theorem exists_of_isSome_datum? (hdistinct : (row.map Prod.fst).Nodup) {n : Text}
    (h : ((insertParams row).datum? n).isSome = true) : ∃ x ∈ row, n = insertStem ++ x.1 := by
  obtain ⟨v, hv, -⟩ := Option.bind_eq_some_iff.1 (Option.some_get h).symm
  rw [Bindings.get?_eq_some_iff, entries_insertParams hdistinct] at hv
  obtain ⟨x, hx, heq⟩ := List.mem_map.1 hv
  cases heq
  exact ⟨x, hx, rfl⟩

/-- A row has no lists to spread. -/
theorem ofFragment_insertRow (d : Dialect) (table : Text) (hdistinct : (row.map Prod.fst).Nodup)
    (hscalar : ∀ x ∈ row, x.2.isList = false) :
    Statement.ofFragment (insertRow d table row) =
      ⟨(insertRow d table row).sql, insertParams row⟩ := by
  have hlist : (insertRow d table row).params.hasList = false := by
    simpa [insertRow, Bindings.hasList, entries_insertParams hdistinct] using hscalar
  rw [Statement.ofFragment, Fragment.spread_of_no_list hlist]
  rfl

/-! ### What is sent -/

/-- The markers that are bound are markers of columns that are words. -/
theorem boundNames_subset (d : Dialect) (table : Text) (hdistinct : (row.map Prod.fst).Nodup)
    (hscalar : ∀ x ∈ row, x.2.isList = false) :
    (Statement.ofFragment (insertRow d table row)).boundNames ⊆
      insertNames (row.filter fun x => x.1.all isWordChar) := by
  intro n hn
  rw [ofFragment_insertRow d table hdistinct hscalar] at hn
  obtain ⟨hmem, hdatum⟩ := List.mem_filter.1 (mem_firsts.1 hn)
  obtain ⟨x, hx, rfl⟩ := exists_of_isSome_datum? hdistinct hdatum
  have hword := ((Text.isName_iff _).1 (isName_of_mem_names hmem)).2
  refine List.mem_map.2 ⟨x, List.mem_filter.2 ⟨hx, ?_⟩, rfl⟩
  exact List.all_eq_true.2 fun c hc => hword c (List.mem_append_right _ hc)

/-- **No more values are sent than columns that are words.** -/
theorem length_values_le (hdistinct : (row.map Prod.fst).Nodup)
    (hscalar : ∀ x ∈ row, x.2.isList = false) :
    (Statement.ofFragment (insertRow d table row)).sent.values.length ≤
      row.countP fun x => x.1.all isWordChar := by
  have hsubset := boundNames_subset d table hdistinct hscalar
  rw [Statement.length_names_sent, Statement.names_sent]
  have hle := List.Nodup.length_le_of_subset (nodup_firsts _) hsubset
  rwa [insertNames, List.length_map, ← List.countP_eq_length_filter] at hle

end

/-- **A row is sent**: every column has a placeholder, numbered in the order of the columns, its
value has that number, and no marker is left. -/
structure SendsRow (d : Dialect) (table : Text) (row : List (Text × Value α)) (s : Sent α) :
    Prop where
  sql : s.sql = insertHead d table (row.map Prod.fst) ++
    (Text.join ", ".toList ((List.range row.length).map fun i => '$' :: decimal (i + 1)) ++
      ")".toList)
  values : s.values.map some = row.map fun x => x.2.datum?
  resolved : markers (tokenize s.sql) = []

/-- The text with placeholders has no marker. -/
theorem isInert_placeholders (d : Dialect) (table : Text) (columns : List Text) (n : Nat) :
    (insertHead d table columns ++
      (Text.join ", ".toList ((List.range n).map fun i => '$' :: decimal (i + 1)) ++
        ")".toList)).IsInert := by
  have hclose : Text.IsInert ")".toList := Text.IsPlainJoiner.isInert (by decide) (by decide)
  have hnumber : ∀ p ∈ (List.range n).map fun i => '$' :: decimal (i + 1), Text.IsInert p := by
    intro p hp
    obtain ⟨i, -, rfl⟩ := List.mem_map.1 hp
    exact isInert_placeholder (i + 1)
  exact (isInert_insertHead d table columns).append ((isInert_comma.join hnumber).append hclose)

/-- Distinct names are numbered in order. -/
theorem map_writeNumbered {ns : List Text} (h : ns.Nodup) :
    ns.map (fun n => Token.writeNumbered ns (.named n)) =
      (List.range ns.length).map fun i => '$' :: decimal (i + 1) := by
  refine List.ext_getElem (by simp) fun i hi hi' => ?_
  have hidx := h.idxOf_getElem i (by simpa using hi)
  rw [List.getElem_map, List.getElem_map, List.getElem_range, Token.writeNumbered, position?,
    idxOf?_of_mem (List.getElem_mem _), hidx]
  rfl

section

variable {d : Dialect} {table : Text} {row : List (Text × Value α)}

/-- Behind the head, a row whose columns are words is read as the markers of its columns. -/
theorem exists_tokenize_row (hrow : row ≠ [])
    (hword : ∀ x ∈ row, ∀ c ∈ x.1, isWordChar c = true) :
    ∃ n ns, insertNames row = n :: ns ∧
      tokenize (Text.join ", ".toList ((insertNames row).map (':' :: ·)) ++ ")".toList) =
        rowTokens n ns := by
  have hname : ∀ n ∈ insertNames row, n.isName = true := by
    intro n hn
    obtain ⟨x, hx, rfl⟩ := List.mem_map.1 hn
    refine (Text.isName_iff _).2
      ⟨List.append_ne_nil_of_left_ne_nil insertStem_ne_nil _, fun c hc => ?_⟩
    exact (List.mem_append.1 hc).elim (isWordChar_insertStem c) (hword x hx c)
  obtain ⟨n, ns, hns⟩ := List.exists_cons_of_ne_nil
    (l := insertNames row) (by simpa [insertNames] using hrow)
  rw [hns] at hname ⊢
  exact ⟨n, ns, rfl, tokenize_row hname⟩

/-- In a row whose columns are words every marker is bound. -/
theorem boundNames_of_words (d : Dialect) (table : Text) (hrow : row ≠ [])
    (hdistinct : (row.map Prod.fst).Nodup) (hscalar : ∀ x ∈ row, x.2.isList = false)
    (hword : ∀ x ∈ row, ∀ c ∈ x.1, isWordChar c = true) :
    Statement.boundNames ⟨(insertRow d table row).sql, insertParams row⟩ = insertNames row := by
  obtain ⟨n, ns, hns, htokens⟩ := exists_tokenize_row hrow hword
  have hnames : names (tokenize (insertRow d table row).sql) = insertNames row := by
    rw [insertRow, (isInert_insertHead d table _).names_append, htokens, names_rowTokens, hns]
  rw [Statement.boundNames, hnames,
    List.filter_eq_self.2 (isSome_datum?_insertParams hdistinct hscalar),
    firsts_of_nodup (nodup_insertNames hdistinct)]

/-- A row whose columns are words is sent. -/
theorem sendsRow_of_words (hrow : row ≠ []) (hdistinct : (row.map Prod.fst).Nodup)
    (hscalar : ∀ x ∈ row, x.2.isList = false) (hword : ∀ x ∈ row, ∀ c ∈ x.1, isWordChar c = true) :
    SendsRow d table row (Statement.ofFragment (insertRow d table row)).sent := by
  have hbound := boundNames_of_words d table hrow hdistinct hscalar hword
  have hsql : (Statement.ofFragment (insertRow d table row)).sent.sql =
      insertHead d table (row.map Prod.fst) ++
        (Text.join ", ".toList ((List.range row.length).map fun i => '$' :: decimal (i + 1)) ++
          ")".toList) := by
    obtain ⟨n, ns, hns, htokens⟩ := exists_tokenize_row hrow hword
    have hw : ∀ s, Token.writeNumbered (insertNames row) (.text s) = s := fun _ => rfl
    have hlength : (insertNames row).length = row.length := List.length_map _
    rw [ofFragment_insertRow d table hdistinct hscalar, Statement.sent, hbound, insertRow,
      (isInert_insertHead d table _).flatMap_append hw, htokens, flatMap_rowTokens hw, ← hns,
      map_writeNumbered (nodup_insertNames hdistinct), hlength]
  refine ⟨hsql, ?_, ?_⟩
  · rw [ofFragment_insertRow d table hdistinct hscalar, Statement.sent, hbound,
      map_some_filterMap (isSome_datum?_insertParams hdistinct hscalar), insertNames, List.map_map]
    exact List.map_congr_left fun x hx => datum?_insertParams hdistinct hx
  · rw [hsql]
    exact (isInert_placeholders d table _ _).markers

end

/-- **A row is sent exactly if its columns are words.**  Every row of distinct columns and values
that are no lists can be inserted, and no column that is no word is among those whose values are
sent. -/
theorem insert_sendsRow_iff (d : Dialect) (table : Text) {row : List (Text × Value α)}
    (hrow : row ≠ []) (hdistinct : (row.map Prod.fst).Nodup)
    (hscalar : ∀ x ∈ row, x.2.isList = false) :
    ∃ f, insert d table (row.map fun x => .column x.1 x.2) = .ok f ∧
      (∀ n ∈ (Statement.ofFragment f).sent.names,
        ∃ x ∈ row, n = insertStem ++ x.1 ∧ ∀ c ∈ x.1, isWordChar c = true) ∧
      (SendsRow d table row (Statement.ofFragment f).sent ↔
        ∀ x ∈ row, ∀ c ∈ x.1, isWordChar c = true) := by
  refine ⟨insertRow d table row, insert_rowClauses d table hrow hscalar, fun n hn => ?_,
    fun h => ?_, sendsRow_of_words hrow hdistinct hscalar⟩
  · have hsubset := boundNames_subset d table hdistinct hscalar
    rw [Statement.names_sent] at hn
    obtain ⟨x, hx, rfl⟩ := List.mem_map.1 (hsubset hn)
    obtain ⟨hmem, hword⟩ := List.mem_filter.1 hx
    exact ⟨x, hmem, rfl, List.all_eq_true.1 hword⟩
  · have hlength : row.length ≤ row.countP fun x => x.1.all isWordChar := by
      have hvalues := congrArg List.length h.values
      rw [List.length_map, List.length_map] at hvalues
      exact hvalues ▸ length_values_le hdistinct hscalar
    have hall := List.countP_eq_length.1 (Nat.le_antisymm List.countP_le_length hlength)
    exact fun x hx => List.all_eq_true.1 (hall x hx)

/-- A row of three words, one of them a numeral, with a value that is null; its table is a path. -/
theorem word_row_sent :
    let row : List (Text × Value Nat) := [("user_name".toList, .scalar (some 5)),
      ("2".toList, .null), ("Id".toList, .scalar (some 7))]
    row ≠ [] ∧ (row.map Prod.fst).Nodup ∧ (∀ x ∈ row, x.2.isList = false) ∧
      ∃ f, insert .double "app.users".toList (row.map fun x => .column x.1 x.2) = .ok f ∧
        SendsRow .double "app.users".toList row (Statement.ofFragment f).sent := by
  intro row
  have hrow : row ≠ [] := List.cons_ne_nil _ _
  have hdistinct : (row.map Prod.fst).Nodup := by decide
  have hscalar : ∀ x ∈ row, x.2.isList = false := by decide
  have hword : ∀ x ∈ row, x.1.all isWordChar = true := by decide
  obtain ⟨f, hok, -, hsends⟩ :=
    insert_sendsRow_iff .double "app.users".toList hrow hdistinct hscalar
  exact ⟨hrow, hdistinct, hscalar, f, hok,
    hsends.2 fun x hx => List.all_eq_true.1 (hword x hx)⟩

/-- **Rows that are not sent**: a marker that ends at a hyphen is read as that of another column,
whose value is sent in its place, and one that ends at a space has no value. -/
theorem row_not_sent :
    let hyphen : List (Text × Value Nat) :=
      [("n".toList, .scalar (some 5)), ("n-1".toList, .scalar (some 7))]
    let space : List (Text × Value Nat) := [("a b".toList, .scalar (some 1))]
    (∃ f, insert .double "t".toList (hyphen.map fun x => .column x.1 x.2) = .ok f ∧
      (Statement.ofFragment f).sent =
        ⟨"INSERT INTO \"t\" (\"n\", \"n-1\") VALUES ($1, $1-1)".toList, ["insert_n".toList],
          [some 5]⟩ ∧
      ¬ SendsRow .double "t".toList hyphen (Statement.ofFragment f).sent) ∧
    ∃ f, insert .double "t".toList (space.map fun x => .column x.1 x.2) = .ok f ∧
      (Statement.ofFragment f).sent =
        ⟨"INSERT INTO \"t\" (\"a b\") VALUES (:insert_a b)".toList, [], []⟩ ∧
      ¬ SendsRow .double "t".toList space (Statement.ofFragment f).sent := by
  intro hyphen space
  refine ⟨⟨_, rfl, by decide, fun h => ?_⟩, ⟨_, rfl, by decide, fun h => ?_⟩⟩
  · exact absurd h.values (by decide)
  · exact absurd h.values (by decide)

end Command

end BoundQuery

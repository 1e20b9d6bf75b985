/-
**The values an update sets, and the condition beside them.**

An update is compiled in two halves, its SET list and its condition, and the bindings of the second
are merged into those of the first.  The names made up for the SET list start with `set_` and those
made up for the condition with `where_`, so the halves stay apart by themselves.  The names of the
caller's bindings come with the condition as they are, and where one of them, or one made from it
for an element of a list, is the name of a marker of the SET list, the caller's value is written.

So the condition leaves the values alone exactly if it binds none of their markers to another value,
and it binds none at all if no name of the caller's is `set` or starts with `set_`.

Main definitions:

* `Command.setText` — the text of the SET list before its `?` are named;
* `Command.Assigns`, `Command.KeepsAssigned` — the markers of the SET list with the values set, and
  bindings that have these values.

Main results:

* `Condition.mem_names_compile` — **where the names of a compiled condition come from**;
* `Fragment.exists_sent` — a marker with one datum is sent with it;
* `Command.update_keeps_assigned_iff` — **when the condition leaves the values alone**;
* `Command.condition_overwrites` — updates whose condition does not.
-/

import BoundQuery.Command
import BoundQuery.Proofs.ColumnMarkers
import BoundQuery.Proofs.Meaning
import BoundQuery.Proofs.PlainText

set_option relaxedAutoImplicit false
set_option autoImplicit false

namespace BoundQuery

open Token

variable {α : Type}

/-! ### The names of a compiled condition -/

/-- A name made up for an element of a list is the list's name, underscores and a numeral. -/
theorem exists_elementName_of_mem_made {taken : List Text} {es : List (Key × Value α)} {n : Text}
    (h : n ∈ (spreads taken es).flatMap Spread.made) :
    ∃ m k i, Key.name m ∈ Assoc.keys es ∧ n = elementName m k i := by
  induction es generalizing taken with
  | nil => cases h
  | cons e es ih =>
      rw [spreads_cons, List.flatMap_cons, List.mem_append] at h
      rcases h with h | h
      · rcases spreadOne_cases taken e with ⟨-, hs⟩ | ⟨m, ds, rfl, -, -, hs⟩ | ⟨ds, -, -, hs⟩
        · rw [hs] at h; cases h
        · rw [hs] at h
          obtain ⟨i, -, rfl⟩ := List.mem_map.1 h
          exact ⟨m, _, i, List.mem_cons_self, rfl⟩
        · rw [hs] at h; cases h
      · obtain ⟨m, k, i, hm, hn⟩ := ih h
        exact ⟨m, k, i, List.mem_cons_of_mem _ hm, hn⟩

theorem Fragment.mem_names_spread {f : Fragment α} {n : Text} (h : n ∈ f.spread.params.names) :
    n ∈ f.params.names ∨ ∃ m ∈ f.params.names, ∃ k i, n = elementName m k i := by
  rw [Bindings.mem_names_iff, Bindings.keys, entries_spread] at h
  obtain ⟨x, hx, hkey⟩ := List.mem_map.1 h
  rcases mem_entries_spreads hx with ⟨hes, -⟩ | ⟨n', hn', hx'⟩
  · exact .inl ((Bindings.mem_names_iff _ _).2 (hkey ▸ List.mem_map_of_mem hes))
  · rw [hkey] at hx'
    cases hx'
    obtain ⟨m, k, i, hm, rfl⟩ := exists_elementName_of_mem_made hn'
    exact .inr ⟨m, (Bindings.mem_names_iff _ _).2 hm, k, i, rfl⟩

/-- A name after naming is a name of the bindings or starts with the stem. -/
theorem Fragment.mem_names_namePositional {stem sql n : Text} {b : Bindings α}
    (h : n ∈ (namePositional stem sql b).params.names) : n ∈ b.names ∨ stem <+: n := by
  rw [Bindings.mem_names_iff, namePositional, Bindings.mem_keys_ofList] at h
  obtain ⟨e, he, hkey⟩ := List.mem_map.1 h
  obtain ⟨⟨k, v⟩, hmem, rfl⟩ := List.mem_map.1 he
  cases k with
  | name m =>
      cases hkey
      exact .inl ((Bindings.mem_names_iff _ _).2 (List.mem_map_of_mem hmem))
  | index i =>
      simp only [Key.named] at hkey
      split at hkey
      · cases hkey
        exact .inr (List.prefix_append _ _)
      · cases hkey

namespace Condition

/-- A name of a condition whose slots are named is the caller's or starts with the stem. -/
theorem mem_names_params_named {d : Dialect} {c : Condition α} {b : Bindings α} {n : Text}
    (h : n ∈ (c.named d b).params.names) : n ∈ b.names ∨ conditionStem <+: n := by
  cases c with
  | none => exact .inl h
  | raw sql => exact Fragment.mem_names_namePositional h
  | clauses cs =>
      rw [Bindings.mem_names_iff, named, Clauses.compile, Bindings.merge,
        Bindings.mem_keys_insertAll] at h
      rcases h with h | h
      · rw [← Bindings.mem_names_iff, Clauses.mem_names_columns] at h
        obtain ⟨c, -, hc⟩ := List.mem_filterMap.1 h
        cases c with
        | raw sql => cases hc
        | bound sql v => cases hc
        | column m v =>
            cases hc
            exact .inr (List.prefix_append _ _)
      · rcases Fragment.mem_names_namePositional ((Bindings.mem_names_iff _ _).2 h) with h | h
        · exact .inl ((Clauses.mem_names_others cs b n).1 h)
        · rw [freshStem] at h
          exact .inr ((List.prefix_append _ _).trans h)

/-- **Where the names of a compiled condition come from**: they are the caller's, or start with the
stem of conditions, or are made up for an element of a list that the caller binds. -/
theorem mem_names_compile {d : Dialect} {c : Condition α} {b : Bindings α} {n : Text}
    (h : n ∈ (c.compile d b).params.names) :
    n ∈ b.names ∨ conditionStem <+: n ∨ ∃ m ∈ b.names, ∃ k i, n = elementName m k i := by
  have hspread : ∀ {n}, n ∈ (c.named d b).spread.params.names →
      n ∈ b.names ∨ conditionStem <+: n ∨ ∃ m ∈ b.names, ∃ k i, n = elementName m k i := by
    intro n hn
    rcases Fragment.mem_names_spread hn with hn | ⟨m, hm, k, i, rfl⟩
    · exact (mem_names_params_named hn).imp_right .inl
    · rcases mem_names_params_named hm with hm | hm
      · exact .inr (.inr ⟨m, hm, k, i, rfl⟩)
      · rw [elementName, List.append_assoc]
        exact .inr (.inl (hm.trans (List.prefix_append _ _)))
  simp only [compile] at h
  split at h
  · exact .inl h
  · simp only [resolve] at h
    split at h
    · exact hspread h
    · split at h
      · rw [Bindings.mem_names_iff, equation, Bindings.mem_keys_ofList] at h
        cases List.mem_singleton.1 h
        exact .inr (.inl (List.prefix_append _ _))
      · exact hspread h

end Condition

/-! ### Names that start with the stem of a SET list -/

/-- What shares no character with the end of a text starts the text before it. -/
theorem isPrefix_of_isPrefix_append {p base tail : Text} (h : p <+: base ++ tail)
    (hfree : ∀ c ∈ p, c ∉ tail) : p <+: base := by
  rcases List.prefix_or_prefix_of_prefix h (List.prefix_append base tail) with hp | ⟨r, rfl⟩
  · exact hp
  · have hr : r <+: tail := (List.prefix_append_right_inj base).1 h
    cases r with
    | nil => exact ⟨[], by simp⟩
    | cons x r =>
        have hx : x ∈ tail := hr.subset List.mem_cons_self
        exact absurd hx (hfree x (List.mem_append_right _ List.mem_cons_self))

namespace Command

/-- Only a list named `set`, or whose name starts with `set_`, has elements with such names. -/
theorem eq_set_or_isPrefix_of_elementName {m : Text} {k i : Nat}
    (h : setStem <+: elementName m k i) : m = "set".toList ∨ setStem <+: m := by
  have htail : elementName m k i = m ++ (underscores k ++ decimal i) := List.append_assoc _ _ _
  have hletters : ∀ c ∈ "set".toList, (c != '_' && !c.isDigit) = true :=
    List.all_eq_true.1 (by decide)
  have hfree : ∀ c ∈ "set".toList, c ∉ underscores k ++ decimal i := by
    intro c hc hmem
    have hletter := hletters c hc
    rw [Bool.and_eq_true, bne_iff_ne, Bool.not_eq_true'] at hletter
    rcases List.mem_append.1 hmem with hmem | hmem
    · exact hletter.1 (List.eq_of_mem_replicate hmem)
    · have hdigit := List.all_eq_true.1 (isDigits_decimal i) c hmem
      rw [hletter.2] at hdigit
      cases hdigit
  have hset : "set".toList <+: setStem := by decide
  rw [htail] at h
  obtain ⟨r, rfl⟩ := isPrefix_of_isPrefix_append (hset.trans h) hfree
  cases r with
  | nil => exact .inl (List.append_nil _)
  | cons x r =>
      right
      have hsplit : setStem = "set".toList ++ ['_'] := by decide
      rw [hsplit, List.append_assoc, List.prefix_append_right_inj] at h
      rw [hsplit, List.prefix_append_right_inj]
      have hx : '_' = x := (List.cons_prefix_cons.1 h).1
      exact List.cons_prefix_cons.2 ⟨hx, List.nil_prefix⟩

/-- A condition binds no name that starts with `set_`, if no name of the caller's is `set` or starts
with `set_`. -/
theorem get?_compile_condition_set (d : Dialect) (c : Condition α) {b : Bindings α}
    (hb : ∀ m ∈ b.names, m ≠ "set".toList ∧ ¬ setStem <+: m) {n : Text} (hn : setStem <+: n) :
    (c.compile d b).params.get? (.name n) = none := by
  rw [Bindings.get?_name_eq_none_iff]
  intro hmem
  rcases Condition.mem_names_compile hmem with h | h | ⟨m, hm, k, i, rfl⟩
  · exact (hb n h).2 hn
  · rcases List.prefix_or_prefix_of_prefix hn h with h | h
    · exact absurd h (by decide)
    · exact absurd h (by decide)
  · rcases eq_set_or_isPrefix_of_elementName hn with h | h
    · exact (hb m hm).1 h
    · exact (hb m hm).2 h

/-! ### The two halves of an update -/

/-- The text of a SET list before its `?` are named. -/
def setText (d : Dialect) (set : List (Clause α)) : Text :=
  Text.join ", ".toList (set.map (Clause.write d setStem))

/-- The markers of a SET list with the values they are to have: the marker of a column has the value
of the column, and the marker of a `?` with a value of its own has this value. -/
inductive Assigns (d : Dialect) (set : List (Clause α)) : Text → Value α → Prop
  | column {n : Text} {v : Value α} : Clause.column n v ∈ set → Assigns d set (setStem ++ n) v
  | slot {k : Nat} {v : Value α} : k < countPositional (setText d set) →
      (Clauses.ownSlots set)[k]? = some (some v) →
      Assigns d set (Clauses.slotStem setStem set .empty ++ decimal k) v

/-- The markers of a SET list are bound to the values they are to have. -/
def KeepsAssigned (d : Dialect) (set : List (Clause α)) (params : Bindings α) : Prop :=
  ∀ n v, Assigns d set n v → params.get? (.name n) = some v

theorem isWordChar_setStem : ∀ c ∈ setStem, isWordChar c = true :=
  List.all_eq_true.1 (by decide)

theorem Assigns.isPrefix {d : Dialect} {set : List (Clause α)} {n : Text} {v : Value α}
    (h : Assigns d set n v) : setStem <+: n := by
  cases h with
  | column _ => exact List.prefix_append _ _
  | slot _ _ =>
      rw [Clauses.slotStem, freshStem, List.append_assoc]
      exact List.prefix_append _ _

/-- The SET list by itself binds its markers as it is to. -/
theorem keepsAssigned_compile (d : Dialect) {set : List (Clause α)}
    (hcols : ∀ c ∈ set, c.HasWordColumn)
    (hone : ∀ n v w, Clause.column n v ∈ set → Clause.column n w ∈ set → v = w) :
    KeepsAssigned d set (Clauses.compile d setStem ", ".toList set .empty).params := by
  intro n v h
  cases h with
  | @column n v hmem =>
      obtain ⟨w, hw⟩ := Clauses.exists_lastValue? hmem
      rw [Clauses.get?_compile_column d _ isWordChar_setStem hcols _ hmem, hw,
        hone n w v (Clauses.mem_lastValue? hw) hmem]
      rfl
  | slot hk hown =>
      rw [Clauses.get?_compile_slot d .empty hk, Clauses.getElem?_slots hown, Option.some_or]

theorem isList_of_listColumn? {set : List (Clause α)} (h : listColumn? set = none) {n : Text}
    {v : Value α} (hmem : Clause.column n v ∈ set) : v.isList = false := by
  induction set with
  | nil => cases hmem
  | cons c cs ih =>
      rcases List.mem_cons.1 hmem with rfl | hlater
      · cases hv : v.isList with
        | false => rfl
        | true => simp [listColumn?, hv] at h
      · cases c with
        | raw sql => exact ih h hlater
        | bound sql w => exact ih h hlater
        | column m w =>
            simp only [listColumn?] at h
            split at h
            · cases h
            · exact ih h hlater

/-- An update that is not refused has the text of its halves and their bindings, merged. -/
theorem update_eq_ok {d : Dialect} {table : Text} {set : List (Clause α)} {cond : Condition α}
    {b : Bindings α} {f : Fragment α} (h : update d table set cond b = .ok f) :
    listColumn? set = none ∧
    f = ⟨"UPDATE ".toList ++ d.quote.quotePath table ++ " SET ".toList ++
          (Clauses.compile d setStem ", ".toList set .empty).sql ++
          " WHERE ".toList ++ (cond.compile d b).sql,
        (Clauses.compile d setStem ", ".toList set .empty).params.merge
          (cond.compile d b).params⟩ := by
  rw [update] at h
  split at h
  · cases h
  · split at h
    · cases h
    · next hlist => exact ⟨hlist, (Except.ok.inj h).symm⟩

/-- What an update binds a key to: what the condition gives it, and else what the SET list does. -/
theorem get?_update {d : Dialect} {table : Text} {set : List (Clause α)} {cond : Condition α}
    {b : Bindings α} {f : Fragment α} (h : update d table set cond b = .ok f) (k : Key) :
    f.params.get? k = ((cond.compile d b).params.get? k).or
      ((Clauses.compile d setStem ", ".toList set .empty).params.get? k) := by
  obtain ⟨-, rfl⟩ := update_eq_ok h
  exact Bindings.get?_merge _ _ _

end Command

/-! ### What is sent for a marker -/

/-- **A marker with one datum is sent with it.** -/
theorem Fragment.exists_sent {f : Fragment α} {n : Text} {v : Value α}
    (hn : n ∈ names (tokenize f.sql)) (hget : f.params.get? (.name n) = some v)
    (hv : v.isList = false) :
    ∃ j : Nat, (Statement.ofFragment f).sent.names[j]? = some n ∧
      (Statement.ofFragment f).sent.values[j]? = v.datum? := by
  have hkeep : (Statement.ofFragment f).params.get? (.name n) = some v := get?_spread_of_keep hget hv
  have hdatum : (Statement.ofFragment f).params.datum? n = v.datum? := by
    rw [Bindings.datum?, hkeep, Option.bind_some]
  -- the marker is no list's, so it stands for itself when lists are spread
  have hself : Spread.namesFor f.plan n = [n] := by
    rcases f.namesFor_cases n with ⟨names, ds, hlist, -, -⟩ | ⟨-, hself⟩
    · rw [hget] at hlist
      cases hlist
      cases hv
    · exact hself
  have hmem : n ∈ names (tokenize (Statement.ofFragment f).sql) := by
    change n ∈ names (tokenize f.spread.sql)
    rw [tokenize_spread, names_merged, names_flatMap_substitute]
    exact List.mem_flatMap.2 ⟨n, hn, hself ▸ List.mem_singleton_self n⟩
  have hbound : n ∈ (Statement.ofFragment f).sent.names := by
    refine mem_firsts.2 (List.mem_filter.2 ⟨hmem, ?_⟩)
    rw [hdatum, Value.isSome_datum?, hv]
    rfl
  obtain ⟨j, hj⟩ := List.getElem?_of_mem hbound
  exact ⟨j, hj, (Statement.getElem?_values_sent hj).trans hdatum⟩

/-! ### The text of an update -/

namespace Command

/-- An update begins with inert text, whatever its table holds. -/
theorem isInert_updateHead (d : Dialect) (table : Text) :
    Text.IsInert ("UPDATE ".toList ++ d.quote.quotePath table ++ " SET ".toList) := by
  have hupdate : Text.IsInert "UPDATE ".toList :=
    Text.IsPlainJoiner.isInert (by decide) (by decide)
  have hset : Text.IsInert " SET ".toList := Text.IsPlainJoiner.isInert (by decide) (by decide)
  exact (hupdate.append (d.quote.isInert_quotePath table)).append hset

/-- The markers of the SET list are markers of the update. -/
theorem mem_names_update {d : Dialect} {table : Text} {set : List (Clause α)} {cond : Condition α}
    {b : Bindings α} {f : Fragment α} (h : update d table set cond b = .ok f) {n : Text}
    (hn : n ∈ names (tokenize (Clauses.compile d setStem ", ".toList set .empty).sql)) :
    n ∈ names (tokenize f.sql) := by
  obtain ⟨-, rfl⟩ := update_eq_ok h
  rw [List.append_assoc, List.append_assoc, (isInert_updateHead d table).names_append, tokenize,
    names_scan_append fun _ => Text.startsWord_append (by decide) _]
  exact List.mem_append_left _ hn

/-- The SET list holds the marker of each of its columns. -/
theorem mem_names_compile_column (d : Dialect) {set : List (Clause α)}
    (hclosed : ∀ c ∈ set, c.IsClosed) {n : Text} {v : Value α} (h : Clause.column n v ∈ set) :
    setStem ++ n ∈ names (tokenize (Clauses.compile d setStem ", ".toList set .empty).sql) := by
  have hword : ∀ x ∈ n, isWordChar x = true := hclosed _ h
  refine names_subset_nameMarkers (isWordChar_freshStem isWordChar_setStem _) ?_
  rw [isSeparator_comma.names_join]
  · refine List.mem_flatMap.2 ⟨_, List.mem_map_of_mem h, ?_⟩
    rw [Clause.names_write_column d isWordChar_setStem hword (by simp [setStem])]
    exact List.mem_singleton_self _
  · exact Clauses.isClosed_parts d isWordChar_setStem hclosed

/-! ### When the condition leaves the values alone -/

/-- **When the condition leaves the values alone**: exactly if it binds no marker of the SET list to
another value.  It binds none of them if no name of the caller's is `set` or starts with `set_`; and
where the values are left alone they are the values of the statement, and each column's is sent. -/
theorem update_keeps_assigned_iff {d : Dialect} {table : Text} {set : List (Clause α)}
    {cond : Condition α} {b : Bindings α} {f : Fragment α}
    (hok : update d table set cond b = .ok f) (hcols : ∀ c ∈ set, c.HasWordColumn)
    (hone : ∀ n v w, Clause.column n v ∈ set → Clause.column n w ∈ set → v = w) :
    (KeepsAssigned d set f.params ↔
      ∀ n v w, Assigns d set n v → (cond.compile d b).params.get? (.name n) = some w → w = v) ∧
    ((∀ m ∈ b.names, m ≠ "set".toList ∧ ¬ setStem <+: m) → KeepsAssigned d set f.params) ∧
    (KeepsAssigned d set f.params →
      (∀ n v, Assigns d set n v → v.isList = false →
        (Statement.ofFragment f).params.get? (.name n) = some v) ∧
      ((∀ c ∈ set, c.IsClosed) → ∀ n v, Clause.column n v ∈ set →
        ∃ j : Nat, (Statement.ofFragment f).sent.names[j]? = some (setStem ++ n) ∧
          (Statement.ofFragment f).sent.values[j]? = v.datum?)) := by
  have hset := keepsAssigned_compile d hcols hone
  have hkeeps : KeepsAssigned d set f.params ↔
      ∀ n v w, Assigns d set n v →
        (cond.compile d b).params.get? (.name n) = some w → w = v := by
    constructor
    · intro h n v w hn hw
      have hget := h n v hn
      rw [get?_update hok, hw, Option.some_or] at hget
      exact Option.some.inj hget
    · intro h n v hn
      rw [get?_update hok]
      cases hw : (cond.compile d b).params.get? (.name n) with
      | none => rw [Option.none_or, hset n v hn]
      | some w => rw [Option.some_or, h n v w hn hw]
  refine ⟨hkeeps, fun hb => hkeeps.2 fun n v w hn hw => ?_, fun h => ⟨?_, ?_⟩⟩
  · rw [get?_compile_condition_set d cond hb hn.isPrefix] at hw
    cases hw
  · exact fun n v hn hv => Fragment.get?_spread_of_keep (h n v hn) hv
  · intro hclosed n v hn
    exact Fragment.exists_sent (mem_names_update hok (mem_names_compile_column d hclosed hn))
      (h _ v (.column hn)) (isList_of_listColumn? (update_eq_ok hok).1 hn)

/-- An update whose condition has a list, a name of the caller's and a slot, and writes no marker of
the SET list; `settings` is no name that starts with `set_`. -/
theorem update_beside_list_keeps :
    let set : List (Clause Nat) :=
      [.column "name".toList (.scalar (some 1)), .bound "n = n + ?".toList (.scalar (some 7)),
        .column "note".toList .null]
    let cond : Condition Nat := .clauses [.column "id".toList (.list [some 2, some 3]),
      .raw "kind = :settings AND age < ?".toList]
    let b : Bindings Nat :=
      .ofList [(.name "settings".toList, .scalar (some 9)), (.index 0, .scalar (some 40))]
    ∃ f, update .double "app.users".toList set cond b = .ok f ∧
      (∀ c ∈ set, c.HasWordColumn) ∧
      (∀ n v w, Clause.column n v ∈ set → Clause.column n w ∈ set → v = w) ∧
      KeepsAssigned .double set f.params ∧
      ∃ j : Nat, (Statement.ofFragment f).sent.names[j]? = some "set_name".toList ∧
        (Statement.ofFragment f).sent.values[j]? = some (some 1) := by
  intro set cond b
  have hcols : ∀ c ∈ set, c.HasWordColumn := by decide
  have hone : ∀ n v w, Clause.column n v ∈ set → Clause.column n w ∈ set → v = w := by
    intro n v w hv hw
    simp only [set, List.mem_cons, Clause.column.injEq, reduceCtorEq, List.not_mem_nil, or_false,
      false_or] at hv hw
    rcases hv with ⟨rfl, rfl⟩ | ⟨rfl, rfl⟩ <;> rcases hw with ⟨hn, rfl⟩ | ⟨hn, rfl⟩
    · rfl
    · exact absurd hn (by decide)
    · exact absurd hn (by decide)
    · rfl
  obtain ⟨f, hok⟩ : ∃ f, update .double "app.users".toList set cond b = .ok f := ⟨_, rfl⟩
  obtain ⟨-, hfree, hsent⟩ := update_keeps_assigned_iff hok hcols hone
  have hkeeps := hfree (by decide)
  exact ⟨f, hok, hcols, hone, hkeeps,
    (hsent hkeeps).2 (by decide) "name".toList (.scalar (some 1)) List.mem_cons_self⟩

/-- **Updates whose condition overwrites the values they set**: an element of a list of the caller's
gets the name of a column's marker, a binding that the condition does not use has such a name, and a
binding has the name of the marker of a `?` with a value of its own. -/
theorem condition_overwrites :
    let element : List (Clause Nat) := [.column "a0".toList (.scalar (some 7))]
    let named : List (Clause Nat) := [.column "name".toList (.scalar (some 7))]
    let slot : List (Clause Nat) := [.bound "n = ?".toList (.scalar (some 7))]
    (∃ f, update .double "t".toList element (.raw "id IN (:set_a)".toList)
        (.ofList [(.name "set_a".toList, .list [some 1, some 2])]) = .ok f ∧
      ¬ KeepsAssigned .double element f.params ∧
      (Statement.ofFragment f).sent =
        ⟨"UPDATE \"t\" SET \"a0\" = $1 WHERE id IN ($1,$2)".toList,
          ["set_a0".toList, "set_a1".toList], [some 1, some 2]⟩) ∧
    (∃ f, update .double "t".toList named (.clauses [.column "id".toList (.scalar (some 1))])
        (.ofList [(.name "set_name".toList, .scalar (some 5))]) = .ok f ∧
      ¬ KeepsAssigned .double named f.params ∧
      (Statement.ofFragment f).sent =
        ⟨"UPDATE \"t\" SET \"name\" = $1 WHERE \"id\" = $2".toList,
          ["set_name".toList, "where_id".toList], [some 5, some 1]⟩) ∧
    ∃ f, update .double "t".toList slot (.raw "id = :set__0".toList)
        (.ofList [(.name "set__0".toList, .scalar (some 5))]) = .ok f ∧
      ¬ KeepsAssigned .double slot f.params ∧
      (Statement.ofFragment f).sent =
        ⟨"UPDATE \"t\" SET n = $1 WHERE id = $1".toList, ["set__0".toList], [some 5]⟩ := by
  intro element named slot
  refine ⟨⟨_, rfl, fun h => ?_, by decide⟩, ⟨_, rfl, fun h => ?_, by decide⟩,
    ⟨_, rfl, fun h => ?_, by decide⟩⟩
  · exact absurd (h _ _ (.column (List.mem_singleton_self _))) (by decide)
  · exact absurd (h _ _ (.column (List.mem_singleton_self _))) (by decide)
  · exact absurd (h _ (.scalar (some 7)) (.slot (k := 0) (by decide) rfl)) (by decide)

end Command

end BoundQuery

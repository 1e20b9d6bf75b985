/-
**Values stay out of the text.**

Everything the compiler takes is gathered in one type of requests.  Two requests of one shape differ
only in their values: they have the same texts, columns and keys in the same order, and lists of the
same lengths at the same places, while a datum may stand where the other request has another datum
or `NULL`.  Such requests meet the same fault, or they compile to the same text with the same keys
and are sent as the same text with the same names; only what is sent beside the text differs, and it
differs as the values do.

Main definitions:

* `Request`, `Request.fragment` — one call of the compiler, and the fragment it makes;
* `Request.Related`, `Request.SameShape` — two calls whose values are related, or just alike in
  shape.

Main results:

* `Request.Related.fragment` — requests with related values meet the same fault or compile to
  fragments with related values;
* `values_stay_out_of_sql` — **the text depends on the shape only, and what is sent beside it is the
  data of the request in an order that depends on the shape only**.
-/

import BoundQuery.Command
import BoundQuery.Proofs.Related

set_option relaxedAutoImplicit false
set_option autoImplicit false

namespace BoundQuery

/-- A call of the compiler: a condition, a list of clauses, or one of the statements on a table. -/
inductive Request (α : Type) where
  | condition (cond : Condition α) (b : Bindings α)
  | clauses (stem joiner : Text) (cs : List (Clause α)) (extra : Bindings α)
  | insert (table : Text) (data : List (Clause α))
  | update (table : Text) (set : List (Clause α)) (cond : Condition α) (b : Bindings α)
  | delete (table : Text) (cond : Condition α) (b : Bindings α)
  | select (table : Text) (columns : List Text) (cond : Condition α) (b : Bindings α) (tail : Text)
  | count (table : Text) (cond : Condition α) (b : Bindings α)

/-- The fragment a call makes, or the fault it meets. -/
def Request.fragment {α : Type} (d : Dialect) : Request α → Except PayloadFault (Fragment α)
  | condition cond b => .ok (cond.compile d b)
  | clauses stem joiner cs extra => .ok (Clauses.compile d stem joiner cs extra)
  | insert table data => Command.insert d table data
  | update table set cond b => Command.update d table set cond b
  | delete table cond b => .ok (Command.delete d table cond b)
  | select table columns cond b tail => .ok (Command.select d table columns cond b tail)
  | count table cond b => .ok (Command.count d table cond b)

variable {α β : Type} {R : Option α → Option β → Prop}

/-- Calls that differ in their values only, and these are related. -/
inductive Request.Related (R : Option α → Option β → Prop) : Request α → Request β → Prop
  | condition {c : Condition α} {c' : Condition β} {b : Bindings α} {b' : Bindings β} :
      c.Related R c' → b.Related R b' → Related R (.condition c b) (.condition c' b')
  | clauses (stem joiner : Text) {cs : List (Clause α)} {cs' : List (Clause β)} {b : Bindings α}
      {b' : Bindings β} : List.Forall₂ (Clause.Related R) cs cs' → b.Related R b' →
      Related R (.clauses stem joiner cs b) (.clauses stem joiner cs' b')
  | insert (table : Text) {cs : List (Clause α)} {cs' : List (Clause β)} :
      List.Forall₂ (Clause.Related R) cs cs' → Related R (.insert table cs) (.insert table cs')
  | update (table : Text) {cs : List (Clause α)} {cs' : List (Clause β)} {c : Condition α}
      {c' : Condition β} {b : Bindings α} {b' : Bindings β} :
      List.Forall₂ (Clause.Related R) cs cs' → c.Related R c' → b.Related R b' →
      Related R (.update table cs c b) (.update table cs' c' b')
  | delete (table : Text) {c : Condition α} {c' : Condition β} {b : Bindings α}
      {b' : Bindings β} : c.Related R c' → b.Related R b' →
      Related R (.delete table c b) (.delete table c' b')
  | select (table : Text) (columns : List Text) (tail : Text) {c : Condition α} {c' : Condition β}
      {b : Bindings α} {b' : Bindings β} : c.Related R c' → b.Related R b' →
      Related R (.select table columns c b tail) (.select table columns c' b' tail)
  | count (table : Text) {c : Condition α} {c' : Condition β} {b : Bindings α} {b' : Bindings β} :
      c.Related R c' → b.Related R b' → Related R (.count table c b) (.count table c' b')

/-- Calls that differ in nothing but the contents of their values. -/
def Request.SameShape (r : Request α) (r' : Request β) : Prop := r.Related (fun _ _ => True) r'

/-- Both calls meet the same fault, or both succeed with related results. -/
inductive SameOutcome {γ δ : Type} (S : γ → δ → Prop) :
    Except PayloadFault γ → Except PayloadFault δ → Prop
  | error (e : PayloadFault) : SameOutcome S (.error e) (.error e)
  | ok {x : γ} {y : δ} : S x y → SameOutcome S (.ok x) (.ok y)

/-! ### Payloads -/

namespace Command

variable {cs : List (Clause α)} {cs' : List (Clause β)}

/-- Columns of a row with one name and related values. -/
def ColumnRelated (R : Option α → Option β → Prop) (x : Text × Value α) (y : Text × Value β) :
    Prop := x.1 = y.1 ∧ x.2.Related R y.2

theorem sameOutcome_insertColumn {c : Clause α} {c' : Clause β} (h : c.Related R c') :
    SameOutcome (ColumnRelated R) (insertColumn c) (insertColumn c') := by
  cases h with
  | raw sql => exact .error .rawInInsert
  | bound sql _ => exact .error .rawInInsert
  | column n hv =>
      rw [insertColumn, insertColumn, hv.isList_eq]
      split
      · exact .error (.listInInsert n)
      · exact .ok ⟨rfl, hv⟩

/-- The first clause that is refused is refused in both payloads. -/
theorem sameOutcome_insertColumns (h : List.Forall₂ (Clause.Related R) cs cs') :
    SameOutcome (List.Forall₂ (ColumnRelated R)) (insertColumns cs) (insertColumns cs') := by
  induction h with
  | nil => exact .ok .nil
  | @cons c c' cs cs' hc _ ih =>
      have hhead := sameOutcome_insertColumn hc
      rw [insertColumns, insertColumns]
      generalize insertColumn c = x, insertColumn c' = x' at hhead
      generalize insertColumns cs = xs, insertColumns cs' = xs' at ih
      cases hhead with
      | error e => exact .error e
      | ok hx =>
          cases ih with
          | error e => exact .error e
          | ok hxs => exact .ok (.cons hx hxs)

theorem map_columns_eq {row : List (Text × Value α)} {row' : List (Text × Value β)}
    (h : List.Forall₂ (ColumnRelated R) row row') (g : Text → Text) :
    row.map (fun x => g x.1) = row'.map fun x => g x.1 := by
  induction h with
  | nil => rfl
  | cons hx _ ih => rw [List.map_cons, List.map_cons, hx.1, ih]

theorem isEmpty_eq (h : List.Forall₂ (Clause.Related R) cs cs') : cs.isEmpty = cs'.isEmpty := by
  cases h <;> rfl

/-- **Inserting carries the relation on.** -/
theorem sameOutcome_insert (h : List.Forall₂ (Clause.Related R) cs cs') (d : Dialect)
    (table : Text) :
    SameOutcome (Fragment.Related R) (insert d table cs) (insert d table cs') := by
  have hrow := sameOutcome_insertColumns h
  rw [insert, insert, isEmpty_eq h]
  split
  · exact .ok ⟨rfl, Bindings.related_empty R⟩
  · generalize insertColumns cs = x, insertColumns cs' = x' at hrow
    cases hrow with
    | error e => exact .error e
    | ok hrow =>
        -- the text names the columns only
        have hquoted := map_columns_eq hrow d.quote.quote
        have hmarkers := map_columns_eq hrow fun n => ':' :: (insertStem ++ n)
        refine .ok ⟨?_, Bindings.related_ofList (List.rel_map (R := ColumnRelated R) ?_ hrow)⟩
        · simp only [hquoted, hmarkers]
        · exact fun x y hxy => ⟨congrArg (fun n => Key.name (insertStem ++ n)) hxy.1, hxy.2⟩

theorem listColumn?_eq (h : List.Forall₂ (Clause.Related R) cs cs') :
    listColumn? cs = listColumn? cs' := by
  induction h with
  | nil => rfl
  | cons hc _ ih =>
      cases hc with
      | raw sql => exact ih
      | bound sql _ => exact ih
      | column n hv =>
          rw [listColumn?, listColumn?, hv.isList_eq]
          split
          · rfl
          · exact ih

/-- **Updating carries the relation on.** -/
theorem sameOutcome_update (h : List.Forall₂ (Clause.Related R) cs cs') {c : Condition α}
    {c' : Condition β} (hc : c.Related R c') {b : Bindings α} {b' : Bindings β}
    (hb : b.Related R b') (d : Dialect) (table : Text) :
    SameOutcome (Fragment.Related R) (update d table cs c b) (update d table cs' c' b') := by
  rw [update, update, isEmpty_eq h, listColumn?_eq h]
  split
  · exact .error .emptyUpdate
  · split
    · exact .error (.listInUpdate _)
    · obtain ⟨hset, hassigned⟩ :=
        Clauses.related_compile h (Bindings.related_empty R) d setStem ", ".toList
      obtain ⟨hwhere, hmatched⟩ := hc.compile hb d
      refine .ok ⟨?_, hassigned.merge hmatched⟩
      rw [hset, hwhere]

theorem related_delete {c : Condition α} {c' : Condition β} (hc : c.Related R c')
    {b : Bindings α} {b' : Bindings β} (hb : b.Related R b') (d : Dialect) (table : Text) :
    (delete d table c b).Related R (delete d table c' b') := by
  obtain ⟨hwhere, hmatched⟩ := hc.compile hb d
  unfold delete
  constructor
  · simp only
    rw [hwhere]
  · exact hmatched

theorem related_finish {c : Condition α} {c' : Condition β} (hc : c.Related R c')
    {b : Bindings α} {b' : Bindings β} (hb : b.Related R b') (d : Dialect) (head tail : Text) :
    (finish d head c b tail).Related R (finish d head c' b' tail) := by
  obtain ⟨hwhere, hmatched⟩ := hc.compile hb d
  unfold finish
  constructor
  · simp only
    rw [hwhere]
  · exact hmatched

end Command

/-! ### Requests -/

/-- **Calls with related values meet the same fault or make related fragments.** -/
theorem Request.Related.fragment {r : Request α} {r' : Request β} (h : r.Related R r')
    (d : Dialect) : SameOutcome (Fragment.Related R) (r.fragment d) (r'.fragment d) := by
  cases h with
  | condition hc hb => exact .ok (hc.compile hb d)
  | clauses stem joiner hcs hb => exact .ok (Clauses.related_compile hcs hb d stem joiner)
  | insert table hcs => exact Command.sameOutcome_insert hcs d table
  | update table hcs hc hb => exact Command.sameOutcome_update hcs hc hb d table
  | delete table hc hb => exact .ok (Command.related_delete hc hb d table)
  | select table columns tail hc hb =>
      rw [Request.fragment, Request.fragment, Command.select, Command.select]
      exact .ok (Command.related_finish hc hb d _ tail)
  | count table hc hb =>
      rw [Request.fragment, Request.fragment, Command.count, Command.count]
      exact .ok (Command.related_finish hc hb d _ [])

theorem SameOutcome.cases {γ δ : Type} {S : γ → δ → Prop} {x : Except PayloadFault γ}
    {y : Except PayloadFault δ} (h : SameOutcome S x y) :
    (∃ e, x = .error e ∧ y = .error e) ∨ ∃ a b, x = .ok a ∧ y = .ok b ∧ S a b := by
  cases h with
  | error e => exact .inl ⟨e, rfl, rfl⟩
  | ok hs => exact .inr ⟨_, _, rfl, rfl, hs⟩

/-- The data sent for calls whose values are related are related, number by number. -/
theorem Request.Related.values_sent {r : Request α} {r' : Request β} (h : r.Related R r')
    {d : Dialect} {f : Fragment α} {g : Fragment β} (hf : r.fragment d = .ok f)
    (hg : r'.fragment d = .ok g) :
    List.Forall₂ R (Statement.ofFragment f).sent.values (Statement.ofFragment g).sent.values := by
  have hout := h.fragment d
  rw [hf, hg] at hout
  cases hout with
  | ok hrel => exact (Fragment.Related.sent hrel).values

theorem eq_map_of_forall₂ {γ δ : Type} {f : γ → δ} {xs : List γ} {ys : List δ}
    (h : List.Forall₂ (fun x y => y = f x) xs ys) : ys = xs.map f := by
  induction h with
  | nil => rfl
  | cons hxy _ ih => rw [hxy, ih, List.map_cons]

/-- **Values stay out of the text.**  Calls of one shape meet the same fault, or make fragments with
one text and the same keys that are sent as one text with the same names; and if the second call has
the values of the first under `f`, the data sent are those of the first under `f`. -/
theorem values_stay_out_of_sql (d : Dialect) {r : Request α} {r' : Request β}
    (h : r.SameShape r') :
    (∃ e, r.fragment d = .error e ∧ r'.fragment d = .error e) ∨
    ∃ g g', r.fragment d = .ok g ∧ r'.fragment d = .ok g' ∧
      g.sql = g'.sql ∧ g.params.keys = g'.params.keys ∧
      (Statement.ofFragment g).sent.sql = (Statement.ofFragment g').sent.sql ∧
      (Statement.ofFragment g).sent.names = (Statement.ofFragment g').sent.names ∧
      ∀ f : Option α → Option β, r.Related (fun x y => y = f x) r' →
        (Statement.ofFragment g').sent.values = (Statement.ofFragment g).sent.values.map f := by
  rcases (Request.Related.fragment h d).cases with hfault | ⟨g, g', hg, hg', hrel⟩
  · exact .inl hfault
  · have hsent := Fragment.Related.sent hrel
    refine .inr ⟨g, g', hg, hg', hrel.1, hrel.2.keys_eq, hsent.sql, hsent.names, ?_⟩
    intro f hmap
    exact eq_map_of_forall₂ (hmap.values_sent hg hg')

/-- An update with a value that would end a quoted string, and a list in its condition. -/
def hostileUpdate : Request Text :=
  .update "users".toList [.column "name".toList (.scalar (some "x'; DROP TABLE users; --".toList))]
    (.raw "id IN (?)".toList)
    (.ofList [(.index 0, .list [some "1' OR ''='".toList, some "2".toList])])

/-- The same update with `NULL` for every datum. -/
def blankUpdate : Request Text :=
  .update "users".toList [.column "name".toList .null] (.raw "id IN (?)".toList)
    (.ofList [(.index 0, .list [none, none])])

theorem hostileUpdate_related {R : Option Text → Option Text → Prop} (h : ∀ d, R d none) :
    hostileUpdate.Related R blankUpdate := by
  refine .update _ (.cons (.column _ ?_) .nil) (.raw _) (.cons ⟨rfl, ?_⟩ .nil)
  · exact .datum rfl rfl (h _)
  · exact .list (.cons (h _) (.cons (h _) .nil))

/-- The two updates are sent as one text, and the values beside it are all `NULL` in the second. -/
theorem hostileUpdate_text :
    hostileUpdate.SameShape blankUpdate ∧
    ∃ g g', hostileUpdate.fragment .double = .ok g ∧ blankUpdate.fragment .double = .ok g' ∧
      (Statement.ofFragment g).sent.sql = (Statement.ofFragment g').sent.sql ∧
      (Statement.ofFragment g').sent.values =
        (Statement.ofFragment g).sent.values.map fun _ => none := by
  have hshape : hostileUpdate.SameShape blankUpdate := hostileUpdate_related fun _ => trivial
  refine ⟨hshape, ?_⟩
  rcases values_stay_out_of_sql .double hshape with
    ⟨e, he, -⟩ | ⟨g, g', hg, hg', -, -, hsql, -, hmap⟩
  · cases he
  · exact ⟨g, g', hg, hg', hsql, hmap _ (hostileUpdate_related fun _ => rfl)⟩

end BoundQuery

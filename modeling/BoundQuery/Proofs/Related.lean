/-
**Every pass carries a relation between data from its input to its output.**

Fix a relation `R` between the data of two types.  Two values are related if both are one datum and
the data are related, whatever form they come in, or if both are lists of related data of one
length; bindings, clauses and conditions are related if they agree in everything but their values
and the values are related.  No pass looks at a datum, so each of them takes related inputs to
outputs with the same text, the same keys in the same order, and related values.

The relation that always holds makes this a statement about the shape of the input alone, and the
graph of a function makes it a statement about where the data go.

Main definitions:

* `Value.Related`, `Bindings.Related`, `Clause.Related`, `Condition.Related` — related inputs;
* `Fragment.Related`, `Sent.Related` — one text and related values.

Main results:

* `Fragment.Related.spread`, `Clauses.related_compile`, `Condition.Related.compile` — **the passes
  carry the relation on**;
* `Fragment.Related.sent` — so does sending the fragment as a statement.
-/

import Mathlib.Data.List.Forall2
import BoundQuery.Condition
import BoundQuery.Statement
import BoundQuery.Proofs.Spreading

set_option relaxedAutoImplicit false
set_option autoImplicit false

namespace BoundQuery

variable {α β : Type} {R : Option α → Option β → Prop}

/-! ### Values and entries -/

/-- Values that are both one datum, with related data, or both lists of related data. -/
inductive Value.Related (R : Option α → Option β → Prop) : Value α → Value β → Prop
  | datum {v : Value α} {w : Value β} {d : Option α} {e : Option β} :
      v.datum? = some d → w.datum? = some e → R d e → Related R v w
  | list {ds : List (Option α)} {es : List (Option β)} : List.Forall₂ R ds es →
      Related R (.list ds) (.list es)

theorem Value.Related.isList_eq {v : Value α} {w : Value β} (h : Value.Related R v w) :
    v.isList = w.isList := by
  cases h with
  | list _ => rfl
  | datum hv hw _ =>
      have hv' := Value.isSome_datum? v
      have hw' := Value.isSome_datum? w
      rw [hv] at hv'
      rw [hw] at hw'
      simpa using hv'.symm.trans hw'

theorem Value.Related.datum? {v : Value α} {w : Value β} (h : Value.Related R v w) :
    Option.Rel R v.datum? w.datum? := by
  cases h with
  | list _ => exact .none
  | datum hv hw hR => rw [hv, hw]; exact .some hR

/-- Entries with one key and related values. -/
def EntryRelated (R : Option α → Option β → Prop) (e : Key × Value α) (e' : Key × Value β) : Prop :=
  e.1 = e'.1 ∧ Value.Related R e.2 e'.2

/-- Lists of entries with the same keys in the same order and related values. -/
def EntriesRelated (R : Option α → Option β → Prop) :
    List (Key × Value α) → List (Key × Value β) → Prop := List.Forall₂ (EntryRelated R)

namespace EntriesRelated

variable {es : List (Key × Value α)} {es' : List (Key × Value β)}

theorem keys_eq (h : EntriesRelated R es es') : Assoc.keys es = Assoc.keys es' := by
  induction h with
  | nil => rfl
  | cons he _ ih => rw [Assoc.keys_cons, Assoc.keys_cons, he.1, ih]

theorem get? (h : EntriesRelated R es es') (k : Key) :
    Option.Rel (Value.Related R) (Assoc.get? k es) (Assoc.get? k es') := by
  induction h with
  | nil => exact .none
  | @cons e e' es es' he _ ih =>
      rw [Assoc.get?, Assoc.get?, ← he.1]
      split
      · exact .some he.2
      · exact ih

theorem upsert (h : EntriesRelated R es es') (k : Key) {v : Value α} {w : Value β}
    (hv : Value.Related R v w) : EntriesRelated R (Assoc.upsert k v es) (Assoc.upsert k w es') := by
  induction h with
  | nil => exact .cons ⟨rfl, hv⟩ .nil
  | @cons e e' es es' he hes ih =>
      rw [Assoc.upsert, Assoc.upsert, ← he.1]
      split
      · exact .cons ⟨rfl, hv⟩ hes
      · exact .cons he ih

theorem append {us : List (Key × Value α)} {us' : List (Key × Value β)}
    (h : EntriesRelated R es es') (hu : EntriesRelated R us us') :
    EntriesRelated R (es ++ us) (es' ++ us') := List.rel_append h hu

/-- The values of the entries that a test on keys lets through. -/
theorem filter_keys (h : EntriesRelated R es es') (p : Key → Bool) :
    EntriesRelated R (es.filter fun e => p e.1) (es'.filter fun e => p e.1) := by
  induction h with
  | nil => exact .nil
  | @cons e e' es es' he _ ih =>
      rw [List.filter_cons, List.filter_cons, ← he.1]
      split
      · exact .cons he ih
      · exact ih

end EntriesRelated

/-! ### Bindings -/

/-- Bindings with the same keys in the same order and related values. -/
def Bindings.Related (R : Option α → Option β → Prop) (b : Bindings α) (b' : Bindings β) : Prop :=
  EntriesRelated R b.entries b'.entries

namespace Bindings

variable {b : Bindings α} {b' : Bindings β}

theorem Related.keys_eq (h : Related R b b') : b.keys = b'.keys := EntriesRelated.keys_eq h

theorem Related.names_eq (h : Related R b b') : b.names = b'.names := by
  rw [names, names, h.keys_eq]

theorem Related.datum? (h : Related R b b') (n : Text) :
    Option.Rel R (b.datum? n) (b'.datum? n) := by
  have hget : Option.Rel (Value.Related R) (b.get? (.name n)) (b'.get? (.name n)) :=
    EntriesRelated.get? h (.name n)
  rw [Bindings.datum?, Bindings.datum?]
  generalize b.get? (.name n) = x, b'.get? (.name n) = y at hget
  cases hget with
  | none => exact .none
  | some hv => exact hv.datum?

theorem related_empty (R : Option α → Option β → Prop) :
    Related R (empty : Bindings α) (empty : Bindings β) := .nil

theorem Related.insertAll (h : Related R b b') {es : List (Key × Value α)}
    {es' : List (Key × Value β)} (hes : EntriesRelated R es es') :
    Related R (b.insertAll es) (b'.insertAll es') := by
  induction hes generalizing b b' with
  | nil => exact h
  | @cons e e' es es' he _ ih =>
      have hstep : Related R (b.insert e.1 e.2) (b'.insert e'.1 e'.2) := by
        rw [← he.1]
        exact EntriesRelated.upsert h e.1 he.2
      exact ih hstep

theorem related_ofList {es : List (Key × Value α)} {es' : List (Key × Value β)}
    (hes : EntriesRelated R es es') : Related R (ofList es) (ofList es') :=
  (related_empty R).insertAll hes

theorem Related.merge (h : Related R b b') {c : Bindings α} {c' : Bindings β}
    (hc : Related R c c') : Related R (b.merge c) (b'.merge c') := h.insertAll hc

theorem Related.positional (h : Related R b b') :
    List.Forall₂ (Value.Related R) b.positional b'.positional := by
  refine List.rel_filterMap (R := EntryRelated R) ?_ h
  rintro ⟨k, v⟩ ⟨k', v'⟩ ⟨hk, hv⟩
  cases hk
  simp only
  split
  · exact .some hv
  · exact .none

theorem Related.named (h : Related R b b') : EntriesRelated R b.named b'.named :=
  EntriesRelated.filter_keys h fun k => !k.isIndex

theorem Related.single? (h : Related R b b') :
    Option.Rel (Value.Related R) b.single? b'.single? := by
  obtain ⟨es, hes⟩ := b
  obtain ⟨es', hes'⟩ := b'
  change EntriesRelated R es es' at h
  rw [Bindings.single?, Bindings.single?]
  cases h with
  | nil => exact .none
  | @cons e e' us us' he hus =>
      cases hus with
      | cons _ _ => exact .none
      | nil =>
          simp only [he.2.isList_eq]
          split
          · exact .none
          · exact .some he.2

end Bindings

/-! ### Fragments -/

/-- Fragments with one text and related bindings. -/
def Fragment.Related (R : Option α → Option β → Prop) (f : Fragment α) (g : Fragment β) : Prop :=
  f.sql = g.sql ∧ f.params.Related R g.params

theorem Bindings.Related.namePositional {b : Bindings α} {b' : Bindings β}
    (h : b.Related R b') (stem sql : Text) :
    Fragment.Related R (.namePositional stem sql b) (.namePositional stem sql b') := by
  refine ⟨rfl, Bindings.related_ofList ?_⟩
  refine List.rel_map (R := EntryRelated R) ?_ h
  intro e e' he
  exact ⟨congrArg (Key.named stem (countPositional sql)) he.1, he.2⟩

/-- What becomes of related bindings when lists are spread. -/
inductive Spread.Related (R : Option α → Option β → Prop) : Spread α → Spread β → Prop
  | keep (k : Key) {v : Value α} {w : Value β} : v.Related R w → Related R (.keep k v) (.keep k w)
  | across (n : Text) (names : List Text) {ds : List (Option α)} {es : List (Option β)} :
      List.Forall₂ R ds es → Related R (.across n names ds) (.across n names es)
  | drop (k : Key) (length : Nat) : Related R (.drop k length) (.drop k length)

theorem EntryRelated.spreadOne {e : Key × Value α} {e' : Key × Value β} (h : EntryRelated R e e')
    (taken : List Text) :
    Spread.Related R (BoundQuery.spreadOne taken e) (BoundQuery.spreadOne taken e') := by
  obtain ⟨k, v⟩ := e
  obtain ⟨k', v'⟩ := e'
  obtain ⟨hk, hv⟩ := h
  cases hk
  cases hv with
  | list hds =>
      simp only [BoundQuery.spreadOne, hds.length_eq]
      split
      · exact .drop _ _
      · exact .across _ _ hds
  | @datum v v' d d' hd hd' hR =>
      have hlist : v.isList = false := by simpa [hd] using Value.isSome_datum? v
      have hlist' : v'.isList = false := by simpa [hd'] using Value.isSome_datum? v'
      rw [spreadOne_of_no_list taken hlist, spreadOne_of_no_list taken hlist']
      exact .keep k (.datum hd hd' hR)

theorem Spread.Related.made_eq {s : Spread α} {s' : Spread β} (h : Spread.Related R s s') :
    s.made = s'.made := by
  cases h <;> rfl

theorem EntriesRelated.spreads {es : List (Key × Value α)} {es' : List (Key × Value β)}
    (h : EntriesRelated R es es') (taken : List Text) :
    List.Forall₂ (Spread.Related R) (BoundQuery.spreads taken es)
      (BoundQuery.spreads taken es') := by
  induction h generalizing taken with
  | nil => exact .nil
  | cons he _ ih =>
      have hone := EntryRelated.spreadOne he taken
      rw [spreads_cons, spreads_cons, ← hone.made_eq]
      exact .cons hone (ih _)

theorem Spread.Related.entries {s : Spread α} {s' : Spread β} (h : Spread.Related R s s') :
    EntriesRelated R s.entries s'.entries := by
  cases h with
  | keep k hv => exact .cons ⟨rfl, hv⟩ .nil
  | drop k len => exact .nil
  | across n names hds =>
      simp only [Spread.entries]
      induction hds generalizing names with
      | nil => simp only [List.map_nil, List.zip_nil_right]; exact .nil
      | cons hd _ ih =>
          cases names with
          | nil => exact .nil
          | cons m names => exact .cons ⟨rfl, .datum rfl rfl hd⟩ (ih names)

theorem Spread.write_congr {plan : List (Spread α)} {plan' : List (Spread β)}
    (h : List.Forall₂ (Spread.Related R) plan plan') (t : Token) :
    Spread.write plan t = Spread.write plan' t := by
  cases t with
  | text s => rfl
  | positional => rfl
  | named m =>
      have hfind : plan.findSome? (namesFor? m) = plan'.findSome? (namesFor? m) := by
        induction h with
        | nil => rfl
        | @cons s s' plan plan' hs _ ih =>
            have hsame : s.namesFor? m = s'.namesFor? m := by cases hs <;> rfl
            rw [List.findSome?_cons, List.findSome?_cons, hsame, ih]
      rw [Spread.write, Spread.write, hfind]

namespace Fragment

variable {f : Fragment α} {g : Fragment β}

/-- **Spreading lists carries the relation on.** -/
theorem Related.spread (h : Related R f g) : Related R f.spread g.spread := by
  obtain ⟨hsql, hparams⟩ := h
  have hplan : List.Forall₂ (Spread.Related R) (f.params.spreads f.sql)
      (g.params.spreads g.sql) := by
    rw [Bindings.spreads, Bindings.spreads, hparams.names_eq, hsql]
    exact EntriesRelated.spreads hparams _
  constructor
  · have hwrite : Spread.write (f.params.spreads f.sql) = Spread.write (g.params.spreads g.sql) :=
      funext (Spread.write_congr hplan)
    change List.flatMap _ _ = List.flatMap _ _
    rw [hwrite, hsql]
  · exact Bindings.related_ofList
      (List.rel_flatMap hplan fun _ _ hs => hs.entries)

end Fragment

/-! ### Clauses -/

/-- Clauses of one text or column, with related values. -/
inductive Clause.Related (R : Option α → Option β → Prop) : Clause α → Clause β → Prop
  | raw (sql : Text) : Related R (.raw sql) (.raw sql)
  | column (c : Text) {v : Value α} {w : Value β} : v.Related R w →
      Related R (.column c v) (.column c w)
  | bound (sql : Text) {v : Value α} {w : Value β} : v.Related R w →
      Related R (.bound sql v) (.bound sql w)

theorem Clause.Related.write_eq {c : Clause α} {c' : Clause β} (h : c.Related R c') (d : Dialect)
    (stem : Text) : c.write d stem = c'.write d stem := by
  cases h with
  | raw sql => rfl
  | bound sql _ => rfl
  | column n hv => rw [Clause.write, Clause.write, hv.isList_eq]

/-- The values drawn for slots are related if the supplies are. -/
theorem forall₂_draw {ν μ : Type} {S : ν → μ → Prop} {supply : List ν} {supply' : List μ}
    (h : List.Forall₂ S supply supply') (n : Nat) :
    List.Forall₂ (Option.Rel S) (draw n supply) (draw n supply') := by
  have hmissing : ∀ k : Nat, List.Forall₂ (Option.Rel S) (List.replicate k none)
      (List.replicate k none) := by
    intro k
    induction k with
    | zero => exact .nil
    | succ k ih => exact .cons .none ih
  rw [draw, draw, h.length_eq]
  exact List.rel_append (List.rel_map (R := S) (fun _ _ hs => .some hs) (List.forall₂_take n h))
    (hmissing _)

namespace Clauses

variable {cs : List (Clause α)} {cs' : List (Clause β)}

theorem related_slots (h : List.Forall₂ (Clause.Related R) cs cs') {supply : List (Value α)}
    {supply' : List (Value β)} (hs : List.Forall₂ (Value.Related R) supply supply') :
    List.Forall₂ (Option.Rel (Value.Related R)) (slots cs supply) (slots cs' supply') := by
  induction h generalizing supply supply' with
  | nil => exact List.rel_map (R := Value.Related R) (fun _ _ hv => .some hv) hs
  | @cons c c' cs cs' hc _ ih =>
      cases hc with
      | column n _ => exact ih hs
      | raw sql =>
          rw [slots_raw, slots_raw]
          exact List.rel_append (forall₂_draw hs _) (ih (List.forall₂_drop _ hs))
      | bound sql hv =>
          cases hn : countPositional sql with
          | zero => simpa only [slots, hn] using ih hs
          | succ n =>
              rw [slots_bound hn, slots_bound hn]
              exact List.rel_append (.cons (.some hv) (forall₂_draw hs n))
                (ih (List.forall₂_drop n hs))

theorem related_slotEntries (h : List.Forall₂ (Clause.Related R) cs cs') {b : Bindings α}
    {b' : Bindings β} (hb : b.Related R b') :
    EntriesRelated R (slotEntries cs b) (slotEntries cs' b') := by
  have hnumbered : ∀ {us : List (Option (Value α))} {us' : List (Option (Value β))} (i : Nat),
      List.Forall₂ (Option.Rel (Value.Related R)) us us' →
      List.Forall₂ (fun s s' => Option.Rel (Value.Related R) s.1 s'.1 ∧ s.2 = s'.2)
        (us.zipIdx i) (us'.zipIdx i) := by
    intro us us' i hus
    induction hus generalizing i with
    | nil => exact .nil
    | cons hu _ ih => exact .cons ⟨hu, rfl⟩ (ih (i + 1))
  refine List.rel_filterMap (R := fun s s' => Option.Rel (Value.Related R) s.1 s'.1 ∧ s.2 = s'.2)
    ?_ (hnumbered 0 (related_slots h hb.positional))
  rintro ⟨v?, i⟩ ⟨w?, i'⟩ ⟨hv, hi⟩
  cases hi
  cases hv with
  | none => exact .none
  | some hv => exact .some ⟨rfl, hv⟩

theorem related_columns (h : List.Forall₂ (Clause.Related R) cs cs') (stem : Text) :
    (columns stem cs).Related R (columns stem cs') := by
  refine Bindings.related_ofList (List.rel_filterMap (R := Clause.Related R) ?_ h)
  intro c c' hc
  cases hc with
  | raw sql => exact .none
  | bound sql _ => exact .none
  | column n hv => exact .some ⟨rfl, hv⟩

theorem related_others (h : List.Forall₂ (Clause.Related R) cs cs') {b : Bindings α}
    {b' : Bindings β} (hb : b.Related R b') : (others cs b).Related R (others cs' b') :=
  Bindings.related_ofList ((related_slotEntries h hb).append hb.named)

theorem map_write_eq (h : List.Forall₂ (Clause.Related R) cs cs') (d : Dialect) (stem : Text) :
    cs.map (Clause.write d stem) = cs'.map (Clause.write d stem) := by
  induction h with
  | nil => rfl
  | cons hc _ ih => rw [List.map_cons, List.map_cons, hc.write_eq, ih]

/-- **Compiling clauses carries the relation on.** -/
theorem related_compile (h : List.Forall₂ (Clause.Related R) cs cs') {b : Bindings α}
    {b' : Bindings β} (hb : b.Related R b') (d : Dialect) (stem joiner : Text) :
    (compile d stem joiner cs b).Related R (compile d stem joiner cs' b') := by
  have hcolumns := related_columns h stem
  have hothers := related_others h hb
  simp only [compile, hcolumns.names_eq, hothers.names_eq, map_write_eq h d stem]
  obtain ⟨hsql, hparams⟩ := hothers.namePositional
    (freshStem stem ((columns stem cs').names ++ (others cs' b').names))
    (Text.join joiner (cs'.map (Clause.write d stem)))
  exact ⟨hsql, hcolumns.merge hparams⟩

end Clauses

/-! ### Conditions -/

/-- Conditions of one text, or of related clauses. -/
inductive Condition.Related (R : Option α → Option β → Prop) : Condition α → Condition β → Prop
  | none : Related R .none .none
  | raw (sql : Text) : Related R (.raw sql) (.raw sql)
  | clauses {cs : List (Clause α)} {cs' : List (Clause β)} :
      List.Forall₂ (Clause.Related R) cs cs' → Related R (.clauses cs) (.clauses cs')

namespace Condition

variable {c : Condition α} {c' : Condition β}

theorem Related.isEmpty_eq (h : c.Related R c') : c.isEmpty = c'.isEmpty := by
  cases h with
  | none => rfl
  | raw sql => rfl
  | clauses hcs => cases hcs <;> rfl

theorem Related.bareColumn?_eq (h : c.Related R c') : c.bareColumn? = c'.bareColumn? := by
  cases h <;> rfl

theorem Related.named (h : c.Related R c') {b : Bindings α} {b' : Bindings β}
    (hb : b.Related R b') (d : Dialect) : (c.named d b).Related R (c'.named d b') := by
  cases h with
  | none => exact ⟨rfl, hb⟩
  | raw sql => exact hb.namePositional conditionStem sql
  | clauses hcs => exact Clauses.related_compile hcs hb d conditionStem _

theorem related_equation {v : Value α} {w : Value β} (h : v.Related R w) (d : Dialect)
    (column : Text) : (equation d column v).Related R (equation d column w) :=
  ⟨rfl, Bindings.related_ofList (.cons ⟨rfl, h⟩ .nil)⟩

theorem related_resolve {f : Fragment α} {g : Fragment β} (h : f.Related R g) (d : Dialect)
    (column? : Option Text) : (resolve d column? f).Related R (resolve d column? g) := by
  have hsingle := h.2.single?
  cases hf : hasNamed f.sql with
  | true =>
      have hg : hasNamed g.sql = true := by rw [← h.1, hf]
      simpa only [resolve, hf, hg, if_true] using h
  | false =>
      have hg : hasNamed g.sql = false := by rw [← h.1, hf]
      cases column? with
      | none => simpa only [resolve, hf, hg, Bool.false_eq_true, if_false] using h
      | some column =>
          simp only [resolve, hf, hg, Bool.false_eq_true, if_false]
          -- the fragments stay in the goal while their only values are split
          generalize f.params.single? = x, g.params.single? = y at hsingle
          cases hsingle with
          | none => exact h
          | some hv => exact related_equation hv d column

/-- **Compiling a condition carries the relation on.** -/
theorem Related.compile (h : c.Related R c') {b : Bindings α} {b' : Bindings β}
    (hb : b.Related R b') (d : Dialect) : (c.compile d b).Related R (c'.compile d b') := by
  rw [Condition.compile, Condition.compile, h.isEmpty_eq, h.bareColumn?_eq]
  split
  · exact ⟨rfl, hb⟩
  · exact related_resolve (h.named hb d).spread d _

end Condition

/-! ### Statements -/

/-- What is sent: one text, the same names by number, and related values. -/
structure Sent.Related (R : Option α → Option β → Prop) (s : Sent α) (s' : Sent β) : Prop where
  sql : s.sql = s'.sql
  names : s.names = s'.names
  values : List.Forall₂ R s.values s'.values

/-- **Sending carries the relation on.** -/
theorem Fragment.Related.sent {f : Fragment α} {g : Fragment β} (h : f.Related R g) :
    (Statement.ofFragment f).sent.Related R (Statement.ofFragment g).sent := by
  obtain ⟨hsql, hparams⟩ := h.spread
  have hnames : (Statement.ofFragment f).boundNames = (Statement.ofFragment g).boundNames := by
    have hbound : ∀ n, (f.spread.params.datum? n).isSome = (g.spread.params.datum? n).isSome := by
      intro n
      have hdatum := hparams.datum? n
      generalize f.spread.params.datum? n = x, g.spread.params.datum? n = y at hdatum
      cases hdatum <;> rfl
    rw [Statement.boundNames, Statement.boundNames]
    change firsts (List.filter (fun n => (f.spread.params.datum? n).isSome) (Token.names
      (tokenize f.spread.sql))) = _
    simp only [hbound, hsql]
    rfl
  refine ⟨?_, hnames, ?_⟩
  · change List.flatMap _ (tokenize f.spread.sql) = List.flatMap _ (tokenize g.spread.sql)
    rw [hnames, hsql]
  · change List.Forall₂ R (List.filterMap _ _) (List.filterMap _ _)
    rw [hnames]
    exact List.rel_filterMap (R := Eq) (fun n n' hn => hn ▸ hparams.datum? n)
      (List.forall₂_refl _)

end BoundQuery

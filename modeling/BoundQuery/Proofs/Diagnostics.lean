/-
**The description of a statement tells what is sent.**

A description finds the markers that nothing is sent for by reading the numbered text once more.  It
could be misled in two ways: a placeholder that stands where a marker stood might change how the text
around it is read, and a binding that is a list would have a name and yet no number.  Neither
happens.  A placeholder is plain text, it stands where a name ended and no name began, and so the
other markers are read as before; and a statement has no lists.

So a binding is listed with the number of its placeholder exactly if its name has that number, the
value of that number is its value, and the markers listed as unresolved are those of the statement's
own text that have no binding.  This is shown of the facts of a description and of the text that is
written for them.

Main definitions:

* `Token.numbered` — a token once names have numbers;
* `Statement.unbound` — the markers of a statement that no value is bound to;
* `Sent.Places` — what is written for the placeholder of a binding;
* `Dump.TellsOf`, `Dump.Reads` — **a description tells of a statement**, and its text reads so.

Main results:

* `Readable.numbered`, `markers_tokenize_sent` — placeholders leave the other markers as they were;
* `position?_eq_some_iff` — the number of a name says where the name stands;
* `Statement.places_writePosition` — what is written for a binding is the placeholder of its value;
* `Statement.dump_tells` — the description of a statement tells of it.
-/

import Mathlib.Data.List.Forall2
import BoundQuery.Proofs.Meaning
import BoundQuery.Proofs.PlainText
import BoundQuery.Statement.Dump

set_option relaxedAutoImplicit false
set_option autoImplicit false

namespace BoundQuery

open Token

variable {α : Type}

/-! ### The numbered text is read again -/

/-- A token once names have numbers: a placeholder is plain text. -/
def Token.numbered (ns : List Text) : Token → Token
  | .named n =>
      match position? ns n with
      | some p => .text ('$' :: decimal p)
      | none => .named n
  | t => t

theorem Token.written_numbered (ns : List Text) (t : Token) :
    (t.numbered ns).written = t.writeNumbered ns := by
  cases t with
  | text s => rfl
  | positional => rfl
  | named n =>
      simp only [Token.numbered, Token.writeNumbered]
      cases position? ns n with
      | none => rfl
      | some p => rfl

/-- A placeholder begins with no word character, as the marker it stands for. -/
theorem startsWord_numbered (ns : List Text) {m : Mode} {ts : List Token} (h : Readable m ts) :
    (write (ts.map (Token.numbered ns))).startsWord = (write ts).startsWord := by
  cases h with
  | nil => rfl
  | text hs _ _ =>
      have hne := Readable.ne_nil_of_scan hs
      rw [List.map_cons, write_cons, write_cons, written_numbered]
      exact (Text.startsWord_append hne _).trans (Text.startsWord_append hne _).symm
  | positional => rfl
  | @named _ n =>
      rw [List.map_cons, write_cons, written_numbered, Token.writeNumbered]
      cases position? ns n with
      | none => rfl
      | some p => rfl

/-- Outside spans, a placeholder is read as plain text behind which nothing is remembered. -/
theorem scan_placeholder {m : Mode} (hm : m.quote? = none) (p : Nat) :
    scan m ('$' :: decimal p) = [.text ('$' :: decimal p)] ∧
      m.after ('$' :: decimal p) = .plain := by
  have hdollar : isWordChar '$' = false := by decide
  have hquote : isQuoteChar '$' = false := by decide
  have hread : m.read '$' (decimal p) = .text := by simp [Mode.read, hm, hdollar]
  have hstep : m.step '$' = .plain := by simp [Mode.step, hm, hdollar, hquote]
  constructor
  · have hdigits : scan .plain (decimal p ++ []) = (decimal p).foldr addText [] :=
      scan_word_text rfl rfl (Text.isName_append_decimal (List.forall_mem_nil _) p) []
    rw [List.append_nil] at hdigits
    rw [scan, hread, hstep, hdigits]
    exact foldr_addText_of_no_text (List.cons_ne_nil '$' (decimal p))
      fun _ _ => (List.cons_ne_nil _ _).symm
  · rw [Mode.after_cons, hstep]
    exact (isInert_placeholder p).after

/-- **Placeholders keep a sequence readable.** -/
theorem Readable.numbered (ns : List Text) {m : Mode} {ts : List Token} (h : Readable m ts) :
    Readable m (ts.map (Token.numbered ns)) := by
  induction h with
  | nil m => exact .nil m
  | @text m s ts hs ha hts ih =>
      have hstart := startsWord_numbered ns hts
      exact .text hs (fun hm => hstart.trans (ha hm)) ih
  | positional hq _ ih => exact .positional hq ih
  | @named m n ts hq ha hn ht hts ih =>
      have hstart := (startsWord_numbered ns hts).trans ht
      rw [List.map_cons, Token.numbered]
      cases position? ns n with
      | none => exact .named hq ha hn hstart ih
      | some p =>
          obtain ⟨hscan, hafter⟩ := scan_placeholder hq p
          refine .text hscan (fun _ => hstart) ?_
          rw [hafter]
          exact (readable_name_iff hstart).1 ih

theorem isSome_position? (ns : List Text) (n : Text) :
    (position? ns n).isSome = ns.contains n := by
  rw [position?, Option.isSome_map, Bool.eq_iff_iff, List.isSome_idxOf?, List.contains_iff_mem]

/-- A marker that stays is none of those that have a number. -/
theorem isMarker_numbered (ns : List Text) (t : Token) :
    (t.numbered ns).isMarker = (t.isMarker && t.name?.all fun n => !ns.contains n) := by
  cases t with
  | text s => rfl
  | positional => rfl
  | named n =>
      rw [name?, Option.all_some, ← isSome_position?, Token.numbered]
      cases position? ns n with
      | none => rfl
      | some p => rfl

theorem numbered_of_isMarker {ns : List Text} {t : Token} (h : (t.numbered ns).isMarker = true) :
    t.numbered ns = t := by
  cases t with
  | text s => rfl
  | positional => rfl
  | named n =>
      rw [Token.numbered] at h ⊢
      cases hp : position? ns n with
      | none => rfl
      | some p => rw [hp] at h; cases h

/-- The markers of a sequence whose names have numbers are those of the names that have none. -/
theorem markers_map_numbered (ns : List Text) (ts : List Token) :
    markers (ts.map (Token.numbered ns)) =
      (markers ts).filter fun t => t.name?.all fun n => !ns.contains n := by
  have hsame : ∀ t ∈ ts.filter (isMarker ∘ Token.numbered ns), Token.numbered ns t = t :=
    fun t ht => numbered_of_isMarker (List.mem_filter.1 ht).2
  calc markers (ts.map (Token.numbered ns))
      = (ts.filter (isMarker ∘ Token.numbered ns)).map (Token.numbered ns) := List.filter_map
    _ = ts.filter (isMarker ∘ Token.numbered ns) := 
        (List.map_congr_left hsame).trans (List.map_id' _)
    _ = (markers ts).filter fun t => t.name?.all fun n => !ns.contains n := by
        rw [markers, List.filter_filter]
        exact List.filter_congr fun t _ => (isMarker_numbered ns t).trans (Bool.and_comm _ _)

namespace Statement

/-- **The markers that are read in the text that is sent** are those of the statement's text that
have no number. -/
theorem markers_tokenize_sent (s : Statement α) :
    markers (tokenize s.sent.sql) =
      (markers (tokenize s.sql)).filter fun t => t.name?.all fun n => !s.boundNames.contains n := by
  have hsql : s.sent.sql = write ((tokenize s.sql).map (Token.numbered s.boundNames)) := by
    rw [write, List.flatMap_map]
    exact congrArg (List.flatMap · (tokenize s.sql))
      (funext fun t => (written_numbered s.boundNames t).symm)
  have hread := ((readable_tokenize s.sql).numbered s.boundNames).scan_write
  have hmerged : ∀ ts : List Token, markers (merged ts) = markers ts := fun ts => by
    rw [merged, markers_foldr_prepend]
    exact List.append_nil _
  rw [hsql, tokenize, hread, hmerged, markers_map_numbered]

/-! ### Markers without a value -/

/-- The markers of a statement that no value is bound to: every `?`, and the named markers whose
name is no key. -/
def unbound (s : Statement α) : List Token :=
  (markers (tokenize s.sql)).filter fun t => t.name?.all fun n => !s.params.contains (.name n)

/-- A marker of a statement without lists has a number exactly if its name is a key. -/
theorem contains_boundNames {s : Statement α} (hlist : s.params.hasList = false) {n : Text}
    (hn : n ∈ names (tokenize s.sql)) :
    s.boundNames.contains n = s.params.contains (.name n) := by
  have hdatum : (s.params.datum? n).isSome = s.params.contains (.name n) := by
    rw [Bindings.datum?, Bindings.contains]
    cases hv : s.params.get? (.name n) with
    | none => rfl
    | some v =>
        have hno : v.isList = false := by
          have hall := List.any_eq_false.1 hlist
          exact Bool.eq_false_iff.2 (hall _ ((Bindings.get?_eq_some_iff _ _ v).1 hv))
        rw [Option.bind_some, Value.isSome_datum?, hno]
        rfl
  rw [← hdatum, Bool.eq_iff_iff, List.contains_iff_mem, boundNames, mem_firsts, List.mem_filter]
  exact and_iff_right hn

/-- **The markers that are left are those without a value**, in a statement without lists. -/
theorem markers_sent_eq_unbound {s : Statement α} (hlist : s.params.hasList = false) :
    markers (tokenize s.sent.sql) = s.unbound := by
  rw [markers_tokenize_sent, unbound]
  refine List.filter_congr fun t ht => ?_
  cases t with
  | text s => rfl
  | positional => rfl
  | named n =>
      have hn : n ∈ names (tokenize s.sql) := by
        rw [names_eq_filterMap_markers]
        exact List.mem_filterMap.2 ⟨_, ht, rfl⟩
      simp only [name?, Option.all_some, contains_boundNames hlist hn]

end Statement

/-! ### Numbers -/

/-- **The number of a name says where the name stands**, counted from one. -/
theorem position?_eq_some_iff {ns : List Text} (h : ns.Nodup) {n : Text} {p : Nat} :
    position? ns n = some p ↔ ∃ i, p = i + 1 ∧ ns[i]? = some n := by
  constructor
  · intro hp
    obtain ⟨i, hi, rfl⟩ := Option.map_eq_some_iff.1 hp
    obtain ⟨hlt, heq, -⟩ := List.idxOf?_eq_some_iff.1 hi
    exact ⟨i, rfl, List.getElem?_eq_some_iff.2 ⟨hlt, heq⟩⟩
  · rintro ⟨i, rfl, hi⟩
    obtain ⟨hlt, rfl⟩ := List.getElem?_eq_some_iff.1 hi
    rw [position?, idxOf?_of_mem (List.getElem_mem hlt), h.idxOf_getElem i hlt]
    rfl

/-- The key is a name, and the name has the number `p` in what is sent. -/
def Sent.HasNumber (sent : Sent α) (k : Key) (p : Nat) : Prop :=
  ∃ n i, k = .name n ∧ p = i + 1 ∧ sent.names[i]? = some n

theorem Statement.position_iff (s : Statement α) (k : Key) (p : Nat) :
    k.name?.bind (position? s.sent.names) = some p ↔ s.sent.HasNumber k p := by
  cases k with
  | index i =>
      refine iff_of_false (by simp [Key.name?]) ?_
      rintro ⟨n, j, hkey, -⟩
      cases hkey
  | name n =>
      rw [Key.name?, Option.bind_some, position?_eq_some_iff s.nodup_names_sent]
      constructor
      · rintro ⟨i, hp, hi⟩
        exact ⟨n, i, rfl, hp, hi⟩
      · rintro ⟨n', i, hkey, hp, hi⟩
        cases hkey
        exact ⟨i, hp, hi⟩

/-! ### Descriptions -/

/-- **A description tells of a statement.** -/
structure Dump.TellsOf (d : Dump α) (s : Statement α) : Prop where
  /-- Its texts are the statement's and the one that is sent. -/
  texts : d.sql = s.sql ∧ d.sentSql = s.sent.sql
  /-- Every binding is listed once, in order. -/
  listed : d.entries.map (fun e => (e.1, e.2.2)) = s.params.entries
  /-- A binding has a number exactly if its name has that number. -/
  position : ∀ e ∈ d.entries, ∀ p, e.2.1 = some p ↔ s.sent.HasNumber e.1 p
  /-- The value that is sent with a number is the value of the binding. -/
  value : ∀ k i v, (k, some (i + 1), v) ∈ d.entries →
    ∃ x, v.datum? = some x ∧ s.sent.values[i]? = some x
  /-- The markers listed as unresolved are those without a value. -/
  unresolved : d.unresolved = s.unbound

/-- What is written for the placeholder of a binding: `$p` exactly if its name has the number `p` in
what is sent, and then the value with that number is its value; `unused` exactly if its name has no
number. -/
structure Sent.Places (sent : Sent α) (e : Key × Value α) (position : Text) : Prop where
  numbered : ∀ p, position = '$' :: decimal p ↔ sent.HasNumber e.1 p
  value : ∀ i, sent.HasNumber e.1 (i + 1) → ∃ x, e.2.datum? = some x ∧ sent.values[i]? = some x
  unused : position = "unused".toList ↔ ∀ p, ¬ sent.HasNumber e.1 p

/-- The line of a binding: its key, what is written for its placeholder, and its value. -/
def Dump.IsEntry (sent : Sent Scalar) (e : Key × Value Scalar) (line : Text) : Prop :=
  ∃ position, sent.Places e position ∧
    line = "Key: ".toList ++ e.1.written ++ " Position: ".toList ++ position ++
      " Value: ".toList ++ e.2.write

/-- **How the text of a description reads**: three lines of facts, a line for each binding in order,
and a line for the markers without a value exactly if there are any.  Every line ends with a line
feed. -/
def Dump.Reads (s : Statement Scalar) (text : Text) : Prop :=
  ∃ head entries last : List Text,
    head = ["SQL: [".toList ++ decimal s.sql.utf8Length ++ "] ".toList ++ s.sql,
      "Sent SQL: [".toList ++ decimal s.sent.sql.utf8Length ++ "] ".toList ++ s.sent.sql,
      "Params: ".toList ++ decimal s.params.size] ∧
    List.Forall₂ (IsEntry s.sent) s.params.entries entries ∧
    last = (if s.unbound = [] then [] else
      ["Unresolved markers: ".toList ++ Text.join ", ".toList (s.unbound.map Token.written)]) ∧
    text = (head ++ entries ++ last).flatMap (· ++ ['\n'])

namespace Statement

/-- The value with the number of a binding is the value of the binding. -/
theorem value_of_hasNumber {s : Statement α} {e : Key × Value α} (he : e ∈ s.params.entries) {i : Nat}
    (h : s.sent.HasNumber e.1 (i + 1)) : ∃ x, e.2.datum? = some x ∧ s.sent.values[i]? = some x := by
  obtain ⟨n, j, hkey, hij, hname⟩ := h
  obtain rfl := Nat.succ.inj hij
  -- the binding is found under its name, and so is its datum
  have hget : s.params.get? (.name n) = some e.2 := by
    rw [Bindings.get?_eq_some_iff, ← hkey]
    exact he
  have hdatum : s.params.datum? n = e.2.datum? := by
    rw [Bindings.datum?, hget, Option.bind_some]
  have hsome := isSome_datum?_of_mem (List.mem_of_getElem? hname)
  obtain ⟨x, hx⟩ := Option.isSome_iff_exists.1 hsome
  exact ⟨x, hdatum ▸ hx, (getElem?_values_sent hname).trans hx⟩

theorem tellsOf_dump {s : Statement α} (hlist : s.params.hasList = false) :
    s.dump.TellsOf s where
  texts := ⟨rfl, rfl⟩
  listed := s.dump_entries
  position e he p := by
    obtain ⟨x, -, rfl⟩ := List.mem_map.1 he
    exact s.position_iff x.1 p
  value k i v hmem := by
    obtain ⟨x, hx, heq⟩ := List.mem_map.1 hmem
    simp only [Prod.mk.injEq] at heq
    obtain ⟨rfl, hposition, rfl⟩ := heq
    exact value_of_hasNumber hx ((s.position_iff x.1 (i + 1)).1 hposition)
  unresolved := markers_sent_eq_unbound hlist

/-- **What is written for a binding is the placeholder of its value**, or that there is none. -/
theorem places_writePosition {s : Statement α} {e : Key × Value α} (he : e ∈ s.params.entries) :
    s.sent.Places e (Dump.writePosition (e.1.name?.bind (position? s.sent.names))) where
  numbered p := Dump.writePosition_eq_number_iff.trans (s.position_iff e.1 p)
  value _ h := value_of_hasNumber he h
  unused := by
    rw [Dump.writePosition_eq_unused_iff, Option.eq_none_iff_forall_ne_some]
    exact forall_congr' fun p => not_congr (s.position_iff e.1 p)

theorem reads_dump {s : Statement Scalar} (hlist : s.params.hasList = false) :
    Dump.Reads s s.dump.write := by
  have hunresolved : s.dump.unresolved = s.unbound := (tellsOf_dump hlist).unresolved
  have hentries : List.Forall₂ (Dump.IsEntry s.sent) s.params.entries
      (s.dump.entries.map Dump.entryLine) := by
    rw [dump, List.map_map, List.forall₂_map_right_iff, List.forall₂_same]
    exact fun e he => ⟨_, places_writePosition he, rfl⟩
  have hsize : s.dump.entries.length = s.params.size := List.length_map _
  refine ⟨_, _, _, rfl, hentries, rfl, ?_⟩
  rw [Dump.write, Dump.lines, hunresolved, hsize]
  cases s.unbound <;> rfl

/-- **The description of a statement tells what is sent.**  So do its facts, and so does the text that
is written for them. -/
theorem dump_tells (f : Fragment Scalar) :
    (ofFragment f).dump.TellsOf (ofFragment f) ∧
      Dump.Reads (ofFragment f) (ofFragment f).dump.write :=
  ⟨tellsOf_dump f.hasList_spread, reads_dump f.hasList_spread⟩

/-- A binding whose marker is missing, and a marker whose binding is missing. -/
example :
    (ofFragment ⟨"a = :a AND b = :b".toList,
      .ofList [(.name ['a'], .null), (.name ['z'], .null)]⟩ : Statement Scalar).dump.write =
      ("SQL: [17] a = :a AND b = :b\nSent SQL: [17] a = $1 AND b = :b\nParams: 2\n" ++
        "Key: :a Position: $1 Value: NULL\nKey: :z Position: unused Value: NULL\n" ++
        "Unresolved markers: :b\n").toList := by
  decide +kernel

end Statement

end BoundQuery

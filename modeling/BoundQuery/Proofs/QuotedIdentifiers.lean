/-
**Quoted identifiers are read back.**

Identifiers are written by doubling quote characters while copying, and quoted spans are read by
skipping doubled quote characters while searching for one that stands alone.  The two are separate
recursions over the same character, and identifiers that consist of quote characters, end in one or
hold dots are where they could come apart.  They do not: a quoted identifier is one span, whatever
follows it but the same quote character, and unquoting accepts exactly what quoting writes.

A quoted path is split at the dots that the reader sees outside spans.  The dots of the path itself
are among those, and the others are quoted, so the pieces are the quoted segments.

The reader of SQL text has no notion of a whole span: to it, a doubled quote character closes a span
and opens the next.  `scan_span?` says that it passes over exactly the spans that are read here.

Main definitions:

* `Text.spanBody`, `Text.span?` — the quoted span at the head of a text, and what is behind it;
* `Text.halved?`, `QuoteStyle.unquote?` — doubled quote characters written once, and the identifier
  of a quoted form;
* `Text.outerFields` — the stretches of a text between the separators outside spans.

Main results:

* `scan_span?` — **the reader passes over a span as plain text** and goes on behind it;
* `QuoteStyle.span?_quote` — a quoted identifier is read as one span;
* `QuoteStyle.unquote?_eq_some_iff` — **unquoting accepts what quoting writes**, and nothing else;
* `QuoteStyle.outerFields_quotePath` — a quoted path falls into its quoted segments;
* `QuoteStyle.quote_read_back` — identifiers and paths are read back, so quoting is injective.
-/

import BoundQuery.Proofs.PlainText

set_option relaxedAutoImplicit false
set_option autoImplicit false

namespace BoundQuery

open Token

/-! ### Spans -/

namespace Text

/-- The rest of a span that `q` has opened and the text behind the span.  A doubled quote character
belongs to the span, and a span that is never closed runs to the end. -/
def spanBody (q : Char) : Text → Text × Text
  | [] => ([], [])
  | c :: t =>
      if c = q then
        match t with
        | [] => ([c], [])
        | d :: u =>
            if d = q then (c :: d :: (spanBody q u).1, (spanBody q u).2) else ([c], d :: u)
      else (c :: (spanBody q t).1, (spanBody q t).2)

/-- The quoted span that a text begins with, and the text behind it. -/
def span? : Text → Option (Text × Text)
  | [] => none
  | c :: t => if isQuoteChar c then some (c :: (spanBody c t).1, (spanBody c t).2) else none

theorem spanBody_cons_of_ne {q c : Char} (h : c ≠ q) (t : Text) :
    spanBody q (c :: t) = (c :: (spanBody q t).1, (spanBody q t).2) := by
  cases t with
  | nil => simp [spanBody, h]
  | cons d u => rw [spanBody, if_neg h]

theorem spanBody_doubled (q : Char) (t : Text) :
    spanBody q (q :: q :: t) = (q :: q :: (spanBody q t).1, (spanBody q t).2) := by
  rw [spanBody, if_pos rfl, if_pos rfl]

/-- A quote character that stands alone ends the span. -/
theorem spanBody_alone {q : Char} {t : Text} (h : t.head? ≠ some q) :
    spanBody q (q :: t) = ([q], t) := by
  cases t with
  | nil => rw [spanBody, if_pos rfl]
  | cons d u =>
      have hd : d ≠ q := fun heq => h (congrArg some heq)
      rw [spanBody, if_pos rfl, if_neg hd]

end Text

/-- **Inside a span, the reader passes over the rest of it as plain text** and goes on behind it. -/
theorem scan_spanBody {q : Char} (hq : isQuoteChar q = true) (t : Text) :
    scan (.quoted q) t = (t.spanBody q).1.foldr addText (scan .plain (t.spanBody q).2) := by
  have hclose : (Mode.quoted q).step q = .plain := by simp [Mode.step, Mode.quote?]
  fun_induction Text.spanBody q t with
  | case1 => rfl
  | case2 => rw [scan_quoted, hclose]; rfl
  | case3 u ih =>
      -- the first of the two closes the span, and the second opens the next
      rw [scan_quoted, hclose, scan_open rfl hq, ih]
      rfl
  | case4 d u hd => rw [scan_quoted, hclose]; rfl
  | case5 c t hc ih =>
      have hstay : (Mode.quoted q).step c = .quoted q := by simp [Mode.step, Mode.quote?, hc]
      rw [scan_quoted, hstay, ih]
      rfl

/-- **Outside spans, the reader passes over a span as plain text** and goes on behind it. -/
theorem scan_span? {t s r : Text} (h : t.span? = some (s, r)) {m : Mode} (hm : m.quote? = none) :
    scan m t = prepend (.text s) (tokenize r) := by
  cases t with
  | nil => cases h
  | cons c t =>
      simp only [Text.span?] at h
      split at h
      · next hc =>
          cases h
          rw [scan_open hm hc, scan_spanBody hc]
          rfl
      · cases h

/-! ### Unquoting -/

/-- A text with every doubled `q` written once, if no `q` stands alone. -/
def Text.halved? (q : Char) : Text → Option Text
  | [] => some []
  | c :: t =>
      if c = q then
        match t with
        | [] => none
        | d :: u => if d = q then (halved? q u).map (q :: ·) else none
      else (halved? q t).map (c :: ·)

theorem Text.halved?_cons_of_ne {q c : Char} (h : c ≠ q) (t : Text) :
    halved? q (c :: t) = (halved? q t).map (c :: ·) := by
  cases t with
  | nil => simp [halved?, h]
  | cons d u => rw [halved?, if_neg h]

theorem Text.halved?_doubled (q : Char) (t : Text) :
    halved? q (q :: q :: t) = (halved? q t).map (q :: ·) := by
  rw [halved?, if_pos rfl, if_pos rfl]

namespace QuoteStyle

/-- The identifier of a quoted form: without the outer quote characters, and with those inside
halved. -/
def unquote? (q : QuoteStyle) : Text → Option Text
  | [] => none
  | c :: t => if c = q.char ∧ t.getLast? = some q.char then Text.halved? q.char t.dropLast else none

theorem halved?_doubled (q : QuoteStyle) (name : Text) :
    (q.doubled name).halved? q.char = some name := by
  induction name with
  | nil => rfl
  | cons c name ih =>
      rw [doubled]
      split
      · next h =>
          subst h
          rw [Text.halved?_doubled, ih]
          rfl
      · next h =>
          rw [Text.halved?_cons_of_ne h, ih]
          rfl

theorem eq_doubled_of_halved? (q : QuoteStyle) {t name : Text}
    (h : t.halved? q.char = some name) : t = q.doubled name := by
  fun_induction Text.halved? q.char t generalizing name with
  | case1 => cases h; rfl
  | case2 => cases h
  | case3 u ih =>
      obtain ⟨n, hn, rfl⟩ := Option.map_eq_some_iff.1 h
      rw [doubled, if_pos rfl, ← ih hn]
  | case4 d u hd => cases h
  | case5 c t hc ih =>
      obtain ⟨n, hn, rfl⟩ := Option.map_eq_some_iff.1 h
      rw [doubled, if_neg hc, ← ih hn]

/-- **Unquoting accepts what quoting writes**, and nothing else. -/
theorem unquote?_eq_some_iff (q : QuoteStyle) (t name : Text) :
    q.unquote? t = some name ↔ t = q.quote name := by
  constructor
  · intro h
    cases t with
    | nil => cases h
    | cons c t =>
        simp only [unquote?] at h
        split at h
        · next hc =>
            obtain ⟨rfl, hlast⟩ := hc
            obtain ⟨body, rfl⟩ := List.getLast?_eq_some_iff.1 hlast
            rw [List.dropLast_concat] at h
            rw [quote, ← q.eq_doubled_of_halved? h]
        · cases h
  · rintro rfl
    simp [quote, unquote?, halved?_doubled]

theorem unquote?_quote (q : QuoteStyle) (name : Text) : q.unquote? (q.quote name) = some name :=
  (q.unquote?_eq_some_iff _ name).2 rfl

/-! ### A quoted identifier is one span -/

/-- A doubled name is part of the span, up to the quote character that stands alone behind it. -/
theorem spanBody_quoted (q : QuoteStyle) (name : Text) {rest : Text}
    (h : rest.head? ≠ some q.char) :
    (q.doubled name ++ q.char :: rest).spanBody q.char = (q.doubled name ++ [q.char], rest) := by
  induction name with
  | nil => exact Text.spanBody_alone h
  | cons c name ih =>
      rw [doubled]
      split
      · next hc =>
          subst hc
          rw [List.cons_append, List.cons_append, Text.spanBody_doubled, ih]
          rfl
      · next hc =>
          rw [List.cons_append, Text.spanBody_cons_of_ne hc, ih]
          rfl

/-- **A quoted identifier is read as one span**, if no quote character of its style follows. -/
theorem span?_quote (q : QuoteStyle) (name : Text) {rest : Text} (h : rest.head? ≠ some q.char) :
    (q.quote name ++ rest).span? = some (q.quote name, rest) := by
  have hbody : q.quote name ++ rest = q.char :: (q.doubled name ++ q.char :: rest) := by
    simp [quote]
  rw [hbody, Text.span?, if_pos q.isQuoteChar_char, q.spanBody_quoted name h]
  rfl

end QuoteStyle

/-! ### Paths -/

/-- The stretches of a text, read from mode `m` on, between the occurrences of `sep` outside quoted
spans. -/
def Text.outerFields (sep : Char) : Mode → Text → List Text
  | _, [] => [[]]
  | m, c :: t =>
      if c = sep ∧ m.quote? = none then [] :: outerFields sep (m.step c) t
      else (outerFields sep (m.step c) t).modifyHead (c :: ·)

namespace QuoteStyle

/-- A doubled name inside a span stays in one piece. -/
theorem outerFields_doubled (q : QuoteStyle) {sep : Char} (hsep : q.char ≠ sep) (name t : Text) :
    Text.outerFields sep (.quoted q.char) (q.doubled name ++ t) =
      (Text.outerFields sep (.quoted q.char) t).modifyHead (q.doubled name ++ ·) := by
  have hopen : Mode.plain.step q.char = .quoted q.char := by
    simp [Mode.step, Mode.quote?, q.isQuoteChar_char]
  have hclose : (Mode.quoted q.char).step q.char = .plain := by simp [Mode.step, Mode.quote?]
  induction name with
  | nil => exact (congrFun List.modifyHead_id _).symm
  | cons c name ih =>
      rw [doubled]
      split
      · next hc =>
          subst hc
          simp [Text.outerFields, Mode.quote?, hsep, hopen, hclose, ih, Function.comp_def]
      · next hc =>
          have hstay : (Mode.quoted q.char).step c = .quoted q.char := by
            simp [Mode.step, Mode.quote?, hc]
          simp [Text.outerFields, Mode.quote?, hstay, ih, Function.comp_def]

/-- A quoted identifier stays in one piece, and behind it the reader is outside spans. -/
theorem outerFields_quote (q : QuoteStyle) {sep : Char} (hsep : q.char ≠ sep) (name t : Text) :
    Text.outerFields sep .plain (q.quote name ++ t) =
      (Text.outerFields sep .plain t).modifyHead (q.quote name ++ ·) := by
  have hopen : Mode.plain.step q.char = .quoted q.char := by
    simp [Mode.step, Mode.quote?, q.isQuoteChar_char]
  have hclose : (Mode.quoted q.char).step q.char = .plain := by simp [Mode.step, Mode.quote?]
  simp [quote, Text.outerFields, Mode.quote?, hsep, hopen, hclose, outerFields_doubled,
    Function.comp_def]

/-- Quoted identifiers with dots in between are split at those dots. -/
theorem outerFields_join (q : QuoteStyle) {names : List Text} (hne : names ≠ []) :
    Text.outerFields '.' .plain (Text.join ['.'] (names.map q.quote)) = names.map q.quote := by
  have hsep : q.char ≠ '.' := by cases q <;> decide
  induction names with
  | nil => exact absurd rfl hne
  | cons name names ih =>
      cases names with
      | nil =>
          rw [List.map_singleton, Text.join_singleton, ← List.append_nil (q.quote name),
            q.outerFields_quote hsep]
          rfl
      | cons name' names =>
          have hrest := ih (List.cons_ne_nil _ _)
          have hdot : Mode.plain.step '.' = .plain := by decide
          rw [List.map_cons] at hrest ⊢
          rw [List.map_cons, Text.join_cons_cons, List.append_assoc, q.outerFields_quote hsep,
            List.singleton_append, Text.outerFields, if_pos ⟨rfl, rfl⟩, hdot, hrest]
          exact congrArg (· :: _) (List.append_nil _)

/-- **A quoted path falls into its quoted segments** at the dots outside spans. -/
theorem outerFields_quotePath (q : QuoteStyle) (path : Text) :
    Text.outerFields '.' .plain (q.quotePath path) = (path.fields '.').map q.quote :=
  q.outerFields_join (path.fields_ne_nil '.')

/-! ### Reading back -/

theorem quote_injective (q : QuoteStyle) : Function.Injective q.quote := by
  intro a b h
  have ha := q.unquote?_quote a
  rw [h, q.unquote?_quote b] at ha
  exact (Option.some.inj ha).symm

theorem quotePath_injective (q : QuoteStyle) : Function.Injective q.quotePath := by
  intro a b h
  have hfields : (a.fields '.').map q.quote = (b.fields '.').map q.quote := by
    rw [← q.outerFields_quotePath, h, q.outerFields_quotePath]
  rw [← Text.join_fields '.' a, List.map_injective_iff.2 q.quote_injective hfields,
    Text.join_fields]

/-- **What is quoted is read back.**  A quoted identifier before any text but one that begins with
its quote character is read as one span, which the reader of SQL text passes over, and unquoting
accepts exactly the quoted form of an identifier.  A quoted path, split at its dots outside spans and
unquoted piece by piece, gives the segments of the path.  So neither writes two texts alike. -/
theorem quote_read_back (q : QuoteStyle) :
    (∀ name rest : Text, rest.head? ≠ some q.char →
        (q.quote name ++ rest).span? = some (q.quote name, rest) ∧
          tokenize (q.quote name ++ rest) = prepend (.text (q.quote name)) (tokenize rest)) ∧
      (∀ t name : Text, q.unquote? t = some name ↔ t = q.quote name) ∧
      (∀ path : Text, (Text.outerFields '.' .plain (q.quotePath path)).map q.unquote? =
        (path.fields '.').map some) ∧
      Function.Injective q.quote ∧ Function.Injective q.quotePath := by
  refine ⟨fun name rest h => ?_, q.unquote?_eq_some_iff, fun path => ?_, q.quote_injective,
    q.quotePath_injective⟩
  · have hspan := q.span?_quote name h
    exact ⟨hspan, scan_span? hspan rfl⟩
  · rw [q.outerFields_quotePath, List.map_map]
    exact List.map_congr_left fun name _ => q.unquote?_quote name

/-- A name made of quote characters and a dot, before a dot and another quoted name; the first span
ends between the two. -/
theorem quote_read_back_of_quotes :
    let name := "\"\".\"".toList
    let rest := ".\"b\"".toList
    rest.head? ≠ some QuoteStyle.double.char ∧
      (QuoteStyle.double.quote name ++ rest).span? = some ("\"\"\"\"\".\"\"\"".toList, rest) := by
  intro name rest
  have hrest : rest.head? ≠ some QuoteStyle.double.char := by decide
  exact ⟨hrest, ((quote_read_back .double).1 name rest hrest).1⟩

end QuoteStyle

end BoundQuery

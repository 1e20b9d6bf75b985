/-
**Text that the reader passes over.**

The statements on a table begin with fixed SQL and quoted identifiers.  Identifiers can hold
anything, but a quoted identifier is one span, so all of this is plain text: it holds no marker, and
behind it the reader stands outside spans with nothing to remember.  Such text is called inert.  It
can be cut off a statement: what follows it is read as if it stood alone, and whatever is written
for markers, the inert text stays as it is.  A separator is plain text that can be cut out of the
middle as well.

Main definitions:

* `Text.IsInert` — text without markers that leaves nothing to remember;
* `Text.IsSeparator` — text that is plain and leaves nothing to remember behind any other text.

Main results:

* `markers_scan_append`, `flatMap_scan_append` — the markers of a text in two parts, and what is
  written for its tokens;
* `Text.IsInert.append`, `Text.IsInert.join` — inert texts are put together;
* `Text.IsSeparator.markers_join`, `Text.IsSeparator.flatMap_join` — a joined text has the markers of
  its parts, and is written part by part;
* `markers_of_joined_parts` — **the markers of joined conditions and assignments**;
* `QuoteStyle.isInert_quote`, `QuoteStyle.isInert_quotePath` — **quoted identifiers are inert**,
  whatever they hold.
-/

import Mathlib.Data.List.Basic
import BoundQuery.Proofs.ElementNames
import BoundQuery.Proofs.JoinedText

set_option relaxedAutoImplicit false
set_option autoImplicit false

namespace BoundQuery

open Token

/-! ### A text in two parts -/

namespace Token

theorem markers_foldr_addText (s : Text) (ts : List Token) :
    markers (s.foldr addText ts) = markers ts := by
  induction s with
  | nil => rfl
  | cons c s ih => rw [List.foldr_cons, markers_addText, ih]

theorem markers_foldr_prepend (us ts : List Token) :
    markers (us.foldr prepend ts) = markers us ++ markers ts := by
  induction us with
  | nil => rfl
  | cons u us ih =>
      cases u with
      | text s => exact (markers_foldr_addText s _).trans ih
      | positional => exact congrArg (positional :: ·) ih
      | named n => exact congrArg (named n :: ·) ih

/-- The markers of a text in two parts, if no name runs across the cut. -/
theorem markers_scan_append {m : Mode} {s t : Text} (h : (m.after s).Admits t) :
    markers (scan m (s ++ t)) = markers (scan m s) ++ markers (scan (m.after s) t) := by
  rw [scan_append h, markers_foldr_prepend]

/-- What is written token by token for a text in two parts, if no name runs across the cut. -/
theorem flatMap_scan_append {w : Token → Text} (hw : ∀ s, w (text s) = s) {m : Mode} {s t : Text}
    (h : (m.after s).Admits t) :
    (scan m (s ++ t)).flatMap w = (scan m s).flatMap w ++ (scan (m.after s) t).flatMap w := by
  have hfold : ∀ us ts : List Token,
      (us.foldr prepend ts).flatMap w = us.flatMap w ++ ts.flatMap w := by
    intro us ts
    induction us with
    | nil => rfl
    | cons u us ih =>
        rw [List.foldr_cons, List.flatMap_cons, List.append_assoc, ← ih]
        cases u with
        | text s => rw [prepend, flatMap_foldr_addText hw, hw]
        | positional => rfl
        | named n => rfl
  rw [scan_append h, hfold]

/-- Tokens without markers are written as they stand. -/
theorem flatMap_of_no_marker {w : Token → Text} (hw : ∀ s, w (text s) = s) {ts : List Token}
    (h : markers ts = []) : ts.flatMap w = write ts := by
  refine List.flatMap_congr fun t ht => ?_
  cases t with
  | text s => exact hw s
  | positional => exact absurd rfl (List.filter_eq_nil_iff.1 h _ ht)
  | named n => exact absurd rfl (List.filter_eq_nil_iff.1 h _ ht)

theorem names_eq_filterMap_markers (ts : List Token) :
    names ts = (markers ts).filterMap name? := by
  rw [names, markers, List.filterMap_filter]
  exact List.filterMap_congr fun t _ => by cases t <;> rfl

theorem countP_isPositional_markers (ts : List Token) :
    (markers ts).countP isPositional = ts.countP isPositional := by
  rw [markers, List.countP_filter]
  exact List.countP_congr fun t _ => by cases t <;> simp [isPositional, isMarker]

end Token

/-! ### Inert text -/

/-- Text without markers behind which the reader has nothing to remember. -/
structure Text.IsInert (s : Text) : Prop where
  markers : Token.markers (tokenize s) = []
  after : Mode.plain.after s = .plain

namespace Text.IsInert

variable {s t : Text}

theorem admits (h : IsInert s) (t : Text) : (Mode.plain.after s).Admits t := by
  rw [h.after]
  exact fun hm => absurd hm (by decide)

/-- What follows inert text has the markers that it has alone. -/
theorem markers_append (h : IsInert s) (t : Text) :
    Token.markers (tokenize (s ++ t)) = Token.markers (tokenize t) := by
  rw [tokenize, markers_scan_append (h.admits t), h.after]
  exact congrArg (· ++ _) h.markers

/-- What follows inert text has the named markers that it has alone. -/
theorem names_append (h : IsInert s) (t : Text) :
    names (tokenize (s ++ t)) = names (tokenize t) := by
  rw [names_eq_filterMap_markers, h.markers_append, ← names_eq_filterMap_markers]

/-- Whatever is written for markers, inert text stays as it is. -/
theorem flatMap_append (h : IsInert s) {w : Token → Text} (hw : ∀ s, w (.text s) = s) (t : Text) :
    (tokenize (s ++ t)).flatMap w = s ++ (tokenize t).flatMap w := by
  rw [tokenize, flatMap_scan_append hw (h.admits t), h.after]
  exact congrArg (· ++ _) ((flatMap_of_no_marker hw h.markers).trans (write_tokenize s))

theorem countPositional (h : IsInert s) : BoundQuery.countPositional s = 0 := by
  rw [BoundQuery.countPositional, ← countP_isPositional_markers, h.markers]
  rfl

theorem isClosed (h : IsInert s) : s.IsClosed := by
  rw [IsClosed, h.after]
  rfl

theorem append (hs : IsInert s) (ht : IsInert t) : IsInert (s ++ t) where
  markers := (hs.markers_append t).trans ht.markers
  after := by rw [Mode.after_append, hs.after, ht.after]

theorem join {joiner : Text} (hj : IsInert joiner) {ps : List Text} (hps : ∀ p ∈ ps, IsInert p) :
    IsInert (Text.join joiner ps) :=
  Text.join_of_append (P := IsInert) ⟨rfl, rfl⟩ append hj hps

end Text.IsInert

/-- Text without quote characters, `?` and colons is inert. -/
theorem Text.IsPlainJoiner.isInert {s : Text} (h : s.IsPlainJoiner) (hcolon : ':' ∉ s) :
    s.IsInert := by
  induction s with
  | nil => exact ⟨rfl, rfl⟩
  | cons c s ih =>
      obtain ⟨hquote, hquestion⟩ := h c List.mem_cons_self
      have hc : c ≠ ':' := fun heq => hcolon (heq ▸ List.mem_cons_self)
      have hstep : Mode.plain.step c = .plain := by
        simp [Mode.step, Mode.quote?, hquote, hc, Mode.awaitsName]
      have hread : Mode.plain.read c s = .text := by
        simp [Mode.read, Mode.quote?, hquestion, hc, Mode.awaitsName]
      have hs := ih (fun x hx => h x (List.mem_cons_of_mem c hx))
        fun hx => hcolon (List.mem_cons_of_mem c hx)
      constructor
      · rw [tokenize, scan, hread, markers_addText, hstep]
        exact hs.markers
      · rw [Mode.after_cons, hstep]
        exact hs.after

/-- A placeholder is no marker, and behind it nothing is remembered. -/
theorem isInert_placeholder (i : Nat) : Text.IsInert ('$' :: decimal i) := by
  have hplain : ∀ c ∈ '$' :: decimal i, isQuoteChar c = false ∧ c ≠ '?' ∧ c ≠ ':' := by
    intro c hc
    rcases List.mem_cons.1 hc with rfl | hc
    · decide
    · have hword := isWordChar_of_mem_decimal hc
      exact ⟨Mode.isQuoteChar_of_isWordChar hword, ne_of_isWordChar hword isWordChar_question,
        ne_of_isWordChar hword isWordChar_colon⟩
  exact Text.IsPlainJoiner.isInert (fun c hc => ⟨(hplain c hc).1, (hplain c hc).2.1⟩)
    fun hc => (hplain _ hc).2.2 rfl

/-! ### Separators -/

/-- Text that separates: whatever stands before it outside spans, it is read as plain text that no
name runs into, and the reader remembers nothing behind it. -/
structure Text.IsSeparator (s : Text) : Prop where
  start : s.startsWord = false
  after : ∀ m : Mode, m.quote? = none → m.after s = .plain
  markers : ∀ m : Mode, m.quote? = none → Token.markers (scan m s) = []

/-- Inert text behind a character that means nothing to the reader separates. -/
theorem Text.IsInert.isSeparator {s : Text} (h : s.IsInert) {c : Char}
    (hquote : isQuoteChar c = false) (hquestion : c ≠ '?') (hcolon : c ≠ ':')
    (hword : isWordChar c = false) : IsSeparator (c :: s) := by
  have hstep : ∀ m : Mode, m.quote? = none → m.step c = .plain := by
    intro m hm
    simp [Mode.step, hm, hquote, hcolon, hword]
  refine ⟨hword, fun m hm => ?_, fun m hm => ?_⟩
  · rw [Mode.after_cons, hstep m hm, h.after]
  · have hread : m.read c s = .text := by simp [Mode.read, hm, hquestion, hcolon, hword]
    rw [scan, hread, markers_addText, hstep m hm]
    exact h.markers

/-- Text without quote characters, `?` and colons separates, if it starts with no word character. -/
theorem Text.IsPlainJoiner.isSeparator {c : Char} {s : Text} (h : IsPlainJoiner (c :: s))
    (hcolon : ':' ∉ c :: s) (hword : isWordChar c = false) : IsSeparator (c :: s) := by
  obtain ⟨hquote, hquestion⟩ := h c List.mem_cons_self
  have hc : c ≠ ':' := fun heq => hcolon (heq ▸ List.mem_cons_self)
  have htail : IsPlainJoiner s := fun x hx => h x (List.mem_cons_of_mem c hx)
  exact (htail.isInert fun hx => hcolon (List.mem_cons_of_mem c hx)).isSeparator hquote hquestion hc
    hword

theorem isSeparator_and : Text.IsSeparator " AND ".toList :=
  Text.IsPlainJoiner.isSeparator (by decide) (by decide) rfl

theorem isSeparator_comma : Text.IsSeparator ", ".toList :=
  Text.IsPlainJoiner.isSeparator (by decide) (by decide) rfl

namespace Text.IsSeparator

variable {s : Text}

theorem startsWord_append (h : IsSeparator s) (t : Text) : startsWord (s ++ t) = false := by
  have hne : s ≠ [] := by
    rintro rfl
    cases h.after .name rfl
  rw [Text.startsWord_append hne, h.start]

/-- Whatever is written for markers, a separator stays as it is. -/
theorem flatMap_append (h : IsSeparator s) {m : Mode} (hm : m.quote? = none) {w : Token → Text}
    (hw : ∀ s, w (.text s) = s) (t : Text) :
    (scan m (s ++ t)).flatMap w = s ++ (tokenize t).flatMap w := by
  have hadmits : (m.after s).Admits t := by
    rw [h.after m hm]
    exact fun ha => absurd ha (by decide)
  rw [flatMap_scan_append hw hadmits, h.after m hm, flatMap_of_no_marker hw (h.markers m hm),
    Mode.Admits.write_scan fun _ => h.start]
  rfl

/-- **Closed text before a separator is written apart from the text behind it.** -/
theorem flatMap_closed_append (h : IsSeparator s) {p : Text} (hp : p.IsClosed) {w : Token → Text}
    (hw : ∀ s, w (.text s) = s) (t : Text) :
    (tokenize (p ++ (s ++ t))).flatMap w =
      (tokenize p).flatMap w ++ (s ++ (tokenize t).flatMap w) := by
  rw [tokenize, flatMap_scan_append hw fun _ => h.startsWord_append t, h.flatMap_append hp hw]
  rfl

/-- **Closed text before a separator has its markers apart from the text behind it.** -/
theorem markers_closed_append (h : IsSeparator s) {p : Text} (hp : p.IsClosed) (t : Text) :
    Token.markers (tokenize (p ++ (s ++ t))) =
      Token.markers (tokenize p) ++ Token.markers (tokenize t) := by
  have hadmits : ((Mode.plain.after p).after s).Admits t := by
    rw [h.after _ hp]
    exact fun ha => absurd ha (by decide)
  rw [tokenize, markers_scan_append fun _ => h.startsWord_append t, markers_scan_append hadmits,
    h.markers _ hp, h.after _ hp]
  rfl

/-- **A joined text is written part by part**, if every part is closed. -/
theorem flatMap_join (h : IsSeparator s) {ps : List Text} (hps : ∀ p ∈ ps, p.IsClosed)
    {w : Token → Text} (hw : ∀ s, w (.text s) = s) :
    (tokenize (Text.join s ps)).flatMap w =
      Text.join s (ps.map fun p => (tokenize p).flatMap w) := by
  induction ps with
  | nil => rfl
  | cons p ps ih =>
      cases ps with
      | nil => simp
      | cons p' ps =>
          have hrest := ih fun x hx => hps x (List.mem_cons_of_mem p hx)
          rw [Text.join_cons_cons, List.append_assoc,
            h.flatMap_closed_append (hps p List.mem_cons_self) hw, hrest, ← List.append_assoc]
          exact (Text.join_cons_cons s _ _ _).symm

theorem isClosed (h : IsSeparator s) : s.IsClosed := by
  rw [IsClosed, h.after .plain rfl]
  rfl

/-- **A joined text has the markers of its parts**, in their order, if every part is closed. -/
theorem markers_join (h : IsSeparator s) {ps : List Text} (hps : ∀ p ∈ ps, p.IsClosed) :
    Token.markers (tokenize (Text.join s ps)) =
      ps.flatMap fun p => Token.markers (tokenize p) := by
  induction ps with
  | nil => rfl
  | cons p ps ih =>
      cases ps with
      | nil => simp
      | cons p' ps =>
          have hrest := ih fun x hx => hps x (List.mem_cons_of_mem p hx)
          rw [List.flatMap_cons, ← hrest, Text.join_cons_cons, List.append_assoc,
            h.markers_closed_append (hps p List.mem_cons_self)]

/-- A joined text has the named markers of its parts, in their order, if every part is closed. -/
theorem names_join (h : IsSeparator s) {ps : List Text} (hps : ∀ p ∈ ps, p.IsClosed) :
    names (tokenize (Text.join s ps)) = ps.flatMap fun p => names (tokenize p) := by
  rw [names_eq_filterMap_markers, h.markers_join hps, List.filterMap_flatMap]
  simp only [← names_eq_filterMap_markers]

end Text.IsSeparator

/-- **The markers of joined parts are those of the parts.**  Conditions are joined by `AND` and
assignments by a comma.  If every part ends outside quoted spans, then the `?` and the named markers
of the joined text are those of the parts one after the other, the joined text ends outside quoted
spans, and its `?` are as many as those of the parts together.  What a part begins and ends with is
of no matter: a colon, a word or a name cannot reach across the joiner. -/
theorem markers_of_joined_parts {joiner : Text}
    (hjoiner : joiner = " AND ".toList ∨ joiner = ", ".toList) {ps : List Text}
    (hps : ∀ p ∈ ps, p.IsClosed) :
    Token.markers (tokenize (Text.join joiner ps)) =
        ps.flatMap (fun p => Token.markers (tokenize p)) ∧
      (Text.join joiner ps).IsClosed ∧
      countPositional (Text.join joiner ps) = (ps.map countPositional).sum := by
  have hseparator : joiner.IsSeparator := by
    rcases hjoiner with rfl | rfl
    · exact isSeparator_and
    · exact isSeparator_comma
  have hplain : joiner.IsPlainJoiner := by
    rcases hjoiner with rfl | rfl <;> decide
  exact ⟨hseparator.markers_join hps, Text.isClosed_join hseparator.isClosed hps,
    countPositional_join hplain hps⟩

/-- Parts that end in a colon, a cast, a marker and a doubled quote, and parts that begin with a
marker, a span and a word. -/
theorem markers_of_joined_edges :
    let ps : List Text := ["a:".toList, "b::".toList, ":c = :d".toList, "'it''s ?'''".toList,
      "e = ?".toList, "?:f".toList, "g".toList]
    (∀ p ∈ ps, p.IsClosed) ∧
      Token.markers (tokenize (Text.join " AND ".toList ps)) =
        [.named ['c'], .named ['d'], .positional, .positional, .named ['f']] ∧
      (Text.join " AND ".toList ps).IsClosed ∧
      countPositional (Text.join " AND ".toList ps) = 2 := by
  intro ps
  have hps : ∀ p ∈ ps, p.IsClosed := by decide
  obtain ⟨hmarkers, hclosed, hcount⟩ := markers_of_joined_parts (.inl rfl) hps
  exact ⟨hps, hmarkers.trans (by decide), hclosed, hcount.trans (by decide)⟩

/-- A part that ends inside a span takes the `?` of the next one with it. -/
example : countPositional (Text.join ", ".toList ["'a".toList, "?".toList]) = 0 := by decide

/-! ### Quoted identifiers -/

/-- Inside a span every character is plain text. -/
theorem scan_quoted (q c : Char) (t : Text) :
    scan (.quoted q) (c :: t) = addText c (scan ((Mode.quoted q).step c) t) := by
  have hread : (Mode.quoted q).read c t = .text := by simp [Mode.read, Mode.quote?]
  rw [scan, hread]

/-- A quote character outside spans is plain text and opens one. -/
theorem scan_open {m : Mode} (hm : m.quote? = none) {q : Char} (hq : isQuoteChar q = true)
    (t : Text) : scan m (q :: t) = addText q (scan (.quoted q) t) := by
  have hquestion : q ≠ '?' := by
    rintro rfl
    cases hq
  have hcolon : q ≠ ':' := by
    rintro rfl
    cases hq
  have hread : m.read q t = .text := by
    simp [Mode.read, hm, hquestion, hcolon, isWordChar_of_isQuoteChar hq]
  have hstep : m.step q = .quoted q := by simp [Mode.step, hm, hq]
  rw [scan, hread, hstep]

theorem markers_scan_quoted (q c : Char) (t : Text) :
    markers (scan (.quoted q) (c :: t)) = markers (scan ((Mode.quoted q).step c) t) := by
  rw [scan_quoted, markers_addText]

theorem markers_scan_open {m : Mode} (hm : m.quote? = none) {q : Char} (hq : isQuoteChar q = true)
    (t : Text) : markers (scan m (q :: t)) = markers (scan (.quoted q) t) := by
  rw [scan_open hm hq, markers_addText]

namespace QuoteStyle

/-- A doubled name inside a span holds no marker. -/
theorem markers_scan_doubled (q : QuoteStyle) (name t : Text) :
    markers (scan (.quoted q.char) (q.doubled name ++ t)) =
      markers (scan (.quoted q.char) t) := by
  have hclose : (Mode.quoted q.char).step q.char = .plain := by simp [Mode.step, Mode.quote?]
  induction name with
  | nil => rfl
  | cons c name ih =>
      rw [doubled]
      split
      · next h =>
          -- the first of the two closes the span, and the second opens the next
          subst h
          rw [List.cons_append, List.cons_append, markers_scan_quoted, hclose,
            markers_scan_open rfl q.isQuoteChar_char, ih]
      · next h =>
          have hstay : (Mode.quoted q.char).step c = .quoted q.char := by
            simp [Mode.step, Mode.quote?, h]
          rw [List.cons_append, markers_scan_quoted, hstay, ih]

/-- **A quoted identifier is inert**, whatever it holds. -/
theorem isInert_quote (q : QuoteStyle) (name : Text) : (q.quote name).IsInert where
  markers := by
    rw [tokenize, quote, markers_scan_open rfl q.isQuoteChar_char, markers_scan_doubled,
      markers_scan_quoted]
    rfl
  after := q.after_quote name .plain rfl

/-- **A quoted path is inert**, whatever it holds. -/
theorem isInert_quotePath (q : QuoteStyle) (path : Text) : (q.quotePath path).IsInert := by
  have hdot : Text.IsInert ['.'] := Text.IsPlainJoiner.isInert (by decide) (by decide)
  refine hdot.join fun p hp => ?_
  obtain ⟨segment, -, rfl⟩ := List.mem_map.1 hp
  exact q.isInert_quote segment

end QuoteStyle

end BoundQuery

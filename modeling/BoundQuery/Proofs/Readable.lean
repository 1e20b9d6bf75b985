/-
**Token sequences that are read back as they were written.**

`write_tokenize` says that reading loses nothing: the tokens of a text, written back, are the text.
The converse fails for arbitrary token sequences — the name `a` written next to the text `b` is read
as the name `ab` — and every pass of the compiler changes some tokens and has the result read again.
This module isolates the sequences for which the converse holds.

A sequence is *readable* from a mode if every token, written at its place, is read as that token:
texts hold no marker and end where the text that follows cannot extend one, markers stand outside
quoted spans and next to no character that would change them.  Readability is local, so a pass that
replaces markers by markers has to look at the places it changes only.

Main definitions:

* `Token.merged` — a sequence with adjacent texts in one piece;
* `Mode.Admits` — the text that follows does not extend a name begun in this mode;
* `Readable` — the sequences that are read back from a mode.

Main results:

* `scan_append` — a text is read in two parts, if no name runs across the cut;
* `Readable.scan_write` — **a readable sequence is read back**, up to the division of plain text;
* `readable_tokenize` — the tokens of any text are readable.
-/

import BoundQuery.Token.Scan

set_option relaxedAutoImplicit false
set_option autoImplicit false

namespace BoundQuery

/-! ### Texts and names -/

@[simp] theorem isWordChar_colon : isWordChar ':' = false := by decide

@[simp] theorem isWordChar_question : isWordChar '?' = false := by decide

@[simp] theorem isQuoteChar_colon : isQuoteChar ':' = false := by decide

@[simp] theorem isQuoteChar_question : isQuoteChar '?' = false := by decide

/-- Whether a text starts with a word character. -/
def Text.startsWord : Text → Bool
  | [] => false
  | c :: _ => isWordChar c

/-- Whether a text can be the name of a marker. -/
def Text.isName (n : Text) : Bool := !n.isEmpty && n.all isWordChar

@[simp] theorem Text.startsWord_nil : Text.startsWord [] = false := rfl

@[simp] theorem Text.startsWord_cons (c : Char) (t : Text) :
    Text.startsWord (c :: t) = isWordChar c := rfl

theorem Text.startsWord_append {s : Text} (hs : s ≠ []) (t : Text) :
    Text.startsWord (s ++ t) = s.startsWord := by
  cases s with
  | nil => exact absurd rfl hs
  | cons c s => rfl

theorem Text.takeWhile_eq_nil_iff (t : Text) :
    t.takeWhile isWordChar = [] ↔ t.startsWord = false := by
  cases t with
  | nil => simp
  | cons c t => cases h : isWordChar c <;> simp [h]

theorem Text.isName_iff (n : Text) : n.isName = true ↔ n ≠ [] ∧ ∀ c ∈ n, isWordChar c = true := by
  cases n <;> simp [Text.isName]

/-- Induction over the characters of a name, of which there is at least one. -/
@[elab_as_elim]
theorem Text.isName_induction {motive : (n : Text) → n.isName = true → Prop}
    (one : ∀ c (hc : isWordChar c = true), motive [c] (by simp [isName, hc]))
    (cons : ∀ c n (hc : isWordChar c = true) (hn : n.isName = true), motive n hn →
      motive (c :: n) (by simpa [isName, hc] using ((isName_iff n).1 hn).2))
    (n : Text) (h : n.isName = true) : motive n h := by
  obtain ⟨hne, hword⟩ := (isName_iff n).1 h
  induction n with
  | nil => exact absurd rfl hne
  | cons c n ih =>
      have hc := hword c List.mem_cons_self
      have hrest := fun d hd => hword d (List.mem_cons_of_mem c hd)
      by_cases hnil : n = []
      · subst hnil
        exact one c hc
      · have hn := (isName_iff n).2 ⟨hnil, hrest⟩
        exact cons c n hc hn (ih hn hnil hrest)

theorem ne_of_isWordChar {c d : Char} (hc : isWordChar c = true) (hd : isWordChar d = false) :
    c ≠ d := by
  rintro rfl
  rw [hc] at hd
  cases hd

/-! ### The mode after a text -/

namespace Mode

/-- The text `t` may follow: it does not extend a name that has begun or that a colon awaits. -/
def Admits (m : Mode) (t : Text) : Prop := m.awaitsName = true → t.startsWord = false

theorem quote?_of_awaitsName {m : Mode} (h : m.awaitsName = true) : m.quote? = none := by
  cases m <;> simp_all [awaitsName, quote?]

theorem isQuoteChar_of_isWordChar {c : Char} (hc : isWordChar c = true) :
    isQuoteChar c = false := by
  cases h : isQuoteChar c with
  | false => rfl
  | true => rw [isWordChar_of_isQuoteChar h] at hc; cases hc

theorem step_word {m : Mode} (hm : m.awaitsName = true) {c : Char} (hc : isWordChar c = true) :
    m.step c = .name := by
  have hquote := isQuoteChar_of_isWordChar hc
  have hcolon : c ≠ ':' := ne_of_isWordChar hc isWordChar_colon
  simp [step, quote?_of_awaitsName hm, hquote, hcolon, hc, hm]

theorem step_plain_word {m : Mode} (hq : m.quote? = none) (hm : m.awaitsName = false) {c : Char}
    (hc : isWordChar c = true) : m.step c = .plain := by
  have hquote := isQuoteChar_of_isWordChar hc
  have hcolon : c ≠ ':' := ne_of_isWordChar hc isWordChar_colon
  simp [step, hq, hquote, hcolon, hm]

theorem step_behind_name {c : Char} (hc : isWordChar c = false) :
    Mode.name.step c = Mode.plain.step c := by
  simp [step, quote?, afterColon, hc]

/-- A mode awaits a name until it meets something else than a word character. -/
theorem awaitsName_after {m : Mode} {s : Text} (hm : m.awaitsName = true)
    (hs : ∀ c ∈ s, isWordChar c = true) : (m.after s).awaitsName = true := by
  induction s generalizing m with
  | nil => exact hm
  | cons c s ih =>
      have hstep : (m.step c).awaitsName = true := by
        rw [awaitsName_step, quote?_of_awaitsName hm, hm, hs c (by simp)]
        simp
      exact ih hstep fun d hd => hs d (List.mem_cons_of_mem _ hd)

/-- What a character is does not depend on text behind a place that no name runs across. -/
theorem read_append {m : Mode} {c : Char} {s t : Text} (h : (m.after (c :: s)).Admits t) :
    m.read c (s ++ t) = m.read c s := by
  by_cases hc : m.quote? = none ∧ c = ':' ∧ m.afterColon = false
  · obtain ⟨hq, rfl, ha⟩ := hc
    have hstep : m.step ':' = colon := by simp [step, hq, ha]
    -- only a name that fills all of `s` could run on into `t`
    have htake : (s ++ t).takeWhile isWordChar = s.takeWhile isWordChar := by
      rw [List.takeWhile_append]
      split
      · next hlen =>
          have hall : s.takeWhile isWordChar = s :=
            (List.takeWhile_prefix isWordChar).eq_of_length hlen
          have hword : ∀ c ∈ s, isWordChar c = true := by
            rw [← hall]
            exact List.all_eq_true.1 List.all_takeWhile
          have hawait := awaitsName_after (m := colon) rfl hword
          rw [after_cons, hstep] at h
          rw [(Text.takeWhile_eq_nil_iff t).2 (h hawait), List.append_nil, hall]
      · rfl
    simp only [read, htake]
  · cases hq : m.quote? with
    | some q => simp [read, hq]
    | none =>
        by_cases hcolon : c = ':'
        · have ha : m.afterColon = true := by
            cases ha : m.afterColon with
            | true => rfl
            | false => exact absurd ⟨hq, hcolon, ha⟩ hc
          simp [read, ha]
        · simp [read, hcolon]

end Mode

/-! ### Merged sequences -/

namespace Token

/-- A token before a sequence, with adjacent texts in one piece. -/
def prepend : Token → List Token → List Token
  | text s, ts => s.foldr addText ts
  | positional, ts => positional :: ts
  | named n, ts => named n :: ts

/-- A sequence with adjacent texts in one piece. -/
def merged (ts : List Token) : List Token := ts.foldr prepend []

@[simp] theorem merged_nil : merged [] = [] := rfl

@[simp] theorem merged_cons (t : Token) (ts : List Token) :
    merged (t :: ts) = prepend t (merged ts) := rfl

theorem foldr_prepend_addText (c : Char) (ts us : List Token) :
    (addText c ts).foldr prepend us = addText c (ts.foldr prepend us) := by
  cases ts with
  | nil => rfl
  | cons t ts => cases t <;> rfl

@[simp] theorem names_cons (t : Token) (ts : List Token) :
    names (t :: ts) = t.name?.toList ++ names ts := by
  cases t <;> rfl

theorem names_append (ts us : List Token) : names (ts ++ us) = names ts ++ names us :=
  List.filterMap_append

theorem names_foldr_addText (s : Text) (ts : List Token) :
    names (s.foldr addText ts) = names ts := by
  induction s with
  | nil => rfl
  | cons c s ih => rw [List.foldr_cons, names_addText, ih]

/-- Merging texts keeps the names. -/
@[simp] theorem names_merged (ts : List Token) : names (merged ts) = names ts := by
  induction ts with
  | nil => rfl
  | cons t ts ih =>
      cases t with
      | text s => rw [merged_cons, prepend, names_foldr_addText, ih]; rfl
      | positional => rw [merged_cons, prepend, names_cons, names_cons, ih]
      | named n => rw [merged_cons, prepend, names_cons, names_cons, ih]

theorem flatMap_addText {w : Token → Text} (hw : ∀ s, w (text s) = s) (c : Char)
    (ts : List Token) : (addText c ts).flatMap w = c :: ts.flatMap w := by
  cases ts with
  | nil => simp [addText, hw]
  | cons t ts => cases t <;> simp [addText, hw]

/-- Plain text in front of tokens is written as it stands. -/
theorem flatMap_foldr_addText {w : Token → Text} (hw : ∀ s, w (text s) = s) (s : Text)
    (ts : List Token) : (s.foldr addText ts).flatMap w = s ++ ts.flatMap w := by
  induction s with
  | nil => rfl
  | cons c s ih => rw [List.foldr_cons, flatMap_addText hw, ih, List.cons_append]

/-- A text before a sequence that begins with no text is a token of its own. -/
theorem foldr_addText_of_no_text {s : Text} {ts : List Token} (hs : s ≠ [])
    (hts : ∀ r us, ts ≠ text r :: us) : s.foldr addText ts = text s :: ts := by
  induction s with
  | nil => exact absurd rfl hs
  | cons c s ih =>
      rw [List.foldr_cons]
      cases s with
      | nil =>
          cases ts with
          | nil => rfl
          | cons t ts =>
              cases t with
              | text r => exact absurd rfl (hts r ts)
              | positional => rfl
              | named n => rfl
      | cons d s => rw [ih (List.cons_ne_nil d s)]; rfl

/-- What is written token by token does not depend on how plain text is divided. -/
theorem flatMap_merged {w : Token → Text} (hw : ∀ s, w (text s) = s) (ts : List Token) :
    (merged ts).flatMap w = ts.flatMap w := by
  induction ts with
  | nil => rfl
  | cons t ts ih =>
      cases t with
      | text s =>
          rw [merged_cons, prepend, flatMap_foldr_addText hw, ih, List.flatMap_cons, hw]
      | positional => rw [merged_cons, prepend, List.flatMap_cons, List.flatMap_cons, ih]
      | named n => rw [merged_cons, prepend, List.flatMap_cons, List.flatMap_cons, ih]

/-! ### Reading in two parts -/

/-- **A text is read in two parts**, if no name runs across the cut. -/
theorem scan_append {m : Mode} {s t : Text} (h : (m.after s).Admits t) :
    scan m (s ++ t) = (scan m s).foldr prepend (scan (m.after s) t) := by
  induction s generalizing m with
  | nil => rfl
  | cons c s ih =>
      have hrec := ih (m := m.step c) h
      rw [List.cons_append, scan, scan, Mode.read_append h, hrec]
      cases m.read c s with
      | text => simp only [foldr_prepend_addText, Mode.after_cons]
      | positional => rfl
      | named n => rfl
      | within => rfl

/-- Inside a name, word characters are passed over. -/
theorem scan_word {m : Mode} (hm : m.awaitsName = true) {c : Char} (hc : isWordChar c = true)
    (t : Text) : scan m (c :: t) = scan .name t := by
  have hread : m.read c t = .within := by
    have hquestion : c ≠ '?' := ne_of_isWordChar hc isWordChar_question
    have hcolon : c ≠ ':' := ne_of_isWordChar hc isWordChar_colon
    simp [Mode.read, Mode.quote?_of_awaitsName hm, hquestion, hcolon, hc, hm]
  rw [scan, hread, Mode.step_word hm hc]

/-- Outside a name, a word character is plain text. -/
theorem scan_plain_word {m : Mode} (hq : m.quote? = none) (hm : m.awaitsName = false) {c : Char}
    (hc : isWordChar c = true) (t : Text) : scan m (c :: t) = addText c (scan .plain t) := by
  have hread : m.read c t = .text := by
    have hquestion : c ≠ '?' := ne_of_isWordChar hc isWordChar_question
    have hcolon : c ≠ ':' := ne_of_isWordChar hc isWordChar_colon
    simp [Mode.read, hq, hquestion, hcolon, hm]
  rw [scan, hread, Mode.step_plain_word hq hm hc]

/-- Behind a name and behind plain text, what is no word character is read alike. -/
theorem scan_behind_name {c : Char} (hc : isWordChar c = false) (t : Text) :
    scan .name (c :: t) = scan .plain (c :: t) := by
  have hread : Mode.name.read c t = Mode.plain.read c t := by
    simp [Mode.read, Mode.quote?, Mode.afterColon, hc]
  rw [scan, scan, hread, Mode.step_behind_name hc]

theorem scan_name {m : Mode} (hm : m.awaitsName = true) {n : Text} (hn : n.isName = true)
    (t : Text) : scan m (n ++ t) = scan .name t := by
  induction n, hn using Text.isName_induction generalizing m with
  | one c hc => exact scan_word hm hc t
  | cons c n hc _ ih =>
      rw [List.cons_append, scan_word hm hc]
      exact ih rfl

/-- A word that is no name is read as plain text. -/
theorem scan_word_text {m : Mode} (hq : m.quote? = none) (hm : m.awaitsName = false) {n : Text}
    (hn : n.isName = true) (t : Text) : scan m (n ++ t) = n.foldr addText (scan .plain t) := by
  induction n, hn using Text.isName_induction generalizing m with
  | one c hc => exact scan_plain_word hq hm hc t
  | cons c n hc _ ih =>
      rw [List.cons_append, scan_plain_word hq hm hc, List.foldr_cons, ih rfl rfl]

end Token

open Token

/-! ### Readable sequences -/

/-- A sequence in which every token, written at its place and read from mode `m` on, is read as that
token. -/
inductive Readable : Mode → List Token → Prop
  | nil (m : Mode) : Readable m []
  | text {m : Mode} {s : Text} {ts : List Token} : scan m s = [Token.text s] →
      (m.after s).Admits (write ts) → Readable (m.after s) ts → Readable m (Token.text s :: ts)
  | positional {m : Mode} {ts : List Token} : m.quote? = none → Readable .plain ts →
      Readable m (Token.positional :: ts)
  | named {m : Mode} {n : Text} {ts : List Token} : m.quote? = none → m.afterColon = false →
      n.isName = true → (write ts).startsWord = false → Readable .name ts →
      Readable m (Token.named n :: ts)

theorem Mode.step_question {m : Mode} (h : m.quote? = none) : m.step '?' = .plain := by
  simp [Mode.step, h]

theorem Mode.step_colon {m : Mode} (h : m.quote? = none) (ha : m.afterColon = false) :
    m.step ':' = .colon := by
  simp [Mode.step, h, ha]

theorem scan_question {m : Mode} (h : m.quote? = none) (t : Text) :
    scan m ('?' :: t) = Token.positional :: scan .plain t := by
  have hread : m.read '?' t = .positional := by simp [Mode.read, h]
  rw [scan, hread, Mode.step_question h]

/-- Behind another colon, a colon and a name are plain text. -/
theorem scan_inert {m : Mode} (ha : m.afterColon = true) {n : Text} (hn : n.isName = true)
    (t : Text) : scan m (':' :: (n ++ t)) = prepend (.text (':' :: n)) (scan .plain t) := by
  have hq : m.quote? = none := by cases m <;> simp_all [Mode.afterColon, Mode.quote?]
  have hread : m.read ':' (n ++ t) = .text := by simp [Mode.read, hq, ha]
  have hstep : m.step ':' = .cast := by simp [Mode.step, hq, ha]
  rw [scan, hread, hstep, scan_word_text rfl rfl hn]
  rfl

/-- Word characters behind a name belong to the marker. -/
theorem scan_marker_run {m : Mode} (hq : m.quote? = none) (ha : m.afterColon = false) {n : Text}
    (hn : n.isName = true) (t : Text) :
    scan m (':' :: (n ++ t)) = .named (n ++ t.takeWhile isWordChar) :: scan .name t := by
  obtain ⟨hne, hword⟩ := (Text.isName_iff n).1 hn
  have htake : (n ++ t).takeWhile isWordChar = n ++ t.takeWhile isWordChar :=
    List.takeWhile_append_of_pos hword
  have hread : m.read ':' (n ++ t) = .named (n ++ t.takeWhile isWordChar) := by
    simp [Mode.read, hq, ha, htake, hne]
  rw [scan, hread, Mode.step_colon hq ha, scan_name rfl hn]

theorem scan_marker {m : Mode} (h : m.quote? = none) (ha : m.afterColon = false) {n t : Text}
    (hn : n.isName = true) (ht : t.startsWord = false) :
    scan m (':' :: (n ++ t)) = Token.named n :: scan .name t := by
  rw [scan_marker_run h ha hn, (Text.takeWhile_eq_nil_iff t).2 ht, List.append_nil]

theorem Readable.ne_nil_of_scan {m : Mode} {s : Text} (h : scan m s = [Token.text s]) : s ≠ [] := by
  rintro rfl
  cases h

/-- **A readable sequence is read back**, up to the division of plain text. -/
theorem Readable.scan_write {m : Mode} {ts : List Token} (h : Readable m ts) :
    scan m (write ts) = merged ts := by
  induction h with
  | nil m => rfl
  | @text m s ts hs ha _ ih => rw [write_cons, written, scan_append ha, hs, ih]; rfl
  | @positional m ts hq _ ih =>
      rw [write_cons, written, List.singleton_append, scan_question hq, ih]
      rfl
  | @named m n ts hq ha hn ht _ ih =>
      rw [write_cons, written, List.cons_append, scan_marker hq ha hn ht, ih]
      rfl

/-! ### Modes between tokens -/

namespace Mode

theorem after_written_positional {m : Mode} (h : m.quote? = none) :
    m.after Token.positional.written = .plain := by
  rw [written, after_cons, after_nil, step_question h]

theorem after_name {m : Mode} (hm : m.awaitsName = true) {n : Text} (hn : n.isName = true) :
    m.after n = .name := by
  induction n, hn using Text.isName_induction generalizing m with
  | one c hc => exact step_word hm hc
  | cons c n hc _ ih =>
      rw [after_cons, step_word hm hc]
      exact ih rfl

theorem after_written_named {m : Mode} (h : m.quote? = none) (ha : m.afterColon = false) {n : Text}
    (hn : n.isName = true) : m.after (Token.named n).written = .name := by
  rw [written, after_cons, step_colon h ha, after_name rfl hn]

/-- A mode behind a colon has been reached by a colon. -/
theorem getLast?_of_afterColon {m : Mode} (hm : m.afterColon = false) {s : Text}
    (h : (m.after s).afterColon = true) : s.getLast? = some ':' := by
  rcases List.eq_nil_or_concat s with rfl | ⟨s, c, rfl⟩
  · rw [after_nil, hm] at h
    cases h
  · rw [List.concat_eq_append, after_append, after_cons, after_nil] at h
    rw [List.concat_eq_append, List.getLast?_concat]
    simp only [step] at h
    split at h
    · split at h
      · cases h
      · next q hq _ => cases hm' : m.after s <;> simp_all [quote?, afterColon]
    · split at h
      · cases h
      · split at h
        · next hc => rw [hc]
        · split at h <;> cases h

end Mode

/-- What follows a part of a readable sequence is readable from where the part ends. -/
theorem Readable.drop {m : Mode} {us vs : List Token} (h : Readable m (us ++ vs)) :
    Readable (m.after (write us)) vs := by
  induction us generalizing m with
  | nil => exact h
  | cons u us ih =>
      rw [write_cons, Mode.after_append]
      cases h with
      | text _ _ hus => exact ih hus
      | positional hq hus => rw [Mode.after_written_positional hq]; exact ih hus
      | named hq ha hn _ hus => rw [Mode.after_written_named hq ha hn]; exact ih hus

/-- Behind a name and behind plain text, a text is read alike unless it extends the name. -/
theorem readable_name_iff {ts : List Token} (h : (write ts).startsWord = false) :
    Readable .name ts ↔ Readable .plain ts := by
  have htext : ∀ {s : Text} {us : List Token}, s ≠ [] →
      (write (Token.text s :: us)).startsWord = false →
      scan .name s = scan .plain s ∧ Mode.name.after s = Mode.plain.after s := by
    intro s us hs hw
    cases s with
    | nil => exact absurd rfl hs
    | cons c s =>
        refine ⟨scan_behind_name hw s, ?_⟩
        rw [Mode.after_cons, Mode.after_cons, Mode.step_behind_name hw]
  constructor
  · intro hname
    cases hname with
    | nil => exact .nil _
    | text hs ha hts =>
        obtain ⟨h₁, h₂⟩ := htext (Readable.ne_nil_of_scan hs) h
        exact .text (h₁ ▸ hs) (h₂ ▸ ha) (h₂ ▸ hts)
    | positional hq hts => exact .positional rfl hts
    | named hq ha hn ht hts => exact .named rfl rfl hn ht hts
  · intro hplain
    cases hplain with
    | nil => exact .nil _
    | text hs ha hts =>
        obtain ⟨h₁, h₂⟩ := htext (Readable.ne_nil_of_scan hs) h
        exact .text (h₁ ▸ hs) (h₂ ▸ ha) (h₂ ▸ hts)
    | positional hq hts => exact .positional rfl hts
    | named hq ha hn ht hts => exact .named rfl rfl hn ht hts

/-! ### Every text is readable -/

/-- Reading loses nothing from a mode that the text does not extend a name of. -/
theorem Mode.Admits.write_scan {m : Mode} {t : Text} (h : m.Admits t) : write (scan m t) = t := by
  rw [Token.write_scan, pending]
  split
  · next hm =>
      cases t with
      | nil => rfl
      | cons c t => exact List.dropWhile_cons_of_neg (by simpa using h hm)
  · rfl

/-- One more plain character in front of a readable sequence. -/
theorem Readable.addText {m : Mode} {c : Char} {ts : List Token} (h : Readable (m.step c) ts)
    (hread : m.read c (write ts) = .text) (hadm : (m.step c).Admits (write ts)) :
    Readable m (Token.addText c ts) := by
  have hfresh : Readable m (Token.text [c] :: ts) := by
    have hc : m.read c [] = .text := by rw [← hread]; exact (Mode.read_append (s := []) hadm).symm
    refine .text ?_ hadm h
    rw [scan, hc]
    rfl
  cases ts with
  | nil => exact hfresh
  | cons t ts =>
      cases t with
      | positional => exact hfresh
      | named n => exact hfresh
      | text s =>
          cases h with
          | text hs ha hts =>
              have hc : m.read c s = .text := by rw [← hread]; exact (Mode.read_append ha).symm
              refine .text ?_ ha hts
              rw [scan, hc, hs]
              rfl

/-- **What one character can be**: part of a name begun before, the marker `?`, the colon of a
marker, or plain text that the text behind it leaves alone. -/
theorem Mode.read_cases (m : Mode) (c : Char) (t : Text) :
    (m.awaitsName = true ∧ isWordChar c = true) ∨
    (m.quote? = none ∧ c = '?') ∨
    (m.quote? = none ∧ c = ':' ∧ m.afterColon = false ∧ t.startsWord = true) ∨
    (m.read c t = .text ∧ (m.step c).Admits t) := by
  cases hq : m.quote? with
  | some q =>
      refine .inr (.inr (.inr ⟨by simp [read, hq], fun hstep => ?_⟩))
      rw [awaitsName_step, hq] at hstep
      cases hstep
  | none =>
      by_cases hquestion : c = '?'
      · exact .inr (.inl ⟨rfl, hquestion⟩)
      · by_cases hcolon : c = ':'
        · subst hcolon
          cases ha : m.afterColon with
          | true =>
              refine .inr (.inr (.inr ⟨by simp [read, ha], fun hstep => ?_⟩))
              simp [awaitsName_step, ha] at hstep
          | false =>
              cases hw : t.startsWord with
              | true => exact .inr (.inr (.inl ⟨rfl, rfl, rfl, rfl⟩))
              | false =>
                  have htake := (Text.takeWhile_eq_nil_iff t).2 hw
                  exact .inr (.inr (.inr ⟨by simp [read, htake], fun _ => hw⟩))
        · cases hw : isWordChar c && m.awaitsName with
          | true =>
              rw [Bool.and_eq_true] at hw
              exact .inl ⟨hw.2, hw.1⟩
          | false =>
              have hread : m.read c t = .text := by
                simp only [read, hq, hquestion, hcolon, hw, Option.isSome_none]
                rfl
              refine .inr (.inr (.inr ⟨hread, fun hstep => ?_⟩))
              simp [awaitsName_step, hcolon, hw] at hstep

/-- A text that starts with a word character is a name and a text that does not extend it. -/
theorem Text.exists_name {t : Text} (h : t.startsWord = true) :
    ∃ n r : Text, t = n ++ r ∧ n.isName = true ∧ r.startsWord = false := by
  refine ⟨t.takeWhile isWordChar, t.dropWhile isWordChar,
    List.takeWhile_append_dropWhile.symm, ?_, ?_⟩
  · refine (Text.isName_iff _).2 ⟨fun hnil => ?_, List.all_eq_true.1 List.all_takeWhile⟩
    rw [(Text.takeWhile_eq_nil_iff t).1 hnil] at h
    cases h
  · have hnot := List.head?_dropWhile_not isWordChar t
    cases hd : t.dropWhile isWordChar with
    | nil => rfl
    | cons d r => rwa [hd] at hnot

/-- The tokens of a text are readable from the mode they were read from. -/
theorem readable_scan {m : Mode} {t : Text} (h : m.Admits t ∨ m = .name) :
    Readable m (scan m t) := by
  induction t generalizing m with
  | nil => exact .nil m
  | cons c t ih =>
      rcases m.read_cases c t with ⟨hm, hc⟩ | ⟨hq, rfl⟩ | ⟨hq, rfl, ha, hw⟩ | ⟨hread, hadm⟩
      -- inside a name that has been written already
      · rcases h with h | rfl
        · rw [show isWordChar c = false from h hm] at hc
          cases hc
        · rw [scan_word rfl hc]
          exact ih (.inr rfl)
      · rw [scan_question hq]
        exact .positional hq (ih (.inl fun hm => absurd hm (by decide)))
      · obtain ⟨n, r, rfl, hn, hr⟩ := Text.exists_name hw
        have htail : Readable .name (scan .name r) := by
          rw [← scan_name (m := .name) rfl hn]
          exact ih (.inr rfl)
        have hwrite : write (scan .name r) = r := Mode.Admits.write_scan fun _ => hr
        rw [scan_marker hq ha hn hr]
        exact .named hq ha hn (by rw [hwrite]; exact hr) htail
      · have hwrite := hadm.write_scan
        rw [scan, hread]
        exact (ih (.inl hadm)).addText (by rw [hwrite]; exact hread) (by rw [hwrite]; exact hadm)

/-- The tokens of a text are readable. -/
theorem readable_tokenize (t : Text) : Readable .plain (tokenize t) :=
  readable_scan (.inl fun h => absurd h (by decide))

end BoundQuery

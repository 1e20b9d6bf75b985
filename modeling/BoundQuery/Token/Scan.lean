/-
**Reading markers out of SQL text.**

This is no SQL parser.  The reader knows three things only:

* a named marker is a colon followed by the longest run of word characters;
* a colon next to another colon belongs to a cast (`x::int`) and starts no marker;
* a quoted span opens at a single quote, a double quote or a backtick and closes at the next
  occurrence of the same character, and nothing inside it is a marker.  A doubled quote inside a
  span closes and reopens it, and a span that is never closed runs to the end.

The spans and the colons are followed by an automaton over single characters, `Mode.step`; what a
character contributes to the tokens is read off the mode, the character and what follows it.

Main definitions:

* `Mode`, `Mode.step`, `Mode.after` — where the reader stands, and how characters move it;
* `Mode.read` — what a character is, seen from a mode;
* `tokenize` — the tokens of a text;
* `countPositional`, `hasNamed` — the number of `?` markers, and whether there is a named one.

Main results:

* `write_tokenize` — **reading loses nothing**: the tokens written back are the text.
-/

import BoundQuery.Token

set_option relaxedAutoImplicit false
set_option autoImplicit false

namespace BoundQuery

/-- The characters that open a quoted span: single quote, double quote and backtick. -/
def isQuoteChar (c : Char) : Bool := c == '\x27' || c == '\x22' || c == '\x60'

/-- Where the reader of SQL text stands between two characters. -/
inductive Mode where
  /-- Outside quoted spans, with nothing to remember. -/
  | plain
  /-- Just after a colon that follows no colon. -/
  | colon
  /-- Just after a colon that follows a colon. -/
  | cast
  /-- Inside or just after the name of a named marker. -/
  | name
  /-- Inside a span that `quote` has opened. -/
  | quoted (quote : Char)
deriving DecidableEq, Repr

namespace Mode

/-- Whether the character before is a colon outside quoted spans. -/
def afterColon : Mode → Bool
  | colon | cast => true
  | _ => false

/-- Whether a word character at this place belongs to the name of a marker. -/
def awaitsName : Mode → Bool
  | colon | name => true
  | _ => false

/-- The quote character that has opened the span this place lies in. -/
def quote? : Mode → Option Char
  | quoted q => some q
  | _ => none

/-- How one character moves the reader. -/
def step (m : Mode) (c : Char) : Mode :=
  match m.quote? with
  | some q => if c = q then plain else m
  | none =>
      if isQuoteChar c then quoted c
      else if c = ':' then (if m.afterColon then cast else colon)
      else if isWordChar c && m.awaitsName then name
      else plain

/-- Where the reader stands after a text. -/
def after (m : Mode) (t : Text) : Mode := t.foldl step m

@[simp] theorem after_nil (m : Mode) : m.after [] = m := rfl

@[simp] theorem after_cons (m : Mode) (c : Char) (t : Text) :
    m.after (c :: t) = (m.step c).after t := rfl

theorem after_append (m : Mode) (s t : Text) : m.after (s ++ t) = (m.after s).after t := by
  simp [after]

/-- What a character is to the reader. -/
inductive Reading where
  /-- Plain text. -/
  | text
  /-- The marker `?`. -/
  | positional
  /-- The colon of the marker `name`. -/
  | named (name : Text)
  /-- Part of the name of a marker already met. -/
  | within
deriving DecidableEq, Repr

/-- What the character `c`, followed by `rest`, is to a reader in mode `m`. -/
def read (m : Mode) (c : Char) (rest : Text) : Reading :=
  if m.quote?.isSome then .text
  else if c = '?' then .positional
  else if c = ':' then
    if m.afterColon || (rest.takeWhile isWordChar).isEmpty then .text
    else .named (rest.takeWhile isWordChar)
  else if isWordChar c && m.awaitsName then .within
  else .text

end Mode

namespace Token

/-- The tokens of a text, read from mode `m` on. -/
def scan (m : Mode) : Text → List Token
  | [] => []
  | c :: rest =>
      match m.read c rest with
      | .text => addText c (scan (m.step c) rest)
      | .positional => positional :: scan (m.step c) rest
      | .named name => named name :: scan (m.step c) rest
      | .within => scan (m.step c) rest

@[simp] theorem scan_nil (m : Mode) : scan m [] = [] := rfl

end Token

/-- **The tokens of a text.** -/
def tokenize (t : Text) : List Token := Token.scan .plain t

@[simp] theorem tokenize_nil : tokenize [] = [] := rfl

/-- The number of `?` markers in a text. -/
def countPositional (t : Text) : Nat := (tokenize t).countP Token.isPositional

/-- Whether a text holds a named marker. -/
def hasNamed (t : Text) : Bool := !(Token.names (tokenize t)).isEmpty

/-! ### Nothing is lost -/

theorem isWordChar_of_isQuoteChar {c : Char} (h : isQuoteChar c = true) :
    isWordChar c = false := by
  simp only [isQuoteChar, Bool.or_eq_true, beq_iff_eq] at h
  rcases h with (rfl | rfl) | rfl <;> decide

/-- A name is awaited after a colon that starts no cast, and after each of its characters. -/
theorem Mode.awaitsName_step (m : Mode) (c : Char) :
    (m.step c).awaitsName =
      (m.quote?.isNone && (c == ':' && !m.afterColon || isWordChar c && m.awaitsName)) := by
  cases hq : m.quote? with
  | some q =>
      have hm : m = quoted q := by cases m <;> simp_all [quote?]
      subst hm
      simp only [step, quote?]
      split <;> rfl
  | none =>
      simp only [step, hq]
      by_cases h1 : isQuoteChar c = true
      · have hw := isWordChar_of_isQuoteChar h1
        have hc : c ≠ ':' := by rintro rfl; revert h1; decide
        simp [h1, hw, hc, awaitsName]
      · by_cases h2 : c = ':'
        · subst h2
          have hw : isWordChar ':' = false := by decide
          cases h3 : m.afterColon <;> simp [h1, hw, awaitsName]
        · cases h3 : isWordChar c && m.awaitsName <;> simp [h1, h2, awaitsName]

namespace Token

/-- What the reader still has to write, seen from a mode: after the colon of a marker its name has
been written already. -/
def pending (m : Mode) (t : Text) : Text :=
  if m.awaitsName then t.dropWhile isWordChar else t

/-- Written back, the tokens read from a mode are what that mode left to write. -/
theorem write_scan (m : Mode) (t : Text) : write (scan m t) = pending m t := by
  induction t generalizing m with
  | nil => simp [pending]
  | cons c rest ih =>
      have hsplit := List.takeWhile_append_dropWhile (p := isWordChar) (l := rest)
      have hcolon : isWordChar ':' = false := by decide
      have hquestion : isWordChar '?' = false := by decide
      cases hq : m.quote? with
      | some q =>
          -- inside a span every character is text, and no name is awaited
          have ha : m.awaitsName = false := by cases m <;> simp_all [Mode.quote?, Mode.awaitsName]
          simp [scan, Mode.read, hq, ih, pending, Mode.awaitsName_step, ha]
      | none =>
          by_cases h1 : c = '?'
          · subst h1
            simp [scan, Mode.read, hq, ih, pending, Mode.awaitsName_step, written, hquestion]
          · by_cases h2 : c = ':'
            · subst h2
              by_cases h3 : m.afterColon = true
              -- a cast, a colon without a name, and a marker
              · simp [scan, Mode.read, hq, ih, pending, Mode.awaitsName_step, hcolon, h3]
              · by_cases h4 : (rest.takeWhile isWordChar).isEmpty = true
                · have h5 : rest.takeWhile isWordChar = [] := by simpa using h4
                  rw [h5, List.nil_append] at hsplit
                  simp [scan, Mode.read, hq, ih, pending, Mode.awaitsName_step, hcolon, h3, h5,
                    hsplit]
                · simp [scan, Mode.read, hq, ih, pending, Mode.awaitsName_step, hcolon, h3, h4,
                    written, hsplit]
            · cases h3 : isWordChar c <;> cases h4 : m.awaitsName <;>
                simp [scan, Mode.read, hq, ih, pending, Mode.awaitsName_step, h1, h2, h3, h4]

end Token

/-- **Reading loses nothing**: the tokens of a text, written back, are the text. -/
@[simp] theorem write_tokenize (t : Text) : Token.write (tokenize t) = t := by
  simp [tokenize, Token.write_scan, Token.pending, Mode.awaitsName]

end BoundQuery

/-
**Quoting identifiers.**

Table and column names enter SQL text between quote characters, with every quote character inside
doubled, so that whatever the name holds, it is read as one quoted span.

Main definitions:

* `QuoteStyle`, `QuoteStyle.char` — backticks or double quotes;
* `QuoteStyle.doubled`, `QuoteStyle.quote` — a name with its quote characters doubled, and quoted;
* `QuoteStyle.quotePath` — a dotted path with each of its segments quoted.

Main results:

* `after_quote` — **a quoted identifier is one span**: begun outside quoted spans, it ends outside
  them, whatever it holds.
-/

import BoundQuery.Token.Scan

set_option relaxedAutoImplicit false
set_option autoImplicit false

namespace BoundQuery

/-- How identifiers are quoted. -/
inductive QuoteStyle where
  /-- Between backticks. -/
  | backtick
  /-- Between double quotes, as the SQL standard has it. -/
  | double
deriving DecidableEq, Repr, Inhabited

namespace QuoteStyle

/-- The quote character of a style. -/
def char : QuoteStyle → Char
  | backtick => '\x60'
  | double => '\x22'

theorem isQuoteChar_char (q : QuoteStyle) : isQuoteChar q.char = true := by
  cases q <;> decide

/-- A name with every quote character of the style written twice. -/
def doubled (q : QuoteStyle) : Text → Text
  | [] => []
  | c :: rest => if c = q.char then c :: c :: doubled q rest else c :: doubled q rest

/-- The quoted form of an identifier.  Nothing is refused; untrusted names are filtered before. -/
def quote (q : QuoteStyle) (name : Text) : Text :=
  q.char :: (q.doubled name ++ [q.char])

/-- The quoted form of a path such as `schema.table`: each segment quoted by itself. -/
def quotePath (q : QuoteStyle) (path : Text) : Text :=
  Text.join ['.'] ((path.fields '.').map q.quote)

/-! ### A quoted identifier is one span -/

/-- Inside a span opened by the quote character, a doubled name leaves the reader inside it. -/
theorem after_doubled (q : QuoteStyle) (name : Text) :
    (Mode.quoted q.char).after (q.doubled name) = Mode.quoted q.char := by
  have hopen : Mode.plain.step q.char = Mode.quoted q.char := by
    simp [Mode.step, Mode.quote?, q.isQuoteChar_char]
  have hclose : (Mode.quoted q.char).step q.char = Mode.plain := by
    simp [Mode.step, Mode.quote?]
  induction name with
  | nil => rfl
  | cons c rest ih =>
      by_cases h : c = q.char
      · subst h
        simp [doubled, hopen, hclose, ih]
      · have hstay : (Mode.quoted q.char).step c = Mode.quoted q.char := by
          simp [Mode.step, Mode.quote?, h]
        simp [doubled, h, hstay, ih]

/-- **A quoted identifier is one span**: begun outside quoted spans, it ends outside them. -/
theorem after_quote (q : QuoteStyle) (name : Text) (m : Mode) (h : m.quote? = none) :
    m.after (q.quote name) = Mode.plain := by
  have hopen : m.step q.char = Mode.quoted q.char := by
    simp [Mode.step, h, q.isQuoteChar_char]
  have hclose : (Mode.quoted q.char).step q.char = Mode.plain := by
    simp [Mode.step, Mode.quote?]
  simp [quote, hopen, Mode.after_append, after_doubled, hclose]

end QuoteStyle

end BoundQuery

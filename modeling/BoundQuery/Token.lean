/-
**The pieces of SQL text that binding cares about.**

SQL text is read as a sequence of tokens of three kinds: a positional marker `?`, a named marker
`:name`, and everything else, which is plain text and stays as written.  How a text is read is
`BoundQuery/Token/Scan.lean`; this module holds the tokens themselves and the way back.

Main definitions:

* `Token` — plain text, a positional marker or a named marker;
* `Token.written`, `Token.write` — the text of a token, and of a sequence of tokens;
* `Token.name?`, `Token.markers` — the name of a named marker, and the tokens that are no text;
* `Token.addText` — put one more plain character in front, merged with plain text that follows.
-/

import BoundQuery.Text

set_option relaxedAutoImplicit false
set_option autoImplicit false

namespace BoundQuery

/-- A lexical piece of SQL text. -/
inductive Token where
  /-- Text that holds no marker. -/
  | text (s : Text)
  /-- The marker `?`. -/
  | positional
  /-- The marker made of a colon and `name`. -/
  | named (name : Text)
deriving DecidableEq, Repr

namespace Token

/-- The characters a token was read from. -/
def written : Token → Text
  | text s => s
  | positional => ['?']
  | named name => ':' :: name

/-- The text of a sequence of tokens. -/
def write (ts : List Token) : Text := ts.flatMap written

@[simp] theorem write_nil : write [] = [] := rfl

@[simp] theorem write_cons (t : Token) (ts : List Token) :
    write (t :: ts) = t.written ++ write ts := rfl

@[simp] theorem write_append (ts us : List Token) : write (ts ++ us) = write ts ++ write us := by
  simp [write]

/-! ### Markers -/

/-- The name of a named marker. -/
def name? : Token → Option Text
  | named name => some name
  | _ => none

/-- Whether a token is the marker `?`. -/
def isPositional : Token → Bool
  | positional => true
  | _ => false

/-- Whether a token is a marker of either kind. -/
def isMarker : Token → Bool
  | text _ => false
  | _ => true

/-- The markers of a sequence, in order. -/
def markers (ts : List Token) : List Token := ts.filter isMarker

/-- The names of the named markers of a sequence, in order and with repetitions. -/
def names (ts : List Token) : List Text := ts.filterMap name?

/-! ### Plain characters -/

/-- One plain character before a sequence.  Plain text stays in one piece. -/
def addText (c : Char) : List Token → List Token
  | text s :: ts => text (c :: s) :: ts
  | ts => text [c] :: ts

@[simp] theorem write_addText (c : Char) (ts : List Token) :
    write (addText c ts) = c :: write ts := by
  cases ts with
  | nil => rfl
  | cons t ts => cases t <;> rfl

@[simp] theorem markers_addText (c : Char) (ts : List Token) :
    markers (addText c ts) = markers ts := by
  cases ts with
  | nil => rfl
  | cons t ts => cases t <;> rfl

@[simp] theorem names_addText (c : Char) (ts : List Token) : names (addText c ts) = names ts := by
  cases ts with
  | nil => rfl
  | cons t ts => cases t <;> rfl

end Token

end BoundQuery

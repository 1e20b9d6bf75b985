/-
**Text as a list of characters.**

Every scanner of this library walks its text from left to right, and every name it makes up is
another text with a few characters added.  Both are plain recursion on lists, so SQL text, marker
names, identifiers and messages are all lists of characters here.

Main definitions:

* `Text` — a list of characters;
* `isWordChar`, `Text.isDigits` — the characters of marker names, and the names made of digits;
* `decimal` — the decimal digits of a number;
* `Text.join`, `Text.fields`, `Text.cut?` — joining parts, and splitting at a character;
* `Text.utf8Length` — how many bytes the text takes as UTF-8.

Main results:

* `isDigits_decimal` — a decimal numeral holds digits only;
* `decimal_injective` — different numbers have different numerals;
* `join_of_append` — what texts put together keep, a join keeps;
* `join_fields` — splitting at a character and joining with it gives the text back.
-/

set_option relaxedAutoImplicit false
set_option autoImplicit false

namespace BoundQuery

/-- Text is the list of its characters. -/
abbrev Text := List Char

/-! ### Words and numerals -/

/-- The characters of a marker's name: ASCII letters, ASCII digits and the underscore. -/
def isWordChar (c : Char) : Bool := c == '_' || c.isAlphanum

/-- Whether a text holds ASCII digits only.  The empty text does. -/
def Text.isDigits (t : Text) : Bool := t.all Char.isDigit

/-- The decimal numeral of a number, without leading zeros. -/
def decimal (n : Nat) : Text := Nat.toDigits 10 n

theorem isDigits_decimal (n : Nat) : (decimal n).isDigits = true := by
  simp only [Text.isDigits, decimal, List.all_eq_true]
  exact fun c h => Nat.isDigit_of_mem_toDigits (by decide) (by decide) h

theorem isWordChar_of_isDigit {c : Char} (h : c.isDigit = true) : isWordChar c = true := by
  simp [isWordChar, Char.isAlphanum, h]

theorem decimal_injective {m n : Nat} (h : decimal m = decimal n) : m = n := by
  have h' := congrArg (fun t => Nat.ofDigitChars 10 t 0) h
  simpa only [decimal, Nat.ofDigitChars_toDigits (b := 10) (by decide) (by decide)] using h'

/-! ### Joining and splitting -/

/-- The parts in order, with `sep` between each two of them. -/
def Text.join (sep : Text) (parts : List Text) : Text := sep.intercalate parts

@[simp] theorem Text.join_nil (sep : Text) : Text.join sep [] = [] := rfl

@[simp] theorem Text.join_singleton (sep part : Text) : Text.join sep [part] = part := by
  simp [Text.join, List.intercalate]

@[simp] theorem Text.join_cons_cons (sep a b : Text) (parts : List Text) :
    Text.join sep (a :: b :: parts) = a ++ sep ++ Text.join sep (b :: parts) := by
  simp [Text.join, List.intercalate]

/-- What holds of the empty text and of texts put together holds of a join, if it holds of the
separator and of the parts. -/
theorem Text.join_of_append {P : Text → Prop} (hnil : P [])
    (happend : ∀ {s t : Text}, P s → P t → P (s ++ t)) {sep : Text} (hsep : P sep)
    {parts : List Text} (hparts : ∀ p ∈ parts, P p) : P (Text.join sep parts) := by
  induction parts with
  | nil => exact hnil
  | cons p ps ih =>
      have hp : P p := hparts p List.mem_cons_self
      cases ps with
      | nil => rwa [Text.join_singleton]
      | cons p' ps =>
          rw [Text.join_cons_cons]
          exact happend (happend hp hsep) (ih fun x hx => hparts x (List.mem_cons_of_mem p hx))

/-- The stretches of a text between the occurrences of `sep`; there is always at least one. -/
def Text.fields (sep : Char) : Text → List Text
  | [] => [[]]
  | c :: rest =>
      if c = sep then [] :: Text.fields sep rest
      else match Text.fields sep rest with
        | [] => [[c]]
        | f :: fs => (c :: f) :: fs

theorem Text.fields_ne_nil (sep : Char) (t : Text) : Text.fields sep t ≠ [] := by
  cases t with
  | nil => simp [Text.fields]
  | cons c rest =>
      simp only [Text.fields]
      split
      · simp
      · split <;> simp

/-- Splitting loses nothing: joined with the separator, the fields are the text again. -/
theorem Text.join_fields (sep : Char) (t : Text) :
    Text.join [sep] (Text.fields sep t) = t := by
  induction t with
  | nil => simp [Text.fields]
  | cons c rest ih =>
      simp only [Text.fields]
      cases hf : Text.fields sep rest with
      | nil => exact absurd hf (Text.fields_ne_nil sep rest)
      | cons f fs =>
          rw [hf] at ih
          by_cases hc : c = sep
          · subst hc
            simp [ih]
          · cases fs with
            | nil => simpa [hc] using ih
            | cons g gs => simpa [hc] using ih

/-- The text before the first `sep` and the text after it, if `sep` occurs. -/
def Text.cut? (sep : Char) : Text → Option (Text × Text)
  | [] => none
  | c :: rest =>
      if c = sep then some ([], rest)
      else (Text.cut? sep rest).map fun (before, after) => (c :: before, after)

/-! ### Length as UTF-8 -/

/-- The number of bytes of the text's UTF-8 form. -/
def Text.utf8Length (t : Text) : Nat := t.foldr (fun c n => c.utf8Size + n) 0

@[simp] theorem Text.utf8Length_nil : Text.utf8Length [] = 0 := rfl

@[simp] theorem Text.utf8Length_cons (c : Char) (t : Text) :
    Text.utf8Length (c :: t) = c.utf8Size + Text.utf8Length t := rfl

end BoundQuery

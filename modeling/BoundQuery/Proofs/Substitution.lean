/-
**Markers replaced by markers, and read again.**

Two passes of the compiler rewrite markers: lists are spread, which puts a sequence of named markers
with commas in between where one named marker stood, and `?` markers are given names.  Both rewrite
a token sequence and write it out, and the next pass reads the text again.  This module shows that
the next pass meets the tokens the rewriting meant, because it keeps sequences readable.

A named marker ends where no word character follows, and the last of the markers put in its place
ends there as well, so spreading needs no condition.  A `?` ends anywhere: the name given to it runs
into a word character behind it, and its colon makes a cast with a colon before it.  Such a `?` is
said to be crowded, and naming is faithful where no `?` is.

Main definitions:

* `commaMarkers`, `Token.substitute` — markers with commas in between, and their substitution for a
  named marker;
* `nameTokens` — the tokens that `nameMarkers` writes;
* `Uncrowded` — no `?` stands before a word character or behind a colon.

Main results:

* `Readable.substitute` — substituting names for names keeps a sequence readable;
* `Readable.nameTokens` — so does naming the `?` markers that are not crowded.
-/

import BoundQuery.Fragment
import BoundQuery.Proofs.ElementNames

set_option relaxedAutoImplicit false
set_option autoImplicit false

namespace BoundQuery

open Token

/-! ### Several markers for one -/

/-- Named markers with commas in between. -/
def commaMarkers : List Text → List Token
  | [] => []
  | [n] => [.named n]
  | n :: n' :: ns => .named n :: .text [','] :: commaMarkers (n' :: ns)

/-- A named marker replaced by the markers of the names `σ` has for it. -/
def Token.substitute (σ : Text → List Text) : Token → List Token
  | .text s => [.text s]
  | .positional => [.positional]
  | .named n => commaMarkers (σ n)

theorem flatMap_commaMarkers {w : Token → Text} (hw : ∀ s, w (.text s) = s) (ns : List Text) :
    (commaMarkers ns).flatMap w = Text.join [','] (ns.map fun n => w (.named n)) := by
  induction ns with
  | nil => rfl
  | cons n ns ih =>
      cases ns with
      | nil => simp [commaMarkers]
      | cons n' ns =>
          rw [commaMarkers, List.flatMap_cons, List.flatMap_cons, ih, hw]
          simp

theorem names_commaMarkers (ns : List Text) : names (commaMarkers ns) = ns := by
  induction ns with
  | nil => rfl
  | cons n ns ih =>
      cases ns with
      | nil => rfl
      | cons n' ns => rw [commaMarkers, names_cons, names_cons, ih]; rfl

/-- The names of a sequence after substitution. -/
theorem names_flatMap_substitute (σ : Text → List Text) (ts : List Token) :
    names (ts.flatMap (substitute σ)) = (names ts).flatMap σ := by
  induction ts with
  | nil => rfl
  | cons t ts ih =>
      rw [List.flatMap_cons, names_append, ih, names_cons, List.flatMap_append]
      cases t with
      | text s => rfl
      | positional => rfl
      | named n => simp [substitute, names_commaMarkers, name?]

/-- What follows a marker may follow the markers with commas in its place. -/
theorem Readable.commaMarkers_append {m : Mode} {ns : List Text} {us : List Token}
    (hq : m.quote? = none) (ha : m.afterColon = false) (hne : ns ≠ [])
    (hns : ∀ n ∈ ns, n.isName = true) (hus : (write us).startsWord = false)
    (h : Readable .name us) : Readable m (commaMarkers ns ++ us) := by
  induction ns generalizing m with
  | nil => exact absurd rfl hne
  | cons n ns ih =>
      have hn := hns n (by simp)
      cases ns with
      | nil => exact .named hq ha hn hus h
      | cons n' ns =>
          have hcomma : isWordChar ',' = false := by decide
          have htail : Readable .plain (commaMarkers (n' :: ns) ++ us) :=
            ih rfl rfl (by simp) fun x hx => hns x (List.mem_cons_of_mem _ hx)
          have hscan : scan .name [','] = [.text [',']] := by decide
          exact .named hq ha hn hcomma (.text hscan (fun h => absurd h (by decide)) htail)

theorem startsWord_commaMarkers {ns : List Text} (hne : ns ≠ []) (us : List Token) :
    (write (commaMarkers ns ++ us)).startsWord = false := by
  match ns with
  | [n] => exact isWordChar_colon
  | n :: n' :: ns => exact isWordChar_colon

/-- The first character of a readable sequence survives substitution. -/
theorem Readable.startsWord_substitute {σ : Text → List Text} (hσ : ∀ n, n.isName = true → σ n ≠ [])
    {m : Mode} {ts : List Token} (h : Readable m ts) :
    (write (ts.flatMap (substitute σ))).startsWord = (write ts).startsWord := by
  cases h with
  | nil => rfl
  | text hs _ _ =>
      have hne := Readable.ne_nil_of_scan hs
      rw [List.flatMap_cons, Token.substitute, List.singleton_append, write_cons, write_cons]
      exact (Text.startsWord_append hne _).trans (Text.startsWord_append hne _).symm
  | positional => rfl
  | named _ _ hn _ _ => exact startsWord_commaMarkers (hσ _ hn) _

/-- **Substituting names for names keeps a sequence readable.** -/
theorem Readable.substitute {σ : Text → List Text}
    (hσ : ∀ n, n.isName = true → σ n ≠ [] ∧ ∀ x ∈ σ n, x.isName = true)
    {m : Mode} {ts : List Token} (h : Readable m ts) :
    Readable m (ts.flatMap (Token.substitute σ)) := by
  have hne : ∀ n, n.isName = true → σ n ≠ [] := fun n hn => (hσ n hn).1
  induction h with
  | nil m => exact .nil m
  | @text m s ts hs ha hts ih =>
      have hstart := hts.startsWord_substitute hne
      exact .text hs (fun hm => hstart.trans (ha hm)) ih
  | positional hq _ ih => exact .positional hq ih
  | @named m n ts hq ha hn ht hts ih =>
      have hstart := (hts.startsWord_substitute hne).trans ht
      exact .commaMarkers_append hq ha (hσ n hn).1 (hσ n hn).2 hstart ih

/-! ### Names for the positional markers -/

/-- The tokens in which the `?` markers are named `stem` and their number, from `i` on. -/
def nameTokens (stem : Text) : Nat → List Token → List Token
  | _, [] => []
  | i, .positional :: ts => .named (stem ++ decimal i) :: nameTokens stem (i + 1) ts
  | i, .text s :: ts => .text s :: nameTokens stem i ts
  | i, .named n :: ts => .named n :: nameTokens stem i ts

/-- `nameMarkers` writes the named tokens. -/
theorem write_nameTokens (stem : Text) (i : Nat) (ts : List Token) :
    write (nameTokens stem i ts) = nameMarkers stem i ts := by
  induction ts generalizing i with
  | nil => rfl
  | cons t ts ih =>
      cases t <;> simp [nameTokens, nameMarkers, written, ih]

theorem startsWord_nameTokens (stem : Text) (i : Nat) {m : Mode} {ts : List Token}
    (h : Readable m ts) : (write (nameTokens stem i ts)).startsWord = (write ts).startsWord := by
  cases h with
  | nil => rfl
  | text hs _ _ =>
      have hne := Readable.ne_nil_of_scan hs
      rw [nameTokens, write_cons, write_cons]
      exact (Text.startsWord_append hne _).trans (Text.startsWord_append hne _).symm
  | positional => exact isWordChar_colon.trans isWordChar_question.symm
  | named => rfl

/-- No `?` outside quoted spans stands behind a colon or before a word character. -/
def Uncrowded (t : Text) : Prop :=
  ∀ s r : Text, t = s ++ '?' :: r → (Mode.plain.after s).quote? = none →
    s.getLast? ≠ some ':' ∧ r.startsWord = false

theorem uncrowded_iff (t : Text) :
    Uncrowded t ↔ ∀ i < t.length, t[i]? = some '?' →
      (Mode.plain.after (t.take i)).quote? = none →
      (t.take i).getLast? ≠ some ':' ∧ Text.startsWord (t.drop (i + 1)) = false := by
  constructor
  · intro h i hi hget hquote
    have hsplit : t = t.take i ++ '?' :: t.drop (i + 1) := by
      obtain ⟨hlt, hat⟩ := List.getElem?_eq_some_iff.1 hget
      rw [← hat, ← List.drop_eq_getElem_cons hlt, List.take_append_drop]
    exact h _ _ hsplit hquote
  · rintro h s r rfl hquote
    have hget : (s ++ '?' :: r)[s.length]? = some '?' := by simp
    have hat := h s.length (by simp) hget
    simp only [List.take_left, List.drop_append, Nat.add_sub_cancel_left, List.drop_succ_cons,
      List.drop_zero] at hat
    have hdrop : s.drop (s.length + 1) = [] := List.drop_eq_nil_of_le (Nat.le_succ _)
    rw [hdrop, List.nil_append] at hat
    exact hat hquote

instance (t : Text) : Decidable (Uncrowded t) := decidable_of_iff _ (uncrowded_iff t).symm

/-- **Naming keeps a sequence readable**, if no `?` stands behind a colon or before a word
character. -/
theorem Readable.nameTokens {stem : Text} (hstem : ∀ c ∈ stem, isWordChar c = true) {m : Mode}
    {ts : List Token} (h : Readable m ts)
    (hfree : ∀ us vs, ts = us ++ Token.positional :: vs →
      (m.after (write us)).afterColon = false ∧ (write vs).startsWord = false) (i : Nat) :
    Readable m (BoundQuery.nameTokens stem i ts) := by
  induction h generalizing i with
  | nil m => exact .nil m
  | @text m s ts hs ha hts ih =>
      have hstart := startsWord_nameTokens stem i hts
      refine .text hs (fun hm => hstart.trans (ha hm)) (ih ?_ i)
      rintro us vs rfl
      have := hfree (Token.text s :: us) vs rfl
      rwa [write_cons, Mode.after_append] at this
  | @positional m ts hq hts ih =>
      obtain ⟨hcolon, hword⟩ := hfree [] ts rfl
      have hstart := (startsWord_nameTokens stem (i + 1) hts).trans hword
      have htail : Readable .plain (BoundQuery.nameTokens stem (i + 1) ts) := by
        refine ih ?_ (i + 1)
        rintro us vs rfl
        have := hfree (Token.positional :: us) vs rfl
        rwa [write_cons, Mode.after_append, Mode.after_written_positional hq] at this
      exact .named hq hcolon (Text.isName_append_decimal hstem i) hstart
        ((readable_name_iff hstart).2 htail)
  | @named m n ts hq ha hn ht hts ih =>
      have hstart := (startsWord_nameTokens stem i hts).trans ht
      refine .named hq ha hn hstart (ih ?_ i)
      rintro us vs rfl
      have := hfree (Token.named n :: us) vs rfl
      rwa [write_cons, Mode.after_append, Mode.after_written_named hq ha hn] at this

/-- The tokens of a text without crowded `?`, with names for them, are readable. -/
theorem readable_nameTokens {stem : Text} (hstem : ∀ c ∈ stem, isWordChar c = true) {t : Text}
    (ht : Uncrowded t) (i : Nat) : Readable .plain (nameTokens stem i (tokenize t)) := by
  refine (readable_tokenize t).nameTokens hstem (fun us vs hsplit => ?_) i
  have hread := readable_tokenize t
  rw [hsplit] at hread
  have hquote : (Mode.plain.after (write us)).quote? = none := by
    cases hread.drop with
    | positional hq _ => exact hq
  have htext : t = write us ++ '?' :: write vs := by
    rw [← write_tokenize t, hsplit, write_append]
    rfl
  obtain ⟨hcolon, hword⟩ := ht _ _ htext hquote
  refine ⟨?_, hword⟩
  cases ha : (Mode.plain.after (write us)).afterColon with
  | false => rfl
  | true => exact absurd (Mode.getLast?_of_afterColon rfl ha) hcolon

end BoundQuery

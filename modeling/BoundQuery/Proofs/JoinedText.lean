/-
**The `?` markers of a text that is joined from parts.**

Clauses are joined to one text, and the `?` markers of that text are named in one scan.  Between two
parts a name can run on, two colons can become a cast and two quoted spans one, so the tokens of the
joined text are not those of its parts.  The `?` markers are: whether a `?` is a marker depends on
nothing but the quoted span it lies in, and a part that ends outside quoted spans leaves the part
behind it alone.

So a text is seen here as its characters with a *gap* for every `?` outside quoted spans.  Gapped
texts are joined where texts are joined, and naming fills the gaps from left to right.

Main definitions:

* `spanStep`, `spanAfter` — the quoted span that a place lies in;
* `gapped`, `Token.gapped` — a text with its gaps, and a token;
* `nameGaps` — the gaps filled with names;
* `Text.IsClosed` — a text that ends outside quoted spans;
* `namedParts` — the parts of a text with names for their `?`, numbered across the parts.

Main results:

* `flatMap_gapped_tokenize` — **the gaps of a text are its `?` markers**;
* `nameMarkers_join`, `countPositional_join` — **the joined text is named part by part**;
* `Text.isClosed_join` — closed parts are joined to a closed text;
* `names_scan_append` — the named markers of a text in two parts.
-/

import Mathlib.Algebra.GroupWithZero.Nat
import BoundQuery.Clause
import BoundQuery.Proofs.Readable

set_option relaxedAutoImplicit false
set_option autoImplicit false

namespace BoundQuery

open Token

/-! ### Quoted spans -/

/-- The quote character of the span that a place lies in, one character later. -/
def spanStep (q : Option Char) (c : Char) : Option Char :=
  match q with
  | some r => if c = r then none else some r
  | none => if isQuoteChar c then some c else none

/-- The quote character of the span that the place behind a text lies in. -/
def spanAfter (q : Option Char) (t : Text) : Option Char := t.foldl spanStep q

@[simp] theorem spanAfter_nil (q : Option Char) : spanAfter q [] = q := rfl

@[simp] theorem spanAfter_cons (q : Option Char) (c : Char) (t : Text) :
    spanAfter q (c :: t) = spanAfter (spanStep q c) t := rfl

theorem spanAfter_append (q : Option Char) (s t : Text) :
    spanAfter q (s ++ t) = spanAfter (spanAfter q s) t := by
  simp [spanAfter]

/-- The reader's spans do not depend on anything else it remembers. -/
theorem Mode.quote?_step (m : Mode) (c : Char) : (m.step c).quote? = spanStep m.quote? c := by
  cases hq : m.quote? with
  | some r =>
      have hm : m = quoted r := by cases m <;> simp_all [quote?]
      subst hm
      by_cases hc : c = r <;> simp [step, quote?, spanStep, hc]
  | none =>
      simp only [step, hq, spanStep]
      split
      · rfl
      · split
        · split <;> rfl
        · split <;> rfl

theorem Mode.quote?_after (m : Mode) (t : Text) : (m.after t).quote? = spanAfter m.quote? t := by
  induction t generalizing m with
  | nil => rfl
  | cons c t ih => rw [after_cons, ih, quote?_step, spanAfter_cons]

/-- Outside quoted spans, a text without quote characters opens none. -/
theorem spanAfter_of_no_quote {t : Text} (h : ∀ c ∈ t, isQuoteChar c = false) :
    spanAfter none t = none := by
  induction t with
  | nil => rfl
  | cons c t ih =>
      have hc : spanStep none c = none := by simp [spanStep, h c List.mem_cons_self]
      rw [spanAfter_cons, hc, ih fun x hx => h x (List.mem_cons_of_mem c hx)]

/-! ### Gaps -/

/-- The characters of a text, with a gap for every `?` outside quoted spans. -/
def gapped : Option Char → Text → List (Option Char)
  | _, [] => []
  | q, c :: t => (if q = none ∧ c = '?' then none else some c) :: gapped (spanStep q c) t

theorem gapped_append (q : Option Char) (s t : Text) :
    gapped q (s ++ t) = gapped q s ++ gapped (spanAfter q s) t := by
  induction s generalizing q with
  | nil => rfl
  | cons c s ih => rw [List.cons_append, gapped, gapped, ih, spanAfter_cons, List.cons_append]

/-- A text without any `?` has no gaps. -/
theorem gapped_of_no_question {t : Text} (h : '?' ∉ t) (q : Option Char) :
    gapped q t = t.map some := by
  induction t generalizing q with
  | nil => rfl
  | cons c t ih =>
      have hc : c ≠ '?' := fun heq => h (heq ▸ List.mem_cons_self)
      rw [gapped, if_neg fun hq => hc hq.2, ih fun ht => h (List.mem_cons_of_mem c ht)]
      rfl

/-- The characters of a token, and the gap that a `?` is. -/
def Token.gapped : Token → List (Option Char)
  | positional => [none]
  | t => t.written.map some

theorem flatMap_gapped_addText (c : Char) (ts : List Token) :
    (addText c ts).flatMap Token.gapped = some c :: ts.flatMap Token.gapped := by
  cases ts with
  | nil => rfl
  | cons t ts => cases t <;> rfl

/-- What a mode leaves to write is all of a text that may follow it. -/
theorem Mode.Admits.pending {m : Mode} {t : Text} (h : m.Admits t) : Token.pending m t = t := by
  rw [← Token.write_scan, h.write_scan]

/-- The gaps of the tokens read from a mode are those of the text. -/
theorem flatMap_gapped_scan (m : Mode) (t : Text) :
    (scan m t).flatMap Token.gapped = gapped m.quote? (pending m t) := by
  induction t generalizing m with
  | nil => simp [pending, gapped]
  | cons c t ih =>
      rcases m.read_cases c t with ⟨hm, hc⟩ | ⟨hq, rfl⟩ | ⟨hq, rfl, ha, hw⟩ | ⟨hread, hadm⟩
      · -- inside a name that has been written already
        have hpending : pending m (c :: t) = pending .name t := by
          have hname : Mode.name.awaitsName = true := rfl
          rw [pending, pending, if_pos hm, if_pos hname, List.dropWhile_cons_of_pos hc]
        rw [scan_word hm hc, ih, hpending, Mode.quote?_of_awaitsName hm]
        rfl
      · have hpending : pending m ('?' :: t) = '?' :: t := by simp [pending]
        rw [scan_question hq, List.flatMap_cons, ih, hpending, hq, gapped, if_pos ⟨rfl, rfl⟩]
        rfl
      · have hread : m.read ':' t = .named (t.takeWhile isWordChar) := by
          have hne : t.takeWhile isWordChar ≠ [] := fun h => by
            rw [Text.takeWhile_eq_nil_iff, hw] at h
            cases h
          simp [Mode.read, hq, ha, hne]
        have hpending : pending m (':' :: t) = ':' :: t := by simp [pending]
        have hnoquestion : '?' ∉ t.takeWhile isWordChar := fun h =>
          absurd (List.all_eq_true.1 List.all_takeWhile _ h) (by decide)
        have hnoquote : ∀ x ∈ t.takeWhile isWordChar, isQuoteChar x = false := fun x hx =>
          Mode.isQuoteChar_of_isWordChar (List.all_eq_true.1 List.all_takeWhile x hx)
        -- the name is written with its colon, and the reader goes on behind it
        have hname : gapped none t =
            (t.takeWhile isWordChar).map some ++ gapped none (t.dropWhile isWordChar) := by
          conv => lhs; rw [← List.takeWhile_append_dropWhile (p := isWordChar) (l := t)]
          rw [gapped_append, gapped_of_no_question hnoquestion, spanAfter_of_no_quote hnoquote]
        rw [scan, hread, Mode.step_colon hq ha, List.flatMap_cons, ih, hpending, hq, gapped,
          if_neg (by simp)]
        change some ':' :: ((t.takeWhile isWordChar).map some ++
          gapped none (t.dropWhile isWordChar)) = some ':' :: gapped none t
        rw [hname]
      · have hpending : pending m (c :: t) = c :: t := by
          cases hm : m.awaitsName && isWordChar c with
          | false =>
              cases ha : m.awaitsName with
              | false => simp [pending, ha]
              | true => simp [pending, ha, by simpa [ha] using hm]
          | true =>
              rw [Bool.and_eq_true] at hm
              have hquestion : c ≠ '?' := ne_of_isWordChar hm.2 isWordChar_question
              have hcolon : c ≠ ':' := ne_of_isWordChar hm.2 isWordChar_colon
              simp [Mode.read, Mode.quote?_of_awaitsName hm.1, hquestion, hcolon, hm] at hread
        have htext : ¬ (m.quote? = none ∧ c = '?') := by
          rintro ⟨hq, rfl⟩
          simp [Mode.read, hq] at hread
        rw [scan, hread, hpending, gapped, if_neg htext, flatMap_gapped_addText, ih,
          Mode.quote?_step, hadm.pending]

/-- **The gaps of a text are its `?` markers.** -/
theorem flatMap_gapped_tokenize (t : Text) :
    (tokenize t).flatMap Token.gapped = gapped none t :=
  flatMap_gapped_scan .plain t

/-! ### Gaps and names -/

/-- A text in which the gaps are named `stem` and their number, from `i` on. -/
def nameGaps (stem : Text) : Nat → List (Option Char) → Text
  | _, [] => []
  | i, none :: gs => ':' :: (stem ++ decimal i) ++ nameGaps stem (i + 1) gs
  | i, some c :: gs => c :: nameGaps stem i gs

theorem nameGaps_append (stem : Text) (i : Nat) (gs hs : List (Option Char)) :
    nameGaps stem i (gs ++ hs) =
      nameGaps stem i gs ++ nameGaps stem (i + gs.countP Option.isNone) hs := by
  induction gs generalizing i with
  | nil => rfl
  | cons g gs ih =>
      cases g with
      | none =>
          have hcount : i + (none :: gs).countP Option.isNone = i + 1 + gs.countP Option.isNone := by
            rw [List.countP_cons_of_pos rfl]
            omega
          rw [List.cons_append, nameGaps, nameGaps, ih, hcount, List.append_assoc]
      | some c =>
          have hcount : (some c :: gs).countP Option.isNone = gs.countP Option.isNone :=
            List.countP_cons_of_neg (by simp)
          rw [List.cons_append, nameGaps, nameGaps, ih, hcount, List.cons_append]

theorem nameGaps_map_some (stem : Text) (i : Nat) (t : Text) :
    nameGaps stem i (t.map some) = t := by
  induction t with
  | nil => rfl
  | cons c t ih => rw [List.map_cons, nameGaps, ih]

theorem countP_isNone_map_some {ν : Type} (xs : List ν) :
    (xs.map some).countP Option.isNone = 0 := by
  simp [List.countP_map]

/-- Naming the markers of tokens is filling the gaps of their text. -/
theorem nameMarkers_eq_nameGaps (stem : Text) (i : Nat) (ts : List Token) :
    nameMarkers stem i ts = nameGaps stem i (ts.flatMap Token.gapped) := by
  induction ts generalizing i with
  | nil => rfl
  | cons t ts ih =>
      have hplain : ∀ s : Text, s ++ nameMarkers stem i ts =
          nameGaps stem i (s.map some ++ ts.flatMap Token.gapped) := fun s => by
        rw [nameGaps_append, nameGaps_map_some, countP_isNone_map_some, ih]
        rfl
      cases t with
      | positional =>
          rw [nameMarkers, ih]
          rfl
      | text s => exact hplain s
      | named n => exact hplain (':' :: n)

theorem countP_isPositional_eq (ts : List Token) :
    ts.countP Token.isPositional = (ts.flatMap Token.gapped).countP Option.isNone := by
  induction ts with
  | nil => rfl
  | cons t ts ih =>
      rw [List.flatMap_cons, List.countP_append, ← ih, List.countP_cons, Nat.add_comm]
      cases t with
      | positional => rfl
      | text s => simp [Token.gapped, Token.isPositional]
      | named n => simp [Token.gapped, Token.isPositional]

theorem nameMarkers_tokenize (stem : Text) (i : Nat) (t : Text) :
    nameMarkers stem i (tokenize t) = nameGaps stem i (gapped none t) := by
  rw [nameMarkers_eq_nameGaps, flatMap_gapped_tokenize]

theorem countPositional_eq_gaps (t : Text) :
    countPositional t = (gapped none t).countP Option.isNone := by
  rw [countPositional, countP_isPositional_eq, flatMap_gapped_tokenize]

/-- A text without any `?` has no `?` marker. -/
theorem countPositional_of_no_question {t : Text} (h : '?' ∉ t) : countPositional t = 0 := by
  rw [countPositional_eq_gaps, gapped_of_no_question h, countP_isNone_map_some]

/-! ### Closed parts -/

/-- A text that ends outside quoted spans. -/
def Text.IsClosed (t : Text) : Prop := (Mode.plain.after t).quote? = none

instance (t : Text) : Decidable t.IsClosed := inferInstanceAs (Decidable (_ = none))

theorem Text.isClosed_iff (t : Text) : t.IsClosed ↔ spanAfter none t = none := by
  rw [IsClosed, Mode.quote?_after]
  rfl

/-- Behind a closed text, the gaps are those of the text that follows. -/
theorem Text.IsClosed.gapped_append {s : Text} (h : s.IsClosed) (t : Text) :
    gapped none (s ++ t) = gapped none s ++ gapped none t := by
  rw [BoundQuery.gapped_append, (Text.isClosed_iff s).1 h]

theorem Text.IsClosed.nameMarkers_append {s : Text} (h : s.IsClosed) (stem : Text) (i : Nat)
    (t : Text) : nameMarkers stem i (tokenize (s ++ t)) =
      nameMarkers stem i (tokenize s) ++ nameMarkers stem (i + countPositional s) (tokenize t) := by
  rw [nameMarkers_tokenize, nameMarkers_tokenize, nameMarkers_tokenize, h.gapped_append,
    nameGaps_append, countPositional_eq_gaps]

theorem Text.IsClosed.countPositional_append {s : Text} (h : s.IsClosed) (t : Text) :
    countPositional (s ++ t) = countPositional s + countPositional t := by
  rw [countPositional_eq_gaps, countPositional_eq_gaps, countPositional_eq_gaps, h.gapped_append,
    List.countP_append]

theorem Text.IsClosed.append {s t : Text} (hs : s.IsClosed) (ht : t.IsClosed) :
    (s ++ t).IsClosed := by
  rw [isClosed_iff, spanAfter_append, (isClosed_iff s).1 hs]
  exact (isClosed_iff t).1 ht

/-- **Closed parts are joined to a closed text** by a closed joiner. -/
theorem Text.isClosed_join {joiner : Text} (hj : joiner.IsClosed) {ps : List Text}
    (hps : ∀ p ∈ ps, p.IsClosed) : (Text.join joiner ps).IsClosed :=
  Text.join_of_append (P := Text.IsClosed) rfl Text.IsClosed.append hj hps

/-- A joiner without quote characters and `?` is plain text wherever it stands outside spans. -/
def Text.IsPlainJoiner (joiner : Text) : Prop := ∀ c ∈ joiner, isQuoteChar c = false ∧ c ≠ '?'

instance (joiner : Text) : Decidable joiner.IsPlainJoiner :=
  List.decidableBAll (fun c => isQuoteChar c = false ∧ c ≠ '?') joiner

theorem Text.IsPlainJoiner.isClosed {joiner : Text} (h : joiner.IsPlainJoiner) :
    joiner.IsClosed :=
  (Text.isClosed_iff joiner).2 (spanAfter_of_no_quote fun c hc => (h c hc).1)

theorem Text.IsPlainJoiner.no_question {joiner : Text} (h : joiner.IsPlainJoiner) :
    '?' ∉ joiner := fun hm => (h _ hm).2 rfl

/-- The parts of a text with their `?` named `stem` and a number; each part is numbered from where
the part before it ended, and the first from `i` on. -/
def namedParts (stem : Text) : Nat → List Text → List Text
  | _, [] => []
  | i, p :: ps => nameMarkers stem i (tokenize p) :: namedParts stem (i + countPositional p) ps

/-- A plain joiner is written as it stands between what is named. -/
theorem Text.IsPlainJoiner.nameMarkers_append {joiner : Text} (h : joiner.IsPlainJoiner)
    (stem : Text) (i : Nat) (t : Text) :
    nameMarkers stem i (tokenize (joiner ++ t)) = joiner ++ nameMarkers stem i (tokenize t) := by
  have hnone := countPositional_of_no_question h.no_question
  rw [h.isClosed.nameMarkers_append, hnone, nameMarkers_of_none stem i hnone, write_tokenize,
    Nat.add_zero]

/-- **The joined text is named part by part**, if every part is closed. -/
theorem nameMarkers_join {joiner : Text} (hj : joiner.IsPlainJoiner) (stem : Text) {ps : List Text}
    (hps : ∀ p ∈ ps, p.IsClosed) (i : Nat) :
    nameMarkers stem i (tokenize (Text.join joiner ps)) =
      Text.join joiner (namedParts stem i ps) := by
  induction ps generalizing i with
  | nil => rfl
  | cons p ps ih =>
      cases ps with
      | nil => simp [namedParts]
      | cons p' ps =>
          have hp : p.IsClosed := hps p List.mem_cons_self
          have hrest := ih (fun x hx => hps x (List.mem_cons_of_mem p hx)) (i + countPositional p)
          rw [Text.join_cons_cons, List.append_assoc, hp.nameMarkers_append, hj.nameMarkers_append,
            hrest, ← List.append_assoc]
          exact (Text.join_cons_cons joiner _ _ _).symm

/-- **The joined text has the `?` markers of its parts**, if every part is closed. -/
theorem countPositional_join {joiner : Text} (hj : joiner.IsPlainJoiner) {ps : List Text}
    (hps : ∀ p ∈ ps, p.IsClosed) :
    countPositional (Text.join joiner ps) = (ps.map countPositional).sum := by
  induction ps with
  | nil => rfl
  | cons p ps ih =>
      cases ps with
      | nil => simp
      | cons p' ps =>
          have hp : p.IsClosed := hps p List.mem_cons_self
          have hrest := ih fun x hx => hps x (List.mem_cons_of_mem p hx)
          rw [Text.join_cons_cons, List.append_assoc, hp.countPositional_append,
            hj.isClosed.countPositional_append, countPositional_of_no_question hj.no_question,
            hrest, Nat.zero_add]
          rfl

/-! ### Named markers -/

/-- A text without a colon holds no named marker. -/
theorem names_scan_of_no_colon {t : Text} (h : ':' ∉ t) (m : Mode) : names (scan m t) = [] := by
  induction t generalizing m with
  | nil => rfl
  | cons c t ih =>
      have hc : c ≠ ':' := fun heq => h (heq ▸ List.mem_cons_self)
      have hrest := ih fun ht => h (List.mem_cons_of_mem c ht)
      rw [scan]
      cases hread : m.read c t with
      | text => exact (names_addText c _).trans (hrest _)
      | positional => exact hrest _
      | within => exact hrest _
      | named n =>
          simp only [Mode.read, hc, if_false] at hread
          split at hread
          · cases hread
          · split at hread
            · cases hread
            · split at hread <;> cases hread

/-- The named markers of a text in two parts, if no name runs across the cut. -/
theorem names_scan_append {m : Mode} {s t : Text} (h : (m.after s).Admits t) :
    names (scan m (s ++ t)) = names (scan m s) ++ names (scan (m.after s) t) := by
  rw [scan_append h]
  induction scan m s with
  | nil => rfl
  | cons u us ih =>
      rw [List.foldr_cons, names_cons, List.append_assoc, ← ih]
      cases u with
      | text s => exact names_foldr_addText s _
      | positional => rfl
      | named n => rfl

end BoundQuery

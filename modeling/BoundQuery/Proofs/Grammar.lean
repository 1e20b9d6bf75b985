/-
**The tokens of a text, described by places.**

The reader walks through a text with a mode.  What it finds can be said without the walk, place by
place.  A place lies in a quoted span if more spans were opened before it than closed, where a span
opens at a quote character and closes at the next occurrence of the same character.  Outside spans
every `?` is a marker, and so is every colon that no colon precedes and a word character follows;
its name is the longest run of word characters behind it.  Everything between markers is plain text
in one piece.

This describes one sequence of tokens and no other, because a sequence without empty and adjacent
texts can be rebuilt from its text and the places at which its markers start.

Main definitions:

* `OutsideSpans` — a place outside quoted spans;
* `Token.StartsAt` — a token of a sequence starts at a place of the text;
* `IsReading` — **the description of the tokens of a text**;
* `Token.labels`, `labelsFrom` — the marker that starts at each place, of a token and of a text.

Main results:

* `eq_of_labels` — a sequence is rebuilt from its text and the places of its markers;
* `labels_scan`, `getElem?_labelsFrom` — the marker at a place is read off the text before and
  behind it;
* `isReading_iff` — **the tokens of a text are the only sequence that meets the description**.
-/

import BoundQuery.Proofs.JoinedText

set_option relaxedAutoImplicit false
set_option autoImplicit false

namespace BoundQuery

open Token

/-! ### The description -/

/-- Whether place `i` of a text lies outside quoted spans. -/
def OutsideSpans (t : Text) (i : Nat) : Prop := spanAfter none (t.take i) = none

instance (t : Text) (i : Nat) : Decidable (OutsideSpans t i) :=
  inferInstanceAs (Decidable (_ = none))

/-- The token `k` of a sequence starts at place `i` of the text that the sequence writes. -/
def Token.StartsAt (k : Token) (i : Nat) (ts : List Token) : Prop :=
  ∃ us vs, ts = us ++ k :: vs ∧ (write us).length = i

/-- No text of a sequence is empty, and no two are adjacent. -/
structure Token.InOnePiece (ts : List Token) : Prop where
  /-- No text is empty. -/
  nonempty : ∀ s, text s ∈ ts → s ≠ []
  /-- No text stands directly behind another. -/
  apart : ∀ us r s vs, ts ≠ us ++ text r :: text s :: vs

/-- **The description of the tokens of a text.** -/
structure IsReading (t : Text) (ts : List Token) : Prop where
  /-- The tokens written back are the text. -/
  written : write ts = t
  /-- Plain text stands in one piece. -/
  inOnePiece : InOnePiece ts
  /-- The positional markers are the `?` outside quoted spans. -/
  positional : ∀ i, positional.StartsAt i ts ↔ t[i]? = some '?' ∧ OutsideSpans t i
  /-- The named markers are the colons outside quoted spans that no colon precedes and a word
  character follows, and each has the longest run of word characters for its name. -/
  named : ∀ i n, (named n).StartsAt i ts ↔
    t[i]? = some ':' ∧ OutsideSpans t i ∧ (t.take i).getLast? ≠ some ':' ∧
      n = (t.drop (i + 1)).takeWhile isWordChar ∧ n ≠ []

/-! ### The places of markers -/

namespace Token

/-- The marker that starts at each place of a token. -/
def labels : Token → List (Option Token)
  | text s => s.map fun _ => none
  | positional => [some positional]
  | named n => some (named n) :: n.map fun _ => none

@[simp] theorem length_labels (k : Token) : k.labels.length = k.written.length := by
  cases k <;> simp [labels, written]

theorem labels_of_isMarker {k : Token} (hk : k.isMarker = true) :
    ∃ rest : Text, k.labels = some k :: rest.map fun _ => none := by
  cases k with
  | text s => cases hk
  | positional => exact ⟨[], rfl⟩
  | named n => exact ⟨n, rfl⟩

theorem getElem?_no_label (s : Text) (i : Nat) {k : Token} :
    (s.map fun _ => (none : Option Token))[i]? ≠ some (some k) := by
  rw [List.getElem?_map]
  cases s[i]? <;> simp

/-- A marker starts at the first place of a token, or nowhere in it. -/
theorem getElem?_labels {k u : Token} {i : Nat} :
    u.labels[i]? = some (some k) ↔ u.isMarker = true ∧ i = 0 ∧ k = u := by
  cases hu : u.isMarker with
  | false =>
      cases u with
      | positional => cases hu
      | named n => cases hu
      | text s => exact iff_of_false (getElem?_no_label s i) fun h => Bool.false_ne_true h.1
  | true =>
      obtain ⟨rest, hlabels⟩ := labels_of_isMarker hu
      rw [hlabels]
      cases i with
      | zero => simp [eq_comm]
      | succ i =>
          rw [List.getElem?_cons_succ]
          exact iff_of_false (getElem?_no_label rest i) fun h => Nat.succ_ne_zero i h.2.1

theorem startsAt_cons {k u : Token} {i : Nat} {ts : List Token} :
    k.StartsAt i (u :: ts) ↔
      i = 0 ∧ k = u ∨ ∃ j, i = u.written.length + j ∧ k.StartsAt j ts := by
  constructor
  · rintro ⟨us, vs, hsplit, rfl⟩
    cases us with
    | nil => exact .inl ⟨rfl, (List.cons.inj hsplit).1.symm⟩
    | cons v us =>
        obtain ⟨rfl, hts⟩ := List.cons.inj hsplit
        exact .inr ⟨_, by simp, us, vs, hts, rfl⟩
  · rintro (⟨rfl, rfl⟩ | ⟨j, rfl, us, vs, rfl, rfl⟩)
    · exact ⟨[], ts, rfl, rfl⟩
    · exact ⟨u :: us, vs, rfl, by simp⟩

/-- The labels of a sequence say where its markers start. -/
theorem getElem?_flatMap_labels {k : Token} (hk : k.isMarker = true) {ts : List Token} {i : Nat} :
    (ts.flatMap labels)[i]? = some (some k) ↔ k.StartsAt i ts := by
  induction ts generalizing i with
  | nil =>
      refine iff_of_false (by simp) ?_
      rintro ⟨us, vs, hsplit, -⟩
      exact List.append_ne_nil_of_right_ne_nil us (List.cons_ne_nil k vs) hsplit.symm
  | cons u ts ih =>
      rw [List.flatMap_cons, startsAt_cons]
      rcases Nat.lt_or_ge i u.labels.length with hlt | hge
      · rw [List.getElem?_append_left hlt, getElem?_labels]
        rw [length_labels] at hlt
        constructor
        · exact fun h => .inl h.2
        · rintro (⟨rfl, rfl⟩ | ⟨j, rfl, -⟩)
          · exact ⟨hk, rfl, rfl⟩
          · exact absurd hlt (Nat.not_lt.2 (Nat.le_add_right _ j))
      · rw [List.getElem?_append_right hge, ih, length_labels]
        rw [length_labels] at hge
        constructor
        · exact fun h => .inr ⟨_, (Nat.add_sub_cancel' hge).symm, h⟩
        · rintro (⟨rfl, rfl⟩ | ⟨j, rfl, h⟩)
          · -- a marker writes something
            have hpos : 0 < k.written.length := by cases k <;> simp_all [written, isMarker]
            omega
          · rwa [Nat.add_sub_cancel_left]

theorem isMarker_of_mem_labels {k : Token} {ts : List Token} (h : some k ∈ ts.flatMap labels) :
    k.isMarker = true := by
  obtain ⟨u, -, hu⟩ := List.mem_flatMap.1 h
  obtain ⟨i, hi⟩ := List.mem_iff_getElem?.1 hu
  obtain ⟨hmarker, -, rfl⟩ := getElem?_labels.1 hi
  exact hmarker

theorem length_flatMap_labels (ts : List Token) :
    (ts.flatMap labels).length = (write ts).length := by
  simp [write, List.length_flatMap]

/-! ### A sequence rebuilt -/

theorem InOnePiece.tail {k : Token} {ts : List Token} (h : InOnePiece (k :: ts)) :
    InOnePiece ts :=
  ⟨fun s hs => h.nonempty s (List.mem_cons_of_mem k hs),
    fun us r s vs heq => h.apart (k :: us) r s vs (congrArg (List.cons k) heq)⟩

theorem InOnePiece.written_ne_nil {k : Token} {ts : List Token} (h : InOnePiece ts) (hk : k ∈ ts) :
    k.written ≠ [] := by
  cases k with
  | text s => exact h.nonempty s hk
  | positional => exact List.cons_ne_nil _ _
  | named n => exact List.cons_ne_nil _ _

/-- Behind a text stands a marker or nothing, so the text is not shorter than its run of places
without a label. -/
theorem InOnePiece.length_le {r s : Text} {ts us : List Token} (h : InOnePiece (text r :: ts))
    (heq : (text r :: ts).flatMap labels = (text s :: us).flatMap labels) :
    s.length ≤ r.length := by
  refine Nat.le_of_not_lt fun hlt => ?_
  have hat := congrArg (·[r.length]?) heq
  have hright : ((text s :: us).flatMap labels)[r.length]? = some none := by
    rw [List.flatMap_cons, List.getElem?_append_left (by simpa [labels] using hlt)]
    simp [labels, hlt]
  have hleft : ((text r :: ts).flatMap labels)[r.length]? = (ts.flatMap labels)[0]? := by
    rw [List.flatMap_cons, List.getElem?_append_right (by simp [labels])]
    simp [labels]
  simp only [hleft, hright] at hat
  cases ts with
  | nil => cases hat
  | cons u ts =>
      cases u with
      | text s' => exact h.apart [] r s' ts rfl
      | positional => cases hat
      | named n => cases hat

/-- **A sequence is rebuilt from its text and the places of its markers.** -/
theorem eq_of_labels {ts us : List Token} (hts : InOnePiece ts) (hus : InOnePiece us)
    (hwrite : write ts = write us) (hlabels : ts.flatMap labels = us.flatMap labels) : ts = us := by
  induction ts generalizing us with
  | nil =>
      cases us with
      | nil => rfl
      | cons l us =>
          have hne := hus.written_ne_nil List.mem_cons_self
          exact absurd (List.append_eq_nil_iff.1 hwrite.symm).1 hne
  | cons k ts ih =>
      cases us with
      | nil =>
          have hne := hts.written_ne_nil List.mem_cons_self
          exact absurd (List.append_eq_nil_iff.1 hwrite).1 hne
      | cons l us =>
          -- once the first tokens agree, so do the rests
          have hstep : k = l → k :: ts = l :: us := by
            rintro rfl
            have hrest : ts.flatMap labels = us.flatMap labels := List.append_cancel_left hlabels
            rw [ih hts.tail hus.tail (List.append_cancel_left hwrite) hrest]
          apply hstep
          cases hk : k.isMarker with
          | true =>
              have hfirst : ((l :: us).flatMap labels)[0]? = some (some k) :=
                hlabels ▸ (getElem?_flatMap_labels hk).2 ⟨[], ts, rfl, rfl⟩
              rcases startsAt_cons.1 ((getElem?_flatMap_labels hk).1 hfirst) with
                ⟨-, hkl⟩ | ⟨j, hj, -⟩
              · exact hkl
              · have hne := hus.written_ne_nil (k := l) List.mem_cons_self
                have hzero := Nat.eq_zero_of_add_eq_zero_right hj.symm
                exact absurd (List.length_eq_zero_iff.1 hzero) hne
          | false =>
              cases k with
              | positional => cases hk
              | named n => cases hk
              | text r =>
                  have hr := hts.nonempty r List.mem_cons_self
                  cases l with
                  | positional => cases r <;> simp_all [labels]
                  | named n => cases r <;> simp_all [labels]
                  | text s =>
                      have hlen : r.length = s.length :=
                        Nat.le_antisymm (hus.length_le hlabels.symm) (hts.length_le hlabels)
                      exact congrArg text (List.append_inj hwrite hlen).1

/-! ### The tokens that are read are in one piece -/

theorem InOnePiece.cons_marker {k : Token} {ts : List Token} (h : InOnePiece ts)
    (hk : k.isMarker = true) : InOnePiece (k :: ts) := by
  constructor
  · intro s hs
    rcases List.mem_cons.1 hs with rfl | hs
    · cases hk
    · exact h.nonempty s hs
  · intro us r s vs heq
    cases us with
    | nil => cases (List.cons.inj heq).1; cases hk
    | cons u us => exact h.apart us r s vs (List.cons.inj heq).2

theorem InOnePiece.addText {ts : List Token} (h : InOnePiece ts) (c : Char) :
    InOnePiece (addText c ts) := by
  have hfresh : ∀ {us : List Token}, InOnePiece us → (∀ s vs, us ≠ text s :: vs) →
      ∀ s : Text, s ≠ [] → InOnePiece (text s :: us) := by
    intro us hus hfirst s hs
    constructor
    · intro r hr
      rcases List.mem_cons.1 hr with heq | hr
      · cases heq; exact hs
      · exact hus.nonempty r hr
    · intro vs r r' ws heq
      cases vs with
      | nil => exact hfirst r' ws (List.cons.inj heq).2
      | cons v vs => exact hus.apart vs r r' ws (List.cons.inj heq).2
  cases ts with
  | nil => exact hfresh h (by simp) [c] (by simp)
  | cons t ts =>
      cases t with
      | positional => exact hfresh h (by simp) [c] (by simp)
      | named n => exact hfresh h (by simp) [c] (by simp)
      | text s =>
          refine hfresh h.tail (fun s' vs heq => ?_) (c :: s) (List.cons_ne_nil c s)
          exact h.apart [] s s' vs (congrArg (List.cons (text s)) heq)

theorem inOnePiece_scan (m : Mode) (t : Text) : InOnePiece (scan m t) := by
  induction t generalizing m with
  | nil => exact ⟨by simp, by simp⟩
  | cons c t ih =>
      rw [scan]
      cases m.read c t with
      | text => exact (ih _).addText c
      | positional => exact (ih _).cons_marker rfl
      | named n => exact (ih _).cons_marker rfl
      | within => exact ih _

end Token

/-! ### The marker at a place -/

/-- The marker that a character starts. -/
def Mode.Reading.marker? : Mode.Reading → Option Token
  | .positional => some .positional
  | .named n => some (.named n)
  | _ => none

/-- The marker that starts at each place of a text, read from a mode. -/
def labelsFrom : Mode → Text → List (Option Token)
  | _, [] => []
  | m, c :: t => (m.read c t).marker? :: labelsFrom (m.step c) t

theorem labels_addText (c : Char) (ts : List Token) :
    (addText c ts).flatMap labels = none :: ts.flatMap labels := by
  cases ts with
  | nil => rfl
  | cons t ts => cases t <;> rfl

/-- The labels of the tokens read from a mode are those of the text, behind the places of a name
that has been written already. -/
theorem labels_scan (m : Mode) (t : Text) :
    labelsFrom m t =
      (if m.awaitsName then (t.takeWhile isWordChar).map fun _ => none else []) ++
        (scan m t).flatMap labels := by
  induction t generalizing m with
  | nil => cases m.awaitsName <;> rfl
  | cons c t ih =>
      cases hw : m.awaitsName && isWordChar c with
      | true =>
          rw [Bool.and_eq_true] at hw
          have hquestion : c ≠ '?' := ne_of_isWordChar hw.2 isWordChar_question
          have hcolon : c ≠ ':' := ne_of_isWordChar hw.2 isWordChar_colon
          have hread : m.read c t = .within := by
            simp [Mode.read, Mode.quote?_of_awaitsName hw.1, hquestion, hcolon, hw]
          rw [labelsFrom, hread, Mode.step_word hw.1 hw.2, ih, scan_word hw.1 hw.2, if_pos hw.1,
            List.takeWhile_cons_of_pos hw.2]
          rfl
      | false =>
          have hgap : (if m.awaitsName then ((c :: t).takeWhile isWordChar).map fun _ => none
              else ([] : List (Option Token))) = [] := by
            cases ha : m.awaitsName with
            | false => rfl
            | true =>
                rw [ha, Bool.true_and] at hw
                rw [if_pos rfl, List.takeWhile_cons_of_neg (by simp [hw]), List.map_nil]
          rw [hgap, List.nil_append]
          rcases m.read_cases c t with ⟨hm, hc⟩ | ⟨hq, rfl⟩ | ⟨hq, rfl, ha, hname⟩ | ⟨hread, hadm⟩
          · rw [hm, hc] at hw
            cases hw
          · have hread : m.read '?' t = .positional := by simp [Mode.read, hq]
            rw [labelsFrom, hread, Mode.step_question hq, ih, scan_question hq]
            rfl
          · have hne : t.takeWhile isWordChar ≠ [] := fun h => by
              rw [Text.takeWhile_eq_nil_iff, hname] at h
              cases h
            have hread : m.read ':' t = .named (t.takeWhile isWordChar) := by
              simp [Mode.read, hq, ha, hne]
            rw [labelsFrom, scan, hread, Mode.step_colon hq ha, ih]
            rfl
          · have hbegun : (if (m.step c).awaitsName then (t.takeWhile isWordChar).map fun _ => none
                else ([] : List (Option Token))) = [] := by
              cases ha : (m.step c).awaitsName with
              | false => rfl
              | true => rw [if_pos rfl, (Text.takeWhile_eq_nil_iff t).2 (hadm ha), List.map_nil]
            rw [labelsFrom, scan, hread, labels_addText, ih, hbegun]
            rfl

theorem labels_tokenize (t : Text) : (tokenize t).flatMap labels = labelsFrom .plain t :=
  (labels_scan .plain t).symm

/-- The marker at a place is read in the mode behind the text before it. -/
theorem getElem?_labelsFrom (m : Mode) (t : Text) (i : Nat) :
    (labelsFrom m t)[i]? =
      t[i]?.map fun c => ((m.after (t.take i)).read c (t.drop (i + 1))).marker? := by
  induction t generalizing m i with
  | nil => rfl
  | cons c t ih =>
      cases i with
      | zero => rfl
      | succ i => exact ih (m.step c) i

/-! ### The marker a character starts -/

theorem isQuoteChar_of_spanAfter {q : Option Char} (hq : ∀ r, q = some r → isQuoteChar r = true)
    {t : Text} {r : Char} (h : spanAfter q t = some r) : isQuoteChar r = true := by
  induction t generalizing q with
  | nil => exact hq r h
  | cons c t ih =>
      refine ih (fun r' hr' => ?_) h
      cases q with
      | some q =>
          simp only [spanStep] at hr'
          split at hr'
          · cases hr'
          · exact hq r' hr'
      | none =>
          simp only [spanStep] at hr'
          split at hr'
          · next hc => exact Option.some.inj hr' ▸ hc
          · cases hr'

/-- Outside spans the reader stands behind a colon exactly if the text ends with one. -/
theorem Mode.afterColon_after_iff {s : Text} (h : spanAfter none s = none) :
    (Mode.plain.after s).afterColon = true ↔ s.getLast? = some ':' := by
  refine ⟨getLast?_of_afterColon rfl, fun hlast => ?_⟩
  rcases List.eq_nil_or_concat s with rfl | ⟨s, c, rfl⟩
  · cases hlast
  · rw [List.concat_eq_append] at h hlast ⊢
    rw [List.getLast?_concat, Option.some.injEq] at hlast
    subst hlast
    rw [spanAfter_append, spanAfter_cons, spanAfter_nil] at h
    -- a colon closes no span, so the text before it ends outside spans too
    have hout : spanAfter none s = none := by
      cases hs : spanAfter none s with
      | none => rfl
      | some r =>
          have hr : ':' ≠ r := by
            rintro rfl
            exact absurd (isQuoteChar_of_spanAfter (by simp) hs) (by decide)
          rw [hs] at h
          simp [spanStep, hr] at h
    have hquote : (Mode.plain.after s).quote? = none := by
      rw [quote?_after]
      exact hout
    rw [after_append, after_cons, after_nil, step, hquote]
    cases (Mode.plain.after s).afterColon <;> rfl

/-- The marker a character starts: none inside spans, and outside them that of a `?`, and that of a
colon behind no colon and before a name. -/
theorem Mode.marker?_read (m : Mode) (c : Char) (t : Text) :
    (m.read c t).marker? =
      if m.quote? = none ∧ c = '?' then some .positional
      else if m.quote? = none ∧ c = ':' ∧ m.afterColon = false ∧ t.takeWhile isWordChar ≠ [] then
        some (.named (t.takeWhile isWordChar))
      else none := by
  cases hq : m.quote? with
  | some q => simp [read, hq, Reading.marker?]
  | none =>
      by_cases hquestion : c = '?'
      · simp [read, hq, hquestion, Reading.marker?]
      · by_cases hcolon : c = ':'
        · by_cases hname : m.afterColon = false ∧ t.takeWhile isWordChar ≠ []
          · simp [read, hq, hcolon, hname, Reading.marker?]
          · have htext : m.read c t = .text := by
              rw [not_and_or, Bool.not_eq_false, not_ne_iff] at hname
              rcases hname with h | h <;> simp [read, hq, hcolon, h]
            rw [htext, if_neg fun h => hquestion h.2, if_neg fun h => hname h.2.2]
            rfl
        · cases hw : isWordChar c && m.awaitsName with
          | true => simp [read, hq, hquestion, hcolon, hw, Reading.marker?]
          | false => simp [read, hq, hquestion, hcolon, hw, Reading.marker?]

theorem Mode.marker?_read_positional (m : Mode) (c : Char) (t : Text) :
    (m.read c t).marker? = some .positional ↔ m.quote? = none ∧ c = '?' := by
  rw [marker?_read]
  split
  · next h => exact iff_of_true rfl h
  · next h =>
      refine iff_of_false (fun heq => ?_) h
      split at heq <;> cases heq

theorem Mode.marker?_read_named (m : Mode) (c : Char) (t n : Text) :
    (m.read c t).marker? = some (.named n) ↔
      m.quote? = none ∧ c = ':' ∧ m.afterColon = false ∧ n = t.takeWhile isWordChar ∧ n ≠ [] := by
  rw [marker?_read]
  split
  · next h =>
      refine iff_of_false (fun heq => by cases heq) ?_
      rintro ⟨-, rfl, -⟩
      exact absurd h.2 (by decide)
  · split
    · next h =>
        obtain ⟨hq, hc, ha, hne⟩ := h
        constructor
        · intro heq
          cases heq
          exact ⟨hq, hc, ha, rfl, hne⟩
        · rintro ⟨-, -, -, rfl, -⟩
          rfl
    · next h =>
        refine iff_of_false (fun heq => by cases heq) ?_
        rintro ⟨hq, hc, ha, rfl, hne⟩
        exact h ⟨hq, hc, ha, hne⟩

/-! ### One sequence meets the description -/

/-- A marker of the tokens starts where its character starts it. -/
theorem startsAt_tokenize {k : Token} (hk : k.isMarker = true) (t : Text) (i : Nat) :
    k.StartsAt i (tokenize t) ↔
      ∃ c, t[i]? = some c ∧
        ((Mode.plain.after (t.take i)).read c (t.drop (i + 1))).marker? = some k := by
  rw [← getElem?_flatMap_labels hk, labels_tokenize, getElem?_labelsFrom, Option.map_eq_some_iff]

theorem outsideSpans_iff (t : Text) (i : Nat) :
    OutsideSpans t i ↔ (Mode.plain.after (t.take i)).quote? = none := by
  rw [Mode.quote?_after]
  rfl

/-- The tokens of a text meet the description. -/
theorem isReading_tokenize (t : Text) : IsReading t (tokenize t) where
  written := write_tokenize t
  inOnePiece := inOnePiece_scan .plain t
  positional i := by
    rw [startsAt_tokenize rfl, outsideSpans_iff]
    simp only [Mode.marker?_read_positional]
    constructor
    · rintro ⟨c, hc, hq, rfl⟩
      exact ⟨hc, hq⟩
    · rintro ⟨hc, hq⟩
      exact ⟨'?', hc, hq, rfl⟩
  named i n := by
    rw [startsAt_tokenize rfl]
    simp only [Mode.marker?_read_named]
    have hcolon (h : OutsideSpans t i) := Mode.afterColon_after_iff h
    constructor
    · rintro ⟨c, hc, hq, rfl, ha, hn, hne⟩
      have hout := (outsideSpans_iff t i).2 hq
      refine ⟨hc, hout, fun hlast => ?_, hn, hne⟩
      rw [(hcolon hout).2 hlast] at ha
      cases ha
    · rintro ⟨hc, hout, hlast, hn, hne⟩
      refine ⟨':', hc, (outsideSpans_iff t i).1 hout, rfl, ?_, hn, hne⟩
      cases ha : (Mode.plain.after (t.take i)).afterColon with
      | false => rfl
      | true => exact absurd ((hcolon hout).1 ha) hlast

/-- Two sequences that meet the description have the same places of markers. -/
theorem IsReading.labels_eq {t : Text} {ts us : List Token} (hts : IsReading t ts)
    (hus : IsReading t us) : ts.flatMap labels = us.flatMap labels := by
  have hlength : (ts.flatMap labels).length = (us.flatMap labels).length := by
    rw [length_flatMap_labels, length_flatMap_labels, hts.written, hus.written]
  have hstarts : ∀ k : Token, k.isMarker = true → ∀ i : Nat,
      ((ts.flatMap labels)[i]? = some (some k) ↔ (us.flatMap labels)[i]? = some (some k)) := by
    intro k hk i
    rw [getElem?_flatMap_labels hk, getElem?_flatMap_labels hk]
    cases k with
    | text s => cases hk
    | positional => rw [hts.positional, hus.positional]
    | named n => rw [hts.named, hus.named]
  refine List.ext_getElem hlength fun i hi hi' => ?_
  have hget := List.getElem?_eq_getElem hi
  have hget' := List.getElem?_eq_getElem hi'
  cases hl : (ts.flatMap labels)[i] with
  | some k =>
      rw [hl] at hget
      rw [(hstarts k (isMarker_of_mem_labels (List.mem_of_getElem? hget)) i).1 hget] at hget'
      exact Option.some.inj hget'
  | none =>
      cases hl' : (us.flatMap labels)[i] with
      | none => rfl
      | some k =>
          rw [hl'] at hget'
          have hk := isMarker_of_mem_labels (List.mem_of_getElem? hget')
          rw [(hstarts k hk i).2 hget', hl] at hget
          cases hget

/-- **The tokens of a text are the only sequence that meets the description**, and written back they
are read as themselves. -/
theorem isReading_iff (t : Text) :
    (∀ ts, IsReading t ts ↔ ts = tokenize t) ∧
      tokenize (write (tokenize t)) = tokenize t := by
  refine ⟨fun ts => ⟨fun h => ?_, fun h => h ▸ isReading_tokenize t⟩, ?_⟩
  · have htokens := isReading_tokenize t
    exact eq_of_labels h.inOnePiece htokens.inOnePiece (h.written.trans htokens.written.symm)
      (h.labels_eq htokens)
  · rw [write_tokenize]

end BoundQuery

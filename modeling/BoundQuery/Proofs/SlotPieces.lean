/-
**A text with slots, read without regard to the names of its slots.**

A `?` that has been named is read again under its name.  What is read depends on the place of the
`?` alone: behind a colon the name is plain text, word characters that follow run on in it, and
everything else stays as it was.  So the named text falls into pieces that are the same for every
stem, and only the spelling of the slots differs.

From this follows what a choice of the stem can change.  If the names of the slots are nobody
else's, two stems number the same places, and a slot with data is sent alike under both; a slot
without data shows its name.

Main definitions:

* `Piece`, `pieces` — the pieces of a text whose `?` are named;
* `Label` — the markers among the pieces, whatever the stem;
* `SameButForSlots`, `Sent.Alike` — texts that differ in the spelling of slots only, and what is
  sent with such texts.

Main results:

* `scan_nameGaps` — **the pieces are read under every stem**;
* `own_mem_names` — pieces with names of their own are markers of the text;
* `sent_alike` — **stems with the same data send the same**.
-/

import BoundQuery.Proofs.JoinedText
import BoundQuery.Proofs.Meaning
import BoundQuery.Proofs.Naming

set_option relaxedAutoImplicit false
set_option autoImplicit false

namespace BoundQuery

open Token

variable {α : Type}

/-! ### Pieces -/

/-- A piece of a text whose `?` are named. -/
inductive Piece where
  /-- A character of plain text. -/
  | char (c : Char)
  /-- A slot behind another colon, whose name is plain text. -/
  | inert (i : Nat)
  /-- The marker of a slot; the word characters `run` behind the `?` belong to its name. -/
  | slot (i : Nat) (run : Text)
  /-- A marker with a name of its own. -/
  | own (n : Text)
deriving DecidableEq, Repr

/-- The token that a piece is read as when the slots have the stem `stem`. -/
def Piece.token (stem : Text) : Piece → Token
  | char c => .text [c]
  | inert i => .text (':' :: (stem ++ decimal i))
  | slot i run => .named (stem ++ (decimal i ++ run))
  | own n => .named n

/-- The pieces of a text, read from a mode and with slots numbered from `i` on.  A slot leaves the
reader where its name does, and not where the `?` did. -/
def pieces : Mode → Nat → Text → List Piece
  | _, _, [] => []
  | m, i, c :: t =>
      if m.quote? = none ∧ c = '?' then
        if m.afterColon then .inert i :: pieces .plain (i + 1) t
        else .slot i (t.takeWhile isWordChar) :: pieces .name (i + 1) t
      else match m.read c t with
        | .text => .char c :: pieces (m.step c) i t
        | .named n => .own n :: pieces (m.step c) i t
        | _ => pieces (m.step c) i t

/-- Naming gaps leaves alone what a name could run on into: a gap is filled behind a colon. -/
theorem takeWhile_nameGaps (stem : Text) (i : Nat) (q : Option Char) (t : Text) :
    (nameGaps stem i (gapped q t)).takeWhile isWordChar = t.takeWhile isWordChar := by
  induction t generalizing q with
  | nil => rfl
  | cons c t ih =>
      rw [gapped]
      by_cases hgap : q = none ∧ c = '?'
      · rw [if_pos hgap, hgap.2, nameGaps]
        rfl
      · rw [if_neg hgap, nameGaps, List.takeWhile_cons, List.takeWhile_cons, ih]

/-- **The pieces are read under every stem**: a text whose gaps are named is read as its pieces. -/
theorem scan_nameGaps {stem : Text} (hstem : ∀ c ∈ stem, isWordChar c = true) (m : Mode) (i : Nat)
    (t : Text) :
    scan m (nameGaps stem i (gapped m.quote? t)) =
      merged ((pieces m i t).map (Piece.token stem)) := by
  induction t generalizing m i with
  | nil => rfl
  | cons c t ih =>
      rw [gapped, pieces]
      by_cases hgap : m.quote? = none ∧ c = '?'
      · obtain ⟨hq, rfl⟩ := hgap
        have hspan : spanStep m.quote? '?' = none := by rw [hq]; rfl
        have hname := Text.isName_append_decimal hstem i
        rw [if_pos ⟨hq, rfl⟩, if_pos ⟨hq, rfl⟩, nameGaps, hspan, List.cons_append]
        cases ha : m.afterColon with
        | true =>
            rw [scan_inert ha hname, if_pos rfl]
            exact congrArg (prepend _) (ih .plain (i + 1))
        | false =>
            rw [scan_marker_run hq ha hname, takeWhile_nameGaps, if_neg (by decide),
              List.append_assoc]
            exact congrArg (List.cons _) (ih .name (i + 1))
      · rw [if_neg hgap, if_neg hgap, nameGaps, ← Mode.quote?_step]
        have hread : m.read c (nameGaps stem i (gapped (m.step c).quote? t)) = m.read c t := by
          simp only [Mode.read, takeWhile_nameGaps]
        rw [scan, hread]
        cases hcase : m.read c t with
        | text => rw [ih]; rfl
        | named n => rw [ih]; rfl
        | within => exact ih _ _
        | positional =>
            simp only [Mode.read] at hcase
            split at hcase
            · cases hcase
            · next hq =>
                split at hcase
                · next hc => exact absurd ⟨by simpa using hq, hc⟩ hgap
                · split at hcase
                  · split at hcase <;> cases hcase
                  · split at hcase <;> cases hcase

/-- **Where a piece comes from**: a `?` gives a slot, and any other character itself, a marker, or
nothing. -/
theorem mem_pieces_cons {m : Mode} {i : Nat} {c : Char} {t : Text} {p : Piece}
    (h : p ∈ pieces m i (c :: t)) :
    (m.quote? = none ∧ c = '?' ∧
      (p = .inert i ∨ (∃ run, p = .slot i run) ∨
        p ∈ pieces .plain (i + 1) t ∨ p ∈ pieces .name (i + 1) t)) ∨
    (¬ (m.quote? = none ∧ c = '?') ∧
      (p = .char c ∨ (∃ n, m.read c t = .named n ∧ p = .own n) ∨ p ∈ pieces (m.step c) i t)) := by
  rw [pieces] at h
  split at h
  · next hgap =>
      refine .inl ⟨hgap.1, hgap.2, ?_⟩
      split at h
      · rcases List.mem_cons.1 h with rfl | h
        · exact .inl rfl
        · exact .inr (.inr (.inl h))
      · rcases List.mem_cons.1 h with rfl | h
        · exact .inr (.inl ⟨_, rfl⟩)
        · exact .inr (.inr (.inr h))
  · next hgap =>
      refine .inr ⟨hgap, ?_⟩
      cases hread : m.read c t with
      | text =>
          rw [hread] at h
          exact (List.mem_cons.1 h).imp_right .inr
      | named n =>
          rw [hread] at h
          rcases List.mem_cons.1 h with rfl | h
          · exact .inr (.inl ⟨n, rfl, rfl⟩)
          · exact .inr (.inr h)
      | positional =>
          rw [hread] at h
          exact .inr (.inr h)
      | within =>
          rw [hread] at h
          exact .inr (.inr h)

/-- The named markers behind a character are markers of the text with the character. -/
theorem names_scan_subset_cons {m : Mode} {c : Char} {t n : Text}
    (h : n ∈ names (scan (m.step c) t)) : n ∈ names (scan m (c :: t)) := by
  rw [scan]
  cases m.read c t with
  | text => exact (names_addText c _).symm ▸ h
  | named k => exact names_cons _ _ ▸ List.mem_append_right _ h
  | positional => exact h
  | within => exact h

/-- A piece with a name of its own is a marker of the text. -/
theorem own_mem_names {m : Mode} {i : Nat} {t n : Text} (h : Piece.own n ∈ pieces m i t) :
    n ∈ names (scan m t) := by
  induction t generalizing m i with
  | nil => cases h
  | cons c t ih =>
      rcases mem_pieces_cons h with ⟨hq, rfl, h | ⟨run, h⟩ | h | h⟩ | ⟨-, h | ⟨k, hread, h⟩ | h⟩
      · cases h
      · cases h
      · rw [scan_question hq]
        exact ih h
      · -- a name that runs on behind the `?` hides no marker
        rw [scan_question hq]
        exact names_scan_name t ▸ ih h
      · cases h
      · cases h
        rw [scan, hread]
        exact List.mem_cons_self
      · exact names_scan_subset_cons (ih h)

/-- The slots of a text are numbered by its gaps. -/
theorem slot_mem_pieces {m : Mode} {i j : Nat} {t run : Text}
    (h : Piece.slot j run ∈ pieces m i t) :
    j < i + (gapped m.quote? t).countP Option.isNone := by
  induction t generalizing m i with
  | nil => cases h
  | cons c t ih =>
      rcases mem_pieces_cons h with ⟨hq, rfl, hslot⟩ | ⟨hgap, h | ⟨n, -, h⟩ | h⟩
      · have hcount : (gapped m.quote? ('?' :: t)).countP Option.isNone =
            (gapped none t).countP Option.isNone + 1 := by
          rw [gapped, if_pos ⟨hq, rfl⟩, List.countP_cons_of_pos rfl, hq]
          rfl
        rw [hcount]
        rcases hslot with h | ⟨run', h⟩ | h | h
        · cases h
        · cases h
          omega
        · have hlater : j < i + 1 + (gapped none t).countP Option.isNone := ih h
          omega
        · have hlater : j < i + 1 + (gapped none t).countP Option.isNone := ih h
          omega
      · cases h
      · cases h
      · rw [gapped, if_neg hgap, List.countP_cons_of_neg (by simp), ← Mode.quote?_step]
        exact ih h

/-! ### Labels -/

/-- A marker among the pieces, whatever the stem: a slot by what follows the stem in its name, and
any other marker by its name. -/
inductive Label where
  /-- The slot whose name is the stem and `x`. -/
  | slot (x : Text)
  /-- The marker with a name of its own. -/
  | own (n : Text)
deriving DecidableEq, Repr

/-- The name of a marker under a stem. -/
def Label.name (stem : Text) : Label → Text
  | slot x => stem ++ x
  | own n => n

/-- The marker that a piece is. -/
def Piece.label? : Piece → Option Label
  | slot i run => some (.slot (decimal i ++ run))
  | own n => some (.own n)
  | _ => none

/-- The markers of pieces, in order. -/
def labels (ps : List Piece) : List Label := ps.filterMap Piece.label?

theorem names_map_token (stem : Text) (ps : List Piece) :
    names (ps.map (Piece.token stem)) = (labels ps).map (Label.name stem) := by
  induction ps with
  | nil => rfl
  | cons p ps ih =>
      rw [List.map_cons, names_cons, ih]
      cases p <;> rfl

/-! ### What is sent, label by label -/

/-- The places of a marker with the data `data`. -/
def Label.placesAt (data : Label → List (Option α)) (k : Label) : List (Label × Nat) :=
  (List.range (data k).length).map fun j => (k, j)

/-- The places of pieces in the order of their first appearances. -/
def labelPlaces (data : Label → List (Option α)) (ps : List Piece) : List (Label × Nat) :=
  firsts ((labels ps).flatMap (Label.placesAt data))

/-- The text of a piece when places have numbers. -/
def Piece.write (data : Label → List (Option α)) (numbered : List (Label × Nat)) (stem : Text)
    (p : Piece) : Text :=
  match p.label? with
  | none => (p.token stem).written
  | some k =>
      if (data k).isEmpty then ':' :: k.name stem
      else Text.join [','] ((k.placesAt data).map fun q => '$' :: decimal (numbered.idxOf q + 1))

/-- A text is pieces under a stem, different markers have different names, and the bindings have the
data of each. -/
structure Spells (stem : Text) (ps : List Piece) (data : Label → List (Option α)) (sql : Text)
    (c : Bindings α) : Prop where
  /-- The text is read as its pieces. -/
  tokens : tokenize sql = merged (ps.map (Piece.token stem))
  /-- The names keep markers apart. -/
  name_inj : ∀ k ∈ labels ps, ∀ k' ∈ labels ps, k.name stem = k'.name stem → k = k'
  /-- The bindings have the data. -/
  elements : ∀ k ∈ labels ps, c.elements (k.name stem) = data k

namespace Spells

variable {stem : Text} {ps : List Piece} {data : Label → List (Option α)} {sql : Text}
  {c : Bindings α}

theorem placesAt (h : Spells stem ps data sql c) {k : Label} (hk : k ∈ labels ps) :
    c.placesAt (k.name stem) = (k.placesAt data).map fun p => (p.1.name stem, p.2) := by
  rw [Bindings.placesAt, h.elements k hk, Label.placesAt, List.map_map]
  rfl

/-- Places of markers with different names are spelled differently. -/
theorem place_inj (h : Spells stem ps data sql c) {p q : Label × Nat} (hp : p.1 ∈ labels ps)
    (hq : q.1 ∈ labels ps) (heq : (p.1.name stem, p.2) = (q.1.name stem, q.2)) : p = q := by
  obtain ⟨hname, hindex⟩ := Prod.mk.inj heq
  exact Prod.ext (h.name_inj _ hp _ hq hname) hindex

theorem mem_labels {p : Label × Nat} (hp : p ∈ (labels ps).flatMap (Label.placesAt data)) :
    p.1 ∈ labels ps := by
  obtain ⟨k, hk, hpk⟩ := List.mem_flatMap.1 hp
  obtain ⟨j, -, rfl⟩ := List.mem_map.1 hpk
  exact hk

/-- The places of the text are the places of the pieces, spelled. -/
theorem places (h : Spells stem ps data sql c) :
    c.places sql = (labelPlaces data ps).map fun p => (p.1.name stem, p.2) := by
  have hplaces : (names (tokenize sql)).flatMap c.placesAt =
      ((labels ps).flatMap (Label.placesAt data)).map fun p => (p.1.name stem, p.2) := by
    rw [h.tokens, names_merged, names_map_token, List.flatMap_map, List.map_flatMap]
    exact List.flatMap_congr fun k hk => h.placesAt hk
  rw [Bindings.places, hplaces, labelPlaces, firsts_map]
  exact fun p hp q hq heq => h.place_inj (mem_labels hp) (mem_labels hq) heq

/-- A marker is written as the numbers of its places. -/
theorem writePlaces_named (h : Spells stem ps data sql c) {k : Label} (hk : k ∈ labels ps) :
    c.writePlaces (c.places sql) (.named (k.name stem)) =
      if (data k).isEmpty then ':' :: k.name stem
      else Text.join [','] ((k.placesAt data).map fun q =>
        '$' :: decimal ((labelPlaces data ps).idxOf q + 1)) := by
  rw [Bindings.writePlaces, h.elements k hk, h.placesAt hk, h.places, List.map_map]
  have hidx : ∀ q ∈ k.placesAt data,
      ((labelPlaces data ps).map fun p => (p.1.name stem, p.2)).idxOf (q.1.name stem, q.2) =
        (labelPlaces data ps).idxOf q := by
    intro q hq
    obtain ⟨j, -, rfl⟩ := List.mem_map.1 hq
    exact idxOf_map (f := fun p : Label × Nat => (p.1.name stem, p.2)) fun p hp heq =>
      h.place_inj (q := (k, j)) (mem_labels (mem_firsts.1 hp)) hk heq
  congr 2
  exact List.map_congr_left fun q hq => by rw [Function.comp_apply, hidx q hq]

/-- The text that is sent is that of the pieces. -/
theorem sql_sent (h : Spells stem ps data sql c) :
    (Statement.ofFragment ⟨sql, c⟩).sent.sql =
      ps.flatMap (Piece.write data (labelPlaces data ps) stem) := by
  rw [sql_sent_ofFragment, h.tokens, flatMap_merged fun _ => rfl, List.flatMap_map]
  refine List.flatMap_congr fun p hp => ?_
  have hlabel : ∀ k, p.label? = some k → k ∈ labels ps := fun k hk =>
    List.mem_filterMap.2 ⟨p, hp, hk⟩
  cases p with
  | char x => rfl
  | inert i => rfl
  | slot i run => exact h.writePlaces_named (hlabel _ rfl)
  | own n => exact h.writePlaces_named (hlabel _ rfl)

/-- The values that are sent are those of the places. -/
theorem values_sent (h : Spells stem ps data sql c) :
    (Statement.ofFragment ⟨sql, c⟩).sent.values.map some =
      (labelPlaces data ps).map fun p => (data p.1)[p.2]? := by
  rw [values_sent_ofFragment, h.places, List.map_map]
  refine List.map_congr_left fun p hp => ?_
  rw [Function.comp_apply, Bindings.datumAt, h.elements p.1 (mem_labels (mem_firsts.1 hp))]

end Spells

/-! ### Two stems -/

/-- Texts that are the same but for the stems of slots in them. -/
inductive SameButForSlots (stem stem' : Text) : Text → Text → Prop
  | nil : SameButForSlots stem stem' [] []
  | char (c : Char) {u v : Text} : SameButForSlots stem stem' u v →
      SameButForSlots stem stem' (c :: u) (c :: v)
  | slot (i : Nat) {u v : Text} : SameButForSlots stem stem' u v →
      SameButForSlots stem stem' (':' :: (stem ++ decimal i) ++ u)
        (':' :: (stem' ++ decimal i) ++ v)

/-- Two sendings with the same values and the same text, but for the stems of slots that stay
unresolved. -/
structure Sent.Alike (stem stem' : Text) (a b : Sent α) : Prop where
  text : SameButForSlots stem stem' a.sql b.sql
  values : a.values = b.values

namespace SameButForSlots

variable {stem stem' : Text}

theorem append_left (t : Text) {u v : Text} (h : SameButForSlots stem stem' u v) :
    SameButForSlots stem stem' (t ++ u) (t ++ v) := by
  induction t with
  | nil => exact h
  | cons c t ih => exact .char c ih

/-- A piece is written alike under both stems. -/
theorem write_append (data : Label → List (Option α)) (numbered : List (Label × Nat)) (p : Piece)
    {u v : Text} (h : SameButForSlots stem stem' u v) :
    SameButForSlots stem stem' (p.write data numbered stem ++ u)
      (p.write data numbered stem' ++ v) := by
  cases p with
  | char c => exact .char c h
  | inert i => exact .slot i h
  | own n => exact h.append_left _
  | slot i run =>
      simp only [Piece.write, Piece.label?]
      split
      · have hslot := slot i (h.append_left run)
        simpa only [Label.name, List.cons_append, List.append_assoc] using hslot
      · exact h.append_left _

end SameButForSlots

/-- **Stems with the same data send the same**, but for the slots that stay unresolved. -/
theorem sent_alike {stem stem' : Text} {ps : List Piece} {data : Label → List (Option α)}
    {sql sql' : Text} {c c' : Bindings α} (h : Spells stem ps data sql c)
    (h' : Spells stem' ps data sql' c') :
    (Statement.ofFragment ⟨sql, c⟩).sent.Alike stem stem'
      (Statement.ofFragment ⟨sql', c'⟩).sent := by
  constructor
  · rw [h.sql_sent, h'.sql_sent]
    generalize labelPlaces data ps = numbered
    clear h h'
    induction ps with
    | nil => exact .nil
    | cons p ps ih => exact ih.write_append data numbered p
  · refine List.map_injective_iff.2 (fun _ _ => Option.some.inj) ?_
    rw [h.values_sent, h'.values_sent]

end BoundQuery

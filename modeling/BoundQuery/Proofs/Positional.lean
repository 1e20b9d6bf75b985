/-
**Positional conditions, from the text to what is sent.**

In a string whose only markers are `?`, the markers are slots, and the values at the positions of
the slots are what the caller binds.  A direct account walks through the text with two counters, the
number of the slot and the number of placeholders written so far: a slot with data becomes as many
placeholders with the next numbers, a slot without data becomes a marker that stays unresolved, and
the data are sent slot by slot.

Between the string and what is sent lie three passes over names made up from a stem and a numeral.
The names of the slots are distinct and no other names are about, so the places of the text are the
data of the slots in order, and the number of a place is one more than the places before it.

Main definitions:

* `Bindings.slotData` — the data at a position;
* `placeholders`, `Bindings.fill` — consecutive placeholders, and the text with its slots filled.

Main results:

* `numbered_fill` — **the places are numbered from left to right**;
* `positional_condition_sent` — **what is sent for a positional condition**.
-/

import Mathlib.Data.List.Nodup
import BoundQuery.Condition
import BoundQuery.Proofs.Meaning
import BoundQuery.Proofs.Naming

set_option relaxedAutoImplicit false
set_option autoImplicit false

namespace BoundQuery

open Token

variable {α : Type}

/-! ### The direct account -/

/-- The data at a position: the elements of a list, one datum for any other value, and none without
a value. -/
def Bindings.slotData (b : Bindings α) (i : Nat) : List (Option α) :=
  match b.get? (.index i) with
  | none => []
  | some .null => [none]
  | some (.scalar d) => [d]
  | some (.list ds) => ds

/-- As many as `n` placeholders behind number `k`, with commas in between. -/
def placeholders (k n : Nat) : Text :=
  Text.join [','] ((List.range n).map fun j => '$' :: decimal (k + j + 1))

/-- The text of tokens with the `?` filled, from number `i` on and behind `k` placeholders. -/
def Bindings.fill (b : Bindings α) : Nat → Nat → List Token → Text
  | _, _, [] => []
  | i, k, .positional :: ts =>
      (if (b.slotData i).isEmpty then ':' :: (conditionStem ++ decimal i)
        else placeholders k (b.slotData i).length) ++
        fill b (i + 1) (k + (b.slotData i).length) ts
  | i, k, .text s :: ts => s ++ fill b i k ts
  | i, k, .named n :: ts => ':' :: n ++ fill b i k ts

/-! ### The names of the slots -/

/-- The name of slot `i` of a string. -/
def slot (i : Nat) : Text := conditionStem ++ decimal i

theorem slot_inj {i j : Nat} (h : slot i = slot j) : i = j :=
  decimal_injective (List.append_cancel_left h)

/-- A name that is the stem of conditions and more is not all digits. -/
theorem isDigits_conditionStem_append (x : Text) : Text.isDigits (conditionStem ++ x) = false := by
  rw [conditionStem_eq]
  rfl

/-- The markers of a text without named ones, once its `?` are named. -/
theorem names_nameTokens {ts : List Token} (h : names ts = []) (i : Nat) :
    names (nameTokens conditionStem i ts) =
      (List.range' i (ts.countP Token.isPositional)).map slot := by
  induction ts generalizing i with
  | nil => rfl
  | cons t ts ih =>
      cases t with
      | named n => rw [names_cons] at h; cases h
      | text s => exact ih h i
      | positional =>
          have hcount : (Token.positional :: ts).countP Token.isPositional =
              ts.countP Token.isPositional + 1 := List.countP_cons_of_pos rfl
          rw [hcount, List.range'_succ, List.map_cons, ← ih h (i + 1)]
          rfl

/-! ### The places of a text -/

theorem nodup_placesAt (b : Bindings α) (m : Text) : (b.placesAt m).Nodup := by
  refine List.Nodup.map ?_ List.nodup_range
  intro j j' h
  cases h
  rfl

/-- Markers that occur once have distinct places. -/
theorem nodup_flatMap_placesAt (b : Bindings α) {ms : List Text} (h : ms.Nodup) :
    (ms.flatMap b.placesAt).Nodup := by
  refine List.nodup_flatMap.2 ⟨fun m _ => nodup_placesAt b m, h.imp ?_⟩
  intro m m' hne p hp hp'
  exact hne ((lt_of_mem_placesAt hp).1.symm.trans (lt_of_mem_placesAt hp').1)

theorem firsts_of_nodup {κ : Type} [DecidableEq κ] {xs : List κ} (h : xs.Nodup) :
    firsts xs = xs := by
  induction xs with
  | nil => rfl
  | cons x xs ih =>
      obtain ⟨hx, hxs⟩ := List.nodup_cons.1 h
      rw [firsts, ih hxs, List.filter_eq_self.2]
      intro y hy
      have hne : y ≠ x := fun heq => hx (heq ▸ hy)
      simpa using hne

/-- The data of a marker's places are the data of the marker. -/
theorem map_datumAt_placesAt (b : Bindings α) (m : Text) :
    (b.placesAt m).map b.datumAt = (b.elements m).map some := by
  rw [Bindings.placesAt, List.map_map]
  refine List.ext_getElem (by simp) fun j h₁ h₂ => ?_
  simp only [List.getElem_map, List.getElem_range, Function.comp_apply, Bindings.datumAt]
  exact List.getElem?_eq_getElem (by simpa using h₂)

/-- The places of a marker behind `pre` have the next numbers. -/
theorem map_number_placesAt {b : Bindings α} {pre rest : List (Text × Nat)} {m : Text}
    (h : (pre ++ (b.placesAt m ++ rest)).Nodup) :
    (b.placesAt m).map (fun p => '$' :: decimal ((pre ++ (b.placesAt m ++ rest)).idxOf p + 1)) =
      (List.range (b.elements m).length).map fun j => '$' :: decimal (pre.length + j + 1) := by
  have hlen : (b.placesAt m).length = (b.elements m).length := by simp [Bindings.placesAt]
  refine List.ext_getElem (by simp [hlen]) fun j h₁ h₂ => ?_
  have hj : j < (b.placesAt m).length := by simpa using h₁
  have hbound : pre.length + j < (pre ++ (b.placesAt m ++ rest)).length := by
    simp only [List.length_append]
    omega
  have hget : (pre ++ (b.placesAt m ++ rest))[pre.length + j] = (b.placesAt m)[j] := by
    rw [List.getElem_append_right (Nat.le_add_right _ _)]
    simp [hj]
  have hidx := h.idxOf_getElem (pre.length + j) hbound
  rw [hget] at hidx
  simp [hidx]

/-- **The places are numbered from left to right**: the text of the named slots with the numbers of
their places is the text filled with consecutive placeholders. -/
theorem numbered_fill {b c : Bindings α} {ts : List Token} (hts : names ts = []) (i : Nat)
    (pre : List (Text × Nat))
    (hdata : ∀ j, i ≤ j → j < i + ts.countP Token.isPositional → c.elements (slot j) = b.slotData j)
    (hnodup : (pre ++ (names (nameTokens conditionStem i ts)).flatMap c.placesAt).Nodup) :
    (nameTokens conditionStem i ts).flatMap
        (c.writePlaces (pre ++ (names (nameTokens conditionStem i ts)).flatMap c.placesAt)) =
      b.fill i pre.length ts := by
  induction ts generalizing i pre with
  | nil => rfl
  | cons t ts ih =>
      cases t with
      | named n => rw [names_cons] at hts; cases hts
      | text s => exact congrArg (s ++ ·) (ih hts i pre hdata hnodup)
      | positional =>
          have hcount : (Token.positional :: ts).countP Token.isPositional =
              ts.countP Token.isPositional + 1 := List.countP_cons_of_pos rfl
          have hhead : c.elements (slot i) = b.slotData i :=
            hdata i (Nat.le_refl i) (by omega)
          have hplaces : names (nameTokens conditionStem i (.positional :: ts)) =
              slot i :: names (nameTokens conditionStem (i + 1) ts) := rfl
          rw [hplaces, List.flatMap_cons] at hnodup ⊢
          -- the places of this slot are behind `pre`, and before the places of the slots to come
          have hlater := ih hts (i + 1) (pre ++ c.placesAt (slot i))
            (fun j hj hlt => hdata j (by omega) (by omega)) (by rwa [List.append_assoc])
          rw [List.append_assoc, List.length_append] at hlater
          have hlen : (c.placesAt (slot i)).length = (b.slotData i).length := by
            simp [Bindings.placesAt, hhead]
          have hhere : c.writePlaces (pre ++ (c.placesAt (slot i) ++
                (names (nameTokens conditionStem (i + 1) ts)).flatMap c.placesAt))
                (.named (slot i)) =
              if (b.slotData i).isEmpty then ':' :: slot i
              else placeholders pre.length (b.slotData i).length := by
            rw [Bindings.writePlaces, map_number_placesAt hnodup, hhead]
            rfl
          rw [nameTokens, List.flatMap_cons, hlater, hlen]
          exact congrArg (· ++ _) hhere

/-! ### From the string to what is sent -/

/-- A string with a `?` is compiled by naming its slots and spreading lists. -/
theorem Condition.compile_raw (d : Dialect) {sql : Text} (h : 0 < countPositional sql)
    (b : Bindings α) :
    (Condition.raw sql).compile d b = (Fragment.namePositional conditionStem sql b).spread := by
  have hne : (Condition.raw sql : Condition α).isEmpty = false := by
    cases sql with
    | nil => exact absurd h (Nat.lt_irrefl 0)
    | cons c sql => rfl
  have hbare : (Condition.raw sql : Condition α).bareColumn? = Option.none :=
    if_neg (Nat.ne_of_gt h)
  simp only [compile, hne, hbare, resolve_none, Bool.false_eq_true, if_false]
  rfl

/-- A slot that has been named has the data of its position, if its stem is not all digits and no
slot has the name of a binding. -/
theorem elements_namePositional {stem sql : Text} {b : Bindings α}
    (hdigits : ∀ x : Text, Text.isDigits (stem ++ x) = false)
    (hfree : ∀ j < countPositional sql, stem ++ decimal j ∉ b.names) {i : Nat}
    (hi : i < countPositional sql) :
    (Fragment.namePositional stem sql b).params.elements (stem ++ decimal i) = b.slotData i := by
  rw [Bindings.elements, Bindings.slotData, Fragment.get?_namePositional_slot hfree hi, hdigits]
  rfl

/-- A slot of a string without named bindings has the data of its position. -/
theorem elements_slot {sql : Text} {b : Bindings α} (hb : b.names = []) {i : Nat}
    (hi : i < countPositional sql) :
    (Fragment.namePositional conditionStem sql b).params.elements (slot i) = b.slotData i :=
  elements_namePositional isDigits_conditionStem_append
    (fun _ _ hj => List.not_mem_nil (hb ▸ hj)) hi

/-- **The text of a string whose `?` are named is read as it was meant.** -/
theorem tokenize_namePositional {sql : Text} (h : Uncrowded sql) (b : Bindings α) :
    tokenize (Fragment.namePositional conditionStem sql b).sql =
      merged (nameTokens conditionStem 0 (tokenize sql)) := by
  have hread := (readable_nameTokens isWordChar_conditionStem h 0).scan_write
  rwa [write_nameTokens] at hread

theorem Bindings.names_eq_nil {b : Bindings α} (h : ∀ k ∈ b.keys, k.isIndex = true) :
    b.names = [] := by
  refine List.filterMap_eq_nil_iff.2 fun k hk => ?_
  cases k with
  | index i => rfl
  | name n => cases h _ hk

theorem names_eq_nil_of_hasNamed {sql : Text} (h : hasNamed sql = false) :
    names (tokenize sql) = [] := by
  simpa [hasNamed] using h

/-- **What is sent for a positional condition.**  The slots of the string are filled from left to
right with consecutive placeholders, one for each datum at the position of the slot; a slot without
data is a marker that stays unresolved; and the data are sent slot by slot. -/
theorem positional_condition_sent (d : Dialect) {sql : Text} {b : Bindings α}
    (hslots : 0 < countPositional sql) (hnamed : hasNamed sql = false) (hfree : Uncrowded sql)
    (hkeys : ∀ k ∈ b.keys, k.isIndex = true) :
    (Statement.ofFragment ((Condition.raw sql).compile d b)).sent.sql =
        b.fill 0 0 (tokenize sql) ∧
      (Statement.ofFragment ((Condition.raw sql).compile d b)).sent.values =
        (List.range (countPositional sql)).flatMap b.slotData := by
  have hnone := names_eq_nil_of_hasNamed hnamed
  have hcompile : Statement.ofFragment ((Condition.raw sql).compile d b) =
      Statement.ofFragment (Fragment.namePositional conditionStem sql b) := by
    rw [Condition.compile_raw d hslots, Statement.ofFragment, Fragment.spread_spread]
    rfl
  have htokens := tokenize_namePositional hfree b
  have hdata : ∀ i < countPositional sql,
      (Fragment.namePositional conditionStem sql b).params.elements (slot i) = b.slotData i :=
    fun i hi => elements_slot (Bindings.names_eq_nil hkeys) hi
  rw [hcompile]
  generalize Fragment.namePositional conditionStem sql b = f at htokens hdata
  obtain ⟨text, c⟩ := f
  -- the markers of the new text are the slots, and each of them occurs once
  have hmarkers : names (tokenize text) = (List.range (countPositional sql)).map slot := by
    rw [htokens, names_merged, names_nameTokens hnone, List.range_eq_range']
    rfl
  have hdistinct : ((names (tokenize text)).flatMap c.placesAt).Nodup := by
    refine nodup_flatMap_placesAt c ?_
    rw [hmarkers]
    exact List.nodup_range.map fun _ _ h => slot_inj h
  have hplaces : c.places text = (names (tokenize text)).flatMap c.placesAt :=
    firsts_of_nodup hdistinct
  constructor
  · rw [sql_sent_ofFragment, hplaces, htokens, flatMap_merged fun _ => rfl, names_merged]
    rw [htokens, names_merged] at hdistinct
    refine numbered_fill hnone 0 [] (fun j _ hj => hdata j ?_) hdistinct
    rwa [Nat.zero_add] at hj
  · refine List.map_injective_iff.2 (fun _ _ => Option.some.inj) ?_
    rw [values_sent_ofFragment, hplaces, hmarkers, List.flatMap_map, List.map_flatMap,
      List.map_flatMap]
    refine List.flatMap_congr fun i hi => ?_
    rw [map_datumAt_placesAt, hdata i (List.mem_range.1 hi)]

/-- Eleven slots, of which the second has a list whose spread names would be the eleventh's, the
fifth an empty list and the last `NULL`; the values come in another order, and one is left over. -/
theorem eleven_slots_sent :
    let sql := "f(?,?,?,?,?,?,?,?,?,?) = ?".toList
    let b : Bindings Nat := .ofList
      [(.index 10, .null), (.index 4, .list []), (.index 1, .list [some 7, some 8]),
        (.index 30, .scalar (some 9)), (.index 0, .scalar (some 6))]
    0 < countPositional sql ∧ hasNamed sql = false ∧ Uncrowded sql ∧
    (∀ k ∈ b.keys, k.isIndex = true) ∧
    (Statement.ofFragment ((Condition.raw sql).compile .double b)).sent.sql =
      "f($1,$2,$3,:where_2,:where_3,:where_4,:where_5,".toList ++
        ":where_6,:where_7,:where_8,:where_9) = $4".toList ∧
    (Statement.ofFragment ((Condition.raw sql).compile .double b)).sent.values =
      [some 6, some 7, some 8, none] := by
  intro sql b
  have hslots : 0 < countPositional sql := by decide
  have hnamed : hasNamed sql = false := by decide
  have hfree : Uncrowded sql := by decide
  have hkeys : ∀ k ∈ b.keys, k.isIndex = true := by decide
  obtain ⟨htext, hvalues⟩ := positional_condition_sent .double hslots hnamed hfree hkeys
  refine ⟨hslots, hnamed, hfree, hkeys, ?_, ?_⟩
  · rw [htext]
    decide
  · rw [hvalues]
    decide

end BoundQuery

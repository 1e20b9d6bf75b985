/-
**What a key is bound to after inserting, merging and naming.**

Naming the `?` markers moves the values of positions to names, and clauses merge the result with the
values of their columns.  Both insert entries into a map, where an entry can replace another.  This
module says what is found afterwards: naming loses nothing if the names it makes up are no names of
bindings, and whatever is named, the named markers of the text are still read in it.

Main results:

* `Bindings.get?_insertAll`, `Bindings.get?_merge` — look-ups after inserting many entries;
* `Fragment.get?_namePositional` — **naming moves values and loses none**, if its names are free;
* `Fragment.get?_namePositional_slot` and those behind it — what is then found under a name made up,
  another name, a position that is named and one that is not;
* `names_subset_nameMarkers` — **naming keeps every named marker of the text**.
-/

import Mathlib.Data.List.Nodup
import BoundQuery.Condition
import BoundQuery.Proofs.Readable
import BoundQuery.Proofs.Substitution

set_option relaxedAutoImplicit false
set_option autoImplicit false

namespace BoundQuery

open Token

variable {α : Type}

/-! ### Tables -/

namespace Assoc

variable {κ κ' ν : Type} [DecidableEq κ] [DecidableEq κ']

theorem get?_eq_none_iff (k : κ) (es : List (κ × ν)) : get? k es = none ↔ k ∉ keys es := by
  rw [← isSome_get?, Option.isSome_iff_ne_none, not_not]

theorem get?_append (k : κ) (es us : List (κ × ν)) :
    get? k (es ++ us) = (get? k es).or (get? k us) := by
  induction es with
  | nil => rfl
  | cons e es ih =>
      rw [List.cons_append, get?, get?]
      split
      · rfl
      · exact ih

/-- The entries of the keys that pass a test are found, and no others. -/
theorem get?_filter (p : κ → Bool) (k : κ) (es : List (κ × ν)) :
    get? k (es.filter fun e => p e.1) = if p k then get? k es else none := by
  induction es with
  | nil => simp [get?]
  | cons e es ih =>
      rw [List.filter_cons]
      by_cases he : e.1 = k
      · subst he
        cases hp : p e.1 with
        | true => simp [get?]
        | false => simpa [hp] using ih
      · cases p e.1 with
        | true => simpa [get?, he] using ih
        | false => simpa [get?, he] using ih

/-- Changing keys keeps the values, if no other key is changed to the same. -/
theorem get?_map_keys {g : κ → κ'} {k : κ} {es : List (κ × ν)}
    (h : ∀ k' ∈ keys es, g k' = g k → k' = k) :
    get? (g k) (es.map fun e => (g e.1, e.2)) = get? k es := by
  induction es with
  | nil => rfl
  | cons e es ih =>
      have hrest := ih fun k' hk' => h k' (List.mem_cons_of_mem _ hk')
      rw [List.map_cons, get?, get?, hrest]
      by_cases he : e.1 = k
      · rw [if_pos he, if_pos (congrArg g he)]
      · rw [if_neg he, if_neg fun hg => he (h e.1 List.mem_cons_self hg)]

end Assoc

/-! ### Bindings -/

namespace Bindings

/-- Entries with distinct keys are found after their insertion, and hide what was there before. -/
theorem get?_insertAll {es : List (Key × Value α)} (h : (Assoc.keys es).Nodup) (b : Bindings α)
    (k : Key) : (b.insertAll es).get? k = (Assoc.get? k es).or (b.get? k) := by
  induction es generalizing b with
  | nil => rfl
  | cons e es ih =>
      obtain ⟨hnew, hrest⟩ := List.nodup_cons.1 h
      have hstep : (b.insertAll (e :: es)).get? k = ((b.insert e.1 e.2).insertAll es).get? k := rfl
      rw [hstep, ih hrest, get?_insert, Assoc.get?]
      by_cases he : e.1 = k
      · rw [if_pos he, if_pos he, (Assoc.get?_eq_none_iff k es).2 (he ▸ hnew)]
        rfl
      · rw [if_neg he, if_neg he]

/-- Of two maps merged, the second decides where it has a value. -/
theorem get?_merge (b c : Bindings α) (k : Key) :
    (b.merge c).get? k = (c.get? k).or (b.get? k) := get?_insertAll c.nodup b k

theorem mem_keys_insertAll (b : Bindings α) (es : List (Key × Value α)) (k : Key) :
    k ∈ (b.insertAll es).keys ↔ k ∈ b.keys ∨ k ∈ Assoc.keys es := by
  induction es generalizing b with
  | nil => simp [insertAll]
  | cons e es ih =>
      have hstep : (b.insertAll (e :: es)).keys = ((b.insert e.1 e.2).insertAll es).keys := rfl
      rw [hstep, ih, keys_insert, Assoc.keys_cons, List.mem_cons]
      by_cases he : e.1 ∈ b.keys
      · rw [if_pos he]
        constructor
        · rintro (hk | hk)
          · exact .inl hk
          · exact .inr (.inr hk)
        · rintro (hk | rfl | hk)
          · exact .inl hk
          · exact .inl he
          · exact .inr hk
      · rw [if_neg he, List.mem_append, List.mem_singleton, or_assoc]

theorem mem_keys_ofList (es : List (Key × Value α)) (k : Key) :
    k ∈ (ofList es).keys ↔ k ∈ Assoc.keys es := by
  rw [ofList, mem_keys_insertAll]
  exact or_iff_right List.not_mem_nil

theorem mem_names_iff (b : Bindings α) (n : Text) : n ∈ b.names ↔ Key.name n ∈ b.keys := by
  rw [names, List.mem_filterMap]
  constructor
  · rintro ⟨k, hk, hn⟩
    cases k with
    | index i => cases hn
    | name n' => cases hn; exact hk
  · exact fun h => ⟨_, h, rfl⟩

theorem get?_eq_none_iff (b : Bindings α) (k : Key) : b.get? k = none ↔ k ∉ b.keys :=
  Assoc.get?_eq_none_iff k b.entries

theorem get?_name_eq_none_iff (b : Bindings α) (n : Text) :
    b.get? (.name n) = none ↔ n ∉ b.names := by
  rw [get?_eq_none_iff, mem_names_iff]

theorem mem_names_of_get? {b : Bindings α} {n : Text} {v : Value α} (h : b.get? (.name n) = some v) :
    n ∈ b.names :=
  (mem_names_iff b n).2 (List.mem_map_of_mem ((get?_eq_some_iff b _ v).1 h))

end Bindings

/-! ### Naming -/

/-- Keys that are none of the names made up are kept apart by naming. -/
theorem Key.eq_of_named_eq {stem : Text} {count : Nat} {k k' : Key}
    (h : k.named stem count = k'.named stem count)
    (hk : ∀ i < count, k ≠ .name (stem ++ decimal i))
    (hk' : ∀ i < count, k' ≠ .name (stem ++ decimal i)) : k = k' := by
  cases k with
  | name n =>
      cases k' with
      | name n' => exact h
      | index j =>
          rw [Key.named, Key.named] at h
          split at h
          · next hj => exact absurd h (hk j hj)
          · cases h
  | index i =>
      cases k' with
      | name n' =>
          rw [Key.named, Key.named] at h
          split at h
          · next hi => exact absurd h.symm (hk' i hi)
          · cases h
      | index j =>
          rw [Key.named, Key.named] at h
          split at h
          · split at h
            · rw [Key.name.injEq, List.append_cancel_left_eq] at h
              rw [decimal_injective h]
            · cases h
          · split at h
            · cases h
            · exact h

/-- Naming keeps the entries in order and their keys distinct, if the names made up are no names of
bindings. -/
theorem Fragment.entries_namePositional {stem sql : Text} {b : Bindings α}
    (hfree : ∀ i < countPositional sql, stem ++ decimal i ∉ b.names) :
    (namePositional stem sql b).params.entries =
      b.entries.map fun e => (e.1.named stem (countPositional sql), e.2) := by
  have hother : ∀ k ∈ b.keys, ∀ i < countPositional sql, k ≠ .name (stem ++ decimal i) := by
    rintro k hk i hi rfl
    exact hfree i hi ((b.mem_names_iff _).2 hk)
  refine Bindings.entries_ofList ?_
  rw [Assoc.keys_map (Key.named stem (countPositional sql))]
  exact List.Nodup.map_on
    (fun x hx y hy hxy => Key.eq_of_named_eq hxy (hother x hx) (hother y hy)) b.nodup

/-- Naming changes the keys and keeps their order. -/
theorem Fragment.keys_namePositional {stem sql : Text} {b : Bindings α}
    (hfree : ∀ i < countPositional sql, stem ++ decimal i ∉ b.names) :
    (namePositional stem sql b).params.keys =
      b.keys.map (Key.named stem (countPositional sql)) := by
  rw [Bindings.keys, entries_namePositional hfree]
  exact Assoc.keys_map (Key.named stem (countPositional sql)) b.entries

/-- **Naming moves values and loses none**, if the names made up are no names of bindings. -/
theorem Fragment.get?_namePositional {stem sql : Text} {b : Bindings α}
    (hfree : ∀ i < countPositional sql, stem ++ decimal i ∉ b.names) {k : Key}
    (hk : ∀ i < countPositional sql, k ≠ .name (stem ++ decimal i)) :
    (namePositional stem sql b).params.get? (k.named stem (countPositional sql)) = b.get? k := by
  have hother : ∀ k' ∈ b.keys, ∀ i < countPositional sql, k' ≠ .name (stem ++ decimal i) := by
    rintro k' hk' i hi rfl
    exact hfree i hi ((b.mem_names_iff _).2 hk')
  rw [Bindings.get?, entries_namePositional hfree]
  exact Assoc.get?_map_keys fun k' hk' h => Key.eq_of_named_eq h (hother k' hk') hk

/-- The name made up for a position has its value. -/
theorem Fragment.get?_namePositional_slot {stem sql : Text} {b : Bindings α}
    (hfree : ∀ i < countPositional sql, stem ++ decimal i ∉ b.names) {i : Nat}
    (hi : i < countPositional sql) :
    (namePositional stem sql b).params.get? (.name (stem ++ decimal i)) = b.get? (.index i) := by
  have hslot := get?_namePositional hfree (k := .index i) fun _ _ h => by cases h
  rwa [Key.named, if_pos hi] at hslot

/-- A name that is not made up keeps its value. -/
theorem Fragment.get?_namePositional_name {stem sql : Text} {b : Bindings α}
    (hfree : ∀ i < countPositional sql, stem ++ decimal i ∉ b.names) {n : Text}
    (hn : ∀ i < countPositional sql, stem ++ decimal i ≠ n) :
    (namePositional stem sql b).params.get? (.name n) = b.get? (.name n) :=
  get?_namePositional hfree (k := .name n) fun i hi heq => hn i hi (Key.name.inj heq).symm

/-- A position behind those that are named keeps its value. -/
theorem Fragment.get?_namePositional_behind {stem sql : Text} {b : Bindings α}
    (hfree : ∀ i < countPositional sql, stem ++ decimal i ∉ b.names) {i : Nat}
    (hi : countPositional sql ≤ i) :
    (namePositional stem sql b).params.get? (.index i) = b.get? (.index i) := by
  have hbehind := get?_namePositional hfree (k := .index i) fun _ _ h => by cases h
  rwa [Key.named, if_neg (Nat.not_lt.2 hi)] at hbehind

/-- Where a position is named, its value is not at the position any more. -/
theorem Fragment.get?_namePositional_moved {stem sql : Text} {b : Bindings α}
    (hfree : ∀ i < countPositional sql, stem ++ decimal i ∉ b.names) {i : Nat}
    (hi : i < countPositional sql) : (namePositional stem sql b).params.get? (.index i) = none := by
  rw [Bindings.get?_eq_none_iff, keys_namePositional hfree]
  intro h
  obtain ⟨k, -, hk⟩ := List.mem_map.1 h
  cases k with
  | name n => cases hk
  | index j =>
      rw [Key.named] at hk
      split at hk
      · cases hk
      · next hj =>
          cases hk
          exact hj hi

theorem conditionStem_eq : conditionStem = ['w', 'h', 'e', 'r', 'e', '_'] := by decide

theorem isWordChar_conditionStem : ∀ c ∈ conditionStem, isWordChar c = true :=
  List.all_eq_true.1 (by decide)

/-! ### The named markers of the text -/

/-- Behind a name and behind plain text the same markers are read. -/
theorem names_scan_name (t : Text) : names (scan .name t) = names (scan .plain t) := by
  induction t with
  | nil => rfl
  | cons c t ih =>
      cases hc : isWordChar c with
      | true => rw [scan_word rfl hc, scan_plain_word rfl rfl hc, names_addText, ih]
      | false => rw [scan_behind_name hc]

/-- A colon and a name make a marker, or plain text behind another colon; either way what follows is
read as behind plain text. -/
theorem names_scan_made_up {m : Mode} (hq : m.quote? = none) {n : Text} (hn : n.isName = true)
    (t : Text) {x : Text} (hx : x ∈ names (scan .plain t)) :
    x ∈ names (scan m (':' :: (n ++ t))) := by
  cases ha : m.afterColon with
  | true =>
      rw [scan_inert ha hn, prepend, names_foldr_addText]
      exact hx
  | false =>
      rw [scan_marker_run hq ha hn, names_cons, names_scan_name]
      exact List.mem_append_right _ hx

/-- **Naming keeps every named marker of a readable sequence**, crowded or not. -/
theorem Readable.names_subset_nameMarkers {stem : Text} (hstem : ∀ c ∈ stem, isWordChar c = true)
    {m : Mode} {ts : List Token} (h : Readable m ts) (i : Nat) {x : Text} (hx : x ∈ names ts) :
    x ∈ names (scan m (nameMarkers stem i ts)) := by
  induction h generalizing i with
  | nil m => cases hx
  | @text m s ts hs ha hts ih =>
      have hstart := startsWord_nameTokens stem i hts
      rw [write_nameTokens] at hstart
      have hadm : (m.after s).Admits (nameMarkers stem i ts) := fun hm => hstart.trans (ha hm)
      change x ∈ names (scan m (s ++ nameMarkers stem i ts))
      rw [scan_append hadm, hs]
      change x ∈ names (s.foldr Token.addText _)
      rw [names_foldr_addText]
      exact ih i hx
  | @positional m ts hq hts ih =>
      rw [nameMarkers, List.cons_append]
      exact names_scan_made_up hq (Text.isName_append_decimal hstem i) _ (ih (i + 1) hx)
  | @named m n ts hq ha hn ht hts ih =>
      have hstart := (startsWord_nameTokens stem i hts).trans ht
      rw [write_nameTokens] at hstart
      change x ∈ names (scan m (':' :: (n ++ nameMarkers stem i ts)))
      rw [scan_marker hq ha hn hstart, names_cons]
      rw [names_cons, List.mem_append] at hx
      rcases hx with hx | hx
      · exact List.mem_append_left _ hx
      · exact List.mem_append_right _ (ih i hx)

/-- **Naming keeps every named marker of the text.** -/
theorem names_subset_nameMarkers {stem : Text} (hstem : ∀ c ∈ stem, isWordChar c = true)
    {t x : Text} (hx : x ∈ names (tokenize t)) :
    x ∈ names (tokenize (nameMarkers stem 0 (tokenize t))) :=
  (readable_tokenize t).names_subset_nameMarkers hstem 0 hx

end BoundQuery

/-
**The names of the slots, and the names they can run into.**

Each `?` of a condition is a slot, and compilation makes a name up for it.  A string has the fixed
stem `where_`; clauses have a stem that starts no name of a binding and no name of a column.  So the
slots of clauses run into no bound name, but into a marker that is written and not bound, and the
slots of a string run into any name of the caller that has their form.

Where no slot runs into a name, nothing is lost: each slot has its own positional value, each marker
of the caller has the caller's value, and a marker without a value stays without.

Main definitions:

* `Condition.text`, `Condition.slotName` — the text before its `?` are named, and the names made up;
* `Condition.SlotsApart` — the slots' names differ from each other and from every other name;
* `Condition.Clashes` — the names that a condition's slots can run into;
* `Condition.KeepsApart` — slots have the positional values and markers have the caller's.

Main results:

* `slotsApart_iff` — **the names are apart exactly if no slot runs into such a name**, and then
  values are kept apart;
* `where_slot_shared` — a string in which they are not.
-/

import BoundQuery.Condition
import BoundQuery.Statement
import BoundQuery.Proofs.Spreading
import BoundQuery.Proofs.StemSearch

set_option relaxedAutoImplicit false
set_option autoImplicit false

namespace BoundQuery

open Token

variable {α : Type}

/-! ### The values of clauses -/

namespace Clauses

/-- The entries of slots that are numbered from `k` on. -/
def numbered (k : Nat) (us : List (Option (Value α))) : List (Key × Value α) :=
  (us.zipIdx k).filterMap fun s => s.1.map fun v => (Key.index s.2, v)

theorem mem_keys_numbered {k : Nat} {us : List (Option (Value α))} {x : Key}
    (h : x ∈ Assoc.keys (numbered k us)) : ∃ j, k ≤ j ∧ x = .index j := by
  induction us generalizing k with
  | nil => cases h
  | cons u us ih =>
      have hrest : x ∈ Assoc.keys (numbered (k + 1) us) → ∃ j, k ≤ j ∧ x = .index j := by
        intro hx
        obtain ⟨j, hj, rfl⟩ := ih hx
        exact ⟨j, Nat.le_of_succ_le hj, rfl⟩
      cases u with
      | none => exact hrest h
      | some v =>
          rcases List.mem_cons.1 h with rfl | hx
          · exact ⟨k, Nat.le_refl k, rfl⟩
          · exact hrest hx

theorem nodup_keys_numbered (k : Nat) (us : List (Option (Value α))) :
    (Assoc.keys (numbered k us)).Nodup := by
  induction us generalizing k with
  | nil => exact List.nodup_nil
  | cons u us ih =>
      cases u with
      | none => exact ih (k + 1)
      | some v =>
          refine List.nodup_cons.2 ⟨fun hk => ?_, ih (k + 1)⟩
          obtain ⟨j, hj, heq⟩ := mem_keys_numbered hk
          cases heq
          exact Nat.not_succ_le_self k hj

/-- A slot is found under its number. -/
theorem get?_numbered (k i : Nat) (us : List (Option (Value α))) :
    Assoc.get? (.index (k + i)) (numbered k us) = us[i]?.join := by
  induction us generalizing k i with
  | nil => rfl
  | cons u us ih =>
      cases i with
      | zero =>
          cases u with
          | some v => exact if_pos rfl
          | none =>
              have hnone : Key.index k ∉ Assoc.keys (numbered (k + 1) us) := fun hk => by
                obtain ⟨j, hj, heq⟩ := mem_keys_numbered hk
                cases heq
                exact Nat.not_succ_le_self k hj
              exact (Assoc.get?_eq_none_iff _ _).2 hnone
      | succ i =>
          have hrest := ih (k + 1) i
          rw [Nat.add_right_comm, Nat.add_assoc] at hrest
          rw [List.getElem?_cons_succ, ← hrest]
          cases u with
          | none => rfl
          | some v =>
              have hne : (Key.index k) ≠ .index (k + (i + 1)) := fun h => by
                cases h
              exact if_neg hne

theorem get?_named_index (b : Bindings α) (i : Nat) : Assoc.get? (.index i) b.named = none :=
  Assoc.get?_filter (fun k => !Key.isIndex k) _ _

theorem get?_named_name (b : Bindings α) (n : Text) :
    Assoc.get? (.name n) b.named = b.get? (.name n) :=
  Assoc.get?_filter (fun k => !Key.isIndex k) _ _

theorem get?_numbered_name (k : Nat) (us : List (Option (Value α))) (n : Text) :
    Assoc.get? (.name n) (numbered k us) = none := by
  refine (Assoc.get?_eq_none_iff _ _).2 fun h => ?_
  obtain ⟨j, -, heq⟩ := mem_keys_numbered h
  cases heq

/-- Bindings with slots in place of the positions. -/
def withSlots (us : List (Option (Value α))) (b : Bindings α) : Bindings α :=
  .ofList (numbered 0 us ++ b.named)

theorem nodup_keys_withSlots (us : List (Option (Value α))) (b : Bindings α) :
    (Assoc.keys (numbered 0 us ++ b.named)).Nodup := by
  have hnamed : (Assoc.keys b.named).Nodup :=
    b.nodup.sublist (List.filter_sublist.map Prod.fst)
  rw [Assoc.keys, List.map_append]
  refine List.nodup_append.2 ⟨nodup_keys_numbered 0 _, hnamed, ?_⟩
  rintro x hx _ hx' rfl
  obtain ⟨j, -, rfl⟩ := mem_keys_numbered hx
  exact (Assoc.get?_eq_none_iff _ _).1 (get?_named_index b j) hx'

/-- The entries of the slots, and behind them the named entries. -/
theorem entries_withSlots (us : List (Option (Value α))) (b : Bindings α) :
    (withSlots us b).entries = numbered 0 us ++ b.named :=
  Bindings.entries_ofList (nodup_keys_withSlots us b)

theorem get?_withSlots_index (us : List (Option (Value α))) (b : Bindings α) (i : Nat) :
    (withSlots us b).get? (.index i) = us[i]?.join := by
  have hslot := get?_numbered 0 i us
  rw [Nat.zero_add] at hslot
  rw [Bindings.get?, entries_withSlots, Assoc.get?_append, hslot, get?_named_index, Option.or_none]

theorem get?_withSlots_name (us : List (Option (Value α))) (b : Bindings α) (n : Text) :
    (withSlots us b).get? (.name n) = b.get? (.name n) := by
  rw [Bindings.get?, entries_withSlots, Assoc.get?_append, get?_numbered_name, get?_named_name,
    Option.none_or]

theorem mem_names_withSlots (us : List (Option (Value α))) (b : Bindings α) (n : Text) :
    n ∈ (withSlots us b).names ↔ n ∈ b.names := by
  rw [← not_iff_not, ← Bindings.get?_name_eq_none_iff, ← Bindings.get?_name_eq_none_iff,
    get?_withSlots_name]

/-- The entries of the slots, and behind them the named entries of the caller. -/
theorem entries_others (cs : List (Clause α)) (b : Bindings α) :
    (others cs b).entries = numbered 0 (slots cs b.positional) ++ b.named :=
  entries_withSlots _ b

theorem get?_others_index (cs : List (Clause α)) (b : Bindings α) (i : Nat) :
    (others cs b).get? (.index i) = (slots cs b.positional)[i]?.join :=
  get?_withSlots_index _ b i

theorem get?_others_name (cs : List (Clause α)) (b : Bindings α) (n : Text) :
    (others cs b).get? (.name n) = b.get? (.name n) :=
  get?_withSlots_name _ b n

theorem mem_names_others (cs : List (Clause α)) (b : Bindings α) (n : Text) :
    n ∈ (others cs b).names ↔ n ∈ b.names :=
  mem_names_withSlots _ b n

/-- The names of the markers that columns get. -/
def columnNames (stem : Text) (cs : List (Clause α)) : List Text :=
  cs.filterMap fun c => match c with
    | .column n _ => some (stem ++ n)
    | _ => none

theorem mem_names_columns (cs : List (Clause α)) (n : Text) :
    n ∈ (columns conditionStem cs).names ↔ n ∈ columnNames conditionStem cs := by
  have hkey : ∀ c : Text, Key.ofText (conditionStem ++ c) = .name (conditionStem ++ c) := by
    intro c
    rw [conditionStem_eq]
    rfl
  rw [Bindings.mem_names_iff, columns, Bindings.mem_keys_ofList, Assoc.keys]
  simp only [List.mem_map, List.mem_filterMap, columnNames]
  constructor
  · rintro ⟨e, ⟨c, hc, he⟩, hn⟩
    refine ⟨c, hc, ?_⟩
    cases c with
    | raw sql => cases he
    | bound sql v => cases he
    | column m v =>
        cases he
        rw [hkey] at hn
        cases hn
        rfl
  · rintro ⟨c, hc, hn⟩
    cases c with
    | raw sql => cases hn
    | bound sql v => cases hn
    | column m v =>
        cases hn
        exact ⟨_, ⟨_, hc, rfl⟩, hkey m⟩

end Clauses

/-! ### Slots of a condition -/

namespace Condition

/-- The text of a condition before its `?` markers are named. -/
def text (d : Dialect) : Condition α → Text
  | none => []
  | raw sql => sql
  | clauses cs => Text.join " AND ".toList (cs.map (Clause.write d conditionStem))

/-- The stem of the names of the slots. -/
def slotStem (b : Bindings α) : Condition α → Text
  | clauses cs =>
      freshStem conditionStem
        ((Clauses.columns conditionStem cs).names ++ (Clauses.others cs b).names)
  | _ => conditionStem

/-- The name of a slot. -/
def slotName (c : Condition α) (b : Bindings α) (i : Nat) : Text := c.slotStem b ++ decimal i

/-- The number of slots. -/
def slotCount (d : Dialect) (c : Condition α) : Nat := countPositional (c.text d)

/-- The names of the columns' markers. -/
def columnNames : Condition α → List Text
  | clauses cs => Clauses.columnNames conditionStem cs
  | _ => []

/-- The positional value that a slot is to have. -/
def slotValue (b : Bindings α) (i : Nat) : Condition α → Option (Value α)
  | clauses cs => (Clauses.slots cs b.positional)[i]?.join
  | _ => b.get? (.index i)

/-- The value that a named marker is to have: that of the binding of its name, or of its column. -/
def markerValue (b : Bindings α) (n : Text) : Condition α → Option (Value α)
  | clauses cs => (b.get? (.name n)).or ((Clauses.columns conditionStem cs).get? (.name n))
  | _ => b.get? (.name n)

/-- The text of the condition with its slots named. -/
theorem sql_named (d : Dialect) (c : Condition α) (b : Bindings α) :
    (c.named d b).sql = nameMarkers (c.slotStem b) 0 (tokenize (c.text d)) := by
  cases c <;> rfl

theorem isWordChar_slotStem (c : Condition α) (b : Bindings α) :
    ∀ x ∈ c.slotStem b, isWordChar x = true := by
  cases c with
  | none => exact isWordChar_conditionStem
  | raw sql => exact isWordChar_conditionStem
  | clauses cs => exact isWordChar_freshStem isWordChar_conditionStem _

theorem slotName_inj {c : Condition α} {b : Bindings α} {i j : Nat}
    (h : c.slotName b i = c.slotName b j) : i = j :=
  decimal_injective (List.append_cancel_left h)

/-- The names of the slots differ from each other, from the names of bindings and columns, and from
every named marker of the text. -/
structure SlotsApart (d : Dialect) (b : Bindings α) (c : Condition α) : Prop where
  slots : ∀ i < c.slotCount d, ∀ j < c.slotCount d, i ≠ j → c.slotName b i ≠ c.slotName b j
  bindings : ∀ i < c.slotCount d, c.slotName b i ∉ b.names
  columns : ∀ i < c.slotCount d, c.slotName b i ∉ c.columnNames
  markers : ∀ i < c.slotCount d, c.slotName b i ∉ names (tokenize (c.text d))

/-- The names that slots can run into: for a string the name of a binding or of a marker, and for
clauses the name of a marker that nothing is bound to. -/
def Clashes (d : Dialect) (b : Bindings α) (c : Condition α) (n : Text) : Prop :=
  match c with
  | clauses cs =>
      n ∈ names (tokenize ((clauses cs).text d)) ∧ (clauses cs).markerValue b n = Option.none
  | c => n ∈ b.names ∨ n ∈ names (tokenize (c.text d))

/-- Values are kept apart: every slot has its positional value, every named marker has the value of
its own, and a marker without a value has none when lists have been spread and the condition is
compiled. -/
structure KeepsApart (d : Dialect) (b : Bindings α) (c : Condition α) : Prop where
  slot : ∀ i < c.slotCount d, (c.named d b).params.get? (.name (c.slotName b i)) = c.slotValue b i
  marker : ∀ m ∈ names (tokenize (c.text d)),
    (c.named d b).params.get? (.name m) = c.markerValue b m
  unbound : ∀ m ∈ names (tokenize (c.text d)), c.markerValue b m = Option.none →
    (c.compile d b).params.get? (.name m) = Option.none

/-! ### When the names are apart -/

/-- The stem of clauses starts no name of a binding and no name of a column. -/
theorem slotName_clauses_ne {cs : List (Clause α)} {b : Bindings α} {n : Text}
    (h : n ∈ b.names ∨ n ∈ Clauses.columnNames conditionStem cs) (i : Nat) :
    (clauses cs).slotName b i ≠ n := by
  refine freshStem_append_ne (List.mem_append.2 ?_) (decimal i)
  rcases h with h | h
  · exact .inr ((Clauses.mem_names_others cs b n).2 h)
  · exact .inl ((Clauses.mem_names_columns cs n).2 h)

/-- A name that neither a binding nor a column has is the name of a marker without a value. -/
theorem markerValue_clauses_eq_none_iff {cs : List (Clause α)} {b : Bindings α} {n : Text} :
    (clauses cs).markerValue b n = Option.none ↔
      n ∉ b.names ∧ n ∉ Clauses.columnNames conditionStem cs := by
  rw [markerValue, Option.or_eq_none_iff, Bindings.get?_name_eq_none_iff,
    Bindings.get?_name_eq_none_iff, Clauses.mem_names_columns]

/-- **The names are apart exactly if no slot runs into a name that clashes.** -/
theorem slotsApart_iff_not_clashes (d : Dialect) (b : Bindings α) (c : Condition α) :
    c.SlotsApart d b ↔ ∀ i < c.slotCount d, ¬ c.Clashes d b (c.slotName b i) := by
  have hslots : ∀ i < c.slotCount d, ∀ j < c.slotCount d, i ≠ j →
      c.slotName b i ≠ c.slotName b j := fun _ _ _ _ hij h => hij (slotName_inj h)
  have hplain : (∀ i < c.slotCount d, c.slotName b i ∉ c.columnNames) →
      (c.SlotsApart d b ↔ ∀ i < c.slotCount d,
        ¬ (c.slotName b i ∈ b.names ∨ c.slotName b i ∈ names (tokenize (c.text d)))) := by
    intro hcolumns
    constructor
    · intro h i hi
      exact not_or.2 ⟨h.bindings i hi, h.markers i hi⟩
    · intro h
      exact ⟨hslots, fun i hi => (not_or.1 (h i hi)).1, hcolumns, fun i hi => (not_or.1 (h i hi)).2⟩
  cases c with
  | none => exact hplain fun _ _ => List.not_mem_nil
  | raw sql => exact hplain fun _ _ => List.not_mem_nil
  | clauses cs =>
      -- a name in use is not run into, so only markers without a value are left
      have hfresh : ∀ i, (clauses cs).slotName b i ∉ b.names ∧
          (clauses cs).slotName b i ∉ Clauses.columnNames conditionStem cs := fun i =>
        ⟨fun h => slotName_clauses_ne (.inl h) i rfl, fun h => slotName_clauses_ne (.inr h) i rfl⟩
      constructor
      · intro h i hi hclash
        exact h.markers i hi hclash.1
      · intro h
        refine ⟨hslots, fun i _ => (hfresh i).1, fun i _ => (hfresh i).2, fun i hi hmem => ?_⟩
        exact h i hi ⟨hmem, markerValue_clauses_eq_none_iff.2 (hfresh i)⟩

/-! ### What follows -/

/-- A text whose slots are named holds the named markers it held before. -/
theorem mem_names_named {d : Dialect} {c : Condition α} {m : Text}
    (hm : m ∈ names (tokenize (c.text d))) (b : Bindings α) :
    m ∈ names (tokenize (c.named d b).sql) := by
  rw [sql_named]
  exact names_subset_nameMarkers (c.isWordChar_slotStem b) hm

/-- A condition with a named marker is compiled by naming its slots and spreading lists. -/
theorem compile_of_mem_names {d : Dialect} {c : Condition α} {m : Text}
    (hm : m ∈ names (tokenize (c.text d))) (b : Bindings α) :
    c.compile d b = (c.named d b).spread := by
  have hne : c.isEmpty = false := by
    cases c with
    | none => cases hm
    | raw sql =>
        cases sql with
        | nil => cases hm
        | cons x sql => rfl
    | clauses cs =>
        cases cs with
        | nil => cases hm
        | cons c cs => rfl
  have hnamed := Fragment.hasNamed_spread_of_mem (mem_names_named hm b)
  simp only [compile, hne, resolve, hnamed, Bool.false_eq_true, if_false, if_true]

theorem SlotsApart.not_mem_names_others {d : Dialect} {b : Bindings α} {cs : List (Clause α)}
    (h : (clauses cs).SlotsApart d b) :
    ∀ i < (clauses cs).slotCount d, (clauses cs).slotName b i ∉ (Clauses.others cs b).names := by
  intro i hi hmem
  exact h.bindings i hi ((Clauses.mem_names_others cs b _).1 hmem)

/-- **Every slot has its positional value.** -/
theorem get?_named_slot {d : Dialect} {b : Bindings α} {c : Condition α} (h : c.SlotsApart d b)
    {i : Nat} (hi : i < c.slotCount d) :
    (c.named d b).params.get? (.name (c.slotName b i)) = c.slotValue b i := by
  cases c with
  | none => exact absurd hi (Nat.not_lt_zero i)
  | raw sql => exact Fragment.get?_namePositional_slot h.bindings hi
  | clauses cs =>
      have hcolumns : ∀ j < (clauses cs).slotCount d,
          (clauses cs).slotName b j ∉ (Clauses.columns conditionStem cs).names := fun j hj hmem =>
        h.columns j hj ((Clauses.mem_names_columns cs _).1 hmem)
      have hslot := (Bindings.mergesApart hcolumns h.not_mem_names_others).slot i hi
      rwa [Clauses.get?_others_index] at hslot

/-- **Every name that is no slot's has the caller's value.** -/
theorem get?_named_name {d : Dialect} {b : Bindings α} {c : Condition α} (h : c.SlotsApart d b)
    {n : Text} (hn : ∀ i < c.slotCount d, c.slotName b i ≠ n) :
    (c.named d b).params.get? (.name n) = c.markerValue b n := by
  cases c with
  | none => rfl
  | raw sql => exact Fragment.get?_namePositional_name h.bindings hn
  | clauses cs =>
      have hother := Fragment.get?_namePositional_name h.not_mem_names_others hn
      rw [Clauses.get?_others_name] at hother
      rw [markerValue, ← hother]
      exact Bindings.get?_merge _ _ _

/-- **Where the names are apart, the values are kept apart.** -/
theorem SlotsApart.keepsApart {d : Dialect} {b : Bindings α} {c : Condition α}
    (h : c.SlotsApart d b) : c.KeepsApart d b := by
  have hmarker : ∀ m ∈ names (tokenize (c.text d)),
      (c.named d b).params.get? (.name m) = c.markerValue b m := by
    intro m hm
    refine get?_named_name h fun i hi heq => ?_
    exact h.markers i hi (heq ▸ hm)
  refine ⟨fun i hi => get?_named_slot h hi, hmarker, fun m hm hnone => ?_⟩
  rw [compile_of_mem_names hm]
  -- spreading lists makes up no name that is a marker of the text
  refine Fragment.get?_spread_of_unbound (List.mem_append_right _ (mem_names_named hm b)) ?_
  intro v hv
  rw [hmarker m hm, hnone] at hv
  cases hv

/-- **When the slots of a condition are apart.**  The names made up for its `?` are the numbered
ones of its stem; they differ from each other, from the names of bindings and columns and from every
named marker exactly if none of them clashes; and if so, every slot has its positional value, every
marker of the caller has the caller's, and a marker that the caller left unbound stays unbound. -/
theorem slotsApart_iff (d : Dialect) (b : Bindings α) (c : Condition α) :
    (c.named d b).sql = nameMarkers (c.slotStem b) 0 (tokenize (c.text d)) ∧
    (c.SlotsApart d b ↔ ∀ i < c.slotCount d, ¬ c.Clashes d b (c.slotName b i)) ∧
    (c.SlotsApart d b → c.KeepsApart d b) :=
  ⟨c.sql_named d b, slotsApart_iff_not_clashes d b c, SlotsApart.keepsApart⟩

/-- **A slot that is shared**: the name of the only slot is a marker that the caller left unbound,
in a string and in a clause, and the slot's value is sent for both. -/
theorem where_slot_shared :
    let b : Bindings Nat := .ofList [(.index 0, .scalar (some 1))]
    let c := raw "a = ? AND b = :where_0".toList
    let c' := clauses [.raw "a = ? AND b = :where__0".toList]
    (¬ c.SlotsApart .double b ∧
      (Statement.ofFragment (c.compile .double b)).sent =
        ⟨"a = $1 AND b = $1".toList, ["where_0".toList], [some 1]⟩) ∧
    (¬ c'.SlotsApart .double b ∧
      (Statement.ofFragment (c'.compile .double b)).sent =
        ⟨"a = $1 AND b = $1".toList, ["where__0".toList], [some 1]⟩) := by
  intro b c c'
  have hstring : c.slotName b 0 ∈ names (tokenize (c.text .double)) := by decide
  have hclause : c'.slotName b 0 ∈ names (tokenize (c'.text .double)) := by decide
  refine ⟨⟨fun h => h.markers 0 ?_ hstring, ?_⟩, ⟨fun h => h.markers 0 ?_ hclause, ?_⟩⟩
  · decide
  · decide
  · decide
  · decide

end Condition

end BoundQuery

/-
**One SQL string, given as a string and as a clause.**

A condition that is one string with `?` can be given as it is or as the only clause of a list.  The
two are compiled by different passes.  In a string the value of a `?` is the one bound to its
position; a clause draws the positional values in the order of their insertion, whatever positions
they have.  And the slots are named from different stems.

So the clause does with bindings what the string does with the same bindings *renumbered*: the
positional values at 0, 1, … in the order of their insertion.  Where the positions of the slots have
the data that they have after renumbering, both lead to the same statement; where they have not, the
values change places, or a `?` that nothing is bound to is given a value.

Main definitions:

* `Bindings.renumbered` — positional values at consecutive positions, in the order of insertion;
* `Bindings.labelData` — the data of the markers of a text whose `?` are named;
* `StartsSlot` — names that start with the name of a slot.

Main results:

* `spells_namePositional` — **naming binds each marker to its data**, if no other name starts with
  the name of a slot;
* `Condition.raw_clause_alike` — **a clause sends what the string sends with bindings renumbered**;
* `Condition.raw_clause_differs` — bindings with which the string and the clause differ.
-/

import BoundQuery.Proofs.Positional
import BoundQuery.Proofs.SlotAlignment
import BoundQuery.Proofs.SlotPieces

set_option relaxedAutoImplicit false
set_option autoImplicit false

namespace BoundQuery

open Token

variable {α : Type}

/-! ### Renumbered bindings -/

namespace Bindings

/-- The positional values at the positions 0, 1, … in the order of their insertion, and the named
entries as they are. -/
def renumbered (b : Bindings α) : Bindings α := Clauses.withSlots (b.positional.map some) b

theorem get?_renumbered_index (b : Bindings α) (i : Nat) :
    b.renumbered.get? (.index i) = b.positional[i]? := by
  rw [renumbered, Clauses.get?_withSlots_index, List.getElem?_map]
  cases b.positional[i]? <;> rfl

theorem get?_renumbered_name (b : Bindings α) (n : Text) :
    b.renumbered.get? (.name n) = b.get? (.name n) :=
  Clauses.get?_withSlots_name _ b n

theorem mem_names_renumbered (b : Bindings α) (n : Text) :
    n ∈ b.renumbered.names ↔ n ∈ b.names :=
  Clauses.mem_names_withSlots _ b n

/-- The data of a name depend on its value only. -/
theorem elements_congr {b c : Bindings α} {m n : Text}
    (hget : b.get? (.name m) = c.get? (.name n)) (hdigits : m.isDigits = n.isDigits) :
    b.elements m = c.elements n := by
  rw [elements, elements, hget, hdigits]

/-- The data of a position depend on its value only. -/
theorem slotData_congr {b c : Bindings α} {i j : Nat}
    (hget : b.get? (.index i) = c.get? (.index j)) : b.slotData i = c.slotData j := by
  rw [slotData, slotData, hget]

end Bindings

/-- A clause draws the positional values in the order of their insertion. -/
theorem Clauses.getElem?_slots_raw {sql : Text} (supply : List (Value α)) {i : Nat}
    (hi : i < countPositional sql) : (slots [.raw sql] supply)[i]?.join = supply[i]? := by
  have hown : ownSlots [(.raw sql : Clause α)] = List.replicate (countPositional sql) none :=
    List.append_nil _
  have hasks : (ownSlots [(.raw sql : Clause α)])[i]? = some none := by
    rw [hown, List.getElem?_replicate, if_pos hi]
  rw [getElem?_slots hasks, hown, List.take_replicate, asking_replicate,
    Nat.min_eq_left (Nat.le_of_lt hi), Option.none_or]

/-! ### The data of the markers of a named text -/

/-- A name that starts with the name of one of `count` slots. -/
def StartsSlot (stem : Text) (count : Nat) (n : Text) : Prop :=
  ∃ i < count, stem ++ decimal i <+: n

instance (stem : Text) (count : Nat) (n : Text) : Decidable (StartsSlot stem count n) :=
  inferInstanceAs (Decidable (∃ i < count, _))

/-- The data of a marker once the `?` are named: a slot whose name is that of a position has the
data of the position, and any other has none. -/
def Bindings.labelData (b : Bindings α) (count : Nat) : Label → List (Option α)
  | .own n => b.elements n
  | .slot x =>
      match (List.range count).find? fun i => decimal i == x with
      | some i => b.slotData i
      | none => []

theorem Bindings.labelData_slot (b : Bindings α) {count i : Nat} (hi : i < count) :
    b.labelData count (.slot (decimal i)) = b.slotData i := by
  rw [labelData]
  cases hfind : (List.range count).find? fun j => decimal j == decimal i with
  | none =>
      have hnot := List.find?_eq_none.1 hfind i (List.mem_range.2 hi)
      simp at hnot
  | some j =>
      have hj := List.find?_some hfind
      rw [decimal_injective (beq_iff_eq.1 hj)]

theorem Bindings.labelData_slot_of_ne (b : Bindings α) {count : Nat} {x : Text}
    (h : ∀ i < count, decimal i ≠ x) : b.labelData count (.slot x) = [] := by
  have hfind : (List.range count).find? (fun i => decimal i == x) = none :=
    List.find?_eq_none.2 fun i hi => by simpa using h i (List.mem_range.1 hi)
  rw [labelData, hfind]

/-- Bindings whose positions and names have the same data give the markers the same data. -/
theorem Bindings.labelData_congr {b c : Bindings α} {count : Nat}
    (hslots : ∀ i < count, b.slotData i = c.slotData i)
    (hnames : ∀ n, b.elements n = c.elements n) : b.labelData count = c.labelData count := by
  funext k
  cases k with
  | own n => exact hnames n
  | slot x =>
      by_cases hx : ∃ i, i < count ∧ decimal i = x
      · obtain ⟨i, hi, rfl⟩ := hx
        rw [labelData_slot b hi, labelData_slot c hi, hslots i hi]
      · have hne : ∀ i < count, decimal i ≠ x := fun i hi heq => hx ⟨i, hi, heq⟩
        rw [labelData_slot_of_ne b hne, labelData_slot_of_ne c hne]

section Naming

variable {stem sql : Text} {b : Bindings α}

/-- The slots of a text are fewer than its `?`. -/
theorem slot_lt_countPositional {i : Nat} {run : Text} (h : Piece.slot i run ∈ pieces .plain 0 sql) :
    i < countPositional sql := by
  have hlt := slot_mem_pieces h
  rw [Nat.zero_add] at hlt
  rwa [countPositional_eq_gaps]

/-- A marker of the text has a name of its own or is a slot. -/
theorem label_cases {k : Label} (h : k ∈ labels (pieces .plain 0 sql)) :
    (∃ n ∈ names (tokenize sql), k = .own n) ∨
    ∃ i < countPositional sql, ∃ run, k = .slot (decimal i ++ run) := by
  obtain ⟨p, hp, hk⟩ := List.mem_filterMap.1 h
  cases p with
  | char c => cases hk
  | inert i => cases hk
  | own n =>
      cases hk
      exact .inl ⟨n, own_mem_names hp, rfl⟩
  | slot i run =>
      cases hk
      exact .inr ⟨i, slot_lt_countPositional hp, run, rfl⟩

theorem startsSlot_append {count i : Nat} (hi : i < count) (run : Text) :
    StartsSlot stem count (stem ++ (decimal i ++ run)) :=
  ⟨i, hi, by rw [← List.append_assoc]; exact List.prefix_append _ _⟩

/-- Naming binds each marker to its data. -/
theorem elements_label (hdigits : ∀ x : Text, Text.isDigits (stem ++ x) = false)
    (hb : ∀ n ∈ b.names, ¬ StartsSlot stem (countPositional sql) n)
    (hsql : ∀ n ∈ names (tokenize sql), ¬ StartsSlot stem (countPositional sql) n) {k : Label}
    (hk : k ∈ labels (pieces .plain 0 sql)) :
    (Fragment.namePositional stem sql b).params.elements (k.name stem) =
      b.labelData (countPositional sql) k := by
  have hstarts : ∀ {i}, i < countPositional sql → ∀ {n}, n = stem ++ decimal i →
      StartsSlot stem (countPositional sql) n := fun hi _ hn => ⟨_, hi, hn ▸ List.prefix_rfl⟩
  have hfree : ∀ i < countPositional sql, stem ++ decimal i ∉ b.names := fun i hi hmem =>
    hb _ hmem (hstarts hi rfl)
  rcases label_cases hk with ⟨n, hn, rfl⟩ | ⟨i, hi, run, rfl⟩
  · have hother : ∀ i < countPositional sql, stem ++ decimal i ≠ n := fun i hi heq =>
      hsql n hn (hstarts hi heq.symm)
    exact Bindings.elements_congr (Fragment.get?_namePositional_name hfree hother) rfl
  · by_cases hx : ∃ j, j < countPositional sql ∧ decimal j = decimal i ++ run
    · -- the name is that of slot `j`, which is `i` unless digits run on
      obtain ⟨j, hj, hjx⟩ := hx
      rw [← hjx, Bindings.labelData_slot b hj]
      exact elements_namePositional hdigits hfree hj
    · have hne : ∀ j < countPositional sql, decimal j ≠ decimal i ++ run := fun j hj heq =>
        hx ⟨j, hj, heq⟩
      have hget := Fragment.get?_namePositional_name hfree fun j hj heq =>
        hne j hj (List.append_cancel_left heq)
      have hnone : b.get? (.name (stem ++ (decimal i ++ run))) = none := by
        rw [Bindings.get?_name_eq_none_iff]
        exact fun hmem => hb _ hmem (startsSlot_append hi run)
      rw [hnone] at hget
      rw [Bindings.labelData_slot_of_ne b hne, Label.name, Bindings.elements, hget]

/-- **Naming binds each marker to its data**, if no other name starts with the name of a slot. -/
theorem spells_namePositional (hstem : ∀ c ∈ stem, isWordChar c = true)
    (hdigits : ∀ x : Text, Text.isDigits (stem ++ x) = false)
    (hb : ∀ n ∈ b.names, ¬ StartsSlot stem (countPositional sql) n)
    (hsql : ∀ n ∈ names (tokenize sql), ¬ StartsSlot stem (countPositional sql) n) :
    Spells stem (pieces .plain 0 sql) (b.labelData (countPositional sql))
      (Fragment.namePositional stem sql b).sql (Fragment.namePositional stem sql b).params := by
  refine ⟨?_, ?_, fun k hk => elements_label hdigits hb hsql hk⟩
  · rw [Fragment.namePositional, nameMarkers_tokenize]
    exact scan_nameGaps hstem .plain 0 sql
  · intro k hk k' hk' heq
    rcases label_cases hk with ⟨n, hn, rfl⟩ | ⟨i, hi, run, rfl⟩
    · rcases label_cases hk' with ⟨n', hn', rfl⟩ | ⟨i', hi', run', rfl⟩
      · exact congrArg Label.own heq
      · have hname : n = stem ++ (decimal i' ++ run') := heq
        exact absurd (hname ▸ startsSlot_append hi' run') (hsql n hn)
    · rcases label_cases hk' with ⟨n', hn', rfl⟩ | ⟨i', hi', run', rfl⟩
      · have hname : stem ++ (decimal i ++ run) = n' := heq
        exact absurd (hname ▸ startsSlot_append hi run) (hsql n' hn')
      · exact congrArg Label.slot (List.append_cancel_left heq)

end Naming

/-! ### The string and the clause -/

theorem Statement.ofFragment_spread (f : Fragment α) :
    Statement.ofFragment f.spread = Statement.ofFragment f := by
  rw [ofFragment, Fragment.spread_spread]
  rfl

namespace Condition

/-- A clause of SQL is compiled by naming its slots under a longer stem and spreading lists. -/
theorem compile_clause_raw (d : Dialect) (sql : Text) (b : Bindings α) :
    (clauses [.raw sql]).compile d b =
      (Fragment.namePositional ((clauses [.raw sql]).slotStem b) sql
        (Clauses.others [.raw sql] b)).spread := by
  have hnamed : (clauses [.raw sql]).named d b =
      Fragment.namePositional ((clauses [.raw sql]).slotStem b) sql
        (Clauses.others [.raw sql] b) := by
    rw [named, Clauses.compile, List.map_singleton, Text.join_singleton]
    exact congrArg (Fragment.mk _) (Bindings.ofList_entries _)
  rw [← hnamed]
  exact resolve_none d _

theorem isDigits_slotStem_append (c : Condition α) (b : Bindings α) (x : Text) :
    Text.isDigits (c.slotStem b ++ x) = false := by
  cases c with
  | none => exact isDigits_conditionStem_append x
  | raw sql => exact isDigits_conditionStem_append x
  | clauses cs =>
      rw [slotStem, freshStem, List.append_assoc]
      exact isDigits_conditionStem_append _

/-- The stem of the clause starts no name of the caller's. -/
theorem not_startsSlot_slotStem {sql : Text} {b : Bindings α} {count : Nat} {n : Text}
    (hn : n ∈ b.names) : ¬ StartsSlot ((clauses [.raw sql]).slotStem b) count n := by
  rintro ⟨i, -, r, rfl⟩
  rw [List.append_assoc] at hn
  have hne : (clauses [.raw sql]).slotStem b ++ (decimal i ++ r) ≠ _ :=
    Clauses.slotStem_append_ne (.inr hn) (decimal i ++ r)
  exact hne rfl

/-- **A clause sends what the string sends with bindings renumbered**, and so it sends what the
string sends with the same bindings, if the positions of the slots have the data that they have
after renumbering.  The slots that stay unresolved have other names. -/
theorem raw_clause_alike (d : Dialect) {sql : Text} (hslots : 0 < countPositional sql)
    {b : Bindings α}
    (hstring : ∀ n ∈ b.names ++ names (tokenize sql),
      ¬ StartsSlot conditionStem (countPositional sql) n)
    (hclause : ∀ n ∈ names (tokenize sql),
      ¬ StartsSlot ((clauses [.raw sql]).slotStem b) (countPositional sql) n) :
    (Statement.ofFragment ((raw sql).compile d b.renumbered)).sent.Alike conditionStem
        ((clauses [.raw sql]).slotStem b)
        (Statement.ofFragment ((clauses [.raw sql]).compile d b)).sent ∧
      ((∀ i < countPositional sql, b.slotData i = b.renumbered.slotData i) →
        (Statement.ofFragment ((raw sql).compile d b)).sent.Alike conditionStem
          ((clauses [.raw sql]).slotStem b)
          (Statement.ofFragment ((clauses [.raw sql]).compile d b)).sent) := by
  have hsql : ∀ n ∈ names (tokenize sql), ¬ StartsSlot conditionStem (countPositional sql) n :=
    fun n hn => hstring n (List.mem_append_right _ hn)
  have hstringSpells : ∀ c : Bindings α, (∀ n, n ∈ c.names ↔ n ∈ b.names) →
      Spells conditionStem (pieces .plain 0 sql) (c.labelData (countPositional sql))
        (Fragment.namePositional conditionStem sql c).sql
        (Fragment.namePositional conditionStem sql c).params := fun c hc =>
    spells_namePositional isWordChar_conditionStem isDigits_conditionStem_append
      (fun n hn => hstring n (List.mem_append_left _ ((hc n).1 hn))) hsql
  -- the clause has the data of the renumbered bindings
  have hdata : (Clauses.others [.raw sql] b).labelData (countPositional sql) =
      b.renumbered.labelData (countPositional sql) := by
    refine Bindings.labelData_congr (fun i hi => Bindings.slotData_congr ?_) fun n =>
      Bindings.elements_congr ?_ rfl
    · rw [Clauses.get?_others_index, Clauses.getElem?_slots_raw _ hi,
        Bindings.get?_renumbered_index]
    · rw [Clauses.get?_others_name, Bindings.get?_renumbered_name]
  have hclauseSpells := spells_namePositional (b := Clauses.others [.raw sql] b)
    ((clauses [.raw sql]).isWordChar_slotStem b) ((clauses [.raw sql]).isDigits_slotStem_append b)
    (fun n hn => not_startsSlot_slotStem ((Clauses.mem_names_others [.raw sql] b n).1 hn)) hclause
  rw [hdata] at hclauseSpells
  rw [compile_raw d hslots, compile_raw d hslots, compile_clause_raw, Statement.ofFragment_spread,
    Statement.ofFragment_spread, Statement.ofFragment_spread]
  refine ⟨sent_alike (hstringSpells _ b.mem_names_renumbered) hclauseSpells, fun hsame => ?_⟩
  have heq : b.labelData (countPositional sql) = b.renumbered.labelData (countPositional sql) :=
    Bindings.labelData_congr hsame fun n =>
      Bindings.elements_congr (b.get?_renumbered_name n).symm rfl
  exact sent_alike (hstringSpells b fun _ => Iff.rfl) (heq ▸ hclauseSpells)

/-- Positions in the order of their insertion, with a list, a slot without a value, a slot that is
plain text behind a colon and a slot that digits run on in; `where_` alone starts no slot's name. -/
theorem crowded_raw_clause_alike :
    let sql := "a = ? AND b IN (?) AND c = :where_x AND d::? AND e = ?0 AND f = ?".toList
    let b : Bindings Nat := .ofList
      [(.index 0, .null), (.name "where_x".toList, .scalar (some 7)),
        (.index 1, .list [some 1, some 2]), (.index 2, .scalar (some 3)),
        (.index 3, .scalar (some 4))]
    0 < countPositional sql ∧
    (∀ n ∈ b.names ++ names (tokenize sql), ¬ StartsSlot conditionStem (countPositional sql) n) ∧
    (∀ n ∈ names (tokenize sql),
      ¬ StartsSlot ((clauses [.raw sql]).slotStem b) (countPositional sql) n) ∧
    (∀ i < countPositional sql, b.slotData i = b.renumbered.slotData i) ∧
    (Statement.ofFragment ((raw sql).compile .double b)).sent.Alike conditionStem
      "where__".toList (Statement.ofFragment ((clauses [.raw sql]).compile .double b)).sent := by
  intro sql b
  have hslots : 0 < countPositional sql := by decide
  have hstring : ∀ n ∈ b.names ++ names (tokenize sql),
      ¬ StartsSlot conditionStem (countPositional sql) n := by decide
  have hclause : ∀ n ∈ names (tokenize sql),
      ¬ StartsSlot ((clauses [.raw sql]).slotStem b) (countPositional sql) n := by decide
  have hsame : ∀ i < countPositional sql, b.slotData i = b.renumbered.slotData i := by decide
  have hstem : (clauses [.raw sql]).slotStem b = "where__".toList := by decide
  have halike := (raw_clause_alike .double hslots hstring hclause).2 hsame
  rw [hstem] at halike
  exact ⟨hslots, hstring, hclause, hsame, halike⟩

/-- **Bindings with which the string and the clause differ**: positions that were bound in another
order, whose values change places, and a position behind the only `?`, whose value is sent for a `?`
that the string leaves unresolved. -/
theorem raw_clause_differs :
    let pair := "a = ? AND b = ?".toList
    let swapped : Bindings Nat := .ofList [(.index 1, .scalar (some 10)), (.index 0, .scalar (some 20))]
    let single := "a = ?".toList
    let behind : Bindings Nat := .ofList [(.index 5, .scalar (some 10))]
    ((Statement.ofFragment ((raw pair).compile .double swapped)).sent =
        ⟨"a = $1 AND b = $2".toList, ["where_0".toList, "where_1".toList], [some 20, some 10]⟩ ∧
      (Statement.ofFragment ((clauses [.raw pair]).compile .double swapped)).sent =
        ⟨"a = $1 AND b = $2".toList, ["where__0".toList, "where__1".toList], [some 10, some 20]⟩ ∧
      ∀ stem stem', ¬ (Statement.ofFragment ((raw pair).compile .double swapped)).sent.Alike
        stem stem' (Statement.ofFragment ((clauses [.raw pair]).compile .double swapped)).sent) ∧
    ((Statement.ofFragment ((raw single).compile .double behind)).sent =
        ⟨"a = :where_0".toList, [], []⟩ ∧
      (Statement.ofFragment ((clauses [.raw single]).compile .double behind)).sent =
        ⟨"a = $1".toList, ["where__0".toList], [some 10]⟩ ∧
      ∀ stem stem', ¬ (Statement.ofFragment ((raw single).compile .double behind)).sent.Alike
        stem stem' (Statement.ofFragment ((clauses [.raw single]).compile .double behind)).sent) := by
  intro pair swapped single behind
  refine ⟨⟨by decide, by decide, fun _ _ h => ?_⟩, ⟨by decide, by decide, fun _ _ h => ?_⟩⟩
  · exact absurd h.values (by decide)
  · exact absurd h.values (by decide)

end Condition

end BoundQuery

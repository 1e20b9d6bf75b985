/-
**The search for a stem ends, and the stem keeps names apart.**

The `?` markers of clauses are named by a stem and a number.  The stem is found by trying: as long
as some name in use starts with it, it gets another underscore.  Nothing in the search itself bounds
it, and the names in use may be long runs of underscores.  `FreshName.lean` computes the outcome with
a bound; here the search is a relation that has none, and the two are compared.

What bounds the search is the length of the names.  A stem that starts a name is no longer than the
name, and every turn makes it longer, so there are no more turns than the longest name has characters
behind the first stem.

A stem that starts no name in use keeps all names apart that it starts itself, however many there
are.  So where the bindings of positions are moved to such names, and merged with other bindings,
none of them meets a binding that is there.

Main definitions:

* `StemSearch` — the search, turn by turn;
* `IsLeastStem` — what the stem is to be;
* `Bindings.MergesApart` — what is found after a merge in which no moved binding replaces another.

Main results:

* `isLeastStem_freshStem` — the stem that is computed is the least;
* `StemSearch.exists_of_room` — **the search ends**, in as many turns as there is room;
* `StemSearch.ends_with_freshStem` — it ends in one way, with the stem that is computed;
* `Bindings.mergesApart` — **free names are merged without a loss**;
* `stem_search_separates` — the search and the names together.
-/

import BoundQuery.Proofs.InsertionOrder

set_option relaxedAutoImplicit false
set_option autoImplicit false

namespace BoundQuery

variable {α : Type}

/-! ### The search -/

/-- **The search, turn by turn**: begun with the stem `sub`, it ends after a number of turns and with
a stem.  It ends where no name starts with the stem; where one does, the stem gets an underscore and
the search goes on. -/
inductive StemSearch (names : List Text) : Text → Nat → Text → Prop
  | done {sub : Text} (free : ∀ n ∈ names, ¬ sub <+: n) : StemSearch names sub 0 sub
  | again {sub result : Text} {turns : Nat} (used : ∃ n ∈ names, sub <+: n)
      (rest : StemSearch names (sub ++ ['_']) turns result) :
      StemSearch names sub (turns + 1) result

/-- The text `sub` is `stem` with `k` underscores, which are at least one, and as few as make it
start none of the names. -/
structure IsLeastStem (stem : Text) (names : List Text) (k : Nat) (sub : Text) : Prop where
  written : sub = stem ++ List.replicate k '_'
  pos : 1 ≤ k
  free : ∀ n ∈ names, ¬ sub <+: n
  least : ∀ j, 1 ≤ j → j < k → ∃ n ∈ names, stem ++ List.replicate j '_' <+: n

/-- An underscore behind a text is the first of those that follow. -/
theorem append_underscores (sub : Text) (k : Nat) :
    sub ++ ['_'] ++ underscores k = sub ++ underscores (k + 1) := by
  rw [List.append_assoc]
  rfl

namespace IsLeastStem

variable {stem sub sub' : Text} {names : List Text} {k k' : Nat}

theorem le (h : IsLeastStem stem names k sub) (h' : IsLeastStem stem names k' sub') : k ≤ k' := by
  refine Nat.le_of_not_lt fun hlt => ?_
  obtain ⟨n, hn, hstart⟩ := h.least k' h'.pos hlt
  exact h'.free n hn (h'.written ▸ hstart)

/-- There is one least stem. -/
theorem unique (h : IsLeastStem stem names k sub) (h' : IsLeastStem stem names k' sub') :
    k = k' ∧ sub = sub' := by
  obtain rfl : k = k' := Nat.le_antisymm (h.le h') (h'.le h)
  exact ⟨rfl, h.written.trans h'.written.symm⟩

end IsLeastStem

/-- **The stem that is computed is the least.** -/
theorem isLeastStem_freshStem (stem : Text) (names : List Text) :
    IsLeastStem stem names (leastUpTo (stemFree stem names) (maxLength names) + 1)
      (freshStem stem names) := by
  refine ⟨rfl, Nat.le_add_left 1 _, fun n hn hstart => ?_, fun j hpos hj => ?_⟩
  · have hfree := isPrefixOf_freshStem stem names n hn
    rw [List.isPrefixOf_iff_prefix.2 hstart] at hfree
    cases hfree
  · obtain ⟨i, rfl⟩ := Nat.exists_eq_add_of_le' hpos
    have hfail : stemFree stem names i = false := leastUpTo_min (Nat.lt_of_succ_lt_succ hj)
    simpa [stemFree, underscores] using hfail

/-- No given name is the chosen stem with something behind it. -/
theorem freshStem_append_ne {stem : Text} {names : List Text} {n : Text} (h : n ∈ names)
    (x : Text) : freshStem stem names ++ x ≠ n := by
  rintro rfl
  exact (isLeastStem_freshStem stem names).free _ h (List.prefix_append _ x)

theorem isWordChar_freshStem {stem : Text} (h : ∀ c ∈ stem, isWordChar c = true)
    (names : List Text) : ∀ c ∈ freshStem stem names, isWordChar c = true := by
  intro c hc
  rcases List.mem_append.1 hc with hc | hc
  · exact h c hc
  · exact isWordChar_of_mem_underscores hc

namespace StemSearch

variable {names : List Text} {stem sub result : Text} {turns : Nat}

/-- **The search ends.**  The room is what the names are longer than the stem; a turn takes one
character of it, and without any no name can start with the stem. -/
theorem exists_of_room (room : Nat) (h : ∀ n ∈ names, n.length < sub.length + room) :
    ∃ turns ≤ room, ∃ result, StemSearch names sub turns result := by
  induction room generalizing sub with
  | zero =>
      refine ⟨0, Nat.le_refl 0, sub, .done fun n hn hstart => ?_⟩
      exact Nat.not_lt.2 hstart.length_le (h n hn)
  | succ room ih =>
      by_cases hused : ∃ n ∈ names, sub <+: n
      · have hroom : ∀ n ∈ names, n.length < (sub ++ ['_']).length + room := by
          intro n hn
          have hlt := h n hn
          rw [List.length_append, List.length_singleton]
          omega
        obtain ⟨turns, hle, result, hrest⟩ := ih hroom
        exact ⟨turns + 1, Nat.succ_le_succ hle, result, .again hused hrest⟩
      · exact ⟨0, Nat.zero_le _, sub, .done fun n hn hstart => hused ⟨n, hn, hstart⟩⟩

/-- However the search ends, it has come to a stem that starts no name, with an underscore for every
turn, and the stems before it started one. -/
theorem outcome (h : StemSearch names sub turns result) :
    result = sub ++ underscores turns ∧ (∀ n ∈ names, ¬ result <+: n) ∧
      ∀ j < turns, ∃ n ∈ names, sub ++ underscores j <+: n := by
  induction h with
  | done free => exact ⟨(List.append_nil _).symm, free, fun j hj => absurd hj (Nat.not_lt_zero j)⟩
  | @again sub result turns used rest ih =>
      obtain ⟨hwritten, hfree, hused⟩ := ih
      refine ⟨hwritten.trans (append_underscores sub turns), hfree, fun j hj => ?_⟩
      cases j with
      | zero => rwa [underscores, List.replicate_zero, List.append_nil]
      | succ j => exact append_underscores sub j ▸ hused j (Nat.lt_of_succ_lt_succ hj)

/-- **However the search ends, it is with the least stem**, whose first underscore is there before
the first turn. -/
theorem isLeastStem (h : StemSearch names (stem ++ ['_']) turns result) :
    IsLeastStem stem names (turns + 1) result := by
  obtain ⟨hwritten, hfree, hused⟩ := h.outcome
  refine ⟨hwritten.trans (append_underscores stem turns), Nat.le_add_left 1 turns, hfree, ?_⟩
  intro j hpos hj
  obtain ⟨i, rfl⟩ := Nat.exists_eq_add_of_le' hpos
  exact append_underscores stem i ▸ hused i (Nat.lt_of_succ_lt_succ hj)

/-- The search has no more turns than the longest name has characters behind the stem. -/
theorem exists_turns_le (stem : Text) (names : List Text) :
    ∃ turns ≤ maxLength names - stem.length, ∃ result,
      StemSearch names (stem ++ ['_']) turns result := by
  refine exists_of_room _ fun n hn => ?_
  have hlength := length_le_maxLength hn
  rw [List.length_append, List.length_singleton]
  omega

/-- **The search ends in one way**, with the stem that is computed. -/
theorem ends_with_freshStem (stem : Text) (names : List Text) :
    ∃ turns ≤ maxLength names - stem.length,
      IsLeastStem stem names (turns + 1) (freshStem stem names) ∧
      ∀ turns' result, StemSearch names (stem ++ ['_']) turns' result ↔
        turns' = turns ∧ result = freshStem stem names := by
  obtain ⟨turns, hle, result, hends⟩ := exists_turns_le stem names
  have hfresh := isLeastStem_freshStem stem names
  obtain ⟨hturns, rfl⟩ := hends.isLeastStem.unique hfresh
  refine ⟨turns, hle, hends.isLeastStem, fun turns' result' => ⟨fun h => ?_, ?_⟩⟩
  · obtain ⟨hsame, hresult⟩ := h.isLeastStem.unique hends.isLeastStem
    exact ⟨Nat.succ.inj hsame, hresult⟩
  · rintro ⟨rfl, rfl⟩
    exact hends

end StemSearch

/-! ### Merging under free names -/

namespace Bindings

/-- What is found in `merged` where the bindings `raw`, of which the first `count` positions are
moved to names with the stem `sub`, are merged into `named`, and no binding that is moved replaces
another. -/
structure MergesApart (sub : Text) (count : Nat) (named raw merged : Bindings α) : Prop where
  /-- A name that is bound has the value that the second map binds it to itself, and else the value
  that the first does. -/
  kept : ∀ n, n ∈ named.names ∨ n ∈ raw.names →
    merged.get? (.name n) = (raw.get? (.name n)).or (named.get? (.name n))
  /-- The values of positions that are moved have their names. -/
  slot : ∀ i < count, merged.get? (.name (sub ++ decimal i)) = raw.get? (.index i)
  /-- At a position whose value is moved is what the first map has there. -/
  moved : ∀ i < count, merged.get? (.index i) = named.get? (.index i)
  /-- The positions behind them are merged as they stand. -/
  behind : ∀ i, count ≤ i → merged.get? (.index i) = (raw.get? (.index i)).or (named.get? (.index i))
  /-- The keys of the first map are followed by the new ones of the second, in order. -/
  order : merged.keys = named.keys ++ (raw.keys.map (Key.named sub count)).filter (· ∉ named.keys)

variable {sub sql : Text} {named raw : Bindings α}

/-- **Under free names bindings are merged without a loss.** -/
theorem mergesApart (hnamed : ∀ i < countPositional sql, sub ++ decimal i ∉ named.names)
    (hraw : ∀ i < countPositional sql, sub ++ decimal i ∉ raw.names) :
    MergesApart sub (countPositional sql) named raw
      (named.merge (Fragment.namePositional sub sql raw).params) where
  kept n hn := by
    have hother : ∀ i < countPositional sql, sub ++ decimal i ≠ n := by
      rintro i hi rfl
      exact hn.elim (hnamed i hi) (hraw i hi)
    rw [get?_merge, Fragment.get?_namePositional_name hraw hother]
  slot i hi := by
    have hnew : named.get? (.name (sub ++ decimal i)) = none :=
      (named.get?_name_eq_none_iff _).2 (hnamed i hi)
    rw [get?_merge, Fragment.get?_namePositional_slot hraw hi, hnew, Option.or_none]
  moved i hi := by
    rw [get?_merge, Fragment.get?_namePositional_moved hraw hi, Option.none_or]
  behind i hi := by
    rw [get?_merge, Fragment.get?_namePositional_behind hraw hi]
  order := by rw [keys_merge, Fragment.keys_namePositional hraw]

end Bindings

/-! ### The search and the names -/

/-- **The search for a stem ends, and the stem keeps names apart.**

For some number of turns, which is no more than the longest name in use has characters behind the
stem that is given, the search ends after so many turns and in no other way.  It ends with the stem
that is computed: the one given and an underscore more than there were turns.  No name in use starts
with it, and with fewer underscores one would.  So a number behind it makes no name in use, and
different numbers make different names; and where positions are moved to such names, and merged with
the bindings that are there, none of these is replaced by one that is moved. -/
theorem stem_search_separates (stem : Text) (named raw : Bindings α) :
    let sub := freshStem stem (named.names ++ raw.names)
    (∃ turns ≤ maxLength (named.names ++ raw.names) - stem.length,
      (∀ turns' result,
        StemSearch (named.names ++ raw.names) (stem ++ ['_']) turns' result ↔
          turns' = turns ∧ result = sub) ∧
      IsLeastStem stem (named.names ++ raw.names) (turns + 1) sub) ∧
    (∀ i, sub ++ decimal i ∉ named.names ∧ sub ++ decimal i ∉ raw.names) ∧
    (∀ i j, i ≠ j → sub ++ decimal i ≠ sub ++ decimal j) ∧
    ∀ sql, Bindings.MergesApart sub (countPositional sql) named raw
      (named.merge (Fragment.namePositional sub sql raw).params) := by
  intro sub
  obtain ⟨turns, hle, hleast, hends⟩ :=
    StemSearch.ends_with_freshStem stem (named.names ++ raw.names)
  have hnamed : ∀ i, sub ++ decimal i ∉ named.names := fun i h =>
    freshStem_append_ne (List.mem_append_left raw.names h) (decimal i) rfl
  have hraw : ∀ i, sub ++ decimal i ∉ raw.names := fun i h =>
    freshStem_append_ne (List.mem_append_right named.names h) (decimal i) rfl
  refine ⟨⟨turns, hle, hends, hleast⟩, fun i => ⟨hnamed i, hraw i⟩, fun i j hne heq => ?_, ?_⟩
  · exact hne (decimal_injective (List.append_cancel_left heq))
  · exact fun sql => Bindings.mergesApart (fun i _ => hnamed i) fun i _ => hraw i

/-- The stem gets longer by one underscore than a run of them among the names, and a name that is
the given stem alone makes it no longer than it is at the least. -/
example :
    freshStem "w_".toList ["w____".toList, "w__0".toList] = "w_____".toList ∧
      freshStem "w_".toList ["w_".toList] = "w__".toList := by
  decide

end BoundQuery

/-
**The search for a separator ends, and how soon.**

The names of a list's elements are found by trying: a round makes the names of all elements with the
underscores it has, and if one of them is in use, the next round has one underscore more.  Nothing
in the search itself bounds it.  `FreshName.lean` computes the outcome with a bound on the rounds;
here the search is a relation that has none, and the two are compared.

A round that fails meets a name in use, and no other round can meet the same one, as the underscores
of an element's name can be counted off whatever the base ends in.  So there are at most as many
failing rounds as there are names in use, where a name counts once however often it is listed.

Main definitions:

* `SearchEnds` — the search, round by round.

Main results:

* `SearchEnds.iff_least` — the search ends with the first separator that makes all names free;
* `separator_le_card` — **no more rounds fail than there are names in use**;
* `freshElementNames_congr` — which names are found depends on the names in use as a set;
* `separator_search_ends` — the search ends after so many rounds, with the names computed.
-/

import Mathlib.Data.Finset.Card
import BoundQuery.Proofs.ElementNames

set_option relaxedAutoImplicit false
set_option autoImplicit false

namespace BoundQuery

/-! ### The search -/

/-- **The search, round by round**: begun with `k` underscores, it ends after a number of rounds and
with a list of names.  A round ends the search if none of its names is in use, and has another round
behind it if one is. -/
inductive SearchEnds (taken : List Text) (base : Text) (len : Nat) : Nat → Nat → List Text → Prop
  | found {k : Nat} (free : ∀ n ∈ elementNames base k len, n ∉ taken) :
      SearchEnds taken base len k 1 (elementNames base k len)
  | again {k rounds : Nat} {names : List Text} (used : ∃ n ∈ elementNames base k len, n ∈ taken)
      (rest : SearchEnds taken base len (k + 1) rounds names) :
      SearchEnds taken base len k (rounds + 1) names

variable {taken : List Text} {base : Text} {len : Nat}

theorem elementNamesFree_eq_true_iff {k : Nat} :
    elementNamesFree taken base len k = true ↔ ∀ n ∈ elementNames base k len, n ∉ taken := by
  simp [elementNamesFree]

theorem elementNamesFree_eq_false_iff {k : Nat} :
    elementNamesFree taken base len k = false ↔ ∃ n ∈ elementNames base k len, n ∈ taken := by
  simp [elementNamesFree]

namespace SearchEnds

/-- The search goes on as long as rounds fail. -/
theorem of_failing {j : Nat} (hfree : elementNamesFree taken base len j = true) (d k : Nat)
    (hj : j = k + d) (hfail : ∀ i, k ≤ i → i < j → elementNamesFree taken base len i = false) :
    SearchEnds taken base len k (d + 1) (elementNames base j len) := by
  induction d generalizing k with
  | zero =>
      subst hj
      exact .found (elementNamesFree_eq_true_iff.1 hfree)
  | succ d ih =>
      have hused := elementNamesFree_eq_false_iff.1 (hfail k (Nat.le_refl k) (by omega))
      exact .again hused (ih (k + 1) (by omega) fun i hi => hfail i (by omega))

/-- The search ends in one way. -/
theorem unique {k rounds rounds' : Nat} {names names' : List Text}
    (h : SearchEnds taken base len k rounds names) (h' : SearchEnds taken base len k rounds' names') :
    rounds = rounds' ∧ names = names' := by
  induction h generalizing rounds' with
  | found free =>
      cases h' with
      | found _ => exact ⟨rfl, rfl⟩
      | again used _ =>
          obtain ⟨n, hn, hmem⟩ := used
          exact absurd hmem (free n hn)
  | again used _ ih =>
      cases h' with
      | found free =>
          obtain ⟨n, hn, hmem⟩ := used
          exact absurd hmem (free n hn)
      | again _ rest =>
          obtain ⟨rfl, rfl⟩ := ih rest
          exact ⟨rfl, rfl⟩

/-- **The search ends with the first separator that makes all names free**, one round behind those
that failed. -/
theorem iff_least {k : Nat} (hfree : elementNamesFree taken base len k = true)
    (hfail : ∀ j < k, elementNamesFree taken base len j = false) (rounds : Nat)
    (names : List Text) :
    SearchEnds taken base len 0 rounds names ↔ rounds = k + 1 ∧ names = elementNames base k len := by
  have hends := of_failing hfree k 0 (Nat.zero_add k).symm fun i _ hi => hfail i hi
  constructor
  · intro h
    exact h.unique hends
  · rintro ⟨rfl, rfl⟩
    exact hends

end SearchEnds

/-! ### The rounds -/

/-- What is free depends on the names in use as a set. -/
theorem elementNamesFree_congr {taken' : List Text} (h : ∀ n, n ∈ taken' ↔ n ∈ taken)
    (base : Text) (len k : Nat) :
    elementNamesFree taken' base len k = elementNamesFree taken base len k := by
  rw [Bool.eq_iff_iff, elementNamesFree_eq_true_iff, elementNamesFree_eq_true_iff]
  simp only [h]

variable (taken base len)

/-- The number of underscores that the search settles on. -/
def separator : Nat := leastUpTo (elementNamesFree taken base len) taken.length

theorem elementNamesFree_separator :
    elementNamesFree taken base len (separator taken base len) = true := by
  obtain ⟨k, hk, hfree⟩ := exists_elementNamesFree taken base len
  exact leastUpTo_holds hk hfree

theorem elementNamesFree_of_lt_separator {k : Nat} (h : k < separator taken base len) :
    elementNamesFree taken base len k = false :=
  leastUpTo_min h

/-- **No more rounds fail than there are names in use**, each counted once. -/
theorem separator_le_card : separator taken base len ≤ taken.toFinset.card := by
  obtain ⟨k, hk, hfree⟩ := exists_elementNamesFree taken.dedup base len
  rw [elementNamesFree_congr (fun _ => List.mem_dedup)] at hfree
  rw [List.card_toFinset]
  -- a round behind the first that succeeds would not have been reached
  have hle : separator taken base len ≤ k := by
    by_contra hlt
    rw [elementNamesFree_of_lt_separator taken base len (Nat.lt_of_not_le hlt)] at hfree
    cases hfree
  exact hle.trans hk

theorem separator_congr {taken' : List Text} (h : ∀ n, n ∈ taken' ↔ n ∈ taken) :
    separator taken' base len = separator taken base len := by
  have hcongr := elementNamesFree_congr h base len
  refine Nat.le_antisymm (Nat.le_of_not_lt fun hlt => ?_) (Nat.le_of_not_lt fun hlt => ?_)
  · have hfail := elementNamesFree_of_lt_separator taken' base len hlt
    rw [hcongr, elementNamesFree_separator] at hfail
    cases hfail
  · have hfail := elementNamesFree_of_lt_separator taken base len hlt
    rw [← hcongr, elementNamesFree_separator] at hfail
    cases hfail

/-- **Which names are found depends on the names in use as a set.** -/
theorem freshElementNames_congr {taken' : List Text} (h : ∀ n, n ∈ taken' ↔ n ∈ taken) :
    freshElementNames taken' base len = freshElementNames taken base len :=
  congrArg (elementNames base · len) (separator_congr taken base len h)

/-- **The search for a separator ends, and soon.**  For some number `k` of underscores, which is no
more than there are names in use, the search ends after `k + 1` rounds and in no other way; it ends
with the names computed, and these are the base, `k` underscores and the number of the element.
There is one for each element, they are distinct and none is in use, and with fewer underscores one
of them would be.  The names in use matter as a set only. -/
theorem separator_search_ends :
    (∃ k ≤ taken.toFinset.card,
      (∀ rounds names, SearchEnds taken base len 0 rounds names ↔
        rounds = k + 1 ∧ names = freshElementNames taken base len) ∧
      freshElementNames taken base len =
        (List.range len).map (fun i => base ++ List.replicate k '_' ++ decimal i) ∧
      ∀ j < k, ∃ i < len, base ++ List.replicate j '_' ++ decimal i ∈ taken) ∧
    (freshElementNames taken base len).length = len ∧
    (freshElementNames taken base len).Nodup ∧
    (∀ n ∈ freshElementNames taken base len, n ∉ taken) ∧
    ∀ taken', taken'.toFinset = taken.toFinset →
      freshElementNames taken' base len = freshElementNames taken base len := by
  have hfail : ∀ j < separator taken base len, elementNamesFree taken base len j = false :=
    fun _ => elementNamesFree_of_lt_separator taken base len
  refine ⟨⟨separator taken base len, separator_le_card taken base len, ?_, rfl, fun j hj => ?_⟩,
    length_freshElementNames taken base len, nodup_freshElementNames taken base len,
    fun n => not_mem_of_mem_freshElementNames, fun taken' heq => ?_⟩
  · exact SearchEnds.iff_least (elementNamesFree_separator taken base len) hfail
  · obtain ⟨n, hn, hmem⟩ := elementNamesFree_eq_false_iff.1 (hfail j hj)
    obtain ⟨i, hi, rfl⟩ := List.mem_map.1 hn
    exact ⟨i, List.mem_range.1 hi, hmem⟩
  · refine freshElementNames_congr taken base len fun n => ?_
    rw [← List.mem_toFinset, heq, List.mem_toFinset]

/-- As many rounds as can be needed: each of the names in use, one of them listed twice, fails a round
of its own, though the base ends in an underscore and the names in use in digits. -/
example :
    let taken := ["a_1".toList, "a__0".toList, "a_1".toList]
    freshElementNames taken "a_".toList 2 = ["a___0".toList, "a___1".toList] ∧
      taken.toFinset.card + 1 = 3 := by
  decide

end BoundQuery

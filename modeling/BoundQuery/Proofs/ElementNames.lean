/-
**The names that a list is spread over are free and distinct.**

`FreshName.lean` searches for the fewest underscores that make the names of all elements free, in as
many rounds as there are names in use.  That this is enough is a counting argument: a round that
fails spends a name in use, no two rounds can spend the same one, because the underscores and the
numeral of an element's name can be told apart whatever the base, and so there is one round more
than there are names to spend.

Main results:

* `elementName_inj` — underscores and position are read off an element's name;
* `exists_elementNamesFree` — **some round of the search succeeds**;
* `nodup_freshElementNames`, `not_mem_of_mem_freshElementNames` — the names found are distinct, and
  none of them is in use;
* `isName_of_mem_freshElementNames` — they are names of markers if the base is.
-/

import BoundQuery.FreshName
import BoundQuery.Proofs.Readable

set_option relaxedAutoImplicit false
set_option autoImplicit false

namespace BoundQuery

theorem decimal_ne_nil (n : Nat) : decimal n ≠ [] := Nat.toDigits_ne_nil

theorem isWordChar_of_mem_decimal {n : Nat} {c : Char} (h : c ∈ decimal n) :
    isWordChar c = true :=
  isWordChar_of_isDigit (List.all_eq_true.1 (isDigits_decimal n) c h)

theorem isWordChar_of_mem_underscores {k : Nat} {c : Char} (h : c ∈ underscores k) :
    isWordChar c = true := by
  rw [List.eq_of_mem_replicate h]
  decide

/-- A numeral behind a word makes a name. -/
theorem Text.isName_append_decimal {s : Text} (hs : ∀ c ∈ s, isWordChar c = true) (n : Nat) :
    (s ++ decimal n).isName = true := by
  refine (Text.isName_iff _).2 ⟨by simp [decimal_ne_nil], fun c hc => ?_⟩
  rcases List.mem_append.1 hc with hc | hc
  · exact hs c hc
  · exact isWordChar_of_mem_decimal hc

/-- **Underscores and position are read off an element's name**, whatever the base. -/
theorem elementName_inj {base : Text} {k k' i i' : Nat}
    (h : elementName base k i = elementName base k' i') : k = k' ∧ i = i' := by
  simp only [elementName, List.append_assoc] at h
  have htail := List.append_cancel_left h
  -- a numeral holds no underscore, so counting them gives their number
  have hcount : ∀ m j : Nat, (underscores m ++ decimal j).count '_' = m := by
    intro m j
    have hnone : (decimal j).count '_' = 0 :=
      List.count_eq_zero.2 Nat.underscore_not_in_toDigits
    rw [List.count_append, hnone, underscores, List.count_replicate_self, Nat.add_zero]
  have hk : k = k' := by rw [← hcount k i, htail, hcount]
  subst hk
  exact ⟨rfl, decimal_injective (List.append_cancel_left htail)⟩

theorem nodup_elementNames (base : Text) (k len : Nat) : (elementNames base k len).Nodup := by
  refine List.pairwise_map.2 (List.nodup_range.imp ?_)
  intro i j hne h
  exact hne (elementName_inj h).2

theorem elementNamesFree_iff (taken : List Text) (base : Text) (len k : Nat) :
    elementNamesFree taken base len k = true ↔ ∀ i < len, elementName base k i ∉ taken := by
  simp [elementNamesFree, elementNames]

/-- **Some round of the search succeeds**: the rounds that fail spend different names in use. -/
theorem exists_elementNamesFree (taken : List Text) (base : Text) (len : Nat) :
    ∃ k ≤ taken.length, elementNamesFree taken base len k = true := by
  by_cases hex : ∃ k ≤ taken.length, elementNamesFree taken base len k = true
  · exact hex
  · have hspent : ∀ k, ∃ i, k ≤ taken.length → elementName base k i ∈ taken := by
      intro k
      by_cases hk : k ≤ taken.length
      · have hfail : ¬ ∀ i < len, elementName base k i ∉ taken := fun h =>
          hex ⟨k, hk, (elementNamesFree_iff taken base len k).2 h⟩
        obtain ⟨i, hi⟩ := Classical.not_forall.1 hfail
        obtain ⟨_, hi⟩ := Classical.not_imp.1 hi
        exact ⟨i, fun _ => Classical.not_not.1 hi⟩
      · exact ⟨0, fun h => absurd h hk⟩
    obtain ⟨spent, hmem⟩ := Classical.axiomOfChoice hspent
    have hnodup : ((List.range (taken.length + 1)).map fun k =>
        elementName base k (spent k)).Nodup := by
      refine List.pairwise_map.2 (List.nodup_range.imp ?_)
      intro k k' hne h
      exact hne (elementName_inj h).1
    have hsub : ((List.range (taken.length + 1)).map fun k =>
        elementName base k (spent k)) ⊆ taken := by
      intro n hn
      obtain ⟨k, hk, rfl⟩ := List.mem_map.1 hn
      exact hmem k (by have := List.mem_range.1 hk; omega)
    have hlen := hnodup.length_le_of_subset hsub
    rw [List.length_map, List.length_range] at hlen
    omega

/-! ### The names found -/

theorem nodup_freshElementNames (taken : List Text) (base : Text) (len : Nat) :
    (freshElementNames taken base len).Nodup :=
  nodup_elementNames _ _ _

/-- The names found are free. -/
theorem not_mem_of_mem_freshElementNames {taken : List Text} {base n : Text} {len : Nat}
    (h : n ∈ freshElementNames taken base len) : n ∉ taken := by
  obtain ⟨k, hk, hfree⟩ := exists_elementNamesFree taken base len
  have hall := (elementNamesFree_iff _ _ _ _).1 (leastUpTo_holds hk hfree)
  obtain ⟨i, hi, rfl⟩ := List.mem_map.1 h
  exact hall i (List.mem_range.1 hi)

/-- The names found are names of markers if the base is. -/
theorem isName_of_mem_freshElementNames {taken : List Text} {base n : Text} {len : Nat}
    (hbase : base.isName = true) (h : n ∈ freshElementNames taken base len) :
    n.isName = true := by
  obtain ⟨i, _, rfl⟩ := List.mem_map.1 h
  refine Text.isName_append_decimal (fun c hc => ?_) i
  rcases List.mem_append.1 hc with hc | hc
  · exact ((Text.isName_iff base).1 hbase).2 c hc
  · exact isWordChar_of_mem_underscores hc

end BoundQuery

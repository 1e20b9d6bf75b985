/-
**Names that are free.**

Compilation makes up names in two places: one name per element when a list is spread over its
elements, and one name per `?` marker of a clause.  In both the names are a given text, a number of
underscores and a numeral, with as few underscores as make the names free.

Main definitions:

* `leastUpTo` — the least number up to a bound with a property, or the bound;
* `elementName`, `elementNames` — the names of a list's elements with a given separator;
* `freshElementNames` — those names with the shortest separator that makes them all free;
* `freshStem` — the shortest extension of a stem that starts no name of a list.

Main results:

* `leastUpTo_min`, `leastUpTo_holds` — nothing below the result has the property, and the result has
  it whenever any number up to the bound does;
* `isPrefixOf_freshStem` — **no given name starts with the chosen stem**.
-/

import BoundQuery.Text

set_option relaxedAutoImplicit false
set_option autoImplicit false

namespace BoundQuery

/-! ### Bounded search -/

/-- The least number with the property `p`, if there is one up to `bound`; otherwise `bound`. -/
def leastUpTo (p : Nat → Bool) (bound : Nat) : Nat := ((List.range bound).find? p).getD bound

/-- Nothing below the result has the property. -/
theorem leastUpTo_min {p : Nat → Bool} {bound k : Nat} (h : k < leastUpTo p bound) :
    p k = false := by
  unfold leastUpTo at h
  cases hf : (List.range bound).find? p with
  | none =>
      rw [hf] at h
      simpa using List.find?_eq_none.1 hf k (by simpa using h)
  | some j =>
      rw [hf] at h
      rw [List.find?_range_eq_some] at hf
      simpa using hf.2.2 k (by simpa using h)

/-- The result has the property whenever some number up to the bound has it. -/
theorem leastUpTo_holds {p : Nat → Bool} {bound k : Nat} (hk : k ≤ bound) (h : p k = true) :
    p (leastUpTo p bound) = true := by
  unfold leastUpTo
  cases hf : (List.range bound).find? p with
  | none =>
      have hnone := List.find?_eq_none.1 hf
      have : k = bound := by
        by_cases hlt : k < bound
        · exact absurd h (hnone k (by simpa using hlt))
        · omega
      simpa [← this] using h
  | some j => simpa using List.find?_some hf

/-! ### Names of the elements of a list -/

/-- A number of underscores. -/
def underscores (k : Nat) : Text := List.replicate k '_'

/-- The name of element `i` of the list bound to `base`, with `k` underscores in between. -/
def elementName (base : Text) (k i : Nat) : Text := base ++ underscores k ++ decimal i

/-- The names of `len` elements. -/
def elementNames (base : Text) (k len : Nat) : List Text := (List.range len).map (elementName base k)

/-- Whether the names of `len` elements with `k` underscores are all free. -/
def elementNamesFree (taken : List Text) (base : Text) (len k : Nat) : Bool :=
  (elementNames base k len).all fun n => !taken.contains n

/-- The names of `len` elements with the fewest underscores that make all of them free.  Each round
of the search that fails spends a taken name of its own, so no more rounds than names are needed. -/
def freshElementNames (taken : List Text) (base : Text) (len : Nat) : List Text :=
  elementNames base (leastUpTo (elementNamesFree taken base len) taken.length) len

@[simp] theorem length_freshElementNames (taken : List Text) (base : Text) (len : Nat) :
    (freshElementNames taken base len).length = len := by
  simp [freshElementNames, elementNames]

/-! ### Stems -/

/-- The length of the longest of some texts. -/
def maxLength (names : List Text) : Nat := names.foldr (fun n m => max n.length m) 0

theorem length_le_maxLength {names : List Text} {n : Text} (h : n ∈ names) :
    n.length ≤ maxLength names := by
  induction names with
  | nil => cases h
  | cons x xs ih =>
      simp only [maxLength, List.foldr_cons] at ih ⊢
      rcases List.mem_cons.1 h with rfl | h
      · omega
      · have := ih h
        omega

/-- Whether no name starts with `stem` and `k + 1` underscores. -/
def stemFree (stem : Text) (names : List Text) (k : Nat) : Bool :=
  names.all fun n => !(stem ++ underscores (k + 1)).isPrefixOf n

/-- The stem with the fewest underscores, but at least one, that starts none of the names.  A stem
longer than every name starts none. -/
def freshStem (stem : Text) (names : List Text) : Text :=
  stem ++ underscores (leastUpTo (stemFree stem names) (maxLength names) + 1)

/-- **No given name starts with the chosen stem.** -/
theorem isPrefixOf_freshStem (stem : Text) (names : List Text) :
    ∀ n ∈ names, (freshStem stem names).isPrefixOf n = false := by
  have hbound : stemFree stem names (maxLength names) = true := by
    simp only [stemFree, List.all_eq_true, Bool.not_eq_true']
    intro n hn
    -- the stem with so many underscores is longer than any of the names
    have hlen := length_le_maxLength hn
    cases hp : (stem ++ underscores (maxLength names + 1)).isPrefixOf n with
    | false => rfl
    | true =>
        have := (List.isPrefixOf_iff_prefix.1 hp).length_le
        simp [underscores] at this
        omega
  have := leastUpTo_holds (Nat.le_refl _) hbound
  simp only [stemFree, List.all_eq_true, Bool.not_eq_true'] at this
  exact this

end BoundQuery

/-
**Tables kept as lists of pairs, in the order of insertion.**

A table is a list of key and value pairs in which no key occurs twice.  Looking a key up, replacing
its value where it stands or appending it, and erasing it are the three operations; each is
described by what it does to the keys and to later look-ups.

Main definitions:

* `Assoc.keys` — the keys in order;
* `Assoc.get?`, `Assoc.upsert`, `Assoc.erase` — look up, replace or append, erase.

Main results:

* `Assoc.keys_upsert` — replacing keeps the order of the keys, appending adds one at the end;
* `Assoc.nodup_upsert`, `Assoc.nodup_erase` — both keep the keys distinct;
* `Assoc.get?_upsert`, `Assoc.get?_erase` — what a look-up finds afterwards.
-/

set_option relaxedAutoImplicit false
set_option autoImplicit false

namespace BoundQuery

namespace Assoc

variable {κ ν : Type}

/-- The keys of a table, in order. -/
def keys (es : List (κ × ν)) : List κ := es.map Prod.fst

@[simp] theorem keys_nil : keys ([] : List (κ × ν)) = [] := rfl

@[simp] theorem keys_cons (e : κ × ν) (es : List (κ × ν)) : keys (e :: es) = e.1 :: keys es := rfl

/-- Changing keys changes nothing else. -/
theorem keys_map {κ' : Type} (g : κ → κ') (es : List (κ × ν)) :
    keys (es.map fun e => (g e.1, e.2)) = (keys es).map g := by
  rw [keys, keys, List.map_map, List.map_map]
  rfl

variable [DecidableEq κ]

/-- The value of a key. -/
def get? (k : κ) : List (κ × ν) → Option ν
  | [] => none
  | e :: es => if e.1 = k then some e.2 else get? k es

/-- Give a key a value: in place if the table has the key, at the end otherwise. -/
def upsert (k : κ) (v : ν) : List (κ × ν) → List (κ × ν)
  | [] => [(k, v)]
  | e :: es => if e.1 = k then (k, v) :: es else e :: upsert k v es

/-- The table without a key. -/
def erase (k : κ) (es : List (κ × ν)) : List (κ × ν) := es.filter fun e => !decide (e.1 = k)

/-! ### Keys -/

theorem keys_upsert (k : κ) (v : ν) (es : List (κ × ν)) :
    keys (upsert k v es) = if k ∈ keys es then keys es else keys es ++ [k] := by
  induction es with
  | nil => simp [upsert]
  | cons e es ih =>
      by_cases h : e.1 = k
      · simp [upsert, h]
      · by_cases hk : k ∈ keys es <;> simp [upsert, h, ih, hk, Ne.symm h]

/-- A key that the table lacks is appended with its value. -/
theorem upsert_of_not_mem {k : κ} {es : List (κ × ν)} (h : k ∉ keys es) (v : ν) :
    upsert k v es = es ++ [(k, v)] := by
  induction es with
  | nil => rfl
  | cons e es ih =>
      simp only [keys_cons, List.mem_cons, not_or] at h
      rw [upsert, if_neg (Ne.symm h.1), ih h.2, List.cons_append]

theorem nodup_upsert (k : κ) (v : ν) {es : List (κ × ν)} (h : (keys es).Nodup) :
    (keys (upsert k v es)).Nodup := by
  rw [keys_upsert]
  by_cases hk : k ∈ keys es
  · simpa [hk] using h
  · simp only [hk, if_false]
    refine List.nodup_append.2 ⟨h, by simp, ?_⟩
    intro a ha b hb hab
    simp only [List.mem_singleton] at hb
    exact hk (hb ▸ hab ▸ ha)

/-- Erasing a key that the table lacks changes nothing. -/
theorem erase_of_not_mem {k : κ} {es : List (κ × ν)} (h : k ∉ keys es) : erase k es = es := by
  refine List.filter_eq_self.2 fun e he => ?_
  have hne : e.1 ≠ k := fun heq => h (heq ▸ List.mem_map_of_mem he)
  simp [hne]

theorem keys_erase (k : κ) (es : List (κ × ν)) :
    keys (erase k es) = (keys es).filter fun k' => !decide (k' = k) := by
  induction es with
  | nil => rfl
  | cons e es ih =>
      simp only [erase, keys] at ih ⊢
      by_cases h : e.1 = k <;> simp [h, ih]

theorem nodup_erase (k : κ) {es : List (κ × ν)} (h : (keys es).Nodup) :
    (keys (erase k es)).Nodup := by
  rw [keys_erase]
  exact h.filter _

/-! ### Look-ups -/

theorem get?_upsert (k k' : κ) (v : ν) (es : List (κ × ν)) :
    get? k' (upsert k v es) = if k = k' then some v else get? k' es := by
  induction es with
  | nil => simp [upsert, get?]
  | cons e es ih =>
      by_cases h : e.1 = k
      · by_cases h' : k = k'
        · simp [upsert, get?, h, h']
        · simp [upsert, get?, h, h']
      · by_cases h' : k = k'
        · subst h'
          simp [upsert, get?, h, ih]
        · simp [upsert, get?, h, ih, h']

theorem get?_erase (k k' : κ) (es : List (κ × ν)) :
    get? k' (erase k es) = if k = k' then none else get? k' es := by
  induction es with
  | nil => simp [erase, get?]
  | cons e es ih =>
      simp only [erase] at ih ⊢
      by_cases h : e.1 = k
      · by_cases h' : k = k'
        · simpa [h, h'] using ih
        · simp [get?, h, h', ih]
      · by_cases h' : k = k'
        · subst h'
          simp [get?, h, ih]
        · simp [get?, h, h', ih]

/-- A key has a value exactly if it is one of the table's keys. -/
theorem isSome_get? (k : κ) (es : List (κ × ν)) : (get? k es).isSome = true ↔ k ∈ keys es := by
  induction es with
  | nil => simp [get?]
  | cons e es ih =>
      by_cases h : e.1 = k
      · simp [get?, h]
      · simp [get?, h, ih, Ne.symm h]

/-- In a table with distinct keys, every entry is found under its key. -/
theorem get?_eq_some_iff {es : List (κ × ν)} (h : (keys es).Nodup) (k : κ) (v : ν) :
    get? k es = some v ↔ (k, v) ∈ es := by
  induction es with
  | nil => simp [get?]
  | cons e es ih =>
      obtain ⟨hn, ht⟩ := List.nodup_cons.1 h
      by_cases he : e.1 = k
      · subst he
        have hv : (e.1, v) ∉ es := fun hm => hn (List.mem_map.2 ⟨_, hm, rfl⟩)
        simp only [get?, if_true, List.mem_cons, hv, or_false, Option.some.injEq]
        exact ⟨fun h => by cases h; rfl, fun h => by rw [← h]⟩
      · have hne : (k, v) ≠ e := fun h => he (by rw [← h])
        simp [get?, he, ih ht, hne]

end Assoc

end BoundQuery

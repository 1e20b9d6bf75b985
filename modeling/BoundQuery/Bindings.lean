/-
**Bindings: an insertion-ordered map from keys to values.**

Callers bind values to positions, for the markers `?`, and to names, for the markers `:name`; one
collection may hold both.  The order of insertion is kept, because positional values are handed out
in that order and diagnostics list it.

Main definitions:

* `Key` — a position or a name; `Key.ofText` takes a name with or without its colon;
* `Bindings` — the map, with the proof that its keys are distinct;
* `Bindings.get?`, `insert`, `push`, `remove`, `merge` — look up, replace or append, append behind
  the highest position, erase, insert every entry of another;
* `Bindings.ofList`, `Bindings.ofValues` — collected entries, and values at consecutive positions.

Main results:

* `get?_insert`, `keys_insert`, `get?_remove` — what each operation does to look-ups and order;
* `ofList_entries` — collecting the entries of a map gives the map.
-/

import BoundQuery.Assoc
import BoundQuery.Text
import BoundQuery.Value

set_option relaxedAutoImplicit false
set_option autoImplicit false

namespace BoundQuery

/-! ### Keys -/

/-- The key of a binding. -/
inductive Key where
  /-- A position, counted from zero and matched against the `?` markers. -/
  | index (i : Nat)
  /-- The name of a marker, without its colon. -/
  | name (n : Text)
deriving DecidableEq, Repr

namespace Key

/-- A named key; one leading colon is not part of the name. -/
def ofText : Text → Key
  | ':' :: n => name n
  | n => name n

/-- The name of a named key. -/
def name? : Key → Option Text
  | index _ => none
  | name n => some n

/-- The position of a positional key. -/
def index? : Key → Option Nat
  | index i => some i
  | name _ => none

/-- Whether a key is a position. -/
def isIndex (k : Key) : Bool := k.index?.isSome

/-- How diagnostics write a key: a position as a numeral, a name with its colon. -/
def written : Key → Text
  | index i => decimal i
  | name n => ':' :: n

end Key

/-! ### The map -/

/-- An insertion-ordered map from keys to values. -/
structure Bindings (α : Type) where
  /-- The entries in order. -/
  entries : List (Key × Value α)
  /-- No key occurs twice. -/
  nodup : (Assoc.keys entries).Nodup

namespace Bindings

variable {α : Type}

@[ext] theorem ext {a b : Bindings α} (h : a.entries = b.entries) : a = b := by
  cases a; cases b; cases h; rfl

/-- No entries. -/
def empty : Bindings α := ⟨[], by simp⟩

instance : Inhabited (Bindings α) := ⟨empty⟩

/-- The keys in order. -/
def keys (b : Bindings α) : List Key := Assoc.keys b.entries

/-- The names of the named keys, in order. -/
def names (b : Bindings α) : List Text := b.keys.filterMap Key.name?

/-- The number of entries. -/
def size (b : Bindings α) : Nat := b.entries.length

/-- Whether there is no entry. -/
def isEmpty (b : Bindings α) : Bool := b.entries.isEmpty

/-- The value of a key. -/
def get? (b : Bindings α) (k : Key) : Option (Value α) := Assoc.get? k b.entries

/-- Whether a key has a value. -/
def contains (b : Bindings α) (k : Key) : Bool := (b.get? k).isSome

/-- Give a key a value.  An entry that is replaced keeps its place, a new one goes to the end. -/
def insert (b : Bindings α) (k : Key) (v : Value α) : Bindings α :=
  ⟨Assoc.upsert k v b.entries, Assoc.nodup_upsert k v b.nodup⟩

/-- The map without a key. -/
def remove (b : Bindings α) (k : Key) : Bindings α :=
  ⟨Assoc.erase k b.entries, Assoc.nodup_erase k b.nodup⟩

/-- One more than the highest position, or zero if there is none. -/
def nextIndex (b : Bindings α) : Nat :=
  (b.keys.filterMap Key.index?).foldr (fun i n => max (i + 1) n) 0

/-- Append a value behind the highest position. -/
def push (b : Bindings α) (v : Value α) : Bindings α := b.insert (.index b.nextIndex) v

/-- Insert entries one after the other. -/
def insertAll (b : Bindings α) (es : List (Key × Value α)) : Bindings α :=
  es.foldl (fun acc e => acc.insert e.1 e.2) b

/-- Insert every entry of `other`, replacing the values of keys both have. -/
def merge (b other : Bindings α) : Bindings α := b.insertAll other.entries

/-- The map collected from entries; of equal keys the first gives the place and the last the
value. -/
def ofList (es : List (Key × Value α)) : Bindings α := empty.insertAll es

/-- Values at the positions 0, 1, … -/
def ofValues (vs : List (Value α)) : Bindings α := vs.foldl push empty

/-- Whether any value is a list. -/
def hasList (b : Bindings α) : Bool := b.entries.any fun e => e.2.isList

/-- The only value, if there is exactly one and it is no list. -/
def single? (b : Bindings α) : Option (Value α) :=
  match b.entries with
  | [e] => if e.2.isList then none else some e.2
  | _ => none

/-- The datum bound to a name, if the name has a value and it is no list. -/
def datum? (b : Bindings α) (n : Text) : Option (Option α) :=
  (b.get? (.name n)).bind Value.datum?

/-- The values at positions, in the order of insertion. -/
def positional (b : Bindings α) : List (Value α) :=
  b.entries.filterMap fun e => if e.1.isIndex then some e.2 else none

/-- The entries under names, in order. -/
def named (b : Bindings α) : List (Key × Value α) := b.entries.filter fun e => !e.1.isIndex

/-! ### What the operations do -/

theorem get?_insert (b : Bindings α) (k k' : Key) (v : Value α) :
    (b.insert k v).get? k' = if k = k' then some v else b.get? k' :=
  Assoc.get?_upsert k k' v b.entries

theorem keys_insert (b : Bindings α) (k : Key) (v : Value α) :
    (b.insert k v).keys = if k ∈ b.keys then b.keys else b.keys ++ [k] :=
  Assoc.keys_upsert k v b.entries

theorem get?_remove (b : Bindings α) (k k' : Key) :
    (b.remove k).get? k' = if k = k' then none else b.get? k' :=
  Assoc.get?_erase k k' b.entries

theorem get?_eq_some_iff (b : Bindings α) (k : Key) (v : Value α) :
    b.get? k = some v ↔ (k, v) ∈ b.entries :=
  Assoc.get?_eq_some_iff b.nodup k v

/-- The only value of a map, where it is taken for a scalar, is no list. -/
theorem isList_of_single? {b : Bindings α} {v : Value α} (h : b.single? = some v) :
    v.isList = false := by
  simp only [single?] at h
  split at h
  · split at h
    · cases h
    · cases h
      simp_all
  · cases h

/-- Inserting entries with new and distinct keys appends them as they stand. -/
theorem entries_insertAll (b : Bindings α) (es : List (Key × Value α))
    (h : (Assoc.keys (b.entries ++ es)).Nodup) :
    (b.insertAll es).entries = b.entries ++ es := by
  induction es generalizing b with
  | nil => simp [insertAll]
  | cons e es ih =>
      have hnew : e.1 ∉ Assoc.keys b.entries := by
        intro hm
        simp only [Assoc.keys, List.map_append, List.map_cons] at h hm
        exact (List.nodup_append.1 h).2.2 _ hm _ (by simp) rfl
      have hins : (b.insert e.1 e.2).entries = b.entries ++ [e] := Assoc.upsert_of_not_mem hnew e.2
      have := ih (b.insert e.1 e.2) (by rw [hins]; simpa using h)
      simpa [insertAll, hins] using this

/-- Entries with distinct keys are collected as they stand. -/
theorem entries_ofList {es : List (Key × Value α)} (h : (Assoc.keys es).Nodup) :
    (ofList es).entries = es := by
  simpa [ofList, empty] using entries_insertAll empty es (by simpa [empty] using h)

/-- Collecting the entries of a map gives the map. -/
@[simp] theorem ofList_entries (b : Bindings α) : ofList b.entries = b :=
  ext (entries_ofList b.nodup)

end Bindings

end BoundQuery

/-
**Bindings are kept in the order of insertion, and no key twice.**

A map of bindings carries the proof that its keys are distinct.  What it stands for are lists that
carry no proof: the first entry with a key has its value replaced, the first entry with a key is
taken out, and a positional value is appended without a look at the keys.  A key that occurred twice
would be found, replaced and taken out once only.  It never does: however a list has come about, its
keys are distinct, and the map and the list are never apart.

The appended value is the only one that needs an argument.  Its position is the least one above every
position there is, whatever was inserted out of order or taken out before, so no entry has it.

For merging, a map is determined by its keys in order and by what is found under them.  Both are
known of a merged map, and the laws of merging are read off.

Main definitions:

* `Assoc.put`, `Assoc.takeOut`, `Assoc.putAll`, `Assoc.pushNext` — the operations on lists of entries;
* `Bindings.History` — the ways in which a map can come about, with its outcome as a map and as a
  list.

Main results:

* `Assoc.eq_of_keys_eq` — a table with distinct keys is its keys and its look-ups;
* `Bindings.nextIndex_le_iff` — **the next position is the least above every position**;
* `Bindings.History.entries_outcome` — **the list is the map's**, however it has come about;
* `Bindings.keys_merge`, `Bindings.merge_assoc`, `Bindings.merge_self` — what merging does;
* `Bindings.kept_in_insertion_order` — the map as a whole.
-/

import Mathlib.Data.List.Nodup
import BoundQuery.Proofs.Naming

set_option relaxedAutoImplicit false
set_option autoImplicit false

namespace BoundQuery

/-! ### Lists of entries -/

namespace Assoc

section Tables

variable {κ ν : Type} [DecidableEq κ]

/-- Replace the value of the first entry with a key, or append an entry if there is none; and the
value that was replaced. -/
def put (k : κ) (v : ν) : List (κ × ν) → Option ν × List (κ × ν)
  | [] => (none, [(k, v)])
  | e :: es =>
      if e.1 = k then (some e.2, (k, v) :: es) else ((put k v es).1, e :: (put k v es).2)

/-- Take the first entry with a key out; and the value that was taken out. -/
def takeOut (k : κ) : List (κ × ν) → Option ν × List (κ × ν)
  | [] => (none, [])
  | e :: es => if e.1 = k then (some e.2, es) else ((takeOut k es).1, e :: (takeOut k es).2)

/-- Put entries one after the other. -/
def putAll (es new : List (κ × ν)) : List (κ × ν) :=
  new.foldl (fun acc e => (put e.1 e.2 acc).2) es

/-- What is replaced is what a look-up finds. -/
theorem put_eq (k : κ) (v : ν) (es : List (κ × ν)) : put k v es = (get? k es, upsert k v es) := by
  induction es with
  | nil => rfl
  | cons e es ih =>
      rw [put, get?, upsert, ih]
      split <;> rfl

/-- Where no key occurs twice, the first entry with a key is the only one. -/
theorem takeOut_eq_of_nodup {k : κ} {es : List (κ × ν)} (h : (keys es).Nodup) :
    takeOut k es = (get? k es, erase k es) := by
  induction es with
  | nil => rfl
  | cons e es ih =>
      obtain ⟨hnew, hrest⟩ := List.nodup_cons.1 h
      by_cases he : e.1 = k
      · have hnone : erase k es = es := erase_of_not_mem (he ▸ hnew)
        have hcons : erase k (e :: es) = erase k es := by simp [erase, he]
        rw [takeOut, get?, if_pos he, if_pos he, hcons, hnone]
      · have hcons : erase k (e :: es) = e :: erase k es := by simp [erase, he]
        rw [takeOut, get?, if_neg he, if_neg he, hcons, ih hrest]

/-- A replaced value keeps its place. -/
theorem upsert_of_split {k : κ} {pre : List (κ × ν)} (h : k ∉ keys pre) (v w : ν)
    (post : List (κ × ν)) : upsert k v (pre ++ (k, w) :: post) = pre ++ (k, v) :: post := by
  induction pre with
  | nil => simp [upsert]
  | cons e pre ih =>
      simp only [keys_cons, List.mem_cons, not_or] at h
      rw [List.cons_append, upsert, if_neg (Ne.symm h.1), ih h.2, List.cons_append]

/-- **A table with distinct keys is its keys and its look-ups.** -/
theorem eq_of_keys_eq {es us : List (κ × ν)} (h : (keys es).Nodup) (hkeys : keys es = keys us)
    (hget : ∀ k, get? k es = get? k us) : es = us := by
  induction es generalizing us with
  | nil => exact (List.map_eq_nil_iff.1 hkeys.symm).symm
  | cons e es ih =>
      cases us with
      | nil => cases hkeys
      | cons u us =>
          obtain ⟨hnew, hrest⟩ := List.nodup_cons.1 h
          obtain ⟨hkey, htail⟩ := List.cons.inj hkeys
          have hvalue : e.2 = u.2 := by simpa [get?, hkey] using hget u.1
          have htails : es = us := by
            refine ih hrest htail fun k => ?_
            by_cases hk : e.1 = k
            · -- neither tail has the key of the heads
              have hnone : k ∉ keys es := hk ▸ hnew
              have hnone' : k ∉ keys us := by rwa [keys, ← htail]
              rw [(get?_eq_none_iff k es).2 hnone, (get?_eq_none_iff k us).2 hnone']
            · have hu : u.1 ≠ k := fun hu => hk (hkey.trans hu)
              simpa [get?, hk, hu] using hget k
          rw [← Prod.eta e, ← Prod.eta u, hkey, hvalue, htails]

end Tables

/-- Append a value behind the highest position, without a look at the other keys. -/
def pushNext {ν : Type} (es : List (Key × ν)) (v : ν) : List (Key × ν) :=
  es ++ [(.index (((keys es).filterMap Key.index?).foldr (fun i n => max (i + 1) n) 0), v)]

end Assoc

namespace Bindings

variable {α : Type}

/-! ### The next position -/

theorem mem_indices_iff (b : Bindings α) (i : Nat) :
    i ∈ b.keys.filterMap Key.index? ↔ Key.index i ∈ b.keys := by
  rw [List.mem_filterMap]
  constructor
  · rintro ⟨k, hk, hi⟩
    cases k with
    | index j => cases hi; exact hk
    | name n => cases hi
  · exact fun h => ⟨_, h, rfl⟩

/-- **The next position is the least above every position.** -/
theorem nextIndex_le_iff (b : Bindings α) (n : Nat) :
    b.nextIndex ≤ n ↔ ∀ i, Key.index i ∈ b.keys → i < n := by
  have hfold : ∀ is : List Nat,
      is.foldr (fun i n => max (i + 1) n) 0 ≤ n ↔ ∀ i ∈ is, i < n := by
    intro is
    induction is with
    | nil => simp
    | cons i is ih => rw [List.foldr_cons, Nat.max_le, ih, List.forall_mem_cons, Nat.succ_le_iff]
  simp only [nextIndex, hfold, mem_indices_iff]

theorem lt_nextIndex {b : Bindings α} {i : Nat} (h : Key.index i ∈ b.keys) : i < b.nextIndex :=
  (nextIndex_le_iff b b.nextIndex).1 (Nat.le_refl _) i h

theorem nextIndex_not_mem_keys (b : Bindings α) : Key.index b.nextIndex ∉ b.keys :=
  fun h => Nat.lt_irrefl _ (lt_nextIndex h)

/-- **A value that is pushed is appended**, as its position is nobody's. -/
theorem entries_push (b : Bindings α) (v : Value α) :
    (b.push v).entries = b.entries ++ [(.index b.nextIndex, v)] :=
  Assoc.upsert_of_not_mem b.nextIndex_not_mem_keys v

/-- What is found before a value is pushed is found afterwards. -/
theorem get?_push_of_get? {b : Bindings α} {k : Key} {w : Value α} (h : b.get? k = some w)
    (v : Value α) : (b.push v).get? k = some w := by
  have hfound : Assoc.get? k b.entries = some w := h
  rw [get?, entries_push, Assoc.get?_append, hfound, Option.some_or]

/-! ### However a map has come about -/

/-- **The ways in which a map can come about**: it is empty, collected from entries or made of values
at positions, or an operation is done to such a map. -/
inductive History (α : Type) where
  | empty
  | collected (es : List (Key × Value α))
  | values (vs : List (Value α))
  | insert (h : History α) (k : Key) (v : Value α)
  | push (h : History α) (v : Value α)
  | remove (h : History α) (k : Key)
  | merge (h other : History α)

namespace History

/-- The outcome as a map. -/
def outcome : History α → Bindings α
  | empty => .empty
  | collected es => .ofList es
  | values vs => .ofValues vs
  | insert h k v => h.outcome.insert k v
  | push h v => h.outcome.push v
  | remove h k => h.outcome.remove k
  | merge h other => h.outcome.merge other.outcome

/-- The outcome as a list of entries that nothing is known about. -/
def entries : History α → List (Key × Value α)
  | empty => []
  | collected es => Assoc.putAll [] es
  | values vs => vs.foldl Assoc.pushNext []
  | insert h k v => (Assoc.put k v h.entries).2
  | push h v => Assoc.pushNext h.entries v
  | remove h k => (Assoc.takeOut k h.entries).2
  | merge h other => Assoc.putAll h.entries other.entries

end History

theorem entries_insertAll_eq_putAll (b : Bindings α) (es : List (Key × Value α)) :
    (b.insertAll es).entries = Assoc.putAll b.entries es := by
  induction es generalizing b with
  | nil => rfl
  | cons e es ih =>
      have hput : (Assoc.put e.1 e.2 b.entries).2 = (b.insert e.1 e.2).entries :=
        congrArg Prod.snd (Assoc.put_eq e.1 e.2 b.entries)
      rw [Assoc.putAll, List.foldl_cons, hput]
      exact ih (b.insert e.1 e.2)

theorem entries_foldl_push (b : Bindings α) (vs : List (Value α)) :
    (vs.foldl push b).entries = vs.foldl Assoc.pushNext b.entries := by
  induction vs generalizing b with
  | nil => rfl
  | cons v vs ih =>
      rw [List.foldl_cons, List.foldl_cons, ih, entries_push]
      rfl

/-- **The list is the map's**, however it has come about. -/
theorem History.entries_outcome (h : History α) : h.outcome.entries = h.entries := by
  induction h with
  | empty => rfl
  | collected es => exact entries_insertAll_eq_putAll .empty es
  | values vs => exact entries_foldl_push .empty vs
  | insert h k v ih =>
      rw [entries, ← ih, Assoc.put_eq]
      rfl
  | push h v ih =>
      rw [entries, ← ih]
      exact entries_push h.outcome v
  | remove h k ih =>
      rw [entries, ← ih, Assoc.takeOut_eq_of_nodup h.outcome.nodup]
      rfl
  | merge h other ih ih' =>
      rw [entries, ← ih, ← ih']
      exact entries_insertAll_eq_putAll h.outcome other.outcome.entries

/-! ### Replacing -/

/-- An entry whose value is replaced stays where it is. -/
theorem entries_insert_of_split {b : Bindings α} {k : Key} {w : Value α}
    {pre post : List (Key × Value α)} (h : b.entries = pre ++ (k, w) :: post) (v : Value α) :
    b.get? k = some w ∧ (b.insert k v).entries = pre ++ (k, v) :: post := by
  have hget : b.get? k = some w := by
    rw [get?_eq_some_iff, h]
    exact List.mem_append_right pre List.mem_cons_self
  have hnew : k ∉ Assoc.keys pre := by
    intro hk
    have hnodup := b.nodup
    rw [h, Assoc.keys, List.map_append] at hnodup
    exact (List.nodup_append.1 hnodup).2.2 k hk k List.mem_cons_self rfl
  have hupsert : (b.insert k v).entries = Assoc.upsert k v b.entries := rfl
  refine ⟨hget, ?_⟩
  rw [hupsert, h]
  exact Assoc.upsert_of_split hnew v w post

/-- A key is inserted in the place of its entry, or at the end if it has none. -/
theorem entries_insert_cases (b : Bindings α) (k : Key) (v : Value α) :
    (b.get? k = none ∧ (b.insert k v).entries = b.entries ++ [(k, v)]) ∨
      ∃ pre w post, b.entries = pre ++ (k, w) :: post ∧ b.get? k = some w ∧
        (b.insert k v).entries = pre ++ (k, v) :: post := by
  cases hget : b.get? k with
  | none =>
      exact .inl ⟨rfl, Assoc.upsert_of_not_mem ((Assoc.get?_eq_none_iff k b.entries).1 hget) v⟩
  | some w =>
      obtain ⟨pre, post, hsplit⟩ := List.append_of_mem ((get?_eq_some_iff b k w).1 hget)
      exact .inr ⟨pre, w, post, hsplit, rfl, (entries_insert_of_split hsplit v).2⟩

/-! ### Merging -/

theorem eq_of_keys_eq {a b : Bindings α} (hkeys : a.keys = b.keys)
    (hget : ∀ k, a.get? k = b.get? k) : a = b :=
  ext (Assoc.eq_of_keys_eq a.nodup hkeys hget)

/-- Entries with distinct keys bring the keys that are new, in their order. -/
theorem keys_insertAll {es : List (Key × Value α)} (h : (Assoc.keys es).Nodup) (b : Bindings α) :
    (b.insertAll es).keys = b.keys ++ (Assoc.keys es).filter (· ∉ b.keys) := by
  induction es generalizing b with
  | nil => simp [insertAll]
  | cons e es ih =>
      obtain ⟨hnew, hrest⟩ := List.nodup_cons.1 h
      have hstep : (b.insertAll (e :: es)).keys = ((b.insert e.1 e.2).insertAll es).keys := rfl
      rw [hstep, ih hrest, keys_insert, Assoc.keys_cons]
      by_cases he : e.1 ∈ b.keys
      · rw [if_pos he, List.filter_cons_of_neg (by simpa using he)]
      · rw [if_neg he, List.filter_cons_of_pos (by simpa using he), List.append_assoc,
          List.singleton_append]
        -- the key just inserted is not among those to come
        have hrest : ∀ k ∈ Assoc.keys es,
            decide (k ∉ b.keys ++ [e.1]) = decide (k ∉ b.keys) := by
          intro k hk
          have hne : k ≠ e.1 := fun heq => hnew (heq ▸ hk)
          simp [hne]
        rw [List.filter_congr hrest]

/-- **The keys of a merged map** are those of the first and behind them the new ones of the second,
each in its own order. -/
theorem keys_merge (a b : Bindings α) :
    (a.merge b).keys = a.keys ++ b.keys.filter (· ∉ a.keys) :=
  keys_insertAll b.nodup a

/-- **Merging is associative.** -/
theorem merge_assoc (a b c : Bindings α) : (a.merge b).merge c = a.merge (b.merge c) := by
  refine eq_of_keys_eq ?_ fun k => ?_
  · rw [keys_merge, keys_merge, keys_merge, keys_merge, List.filter_append, List.filter_filter,
      List.append_assoc]
    have hnew : ∀ k, decide (k ∉ a.keys ++ b.keys.filter (· ∉ a.keys)) =
        (decide (k ∉ a.keys) && decide (k ∉ b.keys)) := by
      intro k
      by_cases ha : k ∈ a.keys <;> simp [ha]
    simp only [hnew]
  · rw [get?_merge, get?_merge, get?_merge, get?_merge, Option.or_assoc]

/-- **Merging a map into itself changes nothing.** -/
theorem merge_self (a : Bindings α) : a.merge a = a := by
  refine eq_of_keys_eq ?_ fun k => ?_
  · have hnone : a.keys.filter (· ∉ a.keys) = [] :=
      List.filter_eq_nil_iff.2 fun k hk => by simpa using hk
    rw [keys_merge, hnone, List.append_nil]
  · rw [get?_merge, Option.or_self]

/-! ### The map as a whole -/

/-- **Bindings are an insertion-ordered map with distinct keys.**

However a map has come about, the list of entries that nothing is known about is the map's, and no
key occurs in it twice.  A value that is pushed is appended at a position above every position there
is, which is below any limit that leaves room for one more, and hides nothing.  Inserting a value
gives back the value it replaces, which a look-up finds, and leaves the entry in its place; a key
that is new goes to the end.  Of merged maps the second decides where it has a value, the keys are
those of the first and behind them the new ones of the second, and merging is associative, and
idempotent. -/
theorem kept_in_insertion_order :
    (∀ h : History α, h.outcome.entries = h.entries ∧ (Assoc.keys h.entries).Nodup) ∧
    (∀ (b : Bindings α) (v : Value α),
      (b.push v).entries = b.entries ++ [(.index b.nextIndex, v)] ∧
      (∀ i, Key.index i ∈ b.keys → i < b.nextIndex) ∧
      (∀ limit, (∀ i, Key.index i ∈ b.keys → i < limit) → b.nextIndex ≤ limit) ∧
      ∀ k w, b.get? k = some w → (b.push v).get? k = some w) ∧
    (∀ (b : Bindings α) (k : Key) (v : Value α),
      Assoc.put k v b.entries = (b.get? k, (b.insert k v).entries) ∧
      ((b.get? k = none ∧ (b.insert k v).entries = b.entries ++ [(k, v)]) ∨
        ∃ pre w post, b.entries = pre ++ (k, w) :: post ∧ b.get? k = some w ∧
          (b.insert k v).entries = pre ++ (k, v) :: post)) ∧
    ∀ a b : Bindings α,
      (∀ k, (a.merge b).get? k = (b.get? k).or (a.get? k)) ∧
      (a.merge b).keys = a.keys ++ b.keys.filter (· ∉ a.keys) ∧
      (∀ c, (a.merge b).merge c = a.merge (b.merge c)) ∧
      a.merge a = a ∧ (a.merge b).merge b = a.merge b := by
  refine ⟨fun h => ?_, fun b v => ?_, fun b k v => ?_, fun a b => ?_⟩
  · exact ⟨h.entries_outcome, h.entries_outcome ▸ h.outcome.nodup⟩
  · exact ⟨b.entries_push v, fun i => lt_nextIndex, fun n => (b.nextIndex_le_iff n).2,
      fun k w h => get?_push_of_get? h v⟩
  · exact ⟨Assoc.put_eq k v b.entries, b.entries_insert_cases k v⟩
  · refine ⟨a.get?_merge b, a.keys_merge b, a.merge_assoc b, a.merge_self, ?_⟩
    rw [merge_assoc, merge_self]

end Bindings

end BoundQuery

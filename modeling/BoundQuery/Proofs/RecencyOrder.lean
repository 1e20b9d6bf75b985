/-
**The cache of columns keeps its tables by use.**

The cache keeps the columns in one table and the order of use in another, and every operation has to
change both.  Seen from outside it is simpler: one list of tables with their columns, the least
recently used first, in which a table that is used moves to the end, and which loses its first
tables while it is too long.  This module shows that the two cannot be told apart, by what they
answer or by their size, whatever is done to them.

The two are tied together by a relation, `Mirrors`: the queue names the tables of the list in its
order, and the columns of a table are the same on both sides.  Every operation keeps it.

Main definitions:

* `Recents`, `Recents.use`, `Recents.trim` — the tables by use; a table is used, and the list is cut
  to a length;
* `ColumnCache.Access` — the operations on a cache, with what they answer and what they leave;
* `ColumnCache.Mirrors` — the cache keeps the tables of a list in the order of that list;
* `ColumnCache.WellKept` — the queue lists every table of the cache once, and no more than fit.

Main results:

* `Mirrors.dropOldest` — dropping from the queue is cutting the list;
* `Mirrors.get?`, `Mirrors.insert`, `Mirrors.remove`, `Mirrors.clear` — one step of the cache is one
  step of the list;
* `ColumnCache.answers_eq_recents` — **whatever is done, the cache answers as the list does**.
-/

import Mathlib.Data.List.Nodup
import BoundQuery.ColumnCache
import BoundQuery.Proofs.Naming

set_option relaxedAutoImplicit false
set_option autoImplicit false

namespace BoundQuery

namespace ColumnCache

/-! ### Operations -/

/-- One operation on a cache. -/
inductive Access where
  /-- Look the columns of a table up. -/
  | get (table : Text)
  /-- Store the columns of a table. -/
  | insert (table : Text) (cols : List Text)
  /-- Forget a table. -/
  | remove (table : Text)
  /-- Forget every table. -/
  | clear

/-- What an operation answers, and the cache it leaves. -/
def access (c : ColumnCache) : Access → Option (List Text) × ColumnCache
  | .get t => c.get? t
  | .insert t cols => (none, c.insert t cols)
  | .remove t => c.remove t
  | .clear => (none, c.clear)

/-- The cache after operations in order. -/
def after (c : ColumnCache) (as : List Access) : ColumnCache :=
  as.foldl (fun c a => (c.access a).2) c

/-- The answers to operations in order, each with the number of tables it leaves. -/
def answers (c : ColumnCache) : List Access → List (Option (List Text) × Nat)
  | [] => []
  | a :: as => ((c.access a).1, (c.access a).2.size) :: (c.access a).2.answers as

@[simp] theorem after_nil (c : ColumnCache) : c.after [] = c := rfl

@[simp] theorem after_cons (c : ColumnCache) (a : Access) (as : List Access) :
    c.after (a :: as) = (c.access a).2.after as := rfl

@[simp] theorem access_capacity (c : ColumnCache) (a : Access) :
    (c.access a).2.capacity = c.capacity := by
  cases a with
  | get t => exact c.get?_capacity t
  | insert t cols => rfl
  | remove t => exact c.remove_capacity t
  | clear => rfl

/-- No run changes the capacity. -/
theorem capacity_after (c : ColumnCache) (as : List Access) :
    (c.after as).capacity = c.capacity := by
  induction as generalizing c with
  | nil => rfl
  | cons a as ih => rw [after_cons, ih, access_capacity]

end ColumnCache

/-! ### Tables by use -/

/-- Tables with their columns, the least recently used first. -/
abbrev Recents : Type := List (Text × List Text)

namespace Recents

open ColumnCache (Access)

/-- A table is used, with the columns it has from now on. -/
def use (table : Text) (cols : List Text) (r : Recents) : Recents :=
  Assoc.erase table r ++ [(table, cols)]

/-- The most recently used tables, as many as the capacity says. -/
def trim (capacity : Nat) (r : Recents) : Recents := r.drop (r.length - capacity)

/-- What an operation answers, and the tables it leaves. -/
def access (capacity : Nat) (r : Recents) : Access → Option (List Text) × Recents
  | .get t =>
      match Assoc.get? t r with
      | none => (none, r)
      | some cols => (some cols, use t cols r)
  | .insert t cols => (none, trim capacity (use t cols r))
  | .remove t => (Assoc.get? t r, Assoc.erase t r)
  | .clear => (none, [])

/-- The tables after operations in order. -/
def after (capacity : Nat) (r : Recents) (as : List Access) : Recents :=
  as.foldl (fun r a => (access capacity r a).2) r

/-- The answers to operations in order, each with the number of tables it leaves. -/
def answers (capacity : Nat) (r : Recents) : List Access → List (Option (List Text) × Nat)
  | [] => []
  | a :: as =>
      ((access capacity r a).1, (access capacity r a).2.length) ::
        answers capacity (access capacity r a).2 as

theorem length_trim_le (capacity : Nat) (r : Recents) : (trim capacity r).length ≤ capacity := by
  rw [trim, List.length_drop]
  omega

/-- Forgetting a table takes it out of the order of use. -/
theorem keys_erase {r : Recents} (h : (Assoc.keys r).Nodup) (table : Text) :
    Assoc.keys (Assoc.erase table r) = (Assoc.keys r).erase table := by
  rw [Assoc.keys_erase, h.erase_eq_filter]
  refine List.filter_congr fun t _ => ?_
  by_cases ht : t = table <;> simp [ht]

/-- A table that is used goes to the end. -/
theorem keys_use {r : Recents} (h : (Assoc.keys r).Nodup) (table : Text) (cols : List Text) :
    Assoc.keys (use table cols r) = (Assoc.keys r).erase table ++ [table] := by
  rw [← keys_erase h]
  exact List.map_append

theorem nodup_use {r : Recents} (h : (Assoc.keys r).Nodup) (table : Text) (cols : List Text) :
    (Assoc.keys (use table cols r)).Nodup := by
  rw [keys_use h, List.nodup_append]
  refine ⟨h.erase table, List.nodup_singleton table, ?_⟩
  intro t ht t' ht' heq
  obtain rfl := List.mem_singleton.1 ht'
  exact h.not_mem_erase (heq ▸ ht)

theorem get?_use (table t : Text) (cols : List Text) (r : Recents) :
    Assoc.get? t (use table cols r) = if table = t then some cols else Assoc.get? t r := by
  rw [use, Assoc.get?_append, Assoc.get?_erase, Assoc.get?, Assoc.get?]
  split
  · rfl
  · exact Option.or_none

end Recents

namespace ColumnCache

variable {columns : List (Text × List Text)} {order : List Text} {r : Recents}

/-! ### One list for a table and a queue -/

/-- The columns by table and the queue keep the tables of a list, in the order of that list. -/
structure Mirrors (columns : List (Text × List Text)) (order : List Text) (r : Recents) :
    Prop where
  order : order = Assoc.keys r
  nodup : (Assoc.keys r).Nodup
  distinct : (Assoc.keys columns).Nodup
  get? : ∀ t, Assoc.get? t columns = Assoc.get? t r

namespace Mirrors

theorem nil : Mirrors [] [] [] := ⟨rfl, List.nodup_nil, List.nodup_nil, fun _ => rfl⟩

theorem mem_keys_iff (h : Mirrors columns order r) (t : Text) :
    t ∈ Assoc.keys columns ↔ t ∈ Assoc.keys r := by
  rw [← Assoc.isSome_get?, ← Assoc.isSome_get?, h.get?]

theorem length_eq (h : Mirrors columns order r) : columns.length = r.length := by
  have hperm := (List.perm_ext_iff_of_nodup h.distinct h.nodup).2 h.mem_keys_iff
  simpa only [Assoc.keys, List.length_map] using hperm.length_eq

/-- **Dropping from the queue is cutting the list.** -/
theorem dropOldest (h : Mirrors columns order r) (capacity : Nat) :
    Mirrors (dropOldest capacity columns order).1 (dropOldest capacity columns order).2
      (Recents.trim capacity r) := by
  obtain ⟨rfl, hnodup, hdistinct, hget⟩ := h
  induction r generalizing columns with
  | nil =>
      rw [Recents.trim, List.drop_nil]
      exact ⟨rfl, hnodup, hdistinct, hget⟩
  | cons e r ih =>
      have hlength : columns.length = r.length + 1 :=
        length_eq ⟨rfl, hnodup, hdistinct, hget⟩
      obtain ⟨hfirst, hrest⟩ := List.nodup_cons.1 hnodup
      rw [Assoc.keys_cons, ColumnCache.dropOldest]
      split
      · next hfull =>
          have hcut : Recents.trim capacity (e :: r) = Recents.trim capacity r := by
            have hsub : (e :: r).length - capacity = r.length - capacity + 1 := by
              rw [List.length_cons]
              omega
            rw [Recents.trim, hsub]
            rfl
          rw [hcut]
          refine ih hrest (Assoc.nodup_erase e.1 hdistinct) fun t => ?_
          rw [Assoc.get?_erase, hget, Assoc.get?]
          split
          · next ht => exact ((Assoc.get?_eq_none_iff t r).2 (ht ▸ hfirst)).symm
          · rfl
      · next hroom =>
          have hkeep : Recents.trim capacity (e :: r) = e :: r := by
            have hsub : (e :: r).length - capacity = 0 := by
              rw [List.length_cons]
              omega
            rw [Recents.trim, hsub]
            rfl
          rw [hkeep]
          exact ⟨rfl, hnodup, hdistinct, hget⟩

/-- A capacity of zero empties both. -/
theorem evict (h : Mirrors columns order r) (capacity : Nat) :
    Mirrors (evict capacity columns order).1 (evict capacity columns order).2
      (Recents.trim capacity r) := by
  unfold ColumnCache.evict
  split
  · next hzero =>
      have hnone : Recents.trim capacity r = [] := by
        rw [Recents.trim, hzero]
        exact List.drop_length
      rw [hnone]
      exact nil
  · exact h.dropOldest capacity

/-- Where a table goes when it is used: to the end of the queue, whether it was there or not. -/
theorem order_use (h : Mirrors columns order r) (table : Text) (cols : List Text) :
    (if (Assoc.get? table columns).isSome then touch table order else order ++ [table]) =
      Assoc.keys (Recents.use table cols r) := by
  rw [Recents.keys_use h.nodup, h.order]
  by_cases hmem : table ∈ Assoc.keys r
  · rw [if_pos ((Assoc.isSome_get? table columns).2 ((h.mem_keys_iff table).2 hmem)), touch,
      if_pos hmem]
  · have hnew : ¬ (Assoc.get? table columns).isSome = true := fun hsome =>
      hmem ((h.mem_keys_iff table).1 ((Assoc.isSome_get? table columns).1 hsome))
    rw [if_neg hnew, List.erase_of_not_mem hmem]

/-- A table is used: its columns are found under it, and it goes to the end of the queue. -/
theorem use (h : Mirrors columns order r) (table : Text) (cols : List Text)
    {columns' : List (Text × List Text)} (hdistinct : (Assoc.keys columns').Nodup)
    (hget : ∀ t, Assoc.get? t columns' = if table = t then some cols else Assoc.get? t columns) :
    Mirrors columns'
      (if (Assoc.get? table columns).isSome then touch table order else order ++ [table])
      (Recents.use table cols r) := by
  refine ⟨h.order_use table cols, Recents.nodup_use h.nodup table cols, hdistinct, fun t => ?_⟩
  rw [hget, Recents.get?_use, h.get?]

theorem erase (h : Mirrors columns order r) (table : Text) :
    Mirrors (Assoc.erase table columns) (order.erase table) (Assoc.erase table r) where
  order := by rw [Recents.keys_erase h.nodup, h.order]
  nodup := Assoc.nodup_erase table h.nodup
  distinct := Assoc.nodup_erase table h.distinct
  get? t := by rw [Assoc.get?_erase, Assoc.get?_erase, h.get?]

end Mirrors

/-- A cache keeps the tables of a list by use, and no more than its capacity. -/
structure Keeps (c : ColumnCache) (r : Recents) : Prop where
  mirrors : Mirrors c.columns c.order r
  length_le : r.length ≤ c.capacity

/-- The queue of a cache lists each of its tables once and nothing else, and there are no more
tables than the capacity. -/
structure WellKept (c : ColumnCache) : Prop where
  nodup : c.order.Nodup
  mem_order_iff : ∀ t, t ∈ c.order ↔ t ∈ Assoc.keys c.columns
  distinct : (Assoc.keys c.columns).Nodup
  size_le : c.size ≤ c.capacity

namespace Keeps

variable {c : ColumnCache}

theorem empty (capacity : Nat) : (empty capacity).Keeps [] := ⟨Mirrors.nil, Nat.zero_le capacity⟩

theorem size_eq (h : c.Keeps r) : c.size = r.length := h.mirrors.length_eq

theorem wellKept (h : c.Keeps r) : c.WellKept where
  nodup := h.mirrors.order ▸ h.mirrors.nodup
  mem_order_iff t := by rw [h.mirrors.order, h.mirrors.mem_keys_iff]
  distinct := h.mirrors.distinct
  size_le := h.size_eq ▸ h.length_le

/-! ### One step -/

theorem get? (h : c.Keeps r) (table : Text) :
    (c.get? table).1 = (Recents.access c.capacity r (.get table)).1 ∧
      (c.get? table).2.Keeps (Recents.access c.capacity r (.get table)).2 := by
  rw [ColumnCache.get?, Recents.access, ← h.mirrors.get?]
  cases hget : Assoc.get? table c.columns with
  | none => exact ⟨rfl, h⟩
  | some cols =>
      have huse := h.mirrors.use table cols h.mirrors.distinct fun t => by
        split
        · next ht => rw [← ht, hget]
        · rfl
      rw [hget, Option.isSome_some, if_pos rfl] at huse
      refine ⟨rfl, huse, ?_⟩
      -- a table that is used is neither a new one nor one less
      have hlength := huse.length_eq.symm.trans h.mirrors.length_eq
      exact Nat.le_trans (Nat.le_of_eq hlength) h.length_le

theorem insert (h : c.Keeps r) (table : Text) (cols : List Text) :
    (c.insert table cols).Keeps (Recents.access c.capacity r (.insert table cols)).2 := by
  have huse := h.mirrors.use table cols
    (Assoc.nodup_upsert table cols h.mirrors.distinct) fun t => Assoc.get?_upsert table t cols _
  exact ⟨huse.evict c.capacity, Recents.length_trim_le c.capacity _⟩

theorem remove (h : c.Keeps r) (table : Text) :
    (c.remove table).1 = (Recents.access c.capacity r (.remove table)).1 ∧
      (c.remove table).2.Keeps (Recents.access c.capacity r (.remove table)).2 := by
  rw [ColumnCache.remove, Recents.access, ← h.mirrors.get?]
  cases hget : Assoc.get? table c.columns with
  | none =>
      have hkept : Assoc.erase table r = r := by
        rw [h.mirrors.get?] at hget
        exact Assoc.erase_of_not_mem ((Assoc.get?_eq_none_iff table r).1 hget)
      dsimp only
      rw [hkept]
      exact ⟨rfl, h⟩
  | some cols =>
      exact ⟨rfl, h.mirrors.erase table, Nat.le_trans (List.length_filter_le _ r) h.length_le⟩

/-- **One step of the cache is one step of the list.** -/
theorem access (h : c.Keeps r) (a : Access) :
    (c.access a).1 = (Recents.access c.capacity r a).1 ∧
      (c.access a).2.Keeps (Recents.access c.capacity r a).2 := by
  cases a with
  | get t => exact h.get? t
  | insert t cols => exact ⟨rfl, h.insert t cols⟩
  | remove t => exact h.remove t
  | clear => exact ⟨rfl, Mirrors.nil, Nat.zero_le _⟩

/-! ### Runs -/

/-- **Operations in order answer and leave what they answer and leave on the list.** -/
theorem run (h : c.Keeps r) (as : List Access) :
    c.answers as = Recents.answers c.capacity r as ∧
      (c.after as).Keeps (Recents.after c.capacity r as) := by
  induction as generalizing c r with
  | nil => exact ⟨rfl, h⟩
  | cons a as ih =>
      obtain ⟨hanswer, hstep⟩ := h.access a
      obtain ⟨hanswers, hafter⟩ := ih hstep
      rw [access_capacity] at hanswers hafter
      refine ⟨?_, hafter⟩
      rw [answers, Recents.answers, hanswer, hstep.size_eq, hanswers]

end Keeps

/-- **Whatever is done to a cache, it answers as the list of its tables by use does**, and after
every operation it has as many tables.  Its queue lists each of them once and nothing else, and there
are no more of them than the capacity. -/
theorem answers_eq_recents (capacity : Nat) (as : List Access) :
    (empty capacity).answers as = Recents.answers capacity [] as ∧
      ((empty capacity).after as).capacity = capacity ∧ ((empty capacity).after as).WellKept := by
  obtain ⟨hanswers, hafter⟩ := (Keeps.empty capacity).run as
  exact ⟨hanswers, capacity_after (empty capacity) as, hafter.wellKept⟩

end ColumnCache

end BoundQuery

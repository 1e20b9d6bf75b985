/-
**A larger cache of columns never misses where a smaller one hits.**

Two caches of different capacities that are used alike do not stay alike.  The larger one finds
tables that the smaller one has lost, and what is found moves to the end of its order of use, so the
orders differ; and what is new to one replaces an entry in the other.  What stays is that the tables
of the smaller cache are among those of the larger one and in the same order there, and that the
larger one has no more tables besides than it has room besides.

The second half carries the first.  The larger cache drops a table only when it is over its capacity;
then the smaller one is over its own by at least as much, so the tables that the larger one drops
from the front are dropped from the smaller one, if it had them.  A table that is forgotten leaves
both, and the room it leaves is shared.

Main definitions:

* `Recents.FitsIn` — tables in order among others, with no more tables besides than room besides;
* `ColumnCache.ContainedIn` — the same for the tables of two caches.

Main results:

* `Recents.FitsIn.trim` — cutting both lists to their capacities keeps one among the other;
* `Recents.FitsIn.access`, `ColumnCache.ContainedIn.access` — **one operation** keeps it, and what
  the smaller one finds, the larger one finds;
* `ColumnCache.larger_finds_more` — **whatever is done to both**, the larger one holds and finds what
  the smaller one does.
-/

import BoundQuery.Proofs.RecencyOrder

set_option relaxedAutoImplicit false
set_option autoImplicit false

namespace BoundQuery

/-! ### Tables among tables -/

namespace Recents

open ColumnCache (Access)

theorem length_erase_of_mem {r : Recents} (h : (Assoc.keys r).Nodup) {table : Text}
    (hmem : table ∈ Assoc.keys r) : (Assoc.erase table r).length + 1 = r.length := by
  have hkeys := congrArg List.length (keys_erase h table)
  have hpos := List.length_pos_of_mem hmem
  rw [List.length_erase_of_mem hmem] at hkeys
  simp only [Assoc.keys, List.length_map] at hkeys hpos
  omega

theorem length_use (table : Text) (cols : List Text) (r : Recents) :
    (use table cols r).length = (Assoc.erase table r).length + 1 := by
  rw [use, List.length_append, List.length_singleton]

/-- The tables `r` of a cache with capacity `small` among the tables `s` of one with capacity
`large`. -/
structure FitsIn (small large : Nat) (r s : Recents) : Prop where
  /-- The tables have the same columns there and are in the same order of use. -/
  sublist : r.Sublist s
  /-- There are no more tables besides than there is room besides. -/
  room : s.length + small ≤ r.length + large

namespace FitsIn

variable {small large : Nat} {r s : Recents}

theorem nil (h : small ≤ large) : FitsIn small large [] [] :=
  ⟨List.Sublist.refl [], Nat.add_le_add_left h 0⟩

theorem mem_keys (h : FitsIn small large r s) {table : Text} (hmem : table ∈ Assoc.keys r) :
    table ∈ Assoc.keys s :=
  (h.sublist.map Prod.fst).subset hmem

/-- The columns of a table are the same on both sides. -/
theorem get? (h : FitsIn small large r s) (hs : (Assoc.keys s).Nodup) {table : Text}
    {cols : List Text} (hget : Assoc.get? table r = some cols) :
    Assoc.get? table s = some cols := by
  have hr : (Assoc.keys r).Nodup := (h.sublist.map Prod.fst).nodup hs
  rw [Assoc.get?_eq_some_iff hs]
  exact h.sublist.subset ((Assoc.get?_eq_some_iff hr table cols).1 hget)

/-- A table that is forgotten leaves both. -/
theorem erase (h : FitsIn small large r s) (hs : (Assoc.keys s).Nodup) (table : Text) :
    FitsIn small large (Assoc.erase table r) (Assoc.erase table s) := by
  refine ⟨h.sublist.filter _, ?_⟩
  have hr : (Assoc.keys r).Nodup := (h.sublist.map Prod.fst).nodup hs
  have hroom := h.room
  by_cases hmem : table ∈ Assoc.keys r
  · have hleft := length_erase_of_mem hr hmem
    have hright := length_erase_of_mem hs (h.mem_keys hmem)
    omega
  · have hless : (Assoc.erase table s).length ≤ s.length := List.length_filter_le _ s
    rw [Assoc.erase_of_not_mem hmem]
    omega

/-- A table that is used goes to the end of both. -/
theorem use (h : FitsIn small large r s) (hs : (Assoc.keys s).Nodup) (table : Text)
    (cols : List Text) :
    FitsIn small large (Recents.use table cols r) (Recents.use table cols s) := by
  have herase := h.erase hs table
  refine ⟨herase.sublist.append (List.Sublist.refl _), ?_⟩
  have hroom := herase.room
  rw [length_use, length_use]
  omega

/-- A table that the larger cache finds and the smaller one has lost goes to the end of one. -/
theorem use_of_lost (h : FitsIn small large r s) (hs : (Assoc.keys s).Nodup) {table : Text}
    (hlost : table ∉ Assoc.keys r) (hmem : table ∈ Assoc.keys s) (cols : List Text) :
    FitsIn small large r (Recents.use table cols s) := by
  have hsublist : r.Sublist (Assoc.erase table s) := by
    have herase := (h.erase hs table).sublist
    rwa [Assoc.erase_of_not_mem hlost] at herase
  refine ⟨hsublist.trans (List.sublist_append_left _ _), ?_⟩
  rw [length_use, length_erase_of_mem hs hmem]
  exact h.room

/-- **Cutting both to their capacities keeps one among the other**: where the larger one is too long,
the smaller one is too long by at least as much. -/
theorem trim (h : FitsIn small large r s) (hle : small ≤ large) :
    FitsIn small large (Recents.trim small r) (Recents.trim large s) := by
  have hroom := h.room
  have hcut : s.length - large ≤ r.length - small := by omega
  refine ⟨(h.sublist.drop _).trans (List.drop_sublist_drop_left s hcut), ?_⟩
  rw [Recents.trim, Recents.trim, List.length_drop, List.length_drop]
  omega

/-- **One operation keeps the smaller among the larger**, and what the smaller one finds, the larger
one finds. -/
theorem access (h : FitsIn small large r s) (hle : small ≤ large) (hs : (Assoc.keys s).Nodup)
    (a : Access) :
    FitsIn small large (access small r a).2 (access large s a).2 ∧
      ∀ cols, (Recents.access small r a).1 = some cols →
        (Recents.access large s a).1 = some cols := by
  cases a with
  | get t =>
      simp only [Recents.access]
      cases hr : Assoc.get? t r with
      | some cols =>
          rw [h.get? hs hr]
          exact ⟨h.use hs t cols, fun _ heq => heq⟩
      | none =>
          refine ⟨?_, fun _ heq => by cases heq⟩
          cases hget : Assoc.get? t s with
          | none => exact h
          | some cols =>
              have hlost := (Assoc.get?_eq_none_iff t r).1 hr
              have hmem := (Assoc.isSome_get? t s).1 (by rw [hget]; rfl)
              exact h.use_of_lost hs hlost hmem cols
  | insert t cols => exact ⟨(h.use hs t cols).trim hle, fun _ heq => by cases heq⟩
  | remove t => exact ⟨h.erase hs t, fun _ heq => h.get? hs heq⟩
  | clear => exact ⟨nil hle, fun _ heq => by cases heq⟩

end FitsIn

end Recents

/-! ### A cache in another -/

namespace ColumnCache

/-- The tables of one cache are among those of another that is at least as large. -/
structure ContainedIn (c d : ColumnCache) : Prop where
  capacity_le : c.capacity ≤ d.capacity
  recents : ∃ r s, c.Keeps r ∧ d.Keeps s ∧ Recents.FitsIn c.capacity d.capacity r s

namespace ContainedIn

variable {c d : ColumnCache}

theorem empty {small large : Nat} (h : small ≤ large) :
    (empty small).ContainedIn (empty large) :=
  ⟨h, [], [], Keeps.empty small, Keeps.empty large, Recents.FitsIn.nil h⟩

/-- The larger cache has the columns of the smaller one. -/
theorem get?_columns (h : c.ContainedIn d) {table : Text} {cols : List Text}
    (hget : Assoc.get? table c.columns = some cols) : Assoc.get? table d.columns = some cols := by
  obtain ⟨r, s, hr, hs, hfits⟩ := h.recents
  rw [hr.mirrors.get?] at hget
  rw [hs.mirrors.get?]
  exact hfits.get? hs.mirrors.nodup hget

theorem size_le (h : c.ContainedIn d) : c.size ≤ d.size := by
  obtain ⟨r, s, hr, hs, hfits⟩ := h.recents
  rw [hr.size_eq, hs.size_eq]
  exact hfits.sublist.length_le

/-- **One operation keeps a cache in another**, and what the smaller one answers, the larger one
answers. -/
theorem access (h : c.ContainedIn d) (a : Access) :
    (c.access a).2.ContainedIn (d.access a).2 ∧
      ∀ cols, (c.access a).1 = some cols → (d.access a).1 = some cols := by
  obtain ⟨hle, r, s, hr, hs, hfits⟩ := h
  obtain ⟨hanswer, hkeeps⟩ := hr.access a
  obtain ⟨hanswer', hkeeps'⟩ := hs.access a
  obtain ⟨hafter, hfound⟩ := hfits.access hle hs.mirrors.nodup a
  rw [hanswer, hanswer']
  refine ⟨⟨?_, _, _, hkeeps, hkeeps', ?_⟩, hfound⟩
  · rwa [access_capacity, access_capacity]
  · rwa [access_capacity, access_capacity]

/-- A run keeps a cache in another. -/
theorem after (h : c.ContainedIn d) (as : List Access) :
    (c.after as).ContainedIn (d.after as) := by
  induction as generalizing c d with
  | nil => exact h
  | cons a as ih => exact ih (h.access a).1

/-- What the smaller cache answers in a run, the larger one answers there. -/
theorem answers (h : c.ContainedIn d) {as : List Access} {i n : Nat} {cols : List Text}
    (hat : (c.answers as)[i]? = some (some cols, n)) :
    ∃ n' : Nat, (d.answers as)[i]? = some (some cols, n') ∧ n ≤ n' := by
  induction as generalizing c d i with
  | nil => cases hat
  | cons a as ih =>
      obtain ⟨hstep, hfound⟩ := h.access a
      cases i with
      | zero =>
          simp only [ColumnCache.answers, List.getElem?_cons_zero, Option.some.injEq,
            Prod.mk.injEq] at hat ⊢
          obtain ⟨hcols, rfl⟩ := hat
          exact ⟨_, ⟨hfound cols hcols, rfl⟩, hstep.size_le⟩
      | succ i => exact ih hstep hat

end ContainedIn

/-- **A larger cache never misses where a smaller one hits.**  After the same operations on two empty
caches, each table of the smaller one is held by the larger one with the same columns, and looking
it up finds them in both; and whatever an operation found on the way in the smaller one, it found in
the larger one. -/
theorem larger_finds_more {small large : Nat} (h : small ≤ large) (as : List Access) :
    (∀ t cols, Assoc.get? t ((empty small).after as).columns = some cols →
        Assoc.get? t ((empty large).after as).columns = some cols) ∧
      (∀ t cols, (((empty small).after as).get? t).1 = some cols →
        (((empty large).after as).get? t).1 = some cols) ∧
      ∀ (i n : Nat) (cols : List Text),
        ((empty small).answers as)[i]? = some (some cols, n) →
          ∃ n' : Nat, ((empty large).answers as)[i]? = some (some cols, n') ∧ n ≤ n' := by
  have hempty := ContainedIn.empty h
  have hafter := hempty.after as
  exact ⟨fun _ _ => hafter.get?_columns, fun t cols => (hafter.access (.get t)).2 cols,
    fun _ _ _ => hempty.answers⟩

/-- A run after which the orders of use differ: the larger cache still finds `a`, which the smaller
one has lost, so `b` is the first table of the larger one and the last of the smaller one. -/
theorem larger_finds_more_after_removal :
    let as : List Access := [.insert "a".toList ["x".toList], .insert "b".toList ["y".toList],
      .insert "c".toList [], .remove "c".toList, .get "a".toList]
    2 ≤ 3 ∧ ((empty 2).after as).order = ["b".toList] ∧
      ((empty 3).after as).order = ["b".toList, "a".toList] ∧
      (((empty 2).after as).get? "b".toList).1 = some ["y".toList] ∧
      (((empty 3).after as).get? "b".toList).1 = some ["y".toList] := by
  intro as
  have hhit : (((empty 2).after as).get? "b".toList).1 = some ["y".toList] := by decide
  obtain ⟨-, hfound, -⟩ := larger_finds_more (show 2 ≤ 3 by decide) as
  exact ⟨by decide, by decide, by decide, hhit, hfound _ _ hhit⟩

end ColumnCache

end BoundQuery

/-
**The columns of tables, remembered.**

The columns of a table are looked up in the server's catalog once and remembered.  The cache holds at
most as many tables as its capacity says; what goes first is the table that was not used for the
longest time.  A table is used when it is stored and when its columns are found.

The columns stand in a table by themselves, and the order of use is a queue of table names beside it,
the least recently used one first.  A capacity of zero remembers nothing.

Main definitions:

* `ColumnCache` — capacity, columns by table, tables by use;
* `ColumnCache.touch` — a table becomes the most recently used one;
* `ColumnCache.dropOldest`, `ColumnCache.evict` — dropping from the front of the queue what exceeds
  the capacity;
* `ColumnCache.get?`, `insert`, `remove`, `clear` — the operations.

Main results:

* `insert_capacity`, `remove_capacity` — no operation changes the capacity;
* `get?_columns` — looking for a table does not change what is remembered.
-/

import BoundQuery.Assoc
import BoundQuery.Text

set_option relaxedAutoImplicit false
set_option autoImplicit false

namespace BoundQuery

/-- A bounded memory of the columns of tables. -/
structure ColumnCache where
  /-- The greatest number of tables. -/
  capacity : Nat
  /-- The columns of the tables. -/
  columns : List (Text × List Text)
  /-- The tables, the least recently used one first. -/
  order : List Text

namespace ColumnCache

/-- The capacity that a cache has if no other is asked for. -/
def defaultCapacity : Nat := 64

/-- A cache without tables. -/
def empty (capacity : Nat) : ColumnCache := ⟨capacity, [], []⟩

/-- The number of tables. -/
def size (c : ColumnCache) : Nat := c.columns.length

/-- Whether there is no table. -/
def isEmpty (c : ColumnCache) : Bool := c.size == 0

/-- Make a table of the queue the most recently used one. -/
def touch (table : Text) (order : List Text) : List Text :=
  if table ∈ order then order.erase table ++ [table] else order

/-- The columns of a table, which is used by that, and the cache afterwards. -/
def get? (c : ColumnCache) (table : Text) : Option (List Text) × ColumnCache :=
  match Assoc.get? table c.columns with
  | none => (none, c)
  | some cols => (some cols, { c with order := touch table c.order })

/-- Drop tables from the front of the queue while there are more than the capacity. -/
def dropOldest (capacity : Nat) (columns : List (Text × List Text)) :
    List Text → List (Text × List Text) × List Text
  | [] => (columns, [])
  | t :: ts =>
      if columns.length > capacity then dropOldest capacity (Assoc.erase t columns) ts
      else (columns, t :: ts)

/-- Keep as many tables as the capacity says; a capacity of zero keeps none. -/
def evict (capacity : Nat) (columns : List (Text × List Text)) (order : List Text) :
    List (Text × List Text) × List Text :=
  if capacity = 0 then ([], []) else dropOldest capacity columns order

/-- Store the columns of a table in place of those it had. -/
def insert (c : ColumnCache) (table : Text) (cols : List Text) : ColumnCache :=
  -- a table that is new goes behind the queue, where the others stay as they are
  let order :=
    if (Assoc.get? table c.columns).isSome then touch table c.order else c.order ++ [table]
  let (columns, order) := evict c.capacity (Assoc.upsert table cols c.columns) order
  ⟨c.capacity, columns, order⟩

/-- Forget a table; its columns are returned. -/
def remove (c : ColumnCache) (table : Text) : Option (List Text) × ColumnCache :=
  match Assoc.get? table c.columns with
  | none => (none, c)
  | some cols =>
      (some cols, { c with columns := Assoc.erase table c.columns, order := c.order.erase table })

/-- Forget every table. -/
def clear (c : ColumnCache) : ColumnCache := empty c.capacity

@[simp] theorem insert_capacity (c : ColumnCache) (table : Text) (cols : List Text) :
    (c.insert table cols).capacity = c.capacity := rfl

@[simp] theorem remove_capacity (c : ColumnCache) (table : Text) :
    (c.remove table).2.capacity = c.capacity := by
  unfold remove
  split <;> rfl

@[simp] theorem get?_capacity (c : ColumnCache) (table : Text) :
    (c.get? table).2.capacity = c.capacity := by
  unfold get?
  split <;> rfl

/-- Looking for a table may make it the most recently used one, and changes nothing else. -/
theorem get?_columns (c : ColumnCache) (table : Text) : (c.get? table).2.columns = c.columns := by
  unfold get?
  split <;> rfl

end ColumnCache

end BoundQuery

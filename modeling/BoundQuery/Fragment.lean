/-
**Compiled SQL and the values of its markers.**

A fragment is SQL text together with bindings.  Every compilation step takes fragments or their
parts and returns a new fragment.

Main definitions:

* `Fragment` — text and bindings;
* `nameMarkers`, `Key.named`, `Fragment.namePositional` — give the `?` markers names;
* `Spread`, `spreads`, `Fragment.spread` — spread list bindings over one marker per element;
* `Bindings.droppedLists` — the list bindings that cannot be spread.

Main results:

* `namePositional_of_none` — a text without `?` is left as it is;
* `hasList_spread` — after spreading, no value is a list.
-/

import BoundQuery.Bindings
import BoundQuery.FreshName
import BoundQuery.Token.Scan

set_option relaxedAutoImplicit false
set_option autoImplicit false

namespace BoundQuery

/-- SQL text and the bindings of its markers. -/
structure Fragment (α : Type) where
  /-- The text. -/
  sql : Text
  /-- The bindings. -/
  params : Bindings α

instance {α : Type} : Inhabited (Fragment α) := ⟨⟨[], Bindings.empty⟩⟩

/-- Whether a fragment's text is empty. -/
def Fragment.isEmpty {α : Type} (f : Fragment α) : Bool := f.sql.isEmpty

/-! ### Names for the positional markers -/

/-- The text of tokens in which the `?` markers are named `stem` and their number, from `i` on. -/
def nameMarkers (stem : Text) : Nat → List Token → Text
  | _, [] => []
  | i, .positional :: ts => ':' :: (stem ++ decimal i) ++ nameMarkers stem (i + 1) ts
  | i, t :: ts => t.written ++ nameMarkers stem i ts

/-- The key of a binding once the first `count` markers are named: their positions become names, and
every other key stays. -/
def Key.named (stem : Text) (count : Nat) : Key → Key
  | .index i => if i < count then .name (stem ++ decimal i) else .index i
  | .name n => .name n

/-- Name the `?` markers of a text `stem` and their number, and move the bindings of their positions
to those names.  A marker without a binding gets its name all the same, and is left unresolved. -/
def Fragment.namePositional {α : Type} (stem sql : Text) (b : Bindings α) : Fragment α :=
  ⟨nameMarkers stem 0 (tokenize sql),
    .ofList (b.entries.map fun e => (e.1.named stem (countPositional sql), e.2))⟩

theorem Key.named_zero (stem : Text) (k : Key) : k.named stem 0 = k := by
  cases k <;> rfl

theorem nameMarkers_of_none (stem : Text) (i : Nat) {ts : List Token}
    (h : ts.countP Token.isPositional = 0) : nameMarkers stem i ts = Token.write ts := by
  induction ts with
  | nil => rfl
  | cons t ts ih =>
      cases t with
      | positional => simp [Token.isPositional] at h
      | text s => simp [nameMarkers, ih (by simpa [Token.isPositional] using h)]
      | named n => simp [nameMarkers, ih (by simpa [Token.isPositional] using h)]

/-- A text without `?` is left as it is, and so are its bindings. -/
theorem Fragment.namePositional_of_none {α : Type} (stem : Text) {sql : Text} (b : Bindings α)
    (h : countPositional sql = 0) : namePositional stem sql b = ⟨sql, b⟩ := by
  simp only [namePositional, h, Key.named_zero]
  rw [nameMarkers_of_none stem 0 h, write_tokenize]
  simp

/-! ### One marker per element -/

/-- What spreading lists does to one binding. -/
inductive Spread (α : Type) where
  /-- A value that is no list stays. -/
  | keep (key : Key) (value : Value α)
  /-- The list bound to `name` is spread over `names`, one for each element. -/
  | across (name : Text) (names : List Text) (ds : List (Option α))
  /-- A list that cannot be spread is dropped. -/
  | drop (key : Key) (length : Nat)

/-- Whether a list under this key can be spread: it is bound to a name that is not all digits, and
it is not empty. -/
def Key.canSpread (k : Key) (length : Nat) : Option Text :=
  match k with
  | .index _ => none
  | .name n => if length = 0 || n.isDigits then none else some n

/-- What becomes of each binding, when the names `taken` are in use.  The names a list is spread
over are in use for the lists after it. -/
def spreads {α : Type} (taken : List Text) : List (Key × Value α) → List (Spread α)
  | [] => []
  | (k, .list ds) :: es =>
      match k.canSpread ds.length with
      | none => .drop k ds.length :: spreads taken es
      | some n =>
          -- a name made up here is not free for the lists that follow
          let names := freshElementNames taken n ds.length
          .across n names ds :: spreads (taken ++ names) es
  | (k, v) :: es => .keep k v :: spreads taken es

namespace Spread

variable {α : Type}

/-- The bindings that a binding becomes. -/
def entries : Spread α → List (Key × Value α)
  | keep k v => [(k, v)]
  | across _ names ds => (names.map Key.name).zip (ds.map Value.scalar)
  | drop _ _ => []

/-- The names that a marker becomes, if its list is spread. -/
def namesFor? (marker : Text) : Spread α → Option (List Text)
  | across n names _ => if n = marker then some names else none
  | _ => none

/-- The text of a token once lists are spread: a marker whose list is spread becomes one marker per
element, with commas in between. -/
def write (plan : List (Spread α)) : Token → Text
  | .named n =>
      match plan.findSome? (namesFor? n) with
      | some names => Text.join [','] (names.map (':' :: ·))
      | none => ':' :: n
  | t => t.written

end Spread

/-- What becomes of each binding of `b` in the text `sql`: the names of bindings and the names of
markers are in use, whether the markers are bound or not. -/
def Bindings.spreads {α : Type} (sql : Text) (b : Bindings α) : List (Spread α) :=
  BoundQuery.spreads (b.names ++ Token.names (tokenize sql)) b.entries

/-- Spread every list binding over one marker per element, wherever its marker occurs.  Lists that
cannot be spread are dropped, and their markers are left unresolved. -/
def Fragment.spread {α : Type} (f : Fragment α) : Fragment α :=
  let plan := f.params.spreads f.sql
  ⟨(tokenize f.sql).flatMap (Spread.write plan), .ofList (plan.flatMap Spread.entries)⟩

/-- The list bindings that cannot be spread, with their lengths. -/
def Bindings.droppedLists {α : Type} (b : Bindings α) : List (Key × Nat) :=
  b.entries.filterMap fun e =>
    match e.2 with
    | .list ds => if (e.1.canSpread ds.length).isNone then some (e.1, ds.length) else none
    | _ => none

/-! ### No list is left -/

theorem isList_spreads {α : Type} (taken : List Text) (es : List (Key × Value α)) :
    ∀ e ∈ (spreads taken es).flatMap Spread.entries, e.2.isList = false := by
  induction es generalizing taken with
  | nil => simp [spreads]
  | cons x es ih =>
      obtain ⟨k, v⟩ := x
      cases v with
      | null =>
          simp only [spreads, List.flatMap_cons, Spread.entries, List.cons_append, List.nil_append,
            List.mem_cons]
          rintro e (rfl | he)
          · rfl
          · exact ih _ e he
      | scalar d =>
          simp only [spreads, List.flatMap_cons, Spread.entries, List.cons_append, List.nil_append,
            List.mem_cons]
          rintro e (rfl | he)
          · rfl
          · exact ih _ e he
      | list ds =>
          simp only [spreads]
          cases k.canSpread ds.length with
          | none => simpa [Spread.entries] using ih taken
          | some n =>
              simp only [List.flatMap_cons, Spread.entries, List.mem_append]
              rintro e (he | he)
              · have hv := (List.of_mem_zip (a := e.1) (b := e.2) he).2
                obtain ⟨d, _, hd⟩ := List.mem_map.1 hv
                rw [← hd]
                rfl
              · exact ih _ e he

namespace Bindings

variable {α : Type}

/-- Every entry of a map after insertions was there before or was inserted. -/
theorem mem_insertAll {b : Bindings α} {es : List (Key × Value α)} {e : Key × Value α}
    (h : e ∈ (b.insertAll es).entries) : e ∈ b.entries ∨ e ∈ es := by
  induction es generalizing b with
  | nil => exact .inl h
  | cons x es ih =>
      rcases ih (b := b.insert x.1 x.2) h with h | h
      · have hget := (get?_eq_some_iff _ e.1 e.2).2 h
        rw [get?_insert] at hget
        by_cases hx : x.1 = e.1
        · right
          rw [if_pos hx, Option.some.injEq] at hget
          have : e = x := by rw [← Prod.eta e, ← hx, ← hget]
          exact this ▸ List.mem_cons_self
        · left
          rw [if_neg hx] at hget
          exact (get?_eq_some_iff b e.1 e.2).1 hget
      · exact .inr (List.mem_cons_of_mem _ h)

theorem mem_ofList {es : List (Key × Value α)} {e : Key × Value α} (h : e ∈ (ofList es).entries) :
    e ∈ es := by
  rcases mem_insertAll h with h | h
  · simp [empty] at h
  · exact h

end Bindings

/-- **After spreading, no value is a list.** -/
theorem Fragment.hasList_spread {α : Type} (f : Fragment α) : f.spread.params.hasList = false := by
  simp only [Bindings.hasList, List.any_eq_false, Bool.not_eq_true]
  intro e he
  exact isList_spreads _ _ e (Bindings.mem_ofList he)

end BoundQuery

/-
**What a caller binds to a marker.**

A bound value is SQL `NULL`, one datum, or a list that is spread over one marker per element.  The
data are of any type `α`: no compilation step looks at one.  A datum that may be `NULL` is an
`Option α`, and `NULL` elements of a list keep their place that way.

Main definitions:

* `Value` — `NULL`, a scalar or a list;
* `Value.isList`, `Value.datum?` — the two ways the rest of the library looks at a value;
* `Value.map` — the same value over changed data.
-/

set_option relaxedAutoImplicit false
set_option autoImplicit false

namespace BoundQuery

/-- A value bound to a marker, over data of type `α`; the datum `none` is `NULL`. -/
inductive Value (α : Type) where
  /-- SQL `NULL`. -/
  | null
  /-- One datum. -/
  | scalar (d : Option α)
  /-- A list to spread over one marker per element. -/
  | list (ds : List (Option α))
deriving DecidableEq, Repr

namespace Value

variable {α β : Type}

/-- Whether a value is SQL `NULL` itself, rather than a scalar or a list. -/
def isNull : Value α → Bool
  | null => true
  | _ => false

/-- Whether a value is a list. -/
def isList : Value α → Bool
  | list _ => true
  | _ => false

/-- The one datum to send for a value, which a list has not. -/
def datum? : Value α → Option (Option α)
  | null => some none
  | scalar d => some d
  | list _ => none

theorem isSome_datum? (v : Value α) : v.datum?.isSome = !v.isList := by
  cases v <;> rfl

/-- The value with every datum changed, element by element in a list. -/
def map (f : Option α → Option β) : Value α → Value β
  | null => scalar (f none)
  | scalar d => scalar (f d)
  | list ds => list (ds.map f)

@[simp] theorem isList_map (f : Option α → Option β) (v : Value α) :
    (v.map f).isList = v.isList := by
  cases v <;> rfl

@[simp] theorem datum?_map (f : Option α → Option β) (v : Value α) :
    (v.map f).datum? = v.datum?.map f := by
  cases v <;> rfl

end Value

end BoundQuery

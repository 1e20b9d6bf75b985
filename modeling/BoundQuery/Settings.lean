/-
**Settings.**

Main definitions:

* `Settings` — whether failures are described, how many tables are remembered, and the dialect;
* `Settings.withDebug` — the two kinds of diagnostics switched together;
* `isFlagSet`, `Settings.ofEnvironment` — settings from the text of an environment variable;
* `Settings.ofTree?`, `Dialect.ofTree?`, `QuoteStyle.ofTree?` — settings from JSON.

A field that JSON leaves out has its default.  The defaults of a dialect given inside settings are
those of a dialect, not those of settings: backticks, where settings by themselves have double quotes.

Main results:

* `withDebug_dialect_quote` — diagnostics do not change how identifiers are quoted.
-/

import BoundQuery.Clause
import BoundQuery.ColumnCache
import BoundQuery.Json.Number
import BoundQuery.Json.Reader
import BoundQuery.Text.Blank

set_option relaxedAutoImplicit false
set_option autoImplicit false

namespace BoundQuery

/-- The settings of a database session. -/
structure Settings where
  /-- Whether a failure is logged with a description of its statement. -/
  dumpOnFault : Bool := false
  /-- How many tables' columns are remembered. -/
  columnCapacity : Nat := ColumnCache.defaultCapacity
  /-- The choices of compilation. -/
  dialect : Dialect := Dialect.double
deriving DecidableEq, Repr, Inhabited

/-- The settings with descriptions of failures and reports of dropped lists on or off. -/
def Settings.withDebug (on : Bool) (s : Settings) : Settings :=
  { s with dumpOnFault := on, dialect := { s.dialect with reportDropped := on } }

theorem Settings.withDebug_dialect_quote (on : Bool) (s : Settings) :
    (s.withDebug on).dialect.quote = s.dialect.quote := rfl

/-! ### Environment -/

/-- Whether the text of an environment variable switches something on. -/
def isFlagSet (t : Text) : Bool :=
  ["1".toList, "true".toList, "yes".toList, "on".toList].contains t.trim.lower

/-- The settings for the value of an environment variable, which may be unset. -/
def Settings.ofEnvironment (value? : Option Text) : Settings :=
  Settings.withDebug (value?.any isFlagSet) {}

/-! ### JSON -/

/-- The natural number of 64 bits that a tree denotes: digits without sign, point and exponent. -/
def Json.Tree.size? : Json.Tree → Option Nat
  | .number n =>
      if n.isWhole && !n.negative then
        let i := Json.valueOfDigits n.whole
        if i < UInt64.size then some i else none
      else none
  | _ => none

/-- The value of a field: its default if it is left out. -/
def fieldValue? {β : Type} (read : Json.Tree → Option β) (default : β) :
    Option Json.Tree → Option β
  | none => some default
  | some t => read t

/-- The quote style with a name. -/
def QuoteStyle.ofName? (name : Text) : Option QuoteStyle :=
  if name = "backtick".toList then some .backtick
  else if name = "double".toList then some .double
  else none

/-- The quote style of a tree: its name, or an object with its name and `null`. -/
def QuoteStyle.ofTree? : Json.Tree → Option QuoteStyle
  | .string (some name) => ofName? name
  | .object [(some name, .null)] => ofName? name
  | _ => none

/-- The dialect of a tree. -/
def Dialect.ofTree? (t : Json.Tree) : Option Dialect :=
  match t.fields? ["quote".toList, "log_skipped_expansions".toList] with
  | some [quote, report] => do
      let quote ← fieldValue? QuoteStyle.ofTree? .backtick quote
      let report ← fieldValue? Json.Tree.bool? false report
      return ⟨quote, report⟩
  | _ => none

/-- The settings of a tree. -/
def Settings.ofTree? (t : Json.Tree) : Option Settings :=
  match t.fields? ["debug_dump".toList, "column_cache_capacity".toList, "compile".toList] with
  | some [dump, capacity, dialect] => do
      let dump ← fieldValue? Json.Tree.bool? false dump
      let capacity ← fieldValue? Json.Tree.size? ColumnCache.defaultCapacity capacity
      let dialect ← fieldValue? Dialect.ofTree? .double dialect
      return ⟨dump, capacity, dialect⟩
  | _ => none

end BoundQuery

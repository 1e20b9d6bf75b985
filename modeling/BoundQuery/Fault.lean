/-
**What can go wrong, and how it is told.**

A fault is a cause.  Its wording is one function, and callers ask about its kind through predicates.

Main definitions:

* `ServerReport` — what a server says about a statement it refuses;
* `DriverFault`, `Fault` — the causes;
* `Fault.message` — the wording of a fault;
* `Fault.isDriver`, `Fault.isNotFound`, `Fault.isUniqueViolation` — questions about its kind;
* `Fault.ofReport` — the fault of a report: violations of constraints are told apart.

Main results:

* `isDriver_ofReport` — whatever a server reports is a fault of the exchange with it.
-/

import BoundQuery.Text

set_option relaxedAutoImplicit false
set_option autoImplicit false

namespace BoundQuery

/-- What a server says about a statement it refuses. -/
structure ServerReport where
  /-- The five characters that classify the report. -/
  code : Text
  /-- The message. -/
  message : Text
  /-- The constraint that was violated, if the server names one. -/
  constraint? : Option Text
deriving DecidableEq, Repr

/-- A fault of the exchange with a server. -/
inductive DriverFault where
  /-- The server refused. -/
  | server
  /-- The number of values is not the number of declared parameters. -/
  | parameterCount (declared sent : Nat)
  /-- The declared type of a parameter, counted from zero, does not take its value. -/
  | parameterType (i : Nat)
deriving DecidableEq, Repr

/-- The wording of a fault of the exchange. -/
def DriverFault.message : DriverFault → Text
  | server => "db error".toList
  | parameterCount declared sent =>
      "expected ".toList ++ decimal declared ++ " parameters but got ".toList ++ decimal sent
  | parameterType i => "error serializing parameter ".toList ++ decimal i

/-- Why an operation failed. -/
inductive Fault where
  /-- A statement could not be prepared. -/
  | prepare (cause : DriverFault)
  /-- A statement could not be run. -/
  | query (cause : DriverFault)
  /-- A row was expected and there is none. -/
  | notFound (text : Text)
  /-- A value that must be unique is there already. -/
  | uniqueViolation (text : Text)
  /-- A referenced row is not there. -/
  | foreignKeyViolation (text : Text)
  /-- A check does not hold. -/
  | checkViolation (text : Text)
  /-- A column's value cannot be read as asked. -/
  | decode (column text : Text)
  /-- The caller's input was refused before anything was sent. -/
  | validation (text : Text)
  /-- Anything else. -/
  | other (text : Text)
deriving DecidableEq, Repr

namespace Fault

/-- The wording of a fault. -/
def message : Fault → Text
  | prepare cause => "Prepare error: ".toList ++ cause.message
  | query cause => "Query error: ".toList ++ cause.message
  | notFound t => "Not found: ".toList ++ t
  | uniqueViolation t => "Unique constraint violation: ".toList ++ t
  | foreignKeyViolation t => "Foreign key violation: ".toList ++ t
  | checkViolation t => "Check constraint violation: ".toList ++ t
  | decode c t => "Decode error on column '".toList ++ c ++ "': ".toList ++ t
  | validation t => "Validation error: ".toList ++ t
  | other t => t

/-- Whether a fault came out of the exchange with the server. -/
def isDriver : Fault → Bool
  | prepare _ | query _ | uniqueViolation _ | foreignKeyViolation _ | checkViolation _ => true
  | _ => false

/-- Whether a row was missing. -/
def isNotFound : Fault → Bool
  | notFound _ => true
  | _ => false

/-- Whether a value was not unique. -/
def isUniqueViolation : Fault → Bool
  | uniqueViolation _ => true
  | _ => false

/-- The fault of a report on a statement that was run. -/
def ofReport (r : ServerReport) : Fault :=
  let text := r.constraint?.getD "unknown".toList ++ ": ".toList ++ r.message
  if r.code = "23505".toList then uniqueViolation text
  else if r.code = "23503".toList then foreignKeyViolation text
  else if r.code = "23514".toList then checkViolation text
  else query .server

/-- Whatever a server reports is a fault of the exchange with it. -/
theorem isDriver_ofReport (r : ServerReport) : (ofReport r).isDriver = true := by
  unfold ofReport
  split
  · rfl
  · split
    · rfl
    · split <;> rfl

end Fault

end BoundQuery

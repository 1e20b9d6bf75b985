/-
**Computations over a state that may fail.**

An action takes a state and returns a result or a fault, and a state in either case: what it did to
the state before it failed stays done.

Main definitions:

* `Action` — the computations, with their sequencing;
* `Action.fail`, `Action.ofExcept`, `Action.modify` — the smallest ones;
* `Action.within` — an action on a part of the state;
* `Action.onFault` — change the state if an action fails.

Main results:

* `Action.pure_apply`, `Action.bind_apply`, `Action.within_apply`, `Action.onFault_apply` — how
  actions run; their sequencing obeys the laws of a monad.
-/

import BoundQuery.Fault

set_option relaxedAutoImplicit false
set_option autoImplicit false

namespace BoundQuery

/-- A computation over a state that may fail.  What it did to the state stays done. -/
def Action (σ β : Type) : Type := σ → Except Fault β × σ

namespace Action

variable {σ τ β γ : Type}

instance : Monad (Action σ) where
  pure b := fun s => (.ok b, s)
  bind x f := fun s =>
    match x s with
    | (.ok b, s') => f b s'
    | (.error e, s') => (.error e, s')

/-- Fail. -/
def fail (e : Fault) : Action σ β := fun s => (.error e, s)

/-- The outcome of a pure computation. -/
def ofExcept (r : Except Fault β) : Action σ β := fun s => (r, s)

/-- Change the state. -/
def modify (f : σ → σ) : Action σ Unit := fun s => (.ok (), f s)

/-- Run an action on a part of the state. -/
def within (get : σ → τ) (set : τ → σ → σ) (x : Action τ β) : Action σ β := fun s =>
  let (r, t) := x (get s)
  (r, set t s)

/-- Run an action, and change the state if it fails. -/
def onFault (x : Action σ β) (f : Fault → σ → σ) : Action σ β := fun s =>
  match x s with
  | (.ok b, s') => (.ok b, s')
  | (.error e, s') => (.error e, f e s')

@[simp] theorem pure_apply (b : β) (s : σ) : (pure b : Action σ β) s = (.ok b, s) := rfl

@[simp] theorem fail_apply (e : Fault) (s : σ) : (fail e : Action σ β) s = (.error e, s) := rfl

theorem bind_apply (x : Action σ β) (f : β → Action σ γ) (s : σ) :
    (x >>= f) s =
      match x s with
      | (.ok b, s') => f b s'
      | (.error e, s') => (.error e, s') := rfl

/-- Sequencing obeys the laws of a monad. -/
instance : LawfulMonad (Action σ) := LawfulMonad.mk' (Action σ)
  (fun x => by
    funext s
    change (match x s with
      | (.ok b, s') => (.ok b, s')
      | (.error e, s') => (.error e, s')) = x s
    split <;> simp_all)
  (fun _ _ => rfl)
  (fun x f g => by
    funext s
    simp only [bind_apply]
    cases hx : x s with
    | mk r s' => cases r <;> rfl)

theorem within_apply (get : σ → τ) (set : τ → σ → σ) (x : Action τ β) (s : σ) :
    within get set x s = ((x (get s)).1, set (x (get s)).2 s) := rfl

theorem onFault_apply (x : Action σ β) (f : Fault → σ → σ) (s : σ) :
    onFault x f s =
      match x s with
      | (.ok b, s') => (.ok b, s')
      | (.error e, s') => (.error e, f e s') := rfl

@[simp] theorem ofExcept_apply (r : Except Fault β) (s : σ) :
    (ofExcept r : Action σ β) s = (r, s) := rfl

@[simp] theorem modify_apply (f : σ → σ) (s : σ) : modify f s = (.ok (), f s) := rfl

end Action

end BoundQuery

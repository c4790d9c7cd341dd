namespace Tern

/-!
# Actions

An action reads an environment and changes a state. It ends in one of three
ways: it is done, it has failed, or it is exhausted because its bound on nested
calls was too small. A failed action still leaves a state behind, so that the
one who handles the failure can tell what to take back. Exhaustion is not a
failure: nothing handles it.
-/

/-- How an action ends. -/
inductive Outcome (Failure State Value : Type) where
  | done (value : Value) (state : State)
  | failed (failure : Failure) (state : State)
  | exhausted

/-- A computation over an environment and a state. -/
def Action (Environment Failure State Value : Type) : Type :=
  Environment → State → Outcome Failure State Value

namespace Action

variable {Environment Failure State Value Next : Type}

/-- Run an action. -/
def run
    (action : Action Environment Failure State Value)
    (environment : Environment)
    (state : State) : Outcome Failure State Value :=
  action environment state

/-- Be done at once. -/
@[inline]
protected def pure (value : Value) : Action Environment Failure State Value :=
  fun _ state => .done value state

/-- Run an action, then another one that depends on its value. -/
@[inline]
protected def bind (action : Action Environment Failure State Value)
    (next : Value → Action Environment Failure State Next) :
    Action Environment Failure State Next :=
  fun environment state =>
    match action environment state with
    | .done value state => next value environment state
    | .failed failure state => .failed failure state
    | .exhausted => .exhausted

instance : Monad (Action Environment Failure State) where
  pure := Action.pure
  bind := Action.bind

instance : LawfulMonad (Action Environment Failure State) :=
  LawfulMonad.mk' _
    (fun action => by
      funext environment state
      simp only [Functor.map, Action.bind, Function.comp, Action.pure]
      cases action environment state <;> rfl)
    (fun _ _ => rfl)
    (fun action _ _ => by
      funext environment state
      simp only [bind, Action.bind]
      cases action environment state <;> rfl)

/-- The environment. -/
@[inline]
def environment : Action Environment Failure State Environment :=
  fun environment state => .done environment state

/-- The state. -/
@[inline]
def state : Action Environment Failure State State :=
  fun _ state => .done state state

/-- Change the state. -/
@[inline]
def modify (change : State → State) : Action Environment Failure State Unit :=
  fun _ state => .done () (change state)

/-- Change the state and give a value of it. -/
@[inline]
def update (change : State → Value × State) :
    Action Environment Failure State Value :=
  fun _ state => .done (change state).1 (change state).2

/-- Fail. -/
@[inline]
def fail (failure : Failure) : Action Environment Failure State Value :=
  fun _ state => .failed failure state

/-- Give up for want of fuel. -/
@[inline]
def exhaust : Action Environment Failure State Value :=
  fun _ _ => .exhausted

/-- Change the state after an action, whether it is done or has failed. -/
@[inline]
def ensure
    (action : Action Environment Failure State Value)
    (change : State → State) :
    Action Environment Failure State Value :=
  fun environment state =>
    match action environment state with
    | .done value state => .done value (change state)
    | .failed failure state => .failed failure (change state)
    | .exhausted => .exhausted

/-- Run another action in place of one that fails. -/
@[inline]
def orElse (action : Action Environment Failure State Value)
    (handle : Failure → Action Environment Failure State Value) :
    Action Environment Failure State Value :=
  fun environment state =>
    match action environment state with
    | .done value state => .done value state
    | .failed failure state => handle failure environment state
    | .exhausted => .exhausted

end Action

end Tern

import Lox.Proofs.Simulation

/-!
Neither the lines of its tokens nor the events before it matter to an execution: it does the same,
and blames the same token, on its new line.
-/

namespace Lox

def RuntimeError.onLine (f : Nat → Nat) (error : RuntimeError) : RuntimeError :=
  { error with token := error.token.onLine f }

section

variable (f : Nat → Nat)

theorem mapError_ok {ε δ α : Type} (g : ε → δ) (a : α) :
    (Except.ok a : Except ε α).mapError g = .ok a := rfl

theorem applyUnary_onLine (operator : Token) (operand : Value) :
    applyUnary (operator.onLine f) operand =
      (applyUnary operator operand).mapError (RuntimeError.onLine f) := by
  unfold applyUnary
  rw [Token.kind_onLine]
  split <;> rfl

theorem applyBinary_onLine (operator : Token) (left right : Value) :
    applyBinary (operator.onLine f) left right =
      (applyBinary operator left right).mapError (RuntimeError.onLine f) := by
  unfold applyBinary
  rw [Token.kind_onLine]
  split
  · rfl
  · rfl
  · unfold add
    split <;> rfl
  · split
    · unfold applyNumeric
      rw [Token.kind_onLine]
      split <;> first | rfl | (split <;> rfl)
    · rfl

theorem Environment.get_onLine (env : Environment) (name : Token) :
    env.get (name.onLine f) = (env.get name).mapError (RuntimeError.onLine f) := by
  unfold get
  rw [Token.lexeme_onLine]
  split <;> rfl

theorem Environment.assign_onLine (env : Environment) (name : Token) (value : Value) :
    env.assign (name.onLine f) value =
      (env.assign name value).mapError (RuntimeError.onLine f) := by
  unfold assign
  rw [Token.lexeme_onLine]
  split <;> rfl

theorem Expr.eval_onLine (e : Expr) (env : Environment) :
    (e.mapTokens (Token.onLine f)).eval env =
      ((e.eval env).1.mapError (RuntimeError.onLine f), (e.eval env).2) := by
  induction e generalizing env with
  | literal value => rfl
  | grouping inner ih => exact ih env
  | unary operator operand ih =>
    rw [mapTokens, eval, eval, ih]
    rcases operand.eval env with ⟨_ | value, env⟩
    · rfl
    · simp only [mapError_ok, applyUnary_onLine]
  | binary left operator right leftIh rightIh =>
    rw [mapTokens, eval, eval, leftIh]
    rcases left.eval env with ⟨_ | first, env⟩
    · rfl
    · simp only [mapError_ok, rightIh]
      rcases right.eval env with ⟨_ | second, env⟩
      · rfl
      · simp only [mapError_ok, applyBinary_onLine]
  | var name => simp [mapTokens, eval, Environment.get_onLine]
  | assign name value ih =>
    rw [mapTokens, eval, eval, ih]
    rcases value.eval env with ⟨_ | value, env⟩
    · rfl
    · simp only [mapError_ok, Environment.assign_onLine]
      cases env.assign name value <;> rfl
  | conditional condition yes no conditionIh yesIh noIh =>
    rw [mapTokens, eval, eval, conditionIh]
    rcases condition.eval env with ⟨_ | value, env⟩
    · rfl
    · simp only [mapError_ok]
      split
      · exact yesIh env
      · exact noIh env

end

/-- The same variables, with some events in front. -/
structure State.Follows (before : Array Event) (left right : State) : Prop where
  environment : right.environment = left.environment
  events : right.events = before ++ left.events

theorem simulation_onLine (f : Nat → Nat) (before : Array Event) :
    Simulation (Token.onLine f) (RuntimeError.onLine f) (State.Follows before) where
  eval := by
    rintro left right e ⟨environment, events⟩
    rw [environment, Expr.eval_onLine]
    exact ⟨rfl, rfl, events⟩
  print := by
    rintro left right text ⟨environment, events⟩
    exact ⟨environment, by simp [State.emit, events]⟩
  define := by
    rintro left right name value ⟨environment, events⟩
    exact ⟨by simp [State.define, State.emit, environment],
      by simp [State.define, State.emit, events]⟩
  enter := by
    rintro left right ⟨environment, events⟩
    exact ⟨by simp [State.enter, State.emit, environment],
      by simp [State.enter, State.emit, environment, events]⟩
  leave := by
    rintro left right ⟨environment, events⟩
    exact ⟨by simp [State.leave, State.emit, environment],
      by simp [State.leave, State.emit, environment, events]⟩

end Lox

import Lox.Environment
import Lox.Expr

/-!
Evaluation of expressions. Operands are evaluated from left to right, and all of them before the
operator looks at any; an assignment evaluates its value before it looks for its variable. A fault
keeps the assignments made before it.
-/

namespace Lox

def applyUnary (operator : Token) (operand : Value) : Except RuntimeError Value :=
  match operator.kind, operand with
  | .minus, .number x => .ok (.number (-x))
  | .minus, _ => .error ⟨operator, .operandNotNumber⟩
  | .bang, _ => .ok (.bool !operand.isTruthy)
  | _, _ => .error ⟨operator, .unknownOperator⟩

def add (operator : Token) : Value → Value → Except RuntimeError Value
  | .number x, .number y => .ok (.number (x + y))
  | .string s, .string t => .ok (.string (s ++ t))
  | _, _ => .error ⟨operator, .operandsNotAddable⟩

def applyNumeric (operator : Token) (x y : Float) : Except RuntimeError Value :=
  match operator.kind with
  | .minus => .ok (.number (x - y))
  | .star => .ok (.number (x * y))
  | .slash => if y == 0 then .error ⟨operator, .divisionByZero⟩ else .ok (.number (x / y))
  | .greater => .ok (.bool (x > y))
  | .greaterEqual => .ok (.bool (x ≥ y))
  | .less => .ok (.bool (x < y))
  | .lessEqual => .ok (.bool (x ≤ y))
  | _ => .error ⟨operator, .unknownOperator⟩

/-- Equality and addition are decided first; any other operator asks for numbers, even one that is
unknown. -/
def applyBinary (operator : Token) (left right : Value) : Except RuntimeError Value :=
  match operator.kind with
  | .equalEqual => .ok (.bool (left.equal right))
  | .bangEqual => .ok (.bool !left.equal right)
  | .plus => add operator left right
  | _ =>
    match left, right with
    | .number x, .number y => applyNumeric operator x y
    | _, _ => .error ⟨operator, .operandsNotNumbers⟩

def Expr.eval : Expr → Environment → Except RuntimeError Value × Environment
  | literal value, env => (.ok value, env)
  | grouping inner, env => inner.eval env
  | unary operator operand, env =>
    match operand.eval env with
    | (.ok value, env) => (applyUnary operator value, env)
    | (.error error, env) => (.error error, env)
  | binary left operator right, env =>
    match left.eval env with
    | (.error error, env) => (.error error, env)
    | (.ok first, env) =>
      match right.eval env with
      | (.error error, env) => (.error error, env)
      | (.ok second, env) => (applyBinary operator first second, env)
  | var name, env => (env.get name, env)
  | assign name e, env =>
    match e.eval env with
    | (.error error, env) => (.error error, env)
    | (.ok value, env) =>
      match env.assign name value with
      | .error error => (.error error, env)
      | .ok env => (.ok value, env)
  | conditional condition yes no, env =>
    match condition.eval env with
    | (.error error, env) => (.error error, env)
    | (.ok value, env) => if value.isTruthy then yes.eval env else no.eval env

end Lox

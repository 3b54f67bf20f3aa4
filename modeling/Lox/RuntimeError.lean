import Lox.Token

/-!
Faults of evaluation. Each is blamed on a token: the operator that cannot be applied, or the name
that is not bound.
-/

namespace Lox

inductive RuntimeFault
  | operandNotNumber
  | operandsNotNumbers
  | operandsNotAddable
  | divisionByZero
  | undefinedVariable
  | unknownOperator
  deriving DecidableEq

structure RuntimeError where
  token : Token
  fault : RuntimeFault
  deriving DecidableEq

def RuntimeError.message (error : RuntimeError) : String :=
  match error.fault with
  | .operandNotNumber => "Operand must be a number."
  | .operandsNotNumbers => "Operands must be numbers."
  | .operandsNotAddable => "Operands must be two numbers or two strings."
  | .divisionByZero => "Division by zero."
  | .undefinedVariable => "Undefined variable '" ++ error.token.lexeme ++ "'."
  | .unknownOperator => "Unknown operator '" ++ error.token.lexeme ++ "'."

end Lox

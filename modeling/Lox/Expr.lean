import Lox.Token

/-!
Expressions, and their text in parenthesised form with the operator in front.
-/

namespace Lox

inductive Expr
  | literal (value : Value)
  | grouping (inner : Expr)
  | unary (operator : Token) (operand : Expr)
  | binary (left : Expr) (operator : Token) (right : Expr)
  | var (name : Token)
  | assign (name : Token) (value : Expr)
  | conditional (condition yes no : Expr)
  deriving DecidableEq

namespace Expr

def text : Expr → String
  | literal value => value.text
  | grouping inner => "(group " ++ inner.text ++ ")"
  | unary operator operand => "(" ++ operator.lexeme ++ " " ++ operand.text ++ ")"
  | binary left operator right =>
    "(" ++ operator.lexeme ++ " " ++ left.text ++ " " ++ right.text ++ ")"
  | var name => name.lexeme
  | assign name value => "(= " ++ name.lexeme ++ " " ++ value.text ++ ")"
  | conditional condition yes no =>
    "(?: " ++ condition.text ++ " " ++ yes.text ++ " " ++ no.text ++ ")"

end Expr

end Lox

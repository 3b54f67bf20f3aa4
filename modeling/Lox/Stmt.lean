import Lox.Expr

/-!
Statements, and their text in the same form as that of expressions.
-/

namespace Lox

inductive Stmt
  | expression (e : Expr)
  | print (e : Expr)
  | varDecl (name : Token) (initial : Option Expr)
  | block (body : List Stmt)
  | ifThen (condition : Expr) (yes : Stmt)
  | ifElse (condition : Expr) (yes no : Stmt)
  | whileLoop (condition : Expr) (body : Stmt)

namespace Stmt

mutual

def text : Stmt → String
  | expression e => "(; " ++ e.text ++ ")"
  | print e => "(print " ++ e.text ++ ")"
  | varDecl name (some initial) => "(var " ++ name.lexeme ++ " " ++ initial.text ++ ")"
  | varDecl name none => "(var " ++ name.lexeme ++ ")"
  | block body => "(block" ++ bodyText body ++ ")"
  | ifThen condition yes => "(if " ++ condition.text ++ " " ++ yes.text ++ ")"
  | ifElse condition yes no =>
    "(if " ++ condition.text ++ " " ++ yes.text ++ " " ++ no.text ++ ")"
  | whileLoop condition body => "(while " ++ condition.text ++ " " ++ body.text ++ ")"

def bodyText : List Stmt → String
  | [] => ""
  | statement :: others => " " ++ statement.text ++ bodyText others

end

end Stmt

end Lox

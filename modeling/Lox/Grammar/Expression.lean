import Lox.Expr
import Lox.Grammar.Parser

/-!
The grammar of expressions, one parser for each tier, from loosest to tightest: assignment,
conditional, equality, comparison, term, factor, unary, primary. A tier is built over the next
tighter one; parentheses lead back to the loosest. Every repetition takes at least one token, so a
bound that is no smaller than the number of tokens left is never met.
-/

namespace Lox.Grammar

open Lox.Parser

/-- Further operands of a left-associative tier, after `left`. -/
def operands (kinds : List TokenKind) (operand : Parser Expr) : Nat → Expr → Parser Expr
  | 0, left => pure left
  | bound + 1, left => do
    match ← accept kinds with
    | none => pure left
    | some operator =>
      let right ← operand
      operands kinds operand bound (.binary left operator right)

def leftAssoc (kinds : List TokenKind) (bound : Nat) (operand : Parser Expr) : Parser Expr := do
  let first ← operand
  operands kinds operand bound first

def unary (primary : Parser Expr) : Nat → Parser Expr
  | 0 => primary
  | bound + 1 => do
    match ← accept [.bang, .minus] with
    | none => primary
    | some operator =>
      let operand ← unary primary bound
      pure (.unary operator operand)

def factor (bound : Nat) (unary : Parser Expr) : Parser Expr :=
  leftAssoc [.slash, .star] bound unary

def term (bound : Nat) (factor : Parser Expr) : Parser Expr :=
  leftAssoc [.minus, .plus] bound factor

def comparison (bound : Nat) (term : Parser Expr) : Parser Expr :=
  leftAssoc [.greater, .greaterEqual, .less, .lessEqual] bound term

def equality (bound : Nat) (comparison : Parser Expr) : Parser Expr :=
  leftAssoc [.bangEqual, .equalEqual] bound comparison

def conditional (equality : Parser Expr) : Nat → Parser Expr
  | 0 => equality
  | bound + 1 => do
    let condition ← equality
    match ← accept [.question] with
    | none => pure condition
    | some _ =>
      let yes ← equality
      let _ ← expect .colon .noColon
      let no ← conditional equality bound
      pure (.conditional condition yes no)

/-- What stands left of an equals sign is read as an expression first; if it is not a variable, the
sign is blamed and the expression stands for the whole. -/
def assignment (conditional : Parser Expr) : Nat → Parser Expr
  | 0 => conditional
  | bound + 1 => do
    let target ← conditional
    match ← accept [.equal] with
    | none => pure target
    | some equals =>
      let value ← assignment conditional bound
      match target with
      | .var name => pure (.assign name value)
      | _ =>
        complain equals .invalidTarget
        pure target

def group (inner : Parser Expr) : Parser Expr := do
  let e ← inner
  let _ ← expect .rightParen .noParenAfterExpression
  pure (.grouping e)

def atom? (token : Token) : Option Expr :=
  match token.kind with
  | .falseWord => some (.literal (.bool false))
  | .trueWord => some (.literal (.bool true))
  | .nilWord => some (.literal .nil)
  | .number | .string => some (.literal (token.literal.getD .nil))
  | .identifier => some (.var token)
  | _ => none

def primary (inner : Parser Expr) : Parser Expr
  | [] => fail .noExpression []
  | token :: rest =>
    if token.kind = .leftParen then group inner rest
    else
      match atom? token with
      | some e => ⟨.ok e, rest, []⟩
      | none => fail .noExpression (token :: rest)

/-- All tiers over one parser for what stands in parentheses. -/
def tiers (bound : Nat) (inner : Parser Expr) : Parser Expr :=
  let equalities :=
    equality bound (comparison bound (term bound (factor bound (unary (primary inner) bound))))
  assignment (conditional equalities bound) bound

def expression : Nat → Parser Expr
  | 0 => fail .noExpression
  | bound + 1 => fun tokens => tiers (bound + 1) (expression bound) tokens

end Lox.Grammar

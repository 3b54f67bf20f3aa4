import Lox.Stmt
import Lox.Grammar.Expression

/-!
The grammar of statements and declarations, and how reading goes on after a faulty one.
-/

namespace Lox.Grammar

open Lox.Parser

def expressionStatement (expression : Parser Expr) : Parser Stmt := do
  let e ← expression
  let _ ← expect .semicolon .noSemicolonAfterExpression
  pure (.expression e)

def printStatement (expression : Parser Expr) : Parser Stmt := do
  let e ← expression
  let _ ← expect .semicolon .noSemicolonAfterValue
  pure (.print e)

/-- An `else` belongs to the nearest `if` before it. -/
def ifStatement (expression : Parser Expr) (branch : Parser Stmt) : Parser Stmt := do
  let _ ← expect .leftParen .noParenAfterIf
  let condition ← expression
  let _ ← expect .rightParen .noParenAfterIfCondition
  let yes ← branch
  match ← accept [.elseWord] with
  | none => pure (.ifThen condition yes)
  | some _ =>
    let no ← branch
    pure (.ifElse condition yes no)

def whileStatement (expression : Parser Expr) (body : Parser Stmt) : Parser Stmt := do
  let _ ← expect .leftParen .noParenAfterWhile
  let condition ← expression
  let _ ← expect .rightParen .noParenAfterCondition
  let repeated ← body
  pure (.whileLoop condition repeated)

def varDeclaration (expression : Parser Expr) : Parser Stmt := do
  let name ← expect .identifier .noVariableName
  match ← accept [.equal] with
  | none =>
    let _ ← expect .semicolon .noSemicolonAfterVariable
    pure (.varDecl name none)
  | some _ =>
    let initial ← expression
    let _ ← expect .semicolon .noSemicolonAfterVariable
    pure (.varDecl name (some initial))

def startsStatement : TokenKind → Bool
  | .classWord | .funWord | .forWord | .ifWord | .whileWord | .printWord | .returnWord => true
  | _ => false

/-- Skips at least one token, up to a semicolon or to a word that starts a statement. -/
def resume : List Token → List Token
  | [] => []
  | token :: rest =>
    if token.kind = .semicolon ∨ rest.head?.any (startsStatement ·.kind) then rest
    else resume rest

theorem length_resume_le (tokens : List Token) : (resume tokens).length ≤ tokens.length - 1 := by
  induction tokens with
  | nil => simp [resume]
  | cons token rest ih =>
    rw [resume]
    split
    · simp
    · simp only [List.length_cons, Nat.add_sub_cancel]
      omega

/-- Where the parser stops, its fault is recorded and the reading resumes. -/
def recover {α : Type} (parser : Parser α) : Parser (Option α) := fun tokens =>
  match parser tokens with
  | ⟨.ok a, rest, complaints⟩ => ⟨.ok (some a), rest, complaints⟩
  | ⟨.error fault, rest, complaints⟩ =>
    ⟨.ok none, resume rest, complaints ++ [⟨rest.head?, fault⟩]⟩

def declaration (expression : Parser Expr) (statement : Parser Stmt) : Parser (Option Stmt) :=
  recover do
    match ← accept [.varWord] with
    | some _ => varDeclaration expression
    | none => statement

def declarations (closing : List TokenKind) (declaration : Parser (Option Stmt)) :
    Nat → Parser (List Stmt)
  | 0 => pure []
  | bound + 1 => fun tokens =>
    match tokens with
    | [] => ⟨.ok [], [], []⟩
    | token :: rest =>
      if token.kind ∈ closing then ⟨.ok [], token :: rest, []⟩
      else
        (do
          let first ← declaration
          let others ← declarations closing declaration bound
          pure (first.toList ++ others) : Parser (List Stmt)) (token :: rest)

def block (declaration : Parser (Option Stmt)) (bound : Nat) : Parser Stmt := do
  let body ← declarations [.rightBrace] declaration bound
  let _ ← expect .rightBrace .noBraceAfterBlock
  pure (.block body)

def statement : Nat → Parser Stmt
  | 0 => fail .noExpression
  | bound + 1 => fun tokens =>
    match tokens with
    | [] => fail .noExpression []
    | token :: rest =>
      match token.kind with
      | .ifWord => ifStatement (expression bound) (statement bound) rest
      | .whileWord => whileStatement (expression bound) (statement bound) rest
      | .printWord => printStatement (expression bound) rest
      | .leftBrace => block (declaration (expression bound) (statement bound)) bound rest
      | _ => expressionStatement (expression (bound + 1)) (token :: rest)

end Lox.Grammar

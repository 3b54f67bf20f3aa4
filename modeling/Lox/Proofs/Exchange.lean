import Lox.Proofs.Progress
import Lox.Proofs.Relabelling

/-!
Parsing tokens that were exchanged one by one. The parser decides by kinds alone and keeps literals
as they are; so if the exchange leaves both, it may as well be done after parsing.
-/

namespace Lox

section

variable (f : Token → Token)

def ParseError.mapToken (error : ParseError) : ParseError := ⟨f error.token, error.fault⟩

def Complaint.mapToken (complaint : Complaint) : Complaint :=
  ⟨complaint.blamed.map f, complaint.fault⟩

def Reply.mapTokens {α β : Type} (g : α → β) (reply : Reply α) : Reply β where
  result := reply.result.map g
  rest := reply.rest.map f
  complaints := reply.complaints.map (Complaint.mapToken f)

def Program.mapTokens (program : Program) : Program where
  statements := program.statements.map (Stmt.mapTokens f)
  errors := program.errors.map (ParseError.mapToken f)

end

namespace Grammar

open Lox.Parser

/-- The other parser does with exchanged tokens as the first one does with the tokens. -/
def Mirrors {α β : Type} (f : Token → Token) (g : α → β) (parser : Parser α) (other : Parser β) :
    Prop :=
  ∀ tokens, other (tokens.map f) = (parser tokens).mapTokens f g

variable {f : Token → Token}

namespace Mirrors

variable {α β γ δ : Type} {g : α → β} {h : γ → δ}

theorem bind {first : Parser α} {other : Parser β} {second : α → Parser γ}
    {otherSecond : β → Parser δ} (front : Mirrors f g first other)
    (back : ∀ a, Mirrors f h (second a) (otherSecond (g a))) :
    Mirrors f h (first >>= second) (other >>= otherSecond) := by
  intro tokens
  have mirrored := front tokens
  cases run : first tokens with
  | mk result rest complaints =>
    rw [run] at mirrored
    cases result with
    | error fault =>
      rw [bind_of_error run, bind_of_error mirrored]
      rfl
    | ok a =>
      rw [bind_of_ok run, bind_of_ok mirrored, back a rest]
      simp [Reply.mapTokens]

theorem pure {a : α} {b : β} (same : b = g a) :
    Mirrors f g (Pure.pure a : Parser α) (Pure.pure b : Parser β) := by
  subst same
  exact fun _ => rfl

theorem fail (fault : SyntaxFault) :
    Mirrors f g (Parser.fail fault : Parser α) (Parser.fail fault : Parser β) :=
  fun _ => rfl

theorem complain (token : Token) (fault : SyntaxFault) :
    Mirrors f id (Parser.complain token fault) (Parser.complain (f token) fault) :=
  fun _ => rfl

variable (kinds : ∀ token, (f token).kind = token.kind)

include kinds

theorem accept (accepted : List TokenKind) :
    Mirrors f (Option.map f) (Parser.accept accepted) (Parser.accept accepted) := by
  intro tokens
  cases tokens with
  | nil => rfl
  | cons token rest =>
    simp only [List.map_cons, Parser.accept, kinds]
    split <;> rfl

theorem expect (kind : TokenKind) (fault : SyntaxFault) :
    Mirrors f f (Parser.expect kind fault) (Parser.expect kind fault) := by
  intro tokens
  cases tokens with
  | nil => rfl
  | cons token rest =>
    simp only [List.map_cons, Parser.expect, kinds]
    split <;> rfl

end Mirrors

variable (kinds : ∀ token, (f token).kind = token.kind)

section

variable {operand primary equality conditional inner expression : Parser Expr}
variable {branch : Parser Stmt}

abbrev MirrorsExpr (f : Token → Token) (parser : Parser Expr) : Prop :=
  Mirrors f (Expr.mapTokens f) parser parser

abbrev MirrorsStmt (f : Token → Token) (parser : Parser Stmt) : Prop :=
  Mirrors f (Stmt.mapTokens f) parser parser

include kinds

theorem mirrors_operands (accepted : List TokenKind) (tight : MirrorsExpr f operand) (bound : Nat)
    (left : Expr) :
    Mirrors f (Expr.mapTokens f) (operands accepted operand bound left)
      (operands accepted operand bound (left.mapTokens f)) := by
  induction bound generalizing left with
  | zero => exact .pure rfl
  | succ bound ih =>
    refine .bind (.accept kinds accepted) ?_
    rintro (_ | operator)
    · exact .pure rfl
    · exact .bind tight fun right => ih (.binary left operator right)

theorem mirrors_leftAssoc (accepted : List TokenKind) (tight : MirrorsExpr f operand)
    (bound : Nat) : MirrorsExpr f (leftAssoc accepted bound operand) :=
  .bind tight (mirrors_operands kinds accepted tight bound)

theorem mirrors_unary (tight : MirrorsExpr f primary) (bound : Nat) :
    MirrorsExpr f (unary primary bound) := by
  induction bound with
  | zero => exact tight
  | succ bound ih =>
    refine .bind (.accept kinds _) ?_
    rintro (_ | operator)
    · exact tight
    · exact .bind ih fun operand => .pure rfl

theorem mirrors_conditional (tight : MirrorsExpr f equality) (bound : Nat) :
    MirrorsExpr f (Grammar.conditional equality bound) := by
  induction bound with
  | zero => exact tight
  | succ bound ih =>
    refine .bind tight fun condition => .bind (.accept kinds _) ?_
    rintro (_ | question)
    · exact .pure rfl
    · refine .bind tight fun yes => .bind (.expect kinds _ _) fun _ => ?_
      exact .bind ih fun no => .pure rfl

theorem mirrors_assignment (tight : MirrorsExpr f conditional) (bound : Nat) :
    MirrorsExpr f (assignment conditional bound) := by
  induction bound with
  | zero => exact tight
  | succ bound ih =>
    refine .bind tight fun target => .bind (.accept kinds _) ?_
    rintro (_ | equals)
    · exact .pure rfl
    · refine .bind ih fun value => ?_
      cases target with
      | var name => exact .pure rfl
      | _ => exact .bind (.complain _ _) fun _ => .pure rfl

theorem mirrors_group (inside : MirrorsExpr f inner) : MirrorsExpr f (group inner) :=
  .bind inside fun _ => .bind (.expect kinds _ _) fun _ => .pure rfl

variable (literals : ∀ token, (f token).literal = token.literal)

include literals

theorem atom?_map (token : Token) : atom? (f token) = (atom? token).map (Expr.mapTokens f) := by
  unfold atom?
  rw [kinds, literals]
  split <;> rfl

theorem mirrors_primary (inside : MirrorsExpr f inner) :
    MirrorsExpr f (Grammar.primary inner) := by
  intro tokens
  cases tokens with
  | nil => rfl
  | cons token rest =>
    simp only [List.map_cons, Grammar.primary, kinds, atom?_map kinds literals]
    split
    · exact mirrors_group kinds inside rest
    · cases atom? token <;> rfl

theorem mirrors_tiers (inside : MirrorsExpr f inner) (bound : Nat) :
    MirrorsExpr f (tiers bound inner) := by
  have units := mirrors_unary kinds (mirrors_primary kinds literals inside) bound
  have factors := mirrors_leftAssoc kinds [.slash, .star] units bound
  have terms := mirrors_leftAssoc kinds [.minus, .plus] factors bound
  have comparisons :=
    mirrors_leftAssoc kinds [.greater, .greaterEqual, .less, .lessEqual] terms bound
  have equalities := mirrors_leftAssoc kinds [.bangEqual, .equalEqual] comparisons bound
  exact mirrors_assignment kinds (mirrors_conditional kinds equalities bound) bound

theorem mirrors_expression (bound : Nat) : MirrorsExpr f (Grammar.expression bound) := by
  induction bound with
  | zero => exact .fail _
  | succ bound ih => exact mirrors_tiers kinds literals ih (bound + 1)

omit literals

theorem mirrors_expressionStatement (fits : MirrorsExpr f expression) :
    MirrorsStmt f (expressionStatement expression) :=
  .bind fits fun _ => .bind (.expect kinds _ _) fun _ => .pure rfl

theorem mirrors_printStatement (fits : MirrorsExpr f expression) :
    MirrorsStmt f (printStatement expression) :=
  .bind fits fun _ => .bind (.expect kinds _ _) fun _ => .pure rfl

theorem mirrors_varDeclaration (fits : MirrorsExpr f expression) :
    MirrorsStmt f (varDeclaration expression) := by
  refine .bind (.expect kinds _ _) fun name => .bind (.accept kinds _) ?_
  rintro (_ | equals)
  · exact .bind (.expect kinds _ _) fun _ => .pure rfl
  · exact .bind fits fun _ => .bind (.expect kinds _ _) fun _ => .pure rfl

theorem mirrors_ifStatement (fits : MirrorsExpr f expression)
    (branches : MirrorsStmt f branch) : MirrorsStmt f (ifStatement expression branch) := by
  refine .bind (.expect kinds _ _) fun _ => .bind fits fun condition => ?_
  refine .bind (.expect kinds _ _) fun _ => .bind branches fun yes => .bind (.accept kinds _) ?_
  rintro (_ | word)
  · exact .pure rfl
  · exact .bind branches fun no => .pure rfl

theorem mirrors_whileStatement (fits : MirrorsExpr f expression)
    (branches : MirrorsStmt f branch) : MirrorsStmt f (whileStatement expression branch) := by
  refine .bind (.expect kinds _ _) fun _ => .bind fits fun condition => ?_
  exact .bind (.expect kinds _ _) fun _ => .bind branches fun body => .pure rfl

theorem resume_map (tokens : List Token) : resume (tokens.map f) = (resume tokens).map f := by
  induction tokens with
  | nil => rfl
  | cons token rest ih =>
    have next : (rest.map f).head?.any (startsStatement ·.kind) =
        rest.head?.any (startsStatement ·.kind) := by
      cases rest <;> simp [kinds]
    simp only [List.map_cons, resume, kinds, next]
    split
    · rfl
    · exact ih

theorem mirrors_recover {parser : Parser Stmt} (mirrors : MirrorsStmt f parser) :
    Mirrors f (Option.map (Stmt.mapTokens f)) (recover parser) (recover parser) := by
  intro tokens
  have mirrored := mirrors tokens
  cases run : parser tokens with
  | mk result rest complaints =>
    rw [run] at mirrored
    cases result with
    | ok statement =>
      rw [recover_of_ok run, recover_of_ok mirrored]
      rfl
    | error fault =>
      rw [recover_of_error run, recover_of_error mirrored, resume_map kinds]
      simp [Reply.mapTokens, Complaint.mapToken, Except.map]

theorem mirrors_declaration (fits : MirrorsExpr f expression) (branches : MirrorsStmt f branch) :
    Mirrors f (Option.map (Stmt.mapTokens f)) (declaration expression branch)
      (declaration expression branch) := by
  refine mirrors_recover kinds (.bind (.accept kinds _) ?_)
  rintro (_ | word)
  · exact branches
  · exact mirrors_varDeclaration kinds fits

theorem mirrors_declarations (closing : List TokenKind) {declaration : Parser (Option Stmt)}
    (mirrors : Mirrors f (Option.map (Stmt.mapTokens f)) declaration declaration) (bound : Nat) :
    Mirrors f (List.map (Stmt.mapTokens f)) (declarations closing declaration bound)
      (declarations closing declaration bound) := by
  induction bound with
  | zero => exact .pure rfl
  | succ bound ih =>
    intro tokens
    cases tokens with
    | nil => rfl
    | cons token rest =>
      rw [declarations_cons, List.map_cons, declarations_cons, kinds]
      split
      · rfl
      · refine Mirrors.bind mirrors (fun first => ?_) (token :: rest)
        refine .bind ih fun others => .pure ?_
        cases first <;> rfl

theorem mirrors_block {declaration : Parser (Option Stmt)}
    (mirrors : Mirrors f (Option.map (Stmt.mapTokens f)) declaration declaration) (bound : Nat) :
    MirrorsStmt f (block declaration bound) := by
  refine .bind (mirrors_declarations kinds _ mirrors bound) fun body => ?_
  refine .bind (.expect kinds _ _) fun _ => .pure ?_
  rw [Stmt.mapTokens, Stmt.mapTokensAll_eq_map]

include literals

theorem mirrors_statement (bound : Nat) : MirrorsStmt f (statement bound) := by
  induction bound with
  | zero => exact .fail _
  | succ bound ih =>
    have fits : MirrorsExpr f (Grammar.expression bound) := mirrors_expression kinds literals bound
    intro tokens
    cases tokens with
    | nil => rfl
    | cons token rest =>
      simp only [List.map_cons, statement, kinds]
      split
      · exact mirrors_ifStatement kinds fits ih rest
      · exact mirrors_whileStatement kinds fits ih rest
      · exact mirrors_printStatement kinds fits rest
      · exact mirrors_block kinds (mirrors_declaration kinds fits ih) bound rest
      · exact mirrors_expressionStatement kinds (mirrors_expression kinds literals (bound + 1))
          (token :: rest)

theorem mirrors_program (bound : Nat) :
    Mirrors f (List.map (Stmt.mapTokens f)) (program bound) (program bound) :=
  mirrors_declarations kinds [] (mirrors_declaration kinds (mirrors_expression kinds literals bound)
    (mirrors_statement kinds literals bound)) bound

end

include kinds

theorem body_map (tokens : List Token) : body (tokens.map f) = (body tokens).map f := by
  simp only [body, List.takeWhile_map, Function.comp_def, kinds]

theorem endToken_map {tokens : List Token} (ends : ∃ token ∈ tokens, token.kind = .eof) :
    endToken (tokens.map f) = f (endToken tokens) := by
  have found : (tokens.find? (·.kind = .eof)).isSome := by simpa using ends
  obtain ⟨last, isLast⟩ := Option.isSome_iff_exists.mp found
  simp only [endToken, List.find?_map, Function.comp_def, kinds, isLast]
  rfl

end Grammar

theorem Complaint.against_mapToken (f : Token → Token) (complaint : Complaint) (last : Token) :
    (complaint.mapToken f).against (f last) = (complaint.against last).mapToken f := by
  obtain ⟨_ | token, fault⟩ := complaint <;> rfl

theorem parse_map {f : Token → Token} (kinds : ∀ token, (f token).kind = token.kind)
    (literals : ∀ token, (f token).literal = token.literal) {tokens : List Token}
    (ends : ∃ token ∈ tokens, token.kind = .eof) :
    parse (tokens.map f) = (parse tokens).mapTokens f := by
  obtain ⟨statements, rest, complaints, run⟩ :=
    Grammar.program_ok (Grammar.body tokens).length (Grammar.body tokens)
  have mirrored := Grammar.mirrors_program kinds literals (Grammar.body tokens).length
    (Grammar.body tokens)
  have length : (Grammar.body (tokens.map f)).length = (Grammar.body tokens).length := by
    rw [Grammar.body_map kinds, List.length_map]
  rw [run, ← Grammar.body_map kinds, ← length] at mirrored
  rw [parse_of_run run, parse_of_run mirrored, Grammar.endToken_map kinds ends]
  simp [Program.mapTokens, Complaint.against_mapToken]

end Lox

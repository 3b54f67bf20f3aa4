import Lox.Proofs.Shape

/-!
Trees whose tokens are exchanged one by one. As long as the kinds stay, so does the shape; and where
only lines change, a tree is spelled by the tokens that spelled it before, on their new lines.
-/

namespace Lox

def Expr.mapTokens (f : Token → Token) : Expr → Expr
  | literal value => literal value
  | grouping inner => grouping (inner.mapTokens f)
  | unary operator operand => unary (f operator) (operand.mapTokens f)
  | binary left operator right => binary (left.mapTokens f) (f operator) (right.mapTokens f)
  | var name => var (f name)
  | assign name value => assign (f name) (value.mapTokens f)
  | conditional condition yes no =>
    conditional (condition.mapTokens f) (yes.mapTokens f) (no.mapTokens f)

namespace Stmt

mutual

def mapTokens (f : Token → Token) : Stmt → Stmt
  | expression e => expression (e.mapTokens f)
  | print e => print (e.mapTokens f)
  | varDecl name initial => varDecl (f name) (initial.map (·.mapTokens f))
  | block body => block (mapTokensAll f body)
  | ifThen condition yes => ifThen (condition.mapTokens f) (yes.mapTokens f)
  | ifElse condition yes no =>
    ifElse (condition.mapTokens f) (yes.mapTokens f) (no.mapTokens f)
  | whileLoop condition body => whileLoop (condition.mapTokens f) (body.mapTokens f)

def mapTokensAll (f : Token → Token) : List Stmt → List Stmt
  | [] => []
  | statement :: others => statement.mapTokens f :: mapTokensAll f others

end

theorem mapTokensAll_eq_map (f : Token → Token) (statements : List Stmt) :
    mapTokensAll f statements = statements.map (mapTokens f) := by
  induction statements with
  | nil => rfl
  | cons statement others ih => rw [mapTokensAll, ih, List.map_cons]

end Stmt

theorem Expr.mapTokens_id (e : Expr) : e.mapTokens id = e := by
  induction e with
  | _ => simp_all [mapTokens]

namespace Stmt

mutual

theorem mapTokens_id (statement : Stmt) : statement.mapTokens id = statement := by
  have inner := Expr.mapTokens_id
  cases statement with
  | expression e | print e => simp only [mapTokens, inner]
  | varDecl name initial => cases initial <;> simp [mapTokens, inner]
  | block body => rw [mapTokens, mapTokensAll_id body]
  | ifThen condition yes => rw [mapTokens, inner, yes.mapTokens_id]
  | ifElse condition yes no => rw [mapTokens, inner, yes.mapTokens_id, no.mapTokens_id]
  | whileLoop condition body => rw [mapTokens, inner, body.mapTokens_id]

theorem mapTokensAll_id (statements : List Stmt) : mapTokensAll id statements = statements := by
  cases statements with
  | nil => rfl
  | cons statement others => rw [mapTokensAll, statement.mapTokens_id, mapTokensAll_id others]

end

end Stmt

section Shape

variable {f : Token → Token} (kinds : ∀ token, (f token).kind = token.kind)

include kinds

theorem Fits.mapTokens {tier : Tier} {e : Expr} (fits : Fits tier e) :
    Fits tier (e.mapTokens f) := by
  induction fits with
  | literal value => exact .literal value
  | grouping _ inner => exact .grouping inner
  | var isName => exact .var ((kinds _).trans isName)
  | unary member _ operand => exact .unary ((kinds _).symm ▸ member) operand
  | binary isLeftAssoc member _ _ left right =>
    exact .binary isLeftAssoc ((kinds _).symm ▸ member) left right
  | conditional _ _ _ condition yes no => exact .conditional condition yes no
  | assign isName _ value => exact .assign ((kinds _).trans isName) value
  | looser _ tighter => exact .looser tighter

omit kinds in
theorem Stmt.endsOpen_mapTokens (statement : Stmt) :
    (statement.mapTokens f).endsOpen = statement.endsOpen := by
  induction statement using Stmt.endsOpen.induct with
  | case1 condition yes => rfl
  | case2 condition yes no ih => simpa [mapTokens, endsOpen] using ih
  | case3 condition body ih => simpa [mapTokens, endsOpen] using ih
  | case4 statement _ _ _ => cases statement <;> simp_all [mapTokens, endsOpen]

theorem Shaped.mapTokens {place : Place} {statement : Stmt} (shaped : Shaped place statement) :
    Shaped place (statement.mapTokens f) := by
  induction shaped with
  | expression fits => exact .expression (fits.mapTokens kinds)
  | print fits => exact .print (fits.mapTokens kinds)
  | varDecl isName fits =>
    refine .varDecl ((kinds _).trans isName) ?_
    intro e member
    obtain ⟨initial, isInitial, rfl⟩ := Option.map_eq_some_iff.mp member
    exact (fits initial isInitial).mapTokens kinds
  | block _ body =>
    refine .block ?_
    rw [Stmt.mapTokensAll_eq_map]
    exact List.forall_mem_map.mpr body
  | ifThen condition _ yes => exact .ifThen (condition.mapTokens kinds) yes
  | ifElse condition _ closed _ yes no =>
    exact .ifElse (condition.mapTokens kinds) yes
      ((Stmt.endsOpen_mapTokens _).trans closed) no
  | whileLoop condition _ body => exact .whileLoop (condition.mapTokens kinds) body

end Shape

def Token.onLine (f : Nat → Nat) (token : Token) : Token := { token with line := f token.line }

namespace Token

variable (f : Nat → Nat)

@[simp] theorem kind_onLine (token : Token) : (token.onLine f).kind = token.kind := rfl

@[simp] theorem lexeme_onLine (token : Token) : (token.onLine f).lexeme = token.lexeme := rfl

theorem essence_onLine_of_plain {token : Token}
    (plain : ¬(token.kind.isOperator ∨ token.kind = .identifier)) :
    (token.onLine f).essence = token.essence := by
  unfold essence
  rw [if_neg plain, if_neg (by simpa using plain)]
  rfl

theorem essence_onLine {token other : Token} (same : token.essence = other.essence) :
    (token.onLine f).essence = (other.onLine f).essence := by
  by_cases whole : other.kind.isOperator ∨ other.kind = .identifier
  · rw [eq_of_essence_eq same whole]
  · have kinds : token.kind = other.kind := by simpa using congrArg Token.kind same
    rw [essence_onLine_of_plain f whole, essence_onLine_of_plain f (kinds ▸ whole), same]

@[simp] theorem essence_onLine_mark {kind : TokenKind}
    (plain : ¬(kind.isOperator ∨ kind = .identifier)) :
    ((mark kind).onLine f).essence = (mark kind).essence :=
  essence_onLine_of_plain f plain

theorem essence_onLine_value (value : Value) :
    (value.token.onLine f).essence = value.token.essence := by
  cases value with
  | bool b => cases b <;> rfl
  | _ => rfl

end Token

theorem Spells.onLine {tokens spelling : List Token} (spelled : Spells tokens spelling)
    (f : Nat → Nat) : Spells (tokens.map (Token.onLine f)) (spelling.map (Token.onLine f)) := by
  induction spelling generalizing tokens with
  | nil => simp_all
  | cons token others ih =>
    obtain ⟨first, rest, rfl, same, spelled⟩ := Spells.cons_iff.mp spelled
    exact Spells.cons_iff.mpr ⟨_, _, rfl, Token.essence_onLine f same, ih spelled⟩

theorem Expr.spelling_onLine (f : Nat → Nat) (e : Expr) :
    Spells (e.spelling.map (Token.onLine f)) (e.mapTokens (Token.onLine f)).spelling := by
  unfold Spells
  induction e with
  | literal value =>
    simp only [spelling, mapTokens, List.map_cons, List.map_nil, Token.essence_onLine_value]
  | _ =>
    simp (disch := decide) only [spelling, mapTokens, List.map_cons, List.map_append, List.map_nil,
      Token.essence_onLine_mark, *]

mutual

theorem Stmt.spelling_onLine (f : Nat → Nat) (statement : Stmt) :
    Spells (statement.spelling.map (Token.onLine f))
      (statement.mapTokens (Token.onLine f)).spelling := by
  have inner := Expr.spelling_onLine f
  unfold Spells at inner ⊢
  cases statement with
  | expression e | print e =>
    simp (disch := decide) only [spelling, mapTokens, List.map_cons, List.map_append, List.map_nil,
      Token.essence_onLine_mark, inner]
  | varDecl name initial =>
    cases initial <;>
      simp (disch := decide) only [spelling, mapTokens, List.map_cons, List.map_append,
        List.map_nil, Token.essence_onLine_mark, Option.map_none, Option.map_some, inner]
  | block body =>
    have all := spellingAll_onLine f body
    unfold Spells at all
    simp (disch := decide) only [spelling, mapTokens, List.map_cons, List.map_append, List.map_nil,
      Token.essence_onLine_mark, all]
  | ifThen condition yes =>
    have branch := yes.spelling_onLine f
    unfold Spells at branch
    simp (disch := decide) only [spelling, mapTokens, List.map_cons, List.map_append,
      Token.essence_onLine_mark, inner, branch]
  | ifElse condition yes no =>
    have branch := yes.spelling_onLine f
    have alternative := no.spelling_onLine f
    unfold Spells at branch alternative
    simp (disch := decide) only [spelling, mapTokens, List.map_cons, List.map_append,
      Token.essence_onLine_mark, inner, branch, alternative]
  | whileLoop condition body =>
    have branch := body.spelling_onLine f
    unfold Spells at branch
    simp (disch := decide) only [spelling, mapTokens, List.map_cons, List.map_append,
      Token.essence_onLine_mark, inner, branch]

theorem Stmt.spellingAll_onLine (f : Nat → Nat) (statements : List Stmt) :
    Spells ((spellingAll statements).map (Token.onLine f))
      (spellingAll (mapTokensAll (Token.onLine f) statements)) := by
  cases statements with
  | nil => rfl
  | cons statement others =>
    rw [spellingAll, List.map_append]
    exact (statement.spelling_onLine f).append (spellingAll_onLine f others)

end

end Lox

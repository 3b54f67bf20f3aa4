import Lox.Stmt

/-!
The tokens that spell a tree, from left to right. A tree keeps its operators and names whole; of a
literal it keeps the value, and of every other token only the place.
-/

namespace Lox

namespace TokenKind

def isOperator : TokenKind → Bool
  | bang | minus | plus | slash | star | bangEqual | equalEqual => true
  | greater | greaterEqual | less | lessEqual => true
  | _ => false

def isLiteral : TokenKind → Bool
  | string | number => true
  | _ => false

end TokenKind

/-- What a tree can keep of a token. -/
def Token.essence (token : Token) : Token :=
  if token.kind.isOperator ∨ token.kind = .identifier then token
  else if token.kind.isLiteral then ⟨token.kind, "", token.literal, 0⟩
  else ⟨token.kind, "", none, 0⟩

@[simp] theorem Token.kind_essence (token : Token) : token.essence.kind = token.kind := by
  unfold Token.essence
  split
  · rfl
  · split <;> rfl

def Token.mark (kind : TokenKind) : Token := ⟨kind, "", none, 0⟩

def Value.token : Value → Token
  | bool true => .mark .trueWord
  | bool false => .mark .falseWord
  | nil => .mark .nilWord
  | number x => ⟨.number, "", some (.number x), 0⟩
  | string text => ⟨.string, "", some (.string text), 0⟩

def Expr.spelling : Expr → List Token
  | literal value => [value.token]
  | grouping inner => .mark .leftParen :: (inner.spelling ++ [.mark .rightParen])
  | unary operator operand => operator :: operand.spelling
  | binary left operator right => left.spelling ++ operator :: right.spelling
  | var name => [name]
  | assign name value => name :: .mark .equal :: value.spelling
  | conditional condition yes no =>
    condition.spelling ++ .mark .question :: (yes.spelling ++ .mark .colon :: no.spelling)

namespace Stmt

mutual

def spelling : Stmt → List Token
  | expression e => e.spelling ++ [.mark .semicolon]
  | print e => .mark .printWord :: (e.spelling ++ [.mark .semicolon])
  | varDecl name none => [.mark .varWord, name, .mark .semicolon]
  | varDecl name (some initial) =>
    .mark .varWord :: name :: .mark .equal :: (initial.spelling ++ [.mark .semicolon])
  | block body => .mark .leftBrace :: (spellingAll body ++ [.mark .rightBrace])
  | ifThen condition yes =>
    .mark .ifWord :: .mark .leftParen ::
      (condition.spelling ++ .mark .rightParen :: yes.spelling)
  | ifElse condition yes no =>
    .mark .ifWord :: .mark .leftParen ::
      (condition.spelling ++ .mark .rightParen ::
        (yes.spelling ++ .mark .elseWord :: no.spelling))
  | whileLoop condition body =>
    .mark .whileWord :: .mark .leftParen ::
      (condition.spelling ++ .mark .rightParen :: body.spelling)

def spellingAll : List Stmt → List Token
  | [] => []
  | statement :: others => statement.spelling ++ spellingAll others

end

theorem spellingAll_append (first second : List Stmt) :
    spellingAll (first ++ second) = spellingAll first ++ spellingAll second := by
  induction first with
  | nil => rfl
  | cons statement others ih => simp [spellingAll, ih]

theorem mem_spellingAll {token : Token} {statements : List Stmt} :
    token ∈ spellingAll statements ↔ ∃ s ∈ statements, token ∈ s.spelling := by
  induction statements with
  | nil => simp [spellingAll]
  | cons s others ih => simp [spellingAll, ih]

end Stmt

/-- Two lists of tokens that no tree can tell apart. -/
def Spells (tokens spelling : List Token) : Prop :=
  tokens.map Token.essence = spelling.map Token.essence

namespace Spells

variable {tokens : List Token}

@[simp] theorem nil_iff : Spells tokens [] ↔ tokens = [] := by
  simp [Spells]

theorem cons_iff {token : Token} {others : List Token} :
    Spells tokens (token :: others) ↔
      ∃ first rest, tokens = first :: rest ∧ first.essence = token.essence ∧
        Spells rest others := by
  simp [Spells, List.map_eq_cons_iff]

theorem append_iff {first second : List Token} :
    Spells tokens (first ++ second) ↔
      ∃ before after, tokens = before ++ after ∧ Spells before first ∧ Spells after second := by
  simp only [Spells, List.map_append, List.map_eq_append_iff]

theorem refl (tokens : List Token) : Spells tokens tokens := rfl

theorem append {first second spelling others : List Token} (front : Spells first spelling)
    (back : Spells second others) : Spells (first ++ second) (spelling ++ others) := by
  unfold Spells at front back ⊢
  rw [List.map_append, List.map_append, front, back]

end Spells

theorem Token.essence_eq_mark {token : Token} {kind : TokenKind} :
    token.essence = (Token.mark kind).essence → token.kind = kind := by
  intro same
  have kinds := congrArg Token.kind same
  simpa [mark] using kinds

theorem Token.eq_of_essence_eq {token kept : Token} (same : token.essence = kept.essence)
    (whole : kept.kind.isOperator ∨ kept.kind = .identifier) : token = kept := by
  have kinds : token.kind = kept.kind := by
    simpa using congrArg Token.kind same
  unfold essence at same
  rwa [kinds, if_pos whole, if_pos whole] at same

theorem Expr.spelling_ne_nil (e : Expr) : e.spelling ≠ [] := by
  cases e <;> simp [spelling]

end Lox

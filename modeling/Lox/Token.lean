import Lox.Value

/-!
Tokens: their kinds, the table of reserved words, and their display text.
-/

namespace Lox

inductive TokenKind
  | leftParen | rightParen | leftBrace | rightBrace
  | comma | dot | minus | plus | semicolon | slash | star | question | colon
  | bang | bangEqual | equal | equalEqual | greater | greaterEqual | less | lessEqual
  | identifier | string | number
  | andWord | classWord | elseWord | falseWord | funWord | forWord | nilWord | ifWord
  | printWord | orWord | returnWord | superWord | thisWord | trueWord | varWord | whileWord
  | eof
  deriving DecidableEq

namespace TokenKind

def name : TokenKind → String
  | leftParen => "LeftParen"
  | rightParen => "RightParen"
  | leftBrace => "LeftBrace"
  | rightBrace => "RightBrace"
  | comma => "Comma"
  | dot => "Dot"
  | minus => "Minus"
  | plus => "Plus"
  | semicolon => "Semicolon"
  | slash => "Slash"
  | star => "Star"
  | question => "Question"
  | colon => "Colon"
  | bang => "Bang"
  | bangEqual => "BangEqual"
  | equal => "Equal"
  | equalEqual => "EqualEqual"
  | greater => "Greater"
  | greaterEqual => "GreaterEqual"
  | less => "Less"
  | lessEqual => "LessEqual"
  | identifier => "Identifier"
  | string => "String"
  | number => "Number"
  | andWord => "And"
  | classWord => "Class"
  | elseWord => "Else"
  | falseWord => "False"
  | funWord => "Fun"
  | forWord => "For"
  | nilWord => "Nil"
  | ifWord => "If"
  | printWord => "Print"
  | orWord => "Or"
  | returnWord => "Return"
  | superWord => "Super"
  | thisWord => "This"
  | trueWord => "True"
  | varWord => "Var"
  | whileWord => "While"
  | eof => "Eof"

def all : List TokenKind :=
  [leftParen, rightParen, leftBrace, rightBrace, comma, dot, minus, plus, semicolon, slash, star,
   question, colon, bang, bangEqual, equal, equalEqual, greater, greaterEqual, less, lessEqual,
   identifier, string, number, andWord, classWord, elseWord, falseWord, funWord, forWord, nilWord,
   ifWord, printWord, orWord, returnWord, superWord, thisWord, trueWord, varWord, whileWord, eof]

def ofName? (name : String) : Option TokenKind :=
  all.find? (·.name = name)

theorem ofName?_eq_some {name : String} {kind : TokenKind} :
    ofName? name = some kind ↔ kind.name = name := by
  constructor
  · intro found
    simpa using List.find?_some found
  · rintro rfl
    cases kind <;> rfl

def keywords : List (String × TokenKind) :=
  [("and", andWord), ("class", classWord), ("else", elseWord), ("false", falseWord),
   ("for", forWord), ("fun", funWord), ("if", ifWord), ("nil", nilWord), ("or", orWord),
   ("print", printWord), ("return", returnWord), ("super", superWord), ("this", thisWord),
   ("true", trueWord), ("var", varWord), ("while", whileWord)]

def keyword? (word : String) : Option TokenKind :=
  keywords.lookup word

end TokenKind

structure Token where
  kind : TokenKind
  lexeme : String
  literal : Option Value
  line : Nat
  deriving DecidableEq

namespace Token

def eof (line : Nat) : Token := ⟨.eof, "", none, line⟩

def name (lexeme : String) (line : Nat) : Token := ⟨.identifier, lexeme, none, line⟩

def text (token : Token) : String :=
  token.kind.name ++ " " ++ token.lexeme ++ " " ++ (token.literal.getD .nil).text

end Token

end Lox

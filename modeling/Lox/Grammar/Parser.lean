import Lox.Token

/-!
Parsers: functions from the tokens that are left to a reply. A parser that stops keeps its place, so
the fault it stops with is always found at the first token it has left; complaints are recorded on
the way and do not stop it. The end of the input is the empty list.
-/

namespace Lox

inductive SyntaxFault
  | noExpression
  | noVariableName
  | noParenAfterIf
  | noParenAfterIfCondition
  | noParenAfterWhile
  | noParenAfterCondition
  | noParenAfterExpression
  | noColon
  | noSemicolonAfterVariable
  | noSemicolonAfterValue
  | noSemicolonAfterExpression
  | noBraceAfterBlock
  | invalidTarget
  deriving DecidableEq

def SyntaxFault.message : SyntaxFault → String
  | noExpression => "Expect expression."
  | noVariableName => "Expect variable name."
  | noParenAfterIf => "Expect '(' after 'if'."
  | noParenAfterIfCondition => "Expect ')' after if condition."
  | noParenAfterWhile => "Expect '(' after 'while'."
  | noParenAfterCondition => "Expect ')' after condition."
  | noParenAfterExpression => "Expect ')' after expression."
  | noColon => "Expect ':' after then branch of conditional expression."
  | noSemicolonAfterVariable => "Expect ';' after variable declaration."
  | noSemicolonAfterValue => "Expect ';' after value."
  | noSemicolonAfterExpression => "Expect ';' after expression."
  | noBraceAfterBlock => "Expect '\x7d' after block."
  | invalidTarget => "Invalid assignment target."

/-- A fault and the token it is blamed on, which is none at the end of the input. -/
structure Complaint where
  blamed : Option Token
  fault : SyntaxFault
  deriving DecidableEq

structure Reply (α : Type) where
  result : Except SyntaxFault α
  rest : List Token
  complaints : List Complaint

def Parser (α : Type) : Type := List Token → Reply α

namespace Parser

variable {α β : Type}

def succeed (a : α) : Parser α := fun tokens => ⟨.ok a, tokens, []⟩

def andThen (first : Parser α) (second : α → Parser β) : Parser β := fun tokens =>
  match first tokens with
  | ⟨.ok a, rest, complaints⟩ =>
    let reply := second a rest
    { reply with complaints := complaints ++ reply.complaints }
  | ⟨.error fault, rest, complaints⟩ => ⟨.error fault, rest, complaints⟩

instance : Monad Parser where
  pure := succeed
  bind := andThen

theorem bind_of_ok {first : Parser α} {second : α → Parser β} {tokens rest : List Token} {a : α}
    {complaints : List Complaint} (done : first tokens = ⟨.ok a, rest, complaints⟩) :
    (first >>= second) tokens = ⟨(second a rest).result, (second a rest).rest,
      complaints ++ (second a rest).complaints⟩ := by
  simp [bind, andThen, done]

theorem bind_of_error {first : Parser α} {second : α → Parser β} {tokens rest : List Token}
    {fault : SyntaxFault} {complaints : List Complaint}
    (stopped : first tokens = ⟨.error fault, rest, complaints⟩) :
    (first >>= second) tokens = ⟨.error fault, rest, complaints⟩ := by
  simp [bind, andThen, stopped]

def fail (fault : SyntaxFault) : Parser α := fun tokens => ⟨.error fault, tokens, []⟩

def complain (token : Token) (fault : SyntaxFault) : Parser Unit := fun tokens =>
  ⟨.ok (), tokens, [⟨some token, fault⟩]⟩

def accept (kinds : List TokenKind) : Parser (Option Token)
  | [] => ⟨.ok none, [], []⟩
  | token :: rest =>
    if token.kind ∈ kinds then ⟨.ok (some token), rest, []⟩ else ⟨.ok none, token :: rest, []⟩

def expect (kind : TokenKind) (fault : SyntaxFault) : Parser Token
  | [] => ⟨.error fault, [], []⟩
  | token :: rest =>
    if token.kind = kind then ⟨.ok token, rest, []⟩ else ⟨.error fault, token :: rest, []⟩

end Parser

end Lox

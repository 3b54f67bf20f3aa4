import Lox.Grammar.Statement

/-!
Parsing whole programs: the statements and the errors of a list of tokens.
-/

namespace Lox

structure ParseError where
  token : Token
  fault : SyntaxFault
  deriving DecidableEq

def ParseError.message (error : ParseError) : String := error.fault.message

def Complaint.against (complaint : Complaint) (last : Token) : ParseError :=
  ⟨complaint.blamed.getD last, complaint.fault⟩

structure Program where
  statements : List Stmt
  errors : List ParseError

namespace Grammar

def body (tokens : List Token) : List Token :=
  tokens.takeWhile (·.kind ≠ .eof)

def endToken (tokens : List Token) : Token :=
  (tokens.find? (·.kind = .eof)).getD (.eof 1)

def program (bound : Nat) : Parser (List Stmt) :=
  declarations [] (declaration (expression bound) (statement bound)) bound

end Grammar

/-- What follows the first end token is not read. -/
def parse (tokens : List Token) : Program :=
  let body := Grammar.body tokens
  let reply := Grammar.program body.length body
  { statements := reply.result.toOption.getD []
    errors := reply.complaints.map (·.against (Grammar.endToken tokens)) }

end Lox

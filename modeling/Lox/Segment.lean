import Lox.Token
import Lox.Number.Reading
import Lox.Unicode

/-!
Segments: the pieces into which a source divides, from left to right and with nothing left over.
Each is a blank, a comment, a token, a character that starts nothing, or a string or comment that
is never closed.
-/

namespace Lox

inductive Segment
  | blank (c : Char)
  | lineComment (body : List Char)
  | blockComment (body : List Char)
  | token (kind : TokenKind) (lexeme : List Char)
  | unexpected (c : Char)
  | openString (body : List Char)
  | openComment (body : List Char)
  deriving DecidableEq

namespace Segment

def text : Segment → List Char
  | blank c => [c]
  | lineComment body => '/' :: '/' :: body
  | blockComment body => '/' :: '*' :: body ++ ['*', '/']
  | token _ lexeme => lexeme
  | unexpected c => [c]
  | openString body => '"' :: body
  | openComment body => '/' :: '*' :: body

def isBlank (c : Char) : Bool :=
  c = ' ' || c = '\t' || c = '\r' || c = '\n'

def startsName (c : Char) : Bool :=
  Unicode.isAlphabetic c || c = '_'

def continuesName (c : Char) : Bool :=
  Unicode.isAlphanumeric c || c = '_'

def symbol? : Char → Option TokenKind
  | '(' => some .leftParen
  | ')' => some .rightParen
  | '{' => some .leftBrace
  | '}' => some .rightBrace
  | ',' => some .comma
  | '.' => some .dot
  | '-' => some .minus
  | '+' => some .plus
  | ';' => some .semicolon
  | '*' => some .star
  | '?' => some .question
  | ':' => some .colon
  | '/' => some .slash
  | '!' => some .bang
  | '=' => some .equal
  | '<' => some .less
  | '>' => some .greater
  | _ => none

def withEqual? : TokenKind → Option TokenKind
  | .bang => some .bangEqual
  | .equal => some .equalEqual
  | .less => some .lessEqual
  | .greater => some .greaterEqual
  | _ => none

def symbol (kind : TokenKind) (c : Char) (rest : List Char) : Segment × List Char :=
  match withEqual? kind, rest with
  | some longer, '=' :: after => (token longer [c, '='], after)
  | _, _ => (token kind [c], rest)

def uncomment? : List Char → Option (List Char × List Char)
  | [] => none
  | '*' :: '/' :: after => some ([], after)
  | c :: rest => (uncomment? rest).map fun (body, after) => (c :: body, after)

def comment (rest : List Char) : Segment × List Char :=
  match uncomment? rest with
  | some (body, after) => (blockComment body, after)
  | none => (openComment rest, [])

def quoted (rest : List Char) : Segment × List Char :=
  match rest.dropWhile (· ≠ '"') with
  | quote :: after => (token .string ('"' :: rest.takeWhile (· ≠ '"') ++ [quote]), after)
  | [] => (openString rest, [])

/-- A point belongs to a number only if a digit follows it. -/
def number (first : Char) (rest : List Char) : Segment × List Char :=
  let whole := first :: rest.takeWhile Char.isDigit
  match rest.dropWhile Char.isDigit with
  | '.' :: digit :: after =>
    if digit.isDigit then
      (token .number (whole ++ '.' :: digit :: after.takeWhile Char.isDigit),
        after.dropWhile Char.isDigit)
    else (token .number whole, '.' :: digit :: after)
  | after => (token .number whole, after)

def word (first : Char) (rest : List Char) : Segment × List Char :=
  let lexeme := first :: rest.takeWhile continuesName
  let kind := (TokenKind.keyword? (String.ofList lexeme)).getD .identifier
  (token kind lexeme, rest.dropWhile continuesName)

def first (c : Char) (rest : List Char) : Segment × List Char :=
  match c, rest with
  | '/', '/' :: after => (lineComment (after.takeWhile (· ≠ '\n')), after.dropWhile (· ≠ '\n'))
  | '/', '*' :: after => comment after
  | '"', _ => quoted rest
  | _, _ =>
    if isBlank c then (blank c, rest)
    else
      match symbol? c with
      | some kind => symbol kind c rest
      | none =>
        if c.isDigit then number c rest
        else if startsName c then word c rest
        else (unexpected c, rest)

/-- At most `bound` segments; there are never more of them than characters. -/
def firstSegments : Nat → List Char → List Segment
  | bound + 1, c :: rest => (first c rest).1 :: firstSegments bound (first c rest).2
  | _, _ => []

def ofSource (source : List Char) : List Segment :=
  firstSegments source.length source

end Segment

end Lox

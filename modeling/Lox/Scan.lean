import Lox.Segment

/-!
Scanning: the tokens and errors of a source, with their line numbers. A segment belongs to the line
on which it ends. A tolerant scan reports every error and keeps every token; a strict one stops at
the first error and has no tokens then.
-/

namespace Lox

inductive ScanFault
  | unexpected (c : Char)
  | openString
  | openComment
  deriving DecidableEq

def ScanFault.message : ScanFault → String
  | unexpected c => "Unexpected character '" ++ String.singleton c ++ "'."
  | openString => "Unterminated string."
  | openComment => "Unterminated block comment."

structure ScanError where
  line : Nat
  fault : ScanFault
  deriving DecidableEq

def ScanError.message (error : ScanError) : String := error.fault.message

def TokenKind.literal? (kind : TokenKind) (lexeme : List Char) : Option Value :=
  match kind with
  | .string => some (.string (String.ofList (lexeme.drop 1).dropLast))
  | .number => some (.number (Number.ofNumeral lexeme))
  | _ => none

namespace Segment

def fault? : Segment → Option ScanFault
  | unexpected c => some (.unexpected c)
  | openString _ => some .openString
  | openComment _ => some .openComment
  | _ => none

def error? (segment : Segment) (line : Nat) : Option ScanError :=
  segment.fault?.map (⟨line, ·⟩)

def token? (segment : Segment) (line : Nat) : Option Token :=
  match segment with
  | token kind lexeme => some ⟨kind, String.ofList lexeme, kind.literal? lexeme, line⟩
  | _ => none

def advanceLine (line : Nat) (c : Char) : Nat :=
  if c = '\n' then line + 1 else line

/-- The line counter behind a segment. It moves where a newline is taken: as blank space, or inside
a string or a block comment, closed or not. A line comment leaves its newline to the next segment. -/
def lineAfter (segment : Segment) (line : Nat) : Nat :=
  match segment with
  | blank c => advanceLine line c
  | token .string lexeme => (lexeme.drop 1).dropLast.foldl advanceLine line
  | blockComment body | openString body | openComment body => body.foldl advanceLine line
  | lineComment _ | token .. | unexpected _ => line

/-- Each segment with the line on which it ends, when the first one starts on `line`. -/
def onLines (line : Nat) : List Segment → List (Segment × Nat)
  | [] => []
  | segment :: others =>
    (segment, segment.lineAfter line) :: onLines (segment.lineAfter line) others

def endLine (line : Nat) (segments : List Segment) : Nat :=
  segments.foldl (fun line segment => segment.lineAfter line) line

end Segment

inductive ScanMode
  | tolerant
  | strict
  deriving DecidableEq

structure Scan where
  tokens : List Token
  errors : List ScanError
  deriving DecidableEq

namespace Scan

def tolerant (segments : List Segment) : Scan where
  tokens := (Segment.onLines 1 segments).filterMap (fun (segment, line) => segment.token? line) ++
    [Token.eof (Segment.endLine 1 segments)]
  errors := (Segment.onLines 1 segments).filterMap fun (segment, line) => segment.error? line

def untilError (line : Nat) : List Segment → Except ScanError (List Token)
  | [] => .ok [Token.eof line]
  | segment :: others =>
    match segment.error? (segment.lineAfter line) with
    | some error => .error error
    | none => do
      let tokens ← untilError (segment.lineAfter line) others
      return (segment.token? (segment.lineAfter line)).toList ++ tokens

def strict (segments : List Segment) : Scan :=
  match untilError 1 segments with
  | .ok tokens => ⟨tokens, []⟩
  | .error error => ⟨[], [error]⟩

/-- The number of lines, unless the scan gave up: every finished scan ends with an end token. -/
def lines? (scan : Scan) : Option Nat :=
  scan.tokens.getLast?.map (·.line)

end Scan

def scan (mode : ScanMode) (source : String) : Scan :=
  let segments := Segment.ofSource source.toList
  match mode with
  | .tolerant => Scan.tolerant segments
  | .strict => Scan.strict segments

end Lox

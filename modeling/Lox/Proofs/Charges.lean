import Lox.Proofs.CorrectPrefix
import Lox.Proofs.Seams

/-!
Every complaint is charged to a token that was taken for it alone, and if it blames a token, to that
one. So the complaints cannot outnumber the tokens, and no token is blamed more often than it
stands in the input; only the end, which is never taken, can be.
-/

namespace Lox

def blamedTokens (complaints : List Complaint) : List Token :=
  complaints.filterMap (·.blamed)

/-- The tokens that were used, one of them at least for something else than a complaint. -/
structure Charged (used : List Token) (complaints : List Complaint) : Prop where
  once : ∀ token, (blamedTokens complaints).count token ≤ used.count token
  count : complaints.length ≤ used.length - 1

/-- The tokens that were used, one of them for each statement. -/
structure Settled (used : List Token) (complaints : List Complaint) (statements : List Stmt) :
    Prop where
  once : ∀ token, (blamedTokens complaints).count token ≤ used.count token
  count : complaints.length + statements.length ≤ used.length

theorem count_blamedTokens_append (token : Token) (complaints others : List Complaint) :
    (blamedTokens (complaints ++ others)).count token =
      (blamedTokens complaints).count token + (blamedTokens others).count token := by
  rw [blamedTokens, List.filterMap_append, List.count_append]
  rfl

namespace Charged

variable {used more : List Token} {complaints others : List Complaint}

theorem nil (used : List Token) : Charged used [] :=
  ⟨fun _ => Nat.zero_le _, Nat.zero_le _⟩

theorem append (front : Charged used complaints) (back : Charged more others) :
    Charged (used ++ more) (complaints ++ others) := by
  constructor
  · intro token
    rw [count_blamedTokens_append, List.count_append]
    exact Nat.add_le_add (front.once token) (back.once token)
  · have frontCount := front.count
    have backCount := back.count
    simp only [List.length_append]
    omega

theorem blame (charged : Charged used complaints) (nonempty : used ≠ []) (token : Token)
    (fault : SyntaxFault) : Charged (token :: used) (complaints ++ [⟨some token, fault⟩]) := by
  constructor
  · intro other
    have before := charged.once other
    have own : blamedTokens [⟨some token, fault⟩] = [token] := rfl
    rw [count_blamedTokens_append, own, List.count_singleton, List.count_cons]
    omega
  · have before := charged.count
    have positive := List.length_pos_iff.mpr nonempty
    simp only [List.length_append, List.length_cons, List.length_nil]
    omega

theorem settled (charged : Charged used complaints) (nonempty : used ≠ []) (statement : Stmt) :
    Settled used complaints [statement] := by
  refine ⟨charged.once, ?_⟩
  have before := charged.count
  have positive := List.length_pos_iff.mpr nonempty
  rw [List.length_singleton]
  omega

end Charged

namespace Settled

variable {used more : List Token} {complaints others : List Complaint}
variable {statements later : List Stmt}

theorem nil : Settled [] [] [] :=
  ⟨fun _ => Nat.zero_le _, Nat.zero_le _⟩

theorem append (front : Settled used complaints statements) (back : Settled more others later) :
    Settled (used ++ more) (complaints ++ others) (statements ++ later) := by
  constructor
  · intro token
    rw [count_blamedTokens_append, List.count_append]
    exact Nat.add_le_add (front.once token) (back.once token)
  · have frontCount := front.count
    have backCount := back.count
    simp only [List.length_append]
    omega

theorem charged (settled : Settled used complaints statements) (token : Token) :
    Charged (token :: used) complaints := by
  constructor
  · intro other
    exact Nat.le_trans (settled.once other) List.count_le_count_cons
  · have before := settled.count
    rw [List.length_cons]
    omega

theorem skip {complaint : Complaint} {token : Token} (charged : Charged used complaints)
    (blamed : complaint.blamed = some token) (skipped : List Token) :
    Settled (used ++ token :: skipped) (complaints ++ [complaint]) [] := by
  constructor
  · intro other
    have before := charged.once other
    have own : blamedTokens [complaint] = [token] := by simp [blamedTokens, blamed]
    rw [count_blamedTokens_append, own, List.count_append, List.count_singleton, List.count_cons]
    omega
  · have before := charged.count
    simp only [List.length_append, List.length_cons, List.length_nil]
    omega

theorem finish {complaint : Complaint} (charged : Charged used complaints) (nonempty : used ≠ [])
    (atEnd : complaint.blamed = none) : Settled used (complaints ++ [complaint]) [] := by
  constructor
  · intro token
    have own : blamedTokens [complaint] = [] := by simp [blamedTokens, atEnd]
    rw [count_blamedTokens_append, own]
    exact charged.once token
  · have before := charged.count
    have positive := List.length_pos_iff.mpr nonempty
    simp only [List.length_append, List.length_cons, List.length_nil]
    omega

end Settled

theorem ne_nil_of_shorter {tokens used rest : List Token} (split : tokens = used ++ rest)
    (shorter : rest.length < tokens.length) : used ≠ [] := by
  rintro rfl
  rw [split] at shorter
  exact absurd shorter (Nat.lt_irrefl _)

namespace Grammar

open Lox.Parser

variable {α β : Type}

/-- If the tokens in front are not yet charged, they and those that the parser takes pay for its
complaints. -/
def Charges (front : List Token) (parser : Parser α) : Prop :=
  ∀ tokens, ∃ used, tokens = used ++ (parser tokens).rest ∧
    Charged (front ++ used) (parser tokens).complaints

namespace Charges

variable {front : List Token}

theorem of_silent {parser : Parser α} (advances : parser.Advances)
    (silent : ∀ tokens, (parser tokens).complaints = []) : Charges front parser := by
  intro tokens
  obtain ⟨used, same⟩ := advances tokens
  refine ⟨used, same.symm, ?_⟩
  rw [silent]
  exact .nil _

theorem pure (a : α) : Charges front (Pure.pure a : Parser α) :=
  .of_silent (.pure a) fun _ => rfl

theorem fail (fault : SyntaxFault) : Charges front (Parser.fail fault : Parser α) :=
  .of_silent (.fail fault) fun _ => rfl

theorem expect (kind : TokenKind) (fault : SyntaxFault) :
    Charges front (Parser.expect kind fault) := by
  refine .of_silent (.expect kind fault) ?_
  intro tokens
  cases tokens with
  | nil => rfl
  | cons token rest =>
    rw [Parser.expect]
    split <;> rfl

theorem bind {first : Parser α} {second : α → Parser β} (before : Charges front first)
    (after : ∀ a, Charges [] (second a)) : Charges front (first >>= second) := by
  intro tokens
  obtain ⟨used, split, charged⟩ := before tokens
  cases run : first tokens with
  | mk result middle complaints =>
    rw [run] at split charged
    cases result with
    | error fault =>
      rw [bind_of_error run]
      exact ⟨used, split, charged⟩
    | ok a =>
      obtain ⟨more, rest, later⟩ := after a middle
      rw [bind_of_ok run]
      refine ⟨used ++ more, ?_, ?_⟩
      · rw [List.append_assoc, ← rest]
        exact split
      · rw [← List.append_assoc]
        exact charged.append later

theorem weaken {parser : Parser α} (charges : Charges [] parser) (front : List Token) :
    Charges front parser := by
  intro tokens
  obtain ⟨used, split, charged⟩ := charges tokens
  exact ⟨used, split, (Charged.nil front).append charged⟩

theorem taken {next : Parser α} {token : Token} (charges : Charges [token] next)
    (rest : List Token) : ∃ used, token :: rest = used ++ (next rest).rest ∧
      Charged used (next rest).complaints := by
  obtain ⟨used, split, charged⟩ := charges rest
  exact ⟨token :: used, congrArg (token :: ·) split, charged⟩

theorem accept {kinds : List TokenKind} {next : Option Token → Parser α}
    (stays : Charges [] (next none)) (goesOn : ∀ token, Charges [token] (next (some token))) :
    Charges [] (Parser.accept kinds >>= next) := by
  intro tokens
  by_cases stops : Stops kinds tokens
  · rw [accept_bind_of_stops stops]
    exact stays tokens
  · obtain ⟨token, rest, rfl, member⟩ := exists_of_not_stops stops
    rw [accept_bind_of_mem member]
    exact (goesOn token).taken rest

end Charges

section

variable {operand primary equality conditional inner : Parser Expr}

theorem charges_operands (kinds : List TokenKind) (tight : Charges [] operand) (bound : Nat)
    (left : Expr) : Charges [] (operands kinds operand bound left) := by
  induction bound generalizing left with
  | zero => exact .pure left
  | succ bound ih =>
    refine .accept (.pure left) fun operator => ?_
    exact (tight.weaken _).bind fun right => ih _

theorem charges_leftAssoc (kinds : List TokenKind) (tight : Charges [] operand) (bound : Nat) :
    Charges [] (leftAssoc kinds bound operand) :=
  tight.bind (charges_operands kinds tight bound)

theorem charges_unary (tight : Charges [] primary) (bound : Nat) :
    Charges [] (unary primary bound) := by
  induction bound with
  | zero => exact tight
  | succ bound ih => exact .accept tight fun operator => (ih.weaken _).bind fun _ => .pure _

theorem charges_conditional (tight : Charges [] equality) (bound : Nat) :
    Charges [] (Grammar.conditional equality bound) := by
  induction bound with
  | zero => exact tight
  | succ bound ih =>
    refine tight.bind fun condition => .accept (.pure condition) fun question => ?_
    refine (tight.weaken _).bind fun yes => (Charges.expect _ _).bind fun _ => ?_
    exact ih.bind fun no => .pure _

theorem charges_invalidTarget {value : Parser Expr} (charges : Charges [] value)
    (consumes : value.Consumes) (equals : Token) (target : Expr) :
    Charges [equals] (value >>= fun _ => do
      complain equals .invalidTarget
      pure target) := by
  -- The equals sign is taken before the value, so it is there to be blamed behind it.
  intro tokens
  obtain ⟨used, split, charged⟩ := charges tokens
  cases run : value tokens with
  | mk result rest complaints =>
    rw [run] at split charged
    cases result with
    | error fault =>
      rw [bind_of_error run]
      exact ⟨used, split, (Charged.nil [equals]).append charged⟩
    | ok a =>
      have nonempty := ne_nil_of_shorter split (consumes.takes _ _ _ _ run)
      rw [bind_of_ok run]
      exact ⟨used, split, charged.blame nonempty equals .invalidTarget⟩

theorem charges_assignment (tight : Charges [] conditional) (consumes : conditional.Consumes)
    (bound : Nat) : Charges [] (assignment conditional bound) := by
  induction bound with
  | zero => exact tight
  | succ bound ih =>
    refine tight.bind fun target => .accept (.pure target) fun equals => ?_
    cases target with
    | var name => exact (ih.weaken _).bind fun value => .pure _
    | _ => exact charges_invalidTarget ih (consumes_assignment consumes bound) equals _

theorem charges_group (inside : Charges [] inner) : Charges [] (group inner) :=
  inside.bind fun _ => (Charges.expect _ _).bind fun _ => .pure _

theorem charges_primary (inside : Charges [] inner) : Charges [] (Grammar.primary inner) := by
  intro tokens
  cases tokens with
  | nil => exact ⟨[], rfl, .nil _⟩
  | cons token rest =>
    by_cases paren : token.kind = .leftParen
    · rw [Grammar.primary, if_pos paren]
      exact ((charges_group inside).weaken [token]).taken rest
    · rw [Grammar.primary, if_neg paren]
      cases atom? token with
      | some e => exact ⟨[token], rfl, .nil _⟩
      | none => exact ⟨[], rfl, .nil _⟩

theorem charges_tiers (inside : Charges [] inner) (consumes : inner.Consumes) (bound : Nat) :
    Charges [] (tiers bound inner) := by
  have units := charges_unary (charges_primary inside) bound
  have factors := charges_leftAssoc [.slash, .star] units bound
  have terms := charges_leftAssoc [.minus, .plus] factors bound
  have comparisons := charges_leftAssoc [.greater, .greaterEqual, .less, .lessEqual] terms bound
  have equalities := charges_leftAssoc [.bangEqual, .equalEqual] comparisons bound
  exact charges_assignment (charges_conditional equalities bound)
    (consumes_conditional (consumes_equalities consumes bound) bound) bound

theorem charges_expression (bound : Nat) : Charges [] (expression bound) := by
  induction bound with
  | zero => exact .fail _
  | succ bound ih => exact charges_tiers ih (consumes_expression bound) (bound + 1)

end

section

variable {expression : Parser Expr} {branch : Parser Stmt} {front : List Token}

theorem charges_expressionStatement (fits : Charges [] expression) :
    Charges [] (expressionStatement expression) :=
  fits.bind fun _ => (Charges.expect _ _).bind fun _ => .pure _

theorem charges_printStatement (fits : Charges [] expression) :
    Charges [] (printStatement expression) :=
  fits.bind fun _ => (Charges.expect _ _).bind fun _ => .pure _

theorem charges_varDeclaration (fits : Charges [] expression) :
    Charges [] (varDeclaration expression) := by
  refine (Charges.expect _ _).bind fun name => .accept ?_ fun equals => .weaken ?_ _
  · exact (Charges.expect _ _).bind fun _ => .pure _
  · exact fits.bind fun _ => (Charges.expect _ _).bind fun _ => .pure _

theorem charges_ifStatement (fits : Charges [] expression) (branches : Charges [] branch) :
    Charges [] (ifStatement expression branch) := by
  refine (Charges.expect _ _).bind fun _ => fits.bind fun condition => ?_
  refine (Charges.expect _ _).bind fun _ => branches.bind fun yes => ?_
  exact .accept (.pure _) fun word => (branches.weaken _).bind fun no => .pure _

theorem charges_whileStatement (fits : Charges [] expression) (branches : Charges [] branch) :
    Charges [] (whileStatement expression branch) := by
  refine (Charges.expect _ _).bind fun _ => fits.bind fun condition => ?_
  exact (Charges.expect _ _).bind fun _ => branches.bind fun body => .pure _

theorem charges_declared (fits : Charges [] expression) (branches : Charges [] branch) :
    Charges [] (accept [.varWord] >>= fun
      | some _ => varDeclaration expression
      | none => branch) :=
  .accept branches fun _ => (charges_varDeclaration fits).weaken _

theorem suffix_resume_cons (token : Token) (rest : List Token) :
    resume (token :: rest) <:+ rest := by
  rw [resume]
  split
  · exact List.suffix_rfl
  · exact suffix_resume rest

theorem settled_recover {parser : Parser Stmt} (charges : Charges [] parser)
    (consumes : parser.Consumes) {tokens rest : List Token} (nonempty : tokens ≠ [])
    {read : Option Stmt} {complaints : List Complaint}
    (done : recover parser tokens = ⟨.ok read, rest, complaints⟩) :
    ∃ used, tokens = used ++ rest ∧ Settled used complaints read.toList := by
  obtain ⟨used, split, charged⟩ := charges tokens
  obtain ⟨s, rfl, run⟩ | ⟨fault, left, recorded, rfl, run, rfl, rfl⟩ := recover_eq_ok done
  · rw [run] at split charged
    have taken := ne_nil_of_shorter split (consumes.takes _ _ _ _ run)
    exact ⟨used, split, charged.settled taken s⟩
  · rw [run] at split charged
    cases left with
    | nil =>
      obtain rfl : tokens = used := split.trans (List.append_nil used)
      exact ⟨tokens, split, .finish charged nonempty rfl⟩
    | cons token more =>
      obtain ⟨skipped, rejoined⟩ := suffix_resume_cons token more
      refine ⟨used ++ token :: skipped, ?_, .skip charged rfl skipped⟩
      rw [List.append_assoc, List.cons_append, rejoined]
      exact split

theorem settled_declarations (closing : List TokenKind) {declaration : Parser (Option Stmt)}
    (settles : ∀ tokens rest read complaints, tokens ≠ [] →
      declaration tokens = ⟨.ok read, rest, complaints⟩ →
      ∃ used, tokens = used ++ rest ∧ Settled used complaints read.toList)
    {bound : Nat} {tokens rest : List Token} {read : List Stmt} {complaints : List Complaint}
    (done : declarations closing declaration bound tokens = ⟨.ok read, rest, complaints⟩) :
    ∃ used, tokens = used ++ rest ∧ Settled used complaints read := by
  induction bound generalizing tokens read complaints with
  | zero =>
    obtain ⟨rfl, rfl, rfl⟩ := pure_eq_ok done
    exact ⟨[], rfl, .nil⟩
  | succ bound ih =>
    obtain ⟨rfl, rfl, rfl, -⟩ |
        ⟨first, middle, _, later, _, nonempty, firstDone, laterDone, rfl, rfl⟩ :=
      declarations_eq_ok done
    · exact ⟨[], rfl, .nil⟩
    · obtain ⟨used, split, own⟩ := settles _ _ _ _ nonempty firstDone
      obtain ⟨more, rfl, settled⟩ := ih laterDone
      exact ⟨used ++ more, split.trans (List.append_assoc _ _ _).symm, own.append settled⟩

theorem charges_block {parser : Parser Stmt} (charges : Charges [] parser)
    (consumes : parser.Consumes) (brace : Token) (bound : Nat) :
    Charges [brace] (block (recover parser) bound) := by
  -- The opening brace pays for a body that spends all of its own tokens.
  have body : Charges [brace] (declarations [.rightBrace] (recover parser) bound) := by
    intro tokens
    obtain ⟨read, rest, complaints, done⟩ :=
      declarations_ok [.rightBrace] (recover_ok parser) bound tokens
    obtain ⟨used, split, settled⟩ := settled_declarations [.rightBrace]
      (fun _ _ _ _ nonempty done => settled_recover charges consumes nonempty done) done
    rw [done]
    exact ⟨used, split, settled.charged brace⟩
  exact body.bind fun _ => (Charges.expect _ _).bind fun _ => .pure _

end

theorem charges_statement (bound : Nat) : Charges [] (statement bound) := by
  induction bound with
  | zero => exact .fail _
  | succ bound ih =>
    have fits := charges_expression bound
    intro tokens
    cases tokens with
    | nil => exact ⟨[], rfl, .nil _⟩
    | cons token rest =>
      simp only [statement]
      split
      · exact ((charges_ifStatement fits ih).weaken [token]).taken rest
      · exact ((charges_whileStatement fits ih).weaken [token]).taken rest
      · exact ((charges_printStatement fits).weaken [token]).taken rest
      · have consumes := consumes_declared (consumes_expression bound) (consumes_statement bound)
        exact (charges_block (charges_declared fits ih) consumes token bound).taken rest
      · exact charges_expressionStatement (charges_expression (bound + 1)) (token :: rest)

theorem settled_program {bound : Nat} {tokens rest : List Token} {statements : List Stmt}
    {complaints : List Complaint} (done : program bound tokens = ⟨.ok statements, rest, complaints⟩) :
    ∃ used, tokens = used ++ rest ∧ Settled used complaints statements := by
  have consumes := consumes_declared (consumes_expression bound) (consumes_statement bound)
  have charges := charges_declared (charges_expression bound) (charges_statement bound)
  exact settled_declarations [] (fun _ _ _ _ nonempty done =>
    settled_recover charges consumes nonempty done) done

end Grammar

theorem Settled.mem_of_blamed {used : List Token} {complaints : List Complaint}
    {statements : List Stmt} (settled : Settled used complaints statements) {complaint : Complaint}
    (member : complaint ∈ complaints) {token : Token} (blamed : complaint.blamed = some token) :
    token ∈ used := by
  have found : token ∈ blamedTokens complaints := List.mem_filterMap.mpr ⟨_, member, blamed⟩
  have positive := List.count_pos_iff.mpr found
  exact List.count_pos_iff.mp (Nat.lt_of_lt_of_le positive (settled.once token))

theorem count_errors (complaints : List Complaint) {token last : Token} (other : token ≠ last) :
    ((complaints.map (·.against last)).map ParseError.token).count token =
      (blamedTokens complaints).count token := by
  induction complaints with
  | nil => rfl
  | cons complaint others ih =>
    obtain ⟨_ | blamed, fault⟩ := complaint
    · simpa [blamedTokens, Complaint.against, other.symm] using ih
    · simpa [blamedTokens, Complaint.against, List.count_cons] using ih

/-- What the parser makes of the tokens before an end token: it comes to an end however many turns
it is given, and it never leaves these tokens, which alone decide. Its statements and errors are no
more than they are, and each of them is blamed once at most. -/
structure ParseBounded (tokens : List Token) (last : Token) (more : List Token) : Prop where
  ends : ∃ complaints, (parse (tokens ++ last :: more)).errors = complaints.map (·.against last) ∧
    ∀ bound, tokens.length ≤ bound → Grammar.program bound tokens =
      ⟨.ok (parse (tokens ++ last :: more)).statements, [], complaints⟩
  inside : ∀ bound place, place <:+ tokens → (Grammar.expression bound place).rest <:+ tokens ∧
    (Grammar.statement bound place).rest <:+ tokens
  blamed_inside : ∀ error ∈ (parse (tokens ++ last :: more)).errors, ∃ position ≤ tokens.length,
    (tokens ++ last :: more)[position]? = some error.token
  decided : ∀ others, parse (tokens ++ last :: others) = parse (tokens ++ last :: more)
  total : (parse (tokens ++ last :: more)).statements.length +
    (parse (tokens ++ last :: more)).errors.length ≤ tokens.length
  once : ∀ token, token ≠ last →
    ((parse (tokens ++ last :: more)).errors.map ParseError.token).count token ≤ tokens.count token

theorem parse_bounded {tokens : List Token} {last : Token}
    (noEnd : ∀ token ∈ tokens, token.kind ≠ .eof) (isEnd : last.kind = .eof) (more : List Token) :
    ParseBounded tokens last more := by
  obtain ⟨statements, rest, complaints, done⟩ := Grammar.program_ok tokens.length tokens
  obtain rfl := Grammar.program_end done
  have parsed : ∀ others, parse (tokens ++ last :: others) =
      ⟨statements, complaints.map (·.against last)⟩ := by
    intro others
    have body := Grammar.body_append_end noEnd isEnd others
    rw [parse_of_run (by rw [body]; exact done), Grammar.endToken_append_end noEnd isEnd others]
  obtain ⟨used, split, settled⟩ := Grammar.settled_program done
  obtain rfl : tokens = used := split.trans (List.append_nil used)
  constructor
  · rw [parsed more]
    refine ⟨complaints, rfl, ?_⟩
    intro bound enough
    exact (Grammar.program_of_turns enough enough).trans done
  · intro bound place inside
    exact ⟨((Grammar.consumes_expression bound).advances place).trans inside,
      ((Grammar.consumes_statement bound).advances place).trans inside⟩
  · rw [parsed more]
    intro error member
    obtain ⟨complaint, reported, rfl⟩ := List.mem_map.mp member
    cases blamed : complaint.blamed with
    | none => exact ⟨tokens.length, Nat.le_refl _, by simp [Complaint.against, blamed]⟩
    | some token =>
      obtain ⟨position, inside, found⟩ :=
        List.getElem_of_mem (settled.mem_of_blamed reported blamed)
      refine ⟨position, Nat.le_of_lt inside, ?_⟩
      rw [List.getElem?_append_left inside, List.getElem?_eq_getElem inside, found]
      simp [Complaint.against, blamed]
  · intro others
    rw [parsed, parsed]
  · have count := settled.count
    simp only [parsed more, List.length_map]
    omega
  · intro token other
    rw [parsed more, count_errors complaints other]
    exact settled.once token

/-- Two blocks that are never closed and two assignments to what is no variable: the equals signs
are blamed from the inside out, and the end for the semicolon and both braces. -/
theorem parse_bounded_unclosed :
    let brace : Token := ⟨.leftBrace, "\x7b", none, 1⟩
    let word : Token := ⟨.nilWord, "nil", none, 1⟩
    let equals : Token := ⟨.equal, "=", none, 1⟩
    let tokens := [brace, brace, word, equals, word, equals, word]
    (∀ token ∈ tokens, token.kind ≠ .eof) ∧
      (parse (tokens ++ [Token.eof 1])).errors.map (·.token) =
        [equals, equals, Token.eof 1, Token.eof 1, Token.eof 1] ∧
      (parse (tokens ++ [Token.eof 1])).statements.length +
        (parse (tokens ++ [Token.eof 1])).errors.length ≤ tokens.length ∧
      ((parse (tokens ++ [Token.eof 1])).errors.map ParseError.token).count equals ≤
        tokens.count equals := by
  intro brace word equals tokens
  have noEnd : ∀ token ∈ tokens, token.kind ≠ .eof := by decide
  have isEnd : (Token.eof 1).kind = .eof := rfl
  have bounded := parse_bounded noEnd isEnd []
  exact ⟨noEnd, by decide +kernel, bounded.total, bounded.once equals (by decide)⟩

end Lox

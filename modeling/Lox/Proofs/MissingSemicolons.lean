import Lox.Proofs.Accounting
import Lox.Proofs.Isolation
import Lox.Proofs.Lookahead

/-!
Missing semicolons. The token that stands in the place of the semicolon is blamed, and the search
for the next statement starts behind it: a statement that it begins is not found.
-/

namespace Lox

/-- What is wrong where the statement's semicolon is missing. Other statements end with none of
their own. -/
def Stmt.missingEnd? : Stmt → Option SyntaxFault
  | expression _ => some .noSemicolonAfterExpression
  | print _ => some .noSemicolonAfterValue
  | varDecl _ _ => some .noSemicolonAfterVariable
  | _ => none

namespace Grammar

open Lox.Parser

/-- Where the parser ends well with a semicolon, it gives up before any token in its place that
cannot go on with an expression. -/
structure NeedsEnd (parser : Parser Stmt) : Prop where
  something : ∀ s rest complaints, parser [] ≠ ⟨.ok s, rest, complaints⟩
  missing : ∀ used semicolon other s fault, semicolon.kind = .semicolon →
    Stops (.semicolon :: signs) other → s.missingEnd? = some fault →
    parser (used ++ [semicolon]) = ⟨.ok s, [], []⟩ →
    parser (used ++ other) = ⟨.error fault, other, []⟩

namespace NeedsEnd

theorem semicolon {s : Stmt} {fault : SyntaxFault} (faulty : s.missingEnd? = some fault) :
    NeedsEnd (expect .semicolon fault >>= fun _ => pure s) := by
  refine ⟨fun _ _ _ done => ?_, ?_⟩
  · obtain ⟨_, _, _, _, taken, -⟩ := bind_eq_ok done
    simp [expect] at taken
  · intro used token other s' fault' _ stops faulty' done
    obtain ⟨_, _, _, _, taken, ended, -⟩ := bind_eq_ok done
    obtain ⟨rfl, rfl, -⟩ := pure_eq_ok ended
    obtain ⟨-, split, -⟩ := expect_eq_ok taken
    obtain rfl : used = [] := by simpa using congrArg List.length split
    obtain rfl : fault' = fault := Option.some.inj (faulty'.symm.trans faulty)
    apply bind_of_error
    cases other with
    | nil => rfl
    | cons next rest =>
      have noSemicolon : next.kind ≠ .semicolon := by
        have apart := stops_cons.mp stops
        simp only [List.mem_cons, not_or] at apart
        exact apart.1
      simp [expect, noSemicolon]

theorem bind {α : Type} {first : Parser α} {second : α → Parser Stmt} (front : first.LooksAhead)
    (back : ∀ a, NeedsEnd (second a)) : NeedsEnd (first >>= second) := by
  constructor
  · intro s rest complaints done
    obtain ⟨a, middle, _, _, firstDone, secondDone, -⟩ := bind_eq_ok done
    obtain rfl : middle = [] := by simpa [firstDone] using front.advances []
    exact (back a).something _ _ _ secondDone
  · intro used token other s fault isSemicolon stops faulty done
    obtain ⟨a, middle, _, _, firstDone, secondDone, recorded⟩ := bind_eq_ok done
    obtain ⟨rfl, rfl⟩ := List.nil_eq_append_iff.mp recorded
    have isSuffix : middle <:+ used ++ [token] := by
      simpa [firstDone] using front.advances (used ++ [token])
    have nonempty : middle ≠ [] := fun nothing =>
      (back a).something _ _ _ (nothing ▸ secondDone)
    have suffix : [token] <:+ middle :=
      List.suffix_of_suffix_length_le (List.suffix_append _ _) isSuffix
        (List.length_pos_iff.mpr nonempty)
    obtain ⟨before, after, rfl, rfl⟩ := front.advances.split firstDone suffix
    have alike : Alike [token] other := .inr (stops.mono (List.subset_cons_self _ _))
    rw [List.append_assoc] at firstDone ⊢
    rw [bind_of_clean (front.same _ _ _ _ _ firstDone (alike.append after))]
    exact (back a).missing _ _ _ _ _ isSemicolon stops faulty secondDone

end NeedsEnd

section

variable {expression : Parser Expr} {branch : Parser Stmt}

theorem needsEnd_expressionStatement (ahead : expression.LooksAhead) :
    NeedsEnd (expressionStatement expression) :=
  .bind ahead fun _ => .semicolon rfl

theorem needsEnd_printStatement (ahead : expression.LooksAhead) :
    NeedsEnd (printStatement expression) :=
  .bind ahead fun _ => .semicolon rfl

theorem needsEnd_varDeclaration (ahead : expression.LooksAhead) :
    NeedsEnd (varDeclaration expression) := by
  refine .bind (.expect _ _) fun name => .bind (.accept (by decide)) ?_
  rintro (_ | equals)
  · exact .semicolon rfl
  · exact .bind ahead fun _ => .semicolon rfl

theorem missingEnd?_ifStatement :
    Ensures (ifStatement expression branch) fun s _ => s.missingEnd? = none := by
  refine .after _ fun _ => .after _ fun condition => .after _ fun _ => .after _ fun yes =>
    .after _ ?_
  rintro (_ | word)
  · exact .pure fun _ => rfl
  · exact .after _ fun no => .pure fun _ => rfl

theorem missingEnd?_whileStatement :
    Ensures (whileStatement expression branch) fun s _ => s.missingEnd? = none :=
  .after _ fun _ => .after _ fun _ => .after _ fun _ => .after _ fun _ => .pure fun _ => rfl

theorem missingEnd?_block (declaration : Parser (Option Stmt)) (bound : Nat) :
    Ensures (block declaration bound) fun s _ => s.missingEnd? = none :=
  .after _ fun _ => .after _ fun _ => .pure fun _ => rfl

end

def declared (bound : Nat) : Parser Stmt :=
  accept [.varWord] >>= fun
    | some _ => varDeclaration (expression bound)
    | none => statement bound

theorem declaration_eq (bound : Nat) :
    declaration (expression bound) (statement bound) = recover (declared bound) := rfl

theorem declared_of_var {token : Token} (isVar : token.kind = .varWord) (bound : Nat)
    (rest : List Token) :
    declared bound (token :: rest) = varDeclaration (expression bound) rest :=
  accept_bind_of_mem (by simp [isVar]) _ rest

theorem declared_of_other {token : Token} (noVar : token.kind ≠ .varWord) (bound : Nat)
    (rest : List Token) : declared bound (token :: rest) = statement bound (token :: rest) :=
  accept_bind_of_stops (stops_cons.mpr (by simp [noVar])) _

section

variable {semicolon token : Token} {used other : List Token} {s : Stmt} {fault : SyntaxFault}
variable (isSemicolon : semicolon.kind = .semicolon) (stops : Stops (.semicolon :: signs) other)
variable (faulty : s.missingEnd? = some fault) {bound : Nat}

include isSemicolon stops faulty

theorem statement_missing
    (done : statement bound (token :: (used ++ [semicolon])) = ⟨.ok s, [], []⟩) :
    statement bound (token :: (used ++ other)) = ⟨.error fault, other, []⟩ := by
  cases bound with
  | zero => simp [statement, Parser.fail] at done
  | succ bound =>
    have ahead := looksAhead_expression bound
    have never {parser : Parser Stmt} {tokens : List Token}
        (others : Ensures parser fun s _ => s.missingEnd? = none) :
        parser tokens ≠ ⟨.ok s, [], []⟩ := by
      intro read
      simp [others _ _ _ _ read] at faulty
    simp only [statement] at done ⊢
    split at done
    · exact absurd done (never missingEnd?_ifStatement)
    · exact absurd done (never missingEnd?_whileStatement)
    · exact (needsEnd_printStatement ahead).missing _ _ _ _ _ isSemicolon stops faulty done
    · exact absurd done (never (missingEnd?_block _ _))
    · exact (needsEnd_expressionStatement (looksAhead_expression (bound + 1))).missing
        (token :: used) _ _ _ _ isSemicolon stops faulty done

theorem declared_missing
    (done : declared bound (token :: (used ++ [semicolon])) = ⟨.ok s, [], []⟩) :
    declared bound (token :: (used ++ other)) = ⟨.error fault, other, []⟩ := by
  by_cases isVar : token.kind = .varWord
  · rw [declared_of_var isVar] at done ⊢
    exact (needsEnd_varDeclaration (looksAhead_expression bound)).missing _ _ _ _ _ isSemicolon
      stops faulty done
  · rw [declared_of_other isVar] at done ⊢
    exact statement_missing isSemicolon stops faulty done

end

theorem declared_semicolon {semicolon : Token} (isSemicolon : semicolon.kind = .semicolon)
    (bound : Nat) (s : Stmt) (complaints : List Complaint) :
    declared bound [semicolon] ≠ ⟨.ok s, [], complaints⟩ := by
  rw [declared_of_other (by simp [isSemicolon])]
  intro done
  cases bound with
  | zero => simp [statement, Parser.fail] at done
  | succ bound =>
    simp only [statement, isSemicolon] at done
    obtain ⟨e, middle, _, _, eDone, ended, -⟩ := bind_eq_ok done
    have shorter := (consumes_expression (bound + 1)).takes _ _ _ _ eDone
    obtain rfl : middle = [] := List.length_eq_zero_iff.mp (by simpa using shorter)
    obtain ⟨_, _, _, _, taken, -⟩ := bind_eq_ok ended
    simp [expect] at taken

theorem eq_nil_of_silent_declarations {parser : Parser Stmt} {bound : Nat}
    {tokens rest : List Token} (enough : tokens.length ≤ bound)
    (done : declarations [] (recover parser) bound tokens = ⟨.ok [], rest, []⟩) : tokens = [] := by
  cases bound with
  | zero => exact List.length_eq_zero_iff.mp (Nat.le_zero.mp enough)
  | succ bound =>
    obtain ⟨-, -, -, closes⟩ | ⟨first, _, _, _, _, -, firstDone, -, read, recorded⟩ :=
      declarations_eq_ok done
    · cases tokens with
      | nil => rfl
      | cons token _ => simp at closes
    · obtain ⟨rfl, rfl⟩ := List.nil_eq_append_iff.mp recorded
      obtain ⟨s, rfl, -⟩ | ⟨_, _, _, -, -, -, complained⟩ := recover_eq_ok firstDone
      · simp at read
      · simp at complained

theorem declared_of_single {tokens : List Token} {s : Stmt} {ending : Token}
    (noEnd : ∀ token ∈ tokens, token.kind ≠ .eof) (isEnd : ending.kind = .eof)
    (parsed : parse (tokens ++ [ending]) = ⟨[s], []⟩) {bound : Nat}
    (enough : tokens.length ≤ bound) : declared bound tokens = ⟨.ok s, [], []⟩ := by
  obtain ⟨statements, rest, complaints, run⟩ := program_ok tokens.length tokens
  obtain rfl := program_end run
  rw [parse_append_end noEnd isEnd [] run] at parsed
  simp only [Program.mk.injEq, List.map_eq_nil_iff] at parsed
  obtain ⟨rfl, rfl⟩ := parsed
  have turns := (program_of_turns enough (Nat.le_succ_of_le enough)).trans run
  obtain ⟨nothing, -⟩ |
      ⟨first, middle, _, later, _, nonempty, firstDone, laterDone, read, recorded⟩ :=
    declarations_eq_ok turns
  · cases nothing
  · obtain ⟨rfl, rfl⟩ := List.nil_eq_append_iff.mp recorded
    obtain ⟨s', rfl, done⟩ | ⟨_, _, _, -, -, -, complained⟩ := recover_eq_ok firstDone
    · obtain ⟨rfl, rfl⟩ : s = s' ∧ [] = later := by simpa using read
      have shorter := progress_declaration (consumes_expression bound) (consumes_statement bound)
        tokens nonempty
      rw [firstDone] at shorter
      simp only at shorter
      obtain rfl := eq_nil_of_silent_declarations (by omega) laterDone
      exact done
    · simp at complained

theorem program_of_error {tokens left : List Token} {fault : SyntaxFault}
    (stopped : declared tokens.length tokens = ⟨.error fault, left, []⟩) (nonempty : tokens ≠ [])
    {statements : List Stmt} {rest : List Token} {complaints : List Complaint}
    (later : program (resume left).length (resume left) = ⟨.ok statements, rest, complaints⟩) :
    program tokens.length tokens =
      ⟨.ok statements, rest, ⟨left.head?, fault⟩ :: complaints⟩ := by
  have here := recover_of_error stopped
  have shorter : (recover (declared tokens.length) tokens).rest.length < tokens.length :=
    progress_declaration (consumes_expression _) (consumes_statement _) tokens nonempty
  rw [here] at shorter
  simp only at shorter
  obtain ⟨turns, length⟩ := Nat.exists_eq_add_one_of_ne_zero (show tokens.length ≠ 0 by omega)
  have there : declarations [] (recover (declared tokens.length)) turns (resume left) = _ :=
    (program_of_turns (Nat.le_of_lt shorter) (by omega)).trans later
  obtain ⟨token, more, rfl⟩ := List.exists_cons_of_ne_nil nonempty
  rw [program, declaration_eq, length, declarations_cons, if_neg List.not_mem_nil]
  rw [length] at here there
  rw [bind_of_ok here, bind_of_ok there]
  simp [pure, succeed]

theorem body_cons {next : Token} (inside : next.kind ≠ .eof) (more : List Token) :
    body (next :: more) = next :: body more := by
  simp [body, inside]

theorem not_eof_of_mem_resume {next token : Token} (inside : next.kind ≠ .eof) {more : List Token}
    (member : token ∈ resume (next :: body more)) : token.kind ≠ .eof := by
  rw [← body_cons inside] at member
  exact not_eof_of_mem_body ((suffix_resume _).subset member)

theorem not_sign_of_startsStatement {kind : TokenKind} (starts : startsStatement kind) :
    kind ∉ .semicolon :: signs ∧ kind ≠ .eof := by
  revert starts
  cases kind <;> decide

end Grammar

section

variable {tokens more : List Token} {semicolon ending next : Token} {s : Stmt}
variable {fault : SyntaxFault}

open Grammar

theorem parse_of_error (noEnd : ∀ token ∈ tokens, token.kind ≠ .eof) (inside : next.kind ≠ .eof)
    (stopped : declared (tokens ++ next :: body more).length (tokens ++ next :: body more) =
      ⟨.error fault, next :: body more, []⟩) :
    let later := parse (resume (next :: body more) ++ [endToken more])
    parse (tokens ++ next :: more) = ⟨later.statements, ⟨next, fault⟩ :: later.errors⟩ := by
  intro later
  let found := resume (next :: body more)
  obtain ⟨statements, rest, complaints, run⟩ := program_ok found.length found
  have whole : program (body (tokens ++ next :: more)).length (body (tokens ++ next :: more)) =
      ⟨.ok statements, rest, ⟨some next, fault⟩ :: complaints⟩ := by
    rw [body_append noEnd, body_cons inside]
    exact program_of_error stopped (by simp) run
  have laterIs : later = ⟨statements, complaints.map (·.against (endToken more))⟩ :=
    parse_append_end (fun _ => not_eof_of_mem_resume inside) (kind_endToken more) [] run
  have endIs : endToken (next :: more) = endToken more := by simp [endToken, inside]
  rw [laterIs, parse_of_run whole, endToken_append noEnd, endIs]
  rfl

theorem statements_ne_of_shorter {tokens others : List Token}
    (genuine : ∀ token ∈ tokens, token.Genuine) (clean : (parse tokens).errors = [])
    (otherGenuine : ∀ token ∈ others, token.Genuine)
    (shorter : (body others).length < (body tokens).length) :
    (parse others).statements ≠ (parse tokens).statements := by
  intro same
  have all : Spells (body tokens) _ := (accounted_parse genuine).2.mpr clean
  have kept := (accounted_parse otherGenuine).1.length_le
  have whole := congrArg List.length all
  simp only [same, List.length_map] at kept whole
  omega

/-- The token in the place of a semicolon is blamed, and no statement begins with it any more: a
program without errors loses its first statement when it stands behind one that has no semicolon. -/
theorem parse_missing_semicolon (noEnd : ∀ token ∈ tokens, token.kind ≠ .eof)
    (isSemicolon : semicolon.kind = .semicolon) (isEnd : ending.kind = .eof)
    (parsed : parse (tokens ++ [semicolon, ending]) = ⟨[s], []⟩)
    (lacks : s.missingEnd? = some fault) (starts : startsStatement next.kind) :
    let later := parse (resume (next :: body more) ++ [endToken more])
    parse (tokens ++ next :: more) = ⟨later.statements, ⟨next, fault⟩ :: later.errors⟩ ∧
      ((∀ token ∈ next :: more, token.Genuine) → (parse (next :: more)).errors = [] →
        (parse (tokens ++ next :: more)).statements ≠ (parse (next :: more)).statements) := by
  intro later
  obtain ⟨noSign, inside⟩ := not_sign_of_startsStatement starts
  have wholeNoEnd : ∀ token ∈ tokens ++ [semicolon], token.kind ≠ .eof := by
    simpa [isSemicolon, or_imp, forall_and] using noEnd
  rw [show tokens ++ [semicolon, ending] = tokens ++ [semicolon] ++ [ending] by simp] at parsed
  have done := declared_of_single wholeNoEnd isEnd parsed
    (show (tokens ++ [semicolon]).length ≤ (tokens ++ next :: body more).length by simp)
  have stopped : declared (tokens ++ next :: body more).length (tokens ++ next :: body more) =
      ⟨.error fault, next :: body more, []⟩ := by
    cases tokens with
    | nil => exact absurd done (declared_semicolon isSemicolon _ _ _)
    | cons token used =>
      exact declared_missing isSemicolon (Parser.stops_cons.mpr noSign) lacks done
  have whole := parse_of_error noEnd inside stopped
  refine ⟨whole, ?_⟩
  intro genuine clean
  rw [whole]
  apply statements_ne_of_shorter genuine clean
  · intro token member
    rcases List.mem_append.mp member with found | isLast
    · have skipped := (suffix_resume _).subset found
      rw [← body_cons inside] at skipped
      exact genuine token ((List.takeWhile_sublist _).subset skipped)
    · obtain rfl := List.mem_singleton.mp isLast
      exact Token.genuine_of_not_literal (by simp [kind_endToken])
  · have bodyIs : body (resume (next :: body more) ++ [endToken more]) = _ :=
      body_append_end (fun _ => not_eof_of_mem_resume inside) (kind_endToken more) []
    have skipped := length_resume_le (next :: body more)
    rw [bodyIs, body_cons inside]
    simp only [List.length_cons] at skipped ⊢
    omega

theorem exists_single {program : Program}
    (single : program.statements.map Stmt.missingEnd? = [some fault])
    (clean : program.errors = []) :
    ∃ s, program = ⟨[s], []⟩ ∧ s.missingEnd? = some fault := by
  obtain ⟨s, isSingle, lacks⟩ := List.map_eq_singleton_iff.mp single
  exact ⟨s, by rw [← isSingle, ← clean], lacks⟩

/-- The conditional is lost but for its branches, and then its `else` is out of place. -/
theorem parse_missing_semicolon_before_if :
    let first := (scan .tolerant "var x = a ? -b : (c = b)").tokens.dropLast
    let word : Token := ⟨.ifWord, "if", none, 1⟩
    let others := (scan .tolerant "(x) print a; else print b;").tokens
    (∀ token ∈ first, token.kind ≠ .eof) ∧
      (∃ s, parse (first ++ [.mark .semicolon, .eof 1]) = ⟨[s], []⟩ ∧
        s.missingEnd? = some .noSemicolonAfterVariable) ∧
      (parse (word :: others)).errors = [] ∧
      (parse (first ++ word :: others)).statements.map Stmt.text = ["(print a)", "(print b)"] ∧
      (parse (first ++ word :: others)).errors =
        [⟨word, .noSemicolonAfterVariable⟩, ⟨⟨.elseWord, "else", none, 1⟩, .noExpression⟩] ∧
      (parse (first ++ word :: others)).statements ≠ (parse (word :: others)).statements := by
  intro first word others
  have noEnd : ∀ token ∈ first, token.kind ≠ .eof := by decide +kernel
  obtain ⟨s, parsed, lacks⟩ : ∃ s, parse (first ++ [.mark .semicolon, .eof 1]) = ⟨[s], []⟩ ∧
      s.missingEnd? = some .noSemicolonAfterVariable :=
    exists_single (by decide +kernel) (by decide +kernel)
  have clean : (parse (word :: others)).errors = [] := by decide +kernel
  have plain : ∀ token ∈ word :: others, token.kind ≠ .number ∧ token.kind ≠ .string := by
    decide +kernel
  have genuine : ∀ token ∈ word :: others, token.Genuine := fun token member =>
    Token.genuine_of_not_literal (plain token member)
  obtain ⟨whole, lost⟩ := @parse_missing_semicolon first others (.mark .semicolon) (.eof 1) word s
    .noSemicolonAfterVariable noEnd rfl rfl parsed lacks rfl
  refine ⟨noEnd, ⟨s, parsed, lacks⟩, clean, ?_, ?_, lost genuine clean⟩
  · rw [whole]
    decide +kernel
  · rw [whole]
    decide +kernel

/-- The second `print` is a statement by itself, and it is not read. -/
theorem print_lost_behind_missing_semicolon :
    let first := (scan .tolerant "print 1").tokens.dropLast
    let word : Token := ⟨.printWord, "print", none, 2⟩
    let others := (scan .tolerant "\n2;").tokens
    (∀ token ∈ first, token.kind ≠ .eof) ∧
      (∃ s, parse (first ++ [.mark .semicolon, .eof 1]) = ⟨[s], []⟩ ∧
        s.missingEnd? = some .noSemicolonAfterValue) ∧
      (parse (word :: others)).statements.map Stmt.text = ["(print 2)"] ∧
      (parse (first ++ word :: others)).statements.map Stmt.text = [] ∧
      parse (first ++ word :: others) ≠ ⟨(parse (word :: others)).statements,
        ⟨word, .noSemicolonAfterValue⟩ :: (parse (word :: others)).errors⟩ := by
  intro first word others
  have alone : (parse (word :: others)).statements.map Stmt.text = ["(print 2)"] := by
    decide +kernel
  have lost : (parse (first ++ word :: others)).statements.map Stmt.text = [] := by decide +kernel
  refine ⟨by decide +kernel, exists_single (by decide +kernel) (by decide +kernel), alone, lost, ?_⟩
  intro same
  rw [same, alone] at lost
  cases lost

end

end Lox

import Lox.Proofs.Reading

/-!
Progress of the parser: each part of the grammar that ends well takes at least one token, and after
a fault at least one is skipped. So a list of declarations ends only where it may.
-/

namespace Lox

namespace Parser

variable {α β : Type}

/-- A parser that leaves a suffix of its tokens, and a proper one where it ends well. -/
structure Consumes (parser : Parser α) : Prop where
  advances : parser.Advances
  takes : ∀ tokens a rest complaints, parser tokens = ⟨.ok a, rest, complaints⟩ →
    rest.length < tokens.length

theorem Advances.length_le {parser : Parser α} (advances : parser.Advances)
    {tokens rest : List Token} {result : Except SyntaxFault α} {complaints : List Complaint}
    (run : parser tokens = ⟨result, rest, complaints⟩) : rest.length ≤ tokens.length := by
  have suffix := (advances tokens).length_le
  rwa [run] at suffix

namespace Consumes

theorem bind {first : Parser α} {second : α → Parser β} (front : first.Consumes)
    (back : ∀ a, (second a).Advances) : (first >>= second).Consumes := by
  refine ⟨front.advances.bind back, ?_⟩
  intro tokens b rest complaints done
  obtain ⟨a, middle, _, _, firstDone, secondDone, -⟩ := bind_eq_ok done
  have shorter := front.takes _ _ _ _ firstDone
  have noLonger := (back a).length_le secondDone
  omega

theorem after {first : Parser α} {second : α → Parser β} (front : first.Advances)
    (back : ∀ a, (second a).Consumes) : (first >>= second).Consumes := by
  refine ⟨front.bind fun a => (back a).advances, ?_⟩
  intro tokens b rest complaints done
  obtain ⟨a, middle, _, _, firstDone, secondDone, -⟩ := bind_eq_ok done
  have noLonger := front.length_le firstDone
  have shorter := (back a).takes _ _ _ _ secondDone
  omega

theorem expect (kind : TokenKind) (fault : SyntaxFault) :
    (Parser.expect kind fault).Consumes := by
  refine ⟨.expect kind fault, ?_⟩
  intro tokens token rest complaints done
  obtain ⟨-, rfl, -⟩ := expect_eq_ok done
  simp

theorem fail (fault : SyntaxFault) : (Parser.fail fault : Parser α).Consumes := by
  refine ⟨.fail fault, ?_⟩
  intro tokens a rest complaints done
  simp [Parser.fail] at done

theorem of_cons {parser : Parser α}
    (empty : ∃ fault, parser [] = ⟨.error fault, [], []⟩)
    (step : ∀ token rest, (∃ next : Parser α, next.Advances ∧ parser (token :: rest) = next rest) ∨
      ∃ next : Parser α, next.Consumes ∧ parser (token :: rest) = next (token :: rest)) :
    parser.Consumes := by
  constructor
  · intro tokens
    cases tokens with
    | nil =>
      obtain ⟨fault, run⟩ := empty
      simp only [run, List.suffix_rfl]
    | cons token rest =>
      obtain ⟨next, advances, same⟩ | ⟨next, consumes, same⟩ := step token rest
      · rw [same]
        exact (advances rest).trans (List.suffix_cons token rest)
      · rw [same]
        exact consumes.advances _
  · intro tokens a rest complaints done
    cases tokens with
    | nil =>
      obtain ⟨fault, run⟩ := empty
      simp [run] at done
    | cons token others =>
      obtain ⟨next, advances, same⟩ | ⟨next, consumes, same⟩ := step token others
      · have noLonger := advances.length_le (same.symm.trans done)
        simp only [List.length_cons]
        omega
      · exact consumes.takes _ _ _ _ (same.symm.trans done)

end Consumes

end Parser

namespace Grammar

open Lox.Parser

section

variable {operand primary equality conditional inner expression : Parser Expr}
variable {branch : Parser Stmt}

theorem advances_operands (kinds : List TokenKind) (advances : operand.Advances) (bound : Nat)
    (left : Expr) : (operands kinds operand bound left).Advances := by
  induction bound generalizing left with
  | zero => exact .pure left
  | succ bound ih =>
    refine .bind (.accept kinds) ?_
    rintro (_ | operator)
    · exact .pure left
    · exact .bind advances fun right => ih _

theorem consumes_leftAssoc (kinds : List TokenKind) (tight : operand.Consumes) (bound : Nat) :
    (leftAssoc kinds bound operand).Consumes :=
  .bind tight (advances_operands kinds tight.advances bound)

theorem consumes_unary (tight : primary.Consumes) (bound : Nat) :
    (unary primary bound).Consumes := by
  induction bound with
  | zero => exact tight
  | succ bound ih =>
    refine .after (.accept _) ?_
    rintro (_ | operator)
    · exact tight
    · exact .bind ih fun _ => .pure _

theorem consumes_conditional (tight : equality.Consumes) (bound : Nat) :
    (Grammar.conditional equality bound).Consumes := by
  induction bound with
  | zero => exact tight
  | succ bound ih =>
    refine .bind tight fun condition => .bind (.accept _) ?_
    rintro (_ | question)
    · exact .pure _
    · refine .bind tight.advances fun yes => .bind (.expect _ _) fun _ => ?_
      exact .bind ih.advances fun no => .pure _

theorem consumes_assignment (tight : conditional.Consumes) (bound : Nat) :
    (assignment conditional bound).Consumes := by
  induction bound with
  | zero => exact tight
  | succ bound ih =>
    refine .bind tight fun target => .bind (.accept _) ?_
    rintro (_ | equals)
    · exact .pure _
    · refine .bind ih.advances fun value => ?_
      cases target with
      | var name => exact .pure _
      | _ => exact .bind (.complain _ _) fun _ => .pure _

theorem consumes_group (inside : inner.Consumes) : (group inner).Consumes :=
  .bind inside fun _ => .bind (.expect _ _) fun _ => .pure _

theorem consumes_primary (inside : inner.Consumes) : (Grammar.primary inner).Consumes := by
  refine .of_cons ⟨.noExpression, rfl⟩ ?_
  intro token rest
  by_cases paren : token.kind = .leftParen
  · refine Or.inl ⟨group inner, (consumes_group inside).advances, ?_⟩
    simp [Grammar.primary, paren]
  · cases found : atom? token with
    | some e =>
      refine Or.inl ⟨pure e, .pure e, ?_⟩
      simp only [Grammar.primary, paren, if_false, found]
      rfl
    | none =>
      refine Or.inr ⟨fail .noExpression, .fail _, ?_⟩
      simp [Grammar.primary, paren, found]

theorem consumes_equalities (inside : inner.Consumes) (bound : Nat) :
    (Grammar.equality bound (comparison bound (term bound (factor bound
      (unary (Grammar.primary inner) bound))))).Consumes := by
  have units := consumes_unary (consumes_primary inside) bound
  have factors := consumes_leftAssoc [.slash, .star] units bound
  have terms := consumes_leftAssoc [.minus, .plus] factors bound
  have comparisons :=
    consumes_leftAssoc [.greater, .greaterEqual, .less, .lessEqual] terms bound
  exact consumes_leftAssoc [.bangEqual, .equalEqual] comparisons bound

theorem consumes_tiers (inside : inner.Consumes) (bound : Nat) : (tiers bound inner).Consumes :=
  consumes_assignment (consumes_conditional (consumes_equalities inside bound) bound) bound

theorem consumes_expression (bound : Nat) : (Grammar.expression bound).Consumes := by
  induction bound with
  | zero => exact .fail _
  | succ bound ih => exact consumes_tiers ih (bound + 1)

theorem consumes_expressionStatement (fits : expression.Consumes) :
    (expressionStatement expression).Consumes :=
  .bind fits fun _ => .bind (.expect _ _) fun _ => .pure _

theorem consumes_printStatement (fits : expression.Consumes) :
    (printStatement expression).Consumes :=
  .bind fits fun _ => .bind (.expect _ _) fun _ => .pure _

theorem consumes_varDeclaration (fits : expression.Consumes) :
    (varDeclaration expression).Consumes := by
  refine .bind (.expect _ _) fun name => .bind (.accept _) ?_
  rintro (_ | equals)
  · exact .bind (.expect _ _) fun _ => .pure _
  · exact .bind fits.advances fun _ => .bind (.expect _ _) fun _ => .pure _

theorem consumes_ifStatement (fits : expression.Consumes) (branches : branch.Consumes) :
    (ifStatement expression branch).Consumes := by
  refine .bind (.expect _ _) fun _ => .bind fits.advances fun condition => ?_
  refine .bind (.expect _ _) fun _ => .bind branches.advances fun yes => .bind (.accept _) ?_
  rintro (_ | word)
  · exact .pure _
  · exact .bind branches.advances fun no => .pure _

theorem consumes_whileStatement (fits : expression.Consumes) (branches : branch.Consumes) :
    (whileStatement expression branch).Consumes := by
  refine .bind (.expect _ _) fun _ => .bind fits.advances fun condition => ?_
  exact .bind (.expect _ _) fun _ => .bind branches.advances fun body => .pure _

theorem suffix_resume (tokens : List Token) : resume tokens <:+ tokens := by
  induction tokens with
  | nil => exact List.suffix_rfl
  | cons token rest ih =>
    rw [resume]
    split
    · exact List.suffix_cons token rest
    · exact ih.trans (List.suffix_cons token rest)

theorem advances_recover {α : Type} {parser : Parser α} (advances : parser.Advances) :
    (recover parser).Advances := by
  intro tokens
  have suffix := advances tokens
  cases run : parser tokens with
  | mk result rest complaints =>
    rw [run] at suffix
    cases result with
    | ok a => rwa [recover_of_ok run]
    | error fault =>
      rw [recover_of_error run]
      exact (suffix_resume rest).trans suffix

theorem length_recover_lt {α : Type} {parser : Parser α} (consumes : parser.Consumes)
    {tokens : List Token} (some : tokens ≠ []) :
    (recover parser tokens).rest.length < tokens.length := by
  have positive := List.length_pos_iff.mpr some
  cases run : parser tokens with
  | mk result rest complaints =>
    cases result with
    | ok a =>
      rw [recover_of_ok run]
      exact consumes.takes _ _ _ _ run
    | error fault =>
      rw [recover_of_error run]
      have noLonger := consumes.advances.length_le run
      have skipped := length_resume_le rest
      simp only
      omega

theorem consumes_declared (fits : expression.Consumes) (branches : branch.Consumes) :
    (accept [.varWord] >>= fun
      | some _ => varDeclaration expression
      | none => branch).Consumes := by
  refine .after (.accept _) ?_
  rintro (_ | word)
  · exact branches
  · exact consumes_varDeclaration fits

theorem progress_declaration (fits : expression.Consumes) (branches : branch.Consumes)
    (tokens : List Token) (some : tokens ≠ []) :
    (declaration expression branch tokens).rest.length < tokens.length :=
  length_recover_lt (consumes_declared fits branches) some

theorem recover_ok {α : Type} (parser : Parser α) (tokens : List Token) :
    ∃ read rest complaints, recover parser tokens = ⟨.ok read, rest, complaints⟩ := by
  cases run : parser tokens with
  | mk result rest complaints =>
    cases result with
    | ok a => exact ⟨_, _, _, recover_of_ok run⟩
    | error fault => exact ⟨_, _, _, recover_of_error run⟩

end

section

variable {declaration : Parser (Option Stmt)} (closing : List TokenKind)

theorem advances_declarations (advances : declaration.Advances) (bound : Nat) :
    (declarations closing declaration bound).Advances := by
  induction bound with
  | zero => exact .pure []
  | succ bound ih =>
    intro tokens
    cases tokens with
    | nil => exact List.suffix_rfl
    | cons token rest =>
      rw [declarations_cons]
      split
      · exact List.suffix_rfl
      · exact Advances.bind advances (fun _ => .bind ih fun _ => .pure _) _

theorem declarations_end (progress : ∀ tokens, tokens ≠ [] →
      (declaration tokens).rest.length < tokens.length) {bound : Nat} {tokens rest : List Token}
    {read : List Stmt} {complaints : List Complaint} (enough : tokens.length ≤ bound)
    (done : declarations closing declaration bound tokens = ⟨.ok read, rest, complaints⟩) :
    ∀ token ∈ rest.head?, token.kind ∈ closing := by
  induction bound generalizing tokens read complaints with
  | zero =>
    obtain ⟨-, rfl, -⟩ := pure_eq_ok done
    simp [List.length_eq_zero_iff.mp (Nat.le_zero.mp enough)]
  | succ bound ih =>
    obtain ⟨-, rfl, -, closes⟩ | ⟨first, middle, _, later, _, nonempty, firstDone, laterDone, -, -⟩ :=
      declarations_eq_ok done
    · exact closes
    · have shorter := progress tokens nonempty
      rw [firstDone] at shorter
      simp only at shorter
      exact ih (by omega) laterDone

theorem declarations_ok (recovers : ∀ tokens, ∃ read rest complaints,
      declaration tokens = ⟨.ok read, rest, complaints⟩) (bound : Nat) (tokens : List Token) :
    ∃ read rest complaints,
      declarations closing declaration bound tokens = ⟨.ok read, rest, complaints⟩ := by
  induction bound generalizing tokens with
  | zero => exact ⟨[], tokens, [], rfl⟩
  | succ bound ih =>
    cases tokens with
    | nil => exact ⟨[], [], [], rfl⟩
    | cons token others =>
      rw [declarations_cons]
      split
      · exact ⟨[], _, [], rfl⟩
      · obtain ⟨first, middle, _, firstDone⟩ := recovers (token :: others)
        obtain ⟨later, rest, _, laterDone⟩ := ih middle
        rw [bind_of_ok firstDone, bind_of_ok laterDone]
        exact ⟨_, _, _, rfl⟩

theorem consumes_block (advances : declaration.Advances) (bound : Nat) :
    (block declaration bound).Consumes :=
  .after (advances_declarations _ advances bound) fun _ => .bind (.expect _ _) fun _ => .pure _

end

theorem consumes_statement (bound : Nat) : (statement bound).Consumes := by
  induction bound with
  | zero => exact .fail _
  | succ bound ih =>
    have fits := consumes_expression bound
    refine .of_cons ⟨.noExpression, rfl⟩ ?_
    intro token rest
    simp only [statement]
    split
    · exact Or.inl ⟨_, (consumes_ifStatement fits ih).advances, rfl⟩
    · exact Or.inl ⟨_, (consumes_whileStatement fits ih).advances, rfl⟩
    · exact Or.inl ⟨_, (consumes_printStatement fits).advances, rfl⟩
    · have advances := advances_recover (consumes_declared fits ih).advances
      exact Or.inl ⟨_, (consumes_block advances bound).advances, rfl⟩
    · exact Or.inr ⟨_, consumes_expressionStatement (consumes_expression (bound + 1)), rfl⟩

theorem program_ok (bound : Nat) (tokens : List Token) :
    ∃ statements rest complaints, program bound tokens = ⟨.ok statements, rest, complaints⟩ :=
  declarations_ok [] (recover_ok _) bound tokens

/-- Every turn of the list of declarations takes a token, so the program is read to its end. -/
theorem program_end {tokens rest : List Token} {statements : List Stmt}
    {complaints : List Complaint}
    (done : program tokens.length tokens = ⟨.ok statements, rest, complaints⟩) : rest = [] := by
  have consumes := consumes_declared (consumes_expression tokens.length)
    (consumes_statement tokens.length)
  have ends := declarations_end [] (fun _ => length_recover_lt consumes) (Nat.le_refl _) done
  cases rest with
  | nil => rfl
  | cons token _ => simpa using ends token rfl

end Grammar

end Lox

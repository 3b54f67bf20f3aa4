import Lox.Proofs.Progress
import Lox.Proofs.Spelling

/-!
Accounting for tokens: what a parser returns spells some of the tokens it took, in their order, and
all of them just when it has nothing to complain about.
-/

namespace Lox

/-- The literal belongs to the kind, as in every token that is read from a source. -/
def Token.Genuine (token : Token) : Prop :=
  (token.kind = .number → ∃ x, token.literal = some (.number x)) ∧
    (token.kind = .string → ∃ text, token.literal = some (.string text))

theorem Token.genuine_of_not_literal {token : Token}
    (plain : token.kind ≠ .number ∧ token.kind ≠ .string) : token.Genuine :=
  ⟨fun isNumber => absurd isNumber plain.1, fun isString => absurd isString plain.2⟩

/-- What was kept of the tokens used, with the complaints about the rest of them. -/
structure Accounted (kept used : List Token) (complaints : List Complaint) : Prop where
  sublist : (kept.map Token.essence).Sublist (used.map Token.essence)
  whole_iff : Spells used kept ↔ complaints = []

namespace Accounted

variable {kept used : List Token} {complaints : List Complaint}

theorem length_le (accounted : Accounted kept used complaints) : kept.length ≤ used.length := by
  simpa using accounted.sublist.length_le

theorem spells_of_length (accounted : Accounted kept used complaints)
    (length : used.length ≤ kept.length) : Spells used kept := by
  have same := accounted.sublist.eq_of_length_le (by simpa using length)
  exact same.symm

theorem nil : Accounted [] [] [] := ⟨List.Sublist.refl _, by simp⟩

theorem of_spells (spelled : Spells used kept) : Accounted kept used [] := by
  have same : used.map Token.essence = kept.map Token.essence := spelled
  refine ⟨?_, by simp [spelled]⟩
  simp only [same, List.Sublist.refl]

theorem append {kept' used' : List Token} {complaints' : List Complaint}
    (front : Accounted kept used complaints) (back : Accounted kept' used' complaints') :
    Accounted (kept ++ kept') (used ++ used') (complaints ++ complaints') := by
  constructor
  · simpa using front.sublist.append back.sublist
  · rw [List.append_eq_nil_iff, ← front.whole_iff, ← back.whole_iff]
    constructor
    · intro spelled
      have lengths := congrArg List.length spelled
      have frontLength := front.length_le
      have backLength := back.length_le
      simp only [List.length_map, List.length_append] at lengths
      exact ⟨front.spells_of_length (by omega), back.spells_of_length (by omega)⟩
    · rintro ⟨frontSpelled, backSpelled⟩
      exact frontSpelled.append backSpelled

theorem lost (some : used ≠ []) (complained : complaints ≠ []) : Accounted [] used complaints := by
  refine ⟨List.nil_sublist _, ?_⟩
  simp [some, complained]

theorem drop {dropped : List Token} (accounted : Accounted (kept ++ dropped) used complaints)
    (some : dropped ≠ []) (complaint : Complaint) :
    Accounted kept used (complaints ++ [complaint]) := by
  constructor
  · have fewer : (kept.map Token.essence).Sublist ((kept ++ dropped).map Token.essence) := by
      simp
    exact fewer.trans accounted.sublist
  · simp only [List.append_eq_nil_iff, List.cons_ne_nil, and_false, iff_false]
    intro spelled
    have lengths := congrArg List.length spelled
    have least := accounted.length_le
    have positive := List.length_pos_iff.mpr some
    simp only [List.length_map, List.length_append] at lengths least
    omega

theorem respell {other : List Token} (accounted : Accounted kept used complaints)
    (same : Spells kept other) : Accounted other used complaints := by
  unfold Spells at same
  constructor
  · rw [← same]
    exact accounted.sublist
  · rw [← accounted.whole_iff]
    unfold Spells
    rw [same]

end Accounted

namespace Grammar

open Lox.Parser

variable {α β : Type}

/-- If the tokens taken so far are accounted for by `before`, those taken at the end of the parser
are by the view of what it returns. -/
def Accounts (parser : Parser α) (before : List Token) (view : α → List Token) : Prop :=
  ∀ tokens a rest complaints, (∀ token ∈ tokens, token.Genuine) →
    parser tokens = ⟨.ok a, rest, complaints⟩ → ∀ earlier recorded,
    Accounted before earlier recorded → ∃ used, tokens = used ++ rest ∧
      Accounted (view a) (earlier ++ used) (recorded ++ complaints)

namespace Accounts

variable {before : List Token} {view : α → List Token}

theorem pure {a : α} (same : Spells before (view a)) : Accounts (Pure.pure a) before view := by
  intro tokens b rest complaints _ done earlier recorded accounted
  obtain ⟨rfl, rfl, rfl⟩ := pure_eq_ok done
  exact ⟨[], rfl, by simpa using accounted.respell same⟩

theorem bind {first : Parser α} {second : α → Parser β} {later : β → List Token}
    (front : Accounts first before view) (back : ∀ a, Accounts (second a) (view a) later) :
    Accounts (first >>= second) before later := by
  intro tokens b rest complaints genuine done earlier recorded accounted
  obtain ⟨a, middle, _, _, firstDone, secondDone, rfl⟩ := bind_eq_ok done
  obtain ⟨used, rfl, accounted⟩ := front _ _ _ _ genuine firstDone _ _ accounted
  have genuineMiddle : ∀ token ∈ middle, token.Genuine :=
    fun token member => genuine token (List.mem_append_right used member)
  obtain ⟨more, rfl, accounted⟩ := back a _ _ _ _ genuineMiddle secondDone _ _ accounted
  exact ⟨used ++ more, by simp, by simpa using accounted⟩

theorem fail (fault : SyntaxFault) : Accounts (Parser.fail fault) before view := by
  intro tokens a rest complaints _ done
  simp [Parser.fail] at done

theorem behind {parser : Parser α} (accounts : Accounts parser [] view) (before : List Token) :
    Accounts parser before fun a => before ++ view a := by
  intro tokens a rest complaints genuine done earlier recorded accounted
  obtain ⟨used, rfl, own⟩ := accounts _ _ _ _ genuine done [] [] .nil
  exact ⟨used, rfl, accounted.append own⟩

def Plain (kind : TokenKind) : Prop :=
  kind.isOperator = false ∧ kind ≠ .identifier ∧ kind.isLiteral = false

instance (kind : TokenKind) : Decidable (Plain kind) :=
  inferInstanceAs (Decidable (_ ∧ _))

theorem essence_of_plain {token : Token} {kind : TokenKind} (plain : Plain kind)
    (same : token.kind = kind) : token.essence = (Token.mark kind).essence := by
  obtain ⟨noOperator, noName, noLiteral⟩ := plain
  simp [Token.essence, Token.mark, same, noOperator, noName, noLiteral]

theorem accounted_token {earlier : List Token} {recorded : List Complaint} {token kept : Token}
    (accounted : Accounted before earlier recorded) (same : token.essence = kept.essence) :
    Accounted (before ++ [kept]) (earlier ++ [token]) recorded := by
  have own : Spells [token] [kept] := Spells.cons_iff.mpr ⟨token, [], rfl, same, rfl⟩
  simpa using accounted.append (.of_spells own)

theorem taken {next : Parser α} {token kept : Token} (same : token.essence = kept.essence)
    (accounts : Accounts next (before ++ [kept]) view) {others rest : List Token} {a : α}
    {complaints : List Complaint} (genuine : ∀ other ∈ token :: others, other.Genuine)
    (done : next others = ⟨.ok a, rest, complaints⟩) {earlier : List Token}
    {recorded : List Complaint} (accounted : Accounted before earlier recorded) :
    ∃ used, token :: others = used ++ rest ∧
      Accounted (view a) (earlier ++ used) (recorded ++ complaints) := by
  have genuineOthers : ∀ token ∈ others, token.Genuine :=
    fun token member => genuine token (List.mem_cons_of_mem _ member)
  obtain ⟨used, rfl, accounted⟩ :=
    accounts _ _ _ _ genuineOthers done _ _ (accounted_token accounted same)
  exact ⟨token :: used, rfl, by simpa using accounted⟩

theorem expect {kind : TokenKind} (plain : Plain kind) (fault : SyntaxFault) :
    Accounts (Parser.expect kind fault) before fun _ => before ++ [.mark kind] := by
  intro tokens token rest complaints _ done earlier recorded accounted
  obtain ⟨same, rfl, rfl⟩ := expect_eq_ok done
  refine ⟨[token], rfl, ?_⟩
  rw [List.append_nil]
  exact accounted_token accounted (essence_of_plain plain same)

theorem expectWhole (kind : TokenKind) (fault : SyntaxFault) :
    Accounts (Parser.expect kind fault) before fun token => before ++ [token] := by
  intro tokens token rest complaints _ done earlier recorded accounted
  obtain ⟨-, rfl, rfl⟩ := expect_eq_ok done
  refine ⟨[token], rfl, ?_⟩
  rw [List.append_nil]
  exact accounted_token accounted rfl

theorem acceptWhole (kinds : List TokenKind) :
    Accounts (Parser.accept kinds) before fun taken => before ++ taken.toList := by
  intro tokens taken rest complaints _ done earlier recorded accounted
  obtain ⟨rfl, ⟨rfl, rfl, -⟩ | ⟨token, rfl, -, rfl⟩⟩ := accept_eq_ok done
  · exact ⟨[], rfl, by simpa using accounted⟩
  · refine ⟨[token], rfl, ?_⟩
    rw [List.append_nil]
    exact accounted_token accounted rfl

theorem accept {kind : TokenKind} (plain : Plain kind) :
    Accounts (Parser.accept [kind]) before fun taken =>
      before ++ taken.toList.map fun _ => .mark kind := by
  intro tokens taken rest complaints _ done earlier recorded accounted
  obtain ⟨rfl, ⟨rfl, rfl, -⟩ | ⟨token, rfl, member, rfl⟩⟩ := accept_eq_ok done
  · exact ⟨[], rfl, by simpa using accounted⟩
  · refine ⟨[token], rfl, ?_⟩
    rw [List.append_nil]
    exact accounted_token accounted (essence_of_plain plain (List.mem_singleton.mp member))

theorem complain {kept dropped : List Token} (some : dropped ≠ []) (token : Token)
    (fault : SyntaxFault) :
    Accounts (Parser.complain token fault) (kept ++ dropped) fun _ => kept := by
  intro tokens a rest complaints _ done earlier recorded accounted
  simp only [Parser.complain, Reply.mk.injEq] at done
  obtain ⟨-, rfl, rfl⟩ := done
  refine ⟨[], rfl, ?_⟩
  rw [List.append_nil]
  exact accounted.drop some _

end Accounts

section

variable {operand primary equality conditional inner expression : Parser Expr}
variable {before : List Token}

theorem accounts_operands (kinds : List TokenKind) (tight : Accounts operand [] Expr.spelling)
    (bound : Nat) (left : Expr) :
    Accounts (operands kinds operand bound left) left.spelling Expr.spelling := by
  induction bound generalizing left with
  | zero => exact .pure rfl
  | succ bound ih =>
    refine .bind (.acceptWhole kinds) ?_
    rintro (_ | operator)
    · exact .pure (by simp [Spells])
    · refine .bind (tight.behind _) fun right => ?_
      have next := ih (.binary left operator right)
      rw [Expr.spelling] at next
      simpa using next

theorem accounts_leftAssoc (kinds : List TokenKind) (tight : Accounts operand [] Expr.spelling)
    (bound : Nat) : Accounts (leftAssoc kinds bound operand) [] Expr.spelling :=
  .bind tight (accounts_operands kinds tight bound)

theorem accounts_unary (tight : Accounts primary [] Expr.spelling) (bound : Nat) :
    Accounts (unary primary bound) [] Expr.spelling := by
  induction bound with
  | zero => exact tight
  | succ bound ih =>
    refine .bind (.acceptWhole _) ?_
    rintro (_ | operator)
    · exact tight
    · exact .bind (ih.behind _) fun operand => .pure rfl

theorem accounts_conditional (tight : Accounts equality [] Expr.spelling) (bound : Nat) :
    Accounts (Grammar.conditional equality bound) [] Expr.spelling := by
  induction bound with
  | zero => exact tight
  | succ bound ih =>
    refine .bind tight fun condition => .bind (.accept (by decide)) ?_
    rintro (_ | question)
    · exact .pure (by simp [Spells])
    · refine .bind (tight.behind _) fun yes => .bind (.expect (by decide) _) fun _ => ?_
      exact .bind (ih.behind _) fun no => .pure (by simp [Spells, Expr.spelling])

theorem accounts_assignment (tight : Accounts conditional [] Expr.spelling) (bound : Nat) :
    Accounts (assignment conditional bound) [] Expr.spelling := by
  induction bound with
  | zero => exact tight
  | succ bound ih =>
    refine .bind tight fun target => .bind (.accept (by decide)) ?_
    rintro (_ | equals)
    · exact .pure (by simp [Spells])
    · refine .bind (ih.behind _) fun value => ?_
      rw [List.append_assoc]
      cases target with
      | var name => exact .pure rfl
      | _ => exact .bind (.complain (by simp) _ _) fun _ => .pure rfl

theorem accounts_group (inside : Accounts inner [] Expr.spelling) :
    Accounts (group inner) [.mark .leftParen] Expr.spelling :=
  .bind (inside.behind _) fun _ => .bind (.expect (by decide) _) fun _ =>
    .pure (by simp [Spells, Expr.spelling])

theorem essence_of_atom? {token : Token} (genuine : token.Genuine) {e : Expr}
    (found : atom? token = some e) : Spells [token] e.spelling := by
  unfold atom? at found
  split at found <;> simp only [Option.some.injEq, reduceCtorEq] at found <;> subst found
  all_goals rename_i kind
  · simp [Spells, Expr.spelling, Value.token, Token.mark, Token.essence, kind,
      TokenKind.isOperator, TokenKind.isLiteral]
  · simp [Spells, Expr.spelling, Value.token, Token.mark, Token.essence, kind,
      TokenKind.isOperator, TokenKind.isLiteral]
  · simp [Spells, Expr.spelling, Value.token, Token.mark, Token.essence, kind,
      TokenKind.isOperator, TokenKind.isLiteral]
  · obtain ⟨x, literal⟩ := genuine.1 kind
    simp [Spells, Expr.spelling, Value.token, Token.essence, kind, literal,
      TokenKind.isOperator, TokenKind.isLiteral]
  · obtain ⟨text, literal⟩ := genuine.2 kind
    simp [Spells, Expr.spelling, Value.token, Token.essence, kind, literal,
      TokenKind.isOperator, TokenKind.isLiteral]
  · rfl

theorem accounts_primary (inside : Accounts inner [] Expr.spelling) :
    Accounts (Grammar.primary inner) [] Expr.spelling := by
  intro tokens e rest complaints genuine done earlier recorded accounted
  cases tokens with
  | nil => simp [Grammar.primary, Parser.fail] at done
  | cons token others =>
    rw [Grammar.primary] at done
    split at done
    · rename_i paren
      have same := Accounts.essence_of_plain (by decide) paren
      exact Accounts.taken same (accounts_group inside) genuine done accounted
    · split at done
      · rename_i found
        simp only [Reply.mk.injEq, Except.ok.injEq] at done
        obtain ⟨rfl, rfl, rfl⟩ := done
        refine ⟨[token], rfl, ?_⟩
        exact accounted.append (.of_spells (essence_of_atom? (genuine token (by simp)) found))
      · simp [Parser.fail] at done

theorem accounts_tiers (inside : Accounts inner [] Expr.spelling) (bound : Nat) :
    Accounts (tiers bound inner) [] Expr.spelling := by
  have units := accounts_unary (accounts_primary inside) bound
  have factors := accounts_leftAssoc [.slash, .star] units bound
  have terms := accounts_leftAssoc [.minus, .plus] factors bound
  have comparisons :=
    accounts_leftAssoc [.greater, .greaterEqual, .less, .lessEqual] terms bound
  have equalities := accounts_leftAssoc [.bangEqual, .equalEqual] comparisons bound
  exact accounts_assignment (accounts_conditional equalities bound) bound

theorem accounts_expression (bound : Nat) :
    Accounts (Grammar.expression bound) [] Expr.spelling := by
  induction bound with
  | zero => exact .fail _
  | succ bound ih => exact accounts_tiers ih (bound + 1)

end

section

variable {expression : Parser Expr} {branch : Parser Stmt}

theorem accounts_expressionStatement (fits : Accounts expression [] Expr.spelling) :
    Accounts (expressionStatement expression) [] Stmt.spelling :=
  .bind fits fun _ => .bind (.expect (by decide) _) fun _ => .pure (by simp [Spells, Stmt.spelling])

theorem accounts_printStatement (fits : Accounts expression [] Expr.spelling) :
    Accounts (printStatement expression) [.mark .printWord] Stmt.spelling :=
  .bind (fits.behind _) fun _ => .bind (.expect (by decide) _) fun _ =>
    .pure (by simp [Spells, Stmt.spelling])

theorem accounts_varDeclaration (fits : Accounts expression [] Expr.spelling) :
    Accounts (varDeclaration expression) [.mark .varWord] Stmt.spelling := by
  refine .bind (.expectWhole _ _) fun name => .bind (.accept (by decide)) ?_
  rintro (_ | equals)
  · exact .bind (.expect (by decide) _) fun _ => .pure (by simp [Spells, Stmt.spelling])
  · exact .bind (fits.behind _) fun initial => .bind (.expect (by decide) _) fun _ =>
      .pure (by simp [Spells, Stmt.spelling])

theorem accounts_ifStatement (fits : Accounts expression [] Expr.spelling)
    (branches : Accounts branch [] Stmt.spelling) :
    Accounts (ifStatement expression branch) [.mark .ifWord] Stmt.spelling := by
  refine .bind (.expect (by decide) _) fun _ => .bind (fits.behind _) fun condition => ?_
  refine .bind (.expect (by decide) _) fun _ => .bind (branches.behind _) fun yes => ?_
  refine .bind (.accept (by decide)) ?_
  rintro (_ | word)
  · exact .pure (by simp [Spells, Stmt.spelling])
  · exact .bind (branches.behind _) fun no => .pure (by simp [Spells, Stmt.spelling])

theorem accounts_whileStatement (fits : Accounts expression [] Expr.spelling)
    (branches : Accounts branch [] Stmt.spelling) :
    Accounts (whileStatement expression branch) [.mark .whileWord] Stmt.spelling := by
  refine .bind (.expect (by decide) _) fun _ => .bind (fits.behind _) fun condition => ?_
  refine .bind (.expect (by decide) _) fun _ => .bind (branches.behind _) fun body => ?_
  exact .pure (by simp [Spells, Stmt.spelling])

theorem accounts_recover {parser : Parser Stmt} (accounts : Accounts parser [] Stmt.spelling)
    (consumes : parser.Consumes) {tokens rest : List Token} (some : tokens ≠ [])
    (genuine : ∀ token ∈ tokens, token.Genuine) {read : Option Stmt} {complaints : List Complaint}
    (done : recover parser tokens = ⟨.ok read, rest, complaints⟩) :
    ∃ used, tokens = used ++ rest ∧ Accounted (Stmt.spellingAll read.toList) used complaints := by
  obtain ⟨s, rfl, run⟩ | ⟨fault, left, recorded, rfl, -, -, rfl⟩ := recover_eq_ok done
  · obtain ⟨used, rfl, accounted⟩ := accounts _ _ _ _ genuine run [] [] .nil
    exact ⟨used, rfl, by simpa [Stmt.spellingAll] using accounted⟩
  · have shorter := length_recover_lt consumes some
    obtain ⟨used, same⟩ := advances_recover consumes.advances tokens
    rw [done] at shorter same
    refine ⟨used, same.symm, .lost ?_ (by simp)⟩
    rintro rfl
    simp only [List.nil_append] at same
    simp [same] at shorter

theorem accounts_declared (fits : Accounts expression [] Expr.spelling)
    (branches : Accounts branch [] Stmt.spelling) :
    Accounts (accept [.varWord] >>= fun
      | some _ => varDeclaration expression
      | none => branch) [] Stmt.spelling := by
  refine .bind (.accept (by decide)) ?_
  rintro (_ | word)
  · exact branches
  · exact accounts_varDeclaration fits

theorem accounts_declarations (closing : List TokenKind) {declaration : Parser (Option Stmt)}
    (accounts : ∀ tokens rest read complaints, tokens ≠ [] → (∀ token ∈ tokens, token.Genuine) →
      declaration tokens = ⟨.ok read, rest, complaints⟩ →
      ∃ used, tokens = used ++ rest ∧ Accounted (Stmt.spellingAll read.toList) used complaints)
    (bound : Nat) :
    Accounts (declarations closing declaration bound) [] Stmt.spellingAll := by
  induction bound with
  | zero => exact .pure rfl
  | succ bound ih =>
    intro tokens read rest complaints genuine done earlier recorded accounted
    obtain ⟨rfl, rfl, rfl, -⟩ |
        ⟨first, middle, _, later, _, nonempty, firstDone, laterDone, rfl, rfl⟩ :=
      declarations_eq_ok done
    · exact ⟨[], rfl, by simpa [Stmt.spellingAll] using accounted⟩
    · obtain ⟨used, same, own⟩ := accounts _ _ _ _ nonempty genuine firstDone
      have genuineMiddle : ∀ token ∈ middle, token.Genuine := by
        intro token member
        refine genuine token ?_
        rw [same]
        exact List.mem_append_right used member
      obtain ⟨more, rfl, rest⟩ := ih _ _ _ _ genuineMiddle laterDone [] [] .nil
      refine ⟨used ++ more, by simpa using same, ?_⟩
      rw [Stmt.spellingAll_append]
      simpa using accounted.append (own.append rest)

theorem accounts_block {declaration : Parser (Option Stmt)}
    (accounts : ∀ tokens rest read complaints, tokens ≠ [] → (∀ token ∈ tokens, token.Genuine) →
      declaration tokens = ⟨.ok read, rest, complaints⟩ →
      ∃ used, tokens = used ++ rest ∧ Accounted (Stmt.spellingAll read.toList) used complaints)
    (bound : Nat) : Accounts (block declaration bound) [.mark .leftBrace] Stmt.spelling :=
  .bind ((accounts_declarations _ accounts bound).behind _) fun _ =>
    .bind (.expect (by decide) _) fun _ => .pure (by simp [Spells, Stmt.spelling])

end

theorem accounts_statement (bound : Nat) : Accounts (statement bound) [] Stmt.spelling := by
  induction bound with
  | zero => exact .fail _
  | succ bound ih =>
    have fits := accounts_expression bound
    intro tokens s rest complaints genuine done earlier recorded accounted
    cases tokens with
    | nil => simp [statement, Parser.fail] at done
    | cons token others =>
      simp only [statement] at done
      split at done
      all_goals try rename_i kind
      · have same := Accounts.essence_of_plain (by decide) kind
        exact Accounts.taken same (accounts_ifStatement fits ih) genuine done accounted
      · have same := Accounts.essence_of_plain (by decide) kind
        exact Accounts.taken same (accounts_whileStatement fits ih) genuine done accounted
      · have same := Accounts.essence_of_plain (by decide) kind
        exact Accounts.taken same (accounts_printStatement fits) genuine done accounted
      · have same := Accounts.essence_of_plain (by decide) kind
        have consumes := consumes_declared (consumes_expression bound) (consumes_statement bound)
        have declared := accounts_declared fits ih
        have accounts := accounts_block (fun tokens rest read complaints some genuine done =>
          accounts_recover declared consumes some genuine done) bound
        exact Accounts.taken same accounts genuine done accounted
      · exact accounts_expressionStatement (accounts_expression (bound + 1)) _ _ _ _ genuine done
          _ _ accounted

theorem accounts_program (bound : Nat) : Accounts (program bound) [] Stmt.spellingAll := by
  have consumes := consumes_declared (consumes_expression bound) (consumes_statement bound)
  have declared := accounts_declared (accounts_expression bound) (accounts_statement bound)
  exact accounts_declarations _ (fun tokens rest read complaints some genuine done =>
    accounts_recover declared consumes some genuine done) bound

end Grammar

/-- The tokens before the end, as far as the statements account for them. -/
theorem accounted_parse {tokens : List Token} (genuine : ∀ token ∈ tokens, token.Genuine) :
    ((Stmt.spellingAll (parse tokens).statements).map Token.essence).Sublist
        ((Grammar.body tokens).map Token.essence) ∧
      (Spells (Grammar.body tokens) (Stmt.spellingAll (parse tokens).statements) ↔
        (parse tokens).errors = []) := by
  obtain ⟨statements, rest, complaints, run⟩ :=
    Grammar.program_ok (Grammar.body tokens).length (Grammar.body tokens)
  obtain rfl := Grammar.program_end run
  have genuineBody : ∀ token ∈ Grammar.body tokens, token.Genuine :=
    fun token member => genuine token ((List.takeWhile_sublist _).subset member)
  obtain ⟨used, same, accounted⟩ :=
    Grammar.accounts_program _ _ _ _ _ genuineBody run [] [] .nil
  rw [List.append_nil] at same
  rw [parse_of_run run, same]
  refine ⟨accounted.sublist, ?_⟩
  simpa using accounted.whole_iff

end Lox

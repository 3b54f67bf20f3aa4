import Lox.Proofs.Demand
import Lox.Proofs.Progress

/-!
Every part of the grammar answers to its demands: it ends well where they are met, and where one is
refused, the complaint about that is the first with which it stops.
-/

namespace Lox

/-- The first complaint with which the parser stopped: it goes on after one about a target. -/
def firstStop? (complaints : List Complaint) : Option Complaint :=
  complaints.find? (·.fault ≠ .invalidTarget)

theorem firstStop?_append (complaints others : List Complaint) :
    firstStop? (complaints ++ others) = (firstStop? complaints).or (firstStop? others) :=
  List.find?_append

def Reply.recorded {α : Type} (reply : Reply α) : List Complaint :=
  match reply.result with
  | .ok _ => reply.complaints
  | .error fault => reply.complaints ++ [⟨reply.rest.head?, fault⟩]

theorem Reply.recorded_append {α : Type} (complaints : List Complaint) (reply : Reply α) :
    (⟨reply.result, reply.rest, complaints ++ reply.complaints⟩ : Reply α).recorded =
      complaints ++ reply.recorded := by
  unfold recorded
  cases reply.result with
  | ok a => rfl
  | error fault => exact List.append_assoc _ _ _

namespace Parser

variable {α β : Type}

theorem bind_pure (parser : Parser α) : parser >>= pure = parser := by
  funext tokens
  cases run : parser tokens with
  | mk result rest complaints =>
    cases result with
    | ok a => simp [bind_of_ok run, pure, succeed]
    | error fault => exact bind_of_error run

theorem firstStop?_bind {first : Parser α} {tokens : List Token} {complaint : Complaint}
    (stops : firstStop? (first tokens).recorded = some complaint) (second : α → Parser β) :
    firstStop? ((first >>= second) tokens).recorded = some complaint := by
  cases run : first tokens with
  | mk result rest complaints =>
    rw [run] at stops
    cases result with
    | ok a =>
      have before : firstStop? complaints = some complaint := stops
      rw [bind_of_ok run, Reply.recorded_append, firstStop?_append, before, Option.some_or]
    | error fault => rwa [bind_of_error run]

theorem exists_of_not_stops {kinds : List TokenKind} {tokens : List Token}
    (goesOn : ¬ Stops kinds tokens) :
    ∃ token rest, tokens = token :: rest ∧ token.kind ∈ kinds := by
  cases tokens with
  | nil => simp [Stops] at goesOn
  | cons token rest => exact ⟨token, rest, rfl, by simpa [Stops] using goesOn⟩

end Parser

namespace Grammar

open Lox.Parser

/-- A reply ends well where the demands over the stack are met, and stops where one is refused. -/
def Answered {α : Type} (reply : Reply α) (demands : List Demand) (tokens : List Token)
    (stack : List Demand) : Prop :=
  (∃ a rest complaints, reply = ⟨.ok a, rest, complaints⟩ ∧ firstStop? complaints = none ∧
    Reads demands tokens stack rest) ∨
  ∃ complaint, firstStop? reply.recorded = some complaint ∧ Refuses demands tokens complaint

/-- The parser answers to these demands, on no more tokens than the bound. -/
def Answers {α : Type} (parser : Parser α) (demands : List Demand) (bound : Nat) : Prop :=
  ∀ tokens stack, tokens.length ≤ bound → Answered (parser tokens) (demands ++ stack) tokens stack

theorem Reads.refuses {first last : List Demand} {tokens rest : List Token} {complaint : Complaint}
    (reads : Reads first tokens last rest) (refuses : Refuses last rest complaint) :
    Refuses first tokens complaint := by
  obtain ⟨stack, left, more, refused⟩ := refuses
  exact ⟨stack, left, reads.trans more, refused⟩

theorem Reads.answered {α : Type} {reply : Reply α} {first middle stack : List Demand}
    {tokens rest : List Token} (reads : Reads first tokens middle rest)
    (answered : Answered reply middle rest stack) : Answered reply first tokens stack := by
  obtain ⟨a, left, complaints, done, smooth, more⟩ | ⟨complaint, stops, refuses⟩ := answered
  · exact Or.inl ⟨a, left, complaints, done, smooth, reads.trans more⟩
  · exact Or.inr ⟨complaint, stops, reads.refuses refuses⟩

theorem Answered.bind {α β : Type} {first : Parser α} {second : α → Parser β}
    {demands middle stack : List Demand} {tokens : List Token}
    (front : Answered (first tokens) demands tokens middle)
    (back : ∀ a rest complaints, first tokens = ⟨.ok a, rest, complaints⟩ →
      Reads demands tokens middle rest → Answered (second a rest) middle rest stack) :
    Answered ((first >>= second) tokens) demands tokens stack := by
  obtain ⟨a, rest, before, done, smooth, reads⟩ | ⟨complaint, stops, refuses⟩ := front
  · refine reads.answered ?_
    obtain ⟨b, left, after, laterDone, laterSmooth, more⟩ | ⟨complaint, stops, refuses⟩ :=
      back a rest before done reads
    · refine Or.inl ⟨b, left, before ++ after, ?_, ?_, more⟩
      · rw [bind_of_ok done, laterDone]
      · rw [firstStop?_append, smooth, laterSmooth, Option.or_none]
    · refine Or.inr ⟨complaint, ?_, refuses⟩
      rw [bind_of_ok done, Reply.recorded_append, firstStop?_append, smooth, stops, Option.none_or]
  · exact Or.inr ⟨complaint, firstStop?_bind stops second, refuses⟩

theorem Answered.refused {α : Type} {parser : Parser α} {demand : Demand} {stack : List Demand}
    {tokens : List Token} {fault : SyntaxFault} (isStop : fault ≠ .invalidTarget)
    (fails : parser tokens = ⟨.error fault, tokens, []⟩)
    (meets : demand.meet (nextKind tokens) = .refuse fault) :
    Answered (parser tokens) (demand :: stack) tokens stack := by
  refine Or.inr ⟨⟨tokens.head?, fault⟩, ?_, demand :: stack, tokens, .done _ _, ?_⟩
  · simp [fails, Reply.recorded, firstStop?, isStop]
  · exact ⟨demand, stack, rfl, meets, rfl⟩

namespace Answers

variable {α β : Type} {demand : Demand} {demands others : List Demand} {bound : Nat}

theorem mono {parser : Parser α} (answers : Answers parser demands bound) {fewer : Nat}
    (le : fewer ≤ bound) : Answers parser demands fewer :=
  fun tokens stack fits => answers tokens stack (Nat.le_trans fits le)

theorem pure (a : α) : Answers (Pure.pure a) [] bound :=
  fun tokens stack _ => Or.inl ⟨a, tokens, [], rfl, rfl, .done stack tokens⟩

theorem complain (token : Token) (a : α) :
    Answers (Parser.complain token .invalidTarget >>= fun _ => Pure.pure a) [] bound :=
  fun tokens stack _ => Or.inl ⟨a, tokens, _, rfl, rfl, .done stack tokens⟩

theorem of_nil {parser : Parser α}
    (answered : ∀ stack, Answered (parser []) (demands ++ stack) [] stack) :
    Answers parser demands 0 := by
  intro tokens stack fits
  obtain rfl : tokens = [] := List.length_eq_zero_iff.mp (Nat.le_zero.mp fits)
  exact answered stack

theorem pure_zero (optional : demand.fill = []) (a : α) : Answers (Pure.pure a) [demand] 0 := by
  refine .of_nil fun stack => Or.inl ⟨a, [], [], rfl, rfl, .give_way optional ?_ stack⟩
  simp [Quiet]

theorem bind {first : Parser α} {second : α → Parser β} (front : Answers first [demand] bound)
    (back : ∀ a, Answers (second a) others bound) :
    Answers (first >>= second) (demand :: others) bound := by
  intro tokens stack fits
  refine Answered.bind (front tokens (others ++ stack) fits) ?_
  intro a rest complaints _ reads
  exact back a rest stack (Nat.le_trans reads.suffix.length_le fits)

theorem become {parser : Parser α}
    (meets : ∀ tokens : List Token, tokens.length ≤ bound →
      demand.meet (nextKind tokens) = .become demands)
    (answers : Answers parser demands bound) : Answers parser [demand] bound :=
  fun tokens stack fits =>
    (Reads.single (advance_of_become (meets tokens fits))).answered (answers tokens stack fits)

theorem taken {parser : Parser α} (answers : Answers parser demands bound) {token : Token}
    {rest : List Token} {stack : List Demand}
    (meets : demand.meet (some token.kind) = .take demands) (fits : rest.length ≤ bound) :
    Answered (parser rest) (demand :: stack) (token :: rest) stack :=
  (Reads.single (advance_of_take meets)).answered (answers rest stack fits)

theorem accept {kinds : List TokenKind} {next : Option Token → Parser α} {taken : List Demand}
    (meets : ∀ kind, demand.meet kind = .onKind kinds kind taken (.become demands))
    (onTaken : ∀ token, Answers (next (some token)) (taken ++ others) (bound - 1))
    (onNone : Answers (next none) (demands ++ others) bound) :
    Answers (Parser.accept kinds >>= next) (demand :: others) bound := by
  intro tokens stack fits
  by_cases stops : Stops kinds tokens
  · rw [accept_bind_of_stops stops]
    have gives : advance (demand :: others ++ stack) tokens =
        some (demands ++ others ++ stack, tokens) := by
      rw [List.append_assoc]
      exact advance_of_become ((meets _).trans (Move.onKind_of_stops stops))
    exact (Reads.single gives).answered (onNone tokens stack fits)
  · obtain ⟨token, rest, rfl, member⟩ := exists_of_not_stops stops
    rw [accept_bind_of_mem member]
    have takes : advance (demand :: others ++ stack) (token :: rest) =
        some (taken ++ others ++ stack, rest) := by
      rw [List.append_assoc]
      exact advance_of_take ((meets _).trans (Move.onKind_of_mem member))
    simp only [List.length_cons] at fits
    exact (Reads.single takes).answered (onTaken token rest stack (by omega))

theorem expect (kind : TokenKind) (separates : kind ∈ separators) {fault : SyntaxFault}
    (isStop : fault ≠ .invalidTarget) :
    Answers (Parser.expect kind fault) [.token kind separates fault] bound := by
  intro tokens stack _
  by_cases stops : Stops [kind] tokens
  · refine Answered.refused isStop ?_ (Move.onKind_of_stops stops)
    cases tokens with
    | nil => rfl
    | cons token rest =>
      have other : token.kind ≠ kind := by simpa using stops token rfl
      simp [Parser.expect, other]
  · obtain ⟨token, rest, rfl, member⟩ := exists_of_not_stops stops
    have meets : (Demand.token kind separates fault).meet (some token.kind) = .take [] :=
      Move.onKind_of_mem member
    refine Or.inl ⟨token, rest, [], ?_, rfl, .step (advance_of_take meets) (.done stack rest)⟩
    exact expect_of_kind (List.mem_singleton.mp member) fault rest

theorem recover {parser : Parser α} (answers : Answers parser demands bound) :
    Answers (Grammar.recover parser) demands bound := by
  intro tokens stack fits
  obtain ⟨a, rest, complaints, done, smooth, reads⟩ | ⟨complaint, stops, refuses⟩ :=
    answers tokens stack fits
  · exact Or.inl ⟨some a, rest, complaints, recover_of_ok done, smooth, reads⟩
  · refine Or.inr ⟨complaint, ?_, refuses⟩
    cases run : parser tokens with
    | mk result rest complaints =>
      rw [run] at stops
      cases result with
      | ok a => rwa [recover_of_ok run]
      | error fault => rwa [recover_of_error run]

end Answers

section

variable {operand primary equality conditional inner expression : Parser Expr}
variable {branch : Parser Stmt} {bound turns : Nat}

theorem meet_tail {tier : Tier} (leftAssoc : tier.isLeftAssoc) (next : Option TokenKind) :
    (Demand.tail tier).meet next =
      .onKind tier.operators next [.tier tier.tighter, .tail tier] (.become []) := by
  cases tier with
  | equality | comparison | term | factor => rfl
  | _ => cases leftAssoc

theorem meet_leftAssoc {tier : Tier} (leftAssoc : tier.isLeftAssoc) (next : Option TokenKind) :
    (Demand.tier tier).meet next = .become [.tier tier.tighter, .tail tier] := by
  cases tier with
  | equality | comparison | term | factor => rfl
  | _ => cases leftAssoc

theorem answers_operands (tier : Tier) (leftAssoc : tier.isLeftAssoc)
    (tight : Answers operand [.tier tier.tighter] bound) (enough : bound ≤ turns) (left : Expr) :
    Answers (operands tier.operators operand turns left) [.tail tier] bound := by
  induction turns generalizing bound left with
  | zero =>
    obtain rfl : bound = 0 := Nat.le_zero.mp enough
    exact .pure_zero rfl left
  | succ turns ih =>
    refine .accept (meet_tail leftAssoc) (fun operator => ?_) (.pure left)
    have fewer : Answers operand [.tier tier.tighter] (bound - 1) := tight.mono (Nat.sub_le _ _)
    exact .bind fewer fun right => ih fewer (by omega) _

theorem answers_leftAssoc (tier : Tier) (leftAssoc : tier.isLeftAssoc)
    (tight : Answers operand [.tier tier.tighter] bound) (enough : bound ≤ turns) :
    Answers (Grammar.leftAssoc tier.operators turns operand) [.tier tier] bound :=
  .become (fun _ _ => meet_leftAssoc leftAssoc _)
    (.bind tight fun first => answers_operands tier leftAssoc tight enough first)

theorem answers_unary (tight : Answers primary [.tier .primary] bound) (enough : bound ≤ turns) :
    Answers (unary primary turns) [.tier .unary] bound := by
  induction turns generalizing bound with
  | zero =>
    refine .become (fun tokens fits => ?_) tight
    obtain rfl : tokens = [] := List.length_eq_zero_iff.mp (by omega)
    rfl
  | succ turns ih =>
    refine .accept (fun _ => rfl) (fun operator => ?_) tight
    exact .bind (ih (tight.mono (Nat.sub_le _ _)) (by omega)) fun operand => .pure _

theorem answers_conditional (tight : Answers equality [.tier .equality] bound)
    (enough : bound ≤ turns) :
    Answers (Grammar.conditional equality turns) [.tier .conditional] bound := by
  induction turns generalizing bound with
  | zero =>
    obtain rfl : bound = 0 := Nat.le_zero.mp enough
    -- Without turns there are no tokens either, so the tail gives way at once.
    rw [Grammar.conditional, ← bind_pure equality]
    exact .become (fun _ _ => rfl) (.bind tight fun e => .pure_zero rfl e)
  | succ turns ih =>
    refine .become (fun _ _ => rfl) (.bind tight fun condition => ?_)
    refine .accept (fun _ => rfl) (fun question => ?_) (.pure condition)
    have fewer : Answers equality [.tier .equality] (bound - 1) := tight.mono (Nat.sub_le _ _)
    refine .bind fewer fun yes => .bind (.expect .colon _ (by decide)) fun _ => ?_
    exact .bind (ih fewer (by omega)) fun no => .pure _

theorem answers_assignment (tight : Answers conditional [.tier .conditional] bound)
    (enough : bound ≤ turns) :
    Answers (assignment conditional turns) [.tier .assignment] bound := by
  induction turns generalizing bound with
  | zero =>
    obtain rfl : bound = 0 := Nat.le_zero.mp enough
    rw [assignment, ← bind_pure conditional]
    exact .become (fun _ _ => rfl) (.bind tight fun e => .pure_zero rfl e)
  | succ turns ih =>
    refine .become (fun _ _ => rfl) (.bind tight fun target => ?_)
    refine .accept (fun _ => rfl) (fun equals => ?_) (.pure target)
    refine .bind (ih (tight.mono (Nat.sub_le _ _)) (by omega)) fun value => ?_
    cases target with
    | var name => exact .pure _
    | _ => exact .complain equals _

theorem answers_group (inside : Answers inner [.tier .assignment] bound) :
    Answers (group inner)
      [.tier .assignment, .token .rightParen (by decide) .noParenAfterExpression] bound :=
  .bind inside fun _ => .bind (.expect .rightParen _ (by decide)) fun _ => .pure _

theorem isSome_atom? (token : Token) : (atom? token).isSome ↔ token.kind ∈ atoms := by
  unfold atom?
  split <;> simp_all [atoms]

theorem answers_primary (inside : Answers inner [.tier .assignment] bound) :
    Answers (Grammar.primary inner) [.tier .primary] (bound + 1) := by
  intro tokens stack fits
  cases tokens with
  | nil => exact .refused (by decide) rfl rfl
  | cons token rest =>
    by_cases paren : token.kind = .leftParen
    · have same : Grammar.primary inner (token :: rest) = group inner rest := by
        simp [Grammar.primary, paren]
      rw [same]
      exact (answers_group inside).taken (by rw [paren]; rfl) (Nat.le_of_succ_le_succ fits)
    · have meets : (Demand.tier .primary).meet (some token.kind) =
          .onKind atoms (some token.kind) [] (.refuse .noExpression) := by
        simp [Demand.meet, Move.onKind, paren]
      by_cases isAtom : token.kind ∈ atoms
      · obtain ⟨e, found⟩ := Option.isSome_iff_exists.mp ((isSome_atom? token).mpr isAtom)
        have takes : advance (.tier .primary :: stack) (token :: rest) =
            some ([] ++ stack, rest) :=
          advance_of_take (meets.trans (Move.onKind_of_mem isAtom))
        refine Or.inl ⟨e, rest, [], ?_, rfl, .single takes⟩
        simp [Grammar.primary, paren, found]
      · have missing : atom? token = none := by
          rwa [← isSome_atom?, Option.not_isSome_iff_eq_none] at isAtom
        have stops : Stops atoms (token :: rest) := by simpa [Stops] using isAtom
        refine .refused (by decide) ?_ (meets.trans (Move.onKind_of_stops stops))
        simp [Grammar.primary, paren, missing, Parser.fail]

theorem answers_tiers (inside : Answers inner [.tier .assignment] bound) :
    Answers (tiers (bound + 1) inner) [.tier .assignment] (bound + 1) := by
  have enough : bound + 1 ≤ bound + 1 := Nat.le_refl _
  have units := answers_unary (answers_primary inside) enough
  have factors := answers_leftAssoc .factor rfl units enough
  have terms := answers_leftAssoc .term rfl factors enough
  have comparisons := answers_leftAssoc .comparison rfl terms enough
  have equalities := answers_leftAssoc .equality rfl comparisons enough
  exact answers_assignment (answers_conditional equalities enough) enough

theorem refuses_expression_nil (stack : List Demand) :
    Refuses (.tier .assignment :: stack) [] ⟨none, .noExpression⟩ := by
  let tails : List Demand := [.tail .factor, .tail .term, .tail .comparison, .tail .equality,
    .tail .conditional, .tail .assignment]
  have reads : Reads (.tier .assignment :: stack) [] (.tier .primary :: (tails ++ stack)) [] :=
    .step rfl <| .step rfl <| .step rfl <| .step rfl <| .step rfl <| .step rfl <| .single rfl
  exact ⟨_, [], reads, .tier .primary, _, rfl, rfl, rfl⟩

theorem answers_expression (bound : Nat) :
    Answers (Grammar.expression bound) [.tier .assignment] bound := by
  induction bound with
  | zero => exact .of_nil fun stack => Or.inr ⟨_, rfl, refuses_expression_nil stack⟩
  | succ bound ih => exact answers_tiers ih

theorem answers_expressionStatement (fits : Answers expression [.tier .assignment] bound) :
    Answers (expressionStatement expression)
      [.tier .assignment, .token .semicolon (by decide) .noSemicolonAfterExpression] bound :=
  .bind fits fun _ => .bind (.expect .semicolon _ (by decide)) fun _ => .pure _

theorem answers_printStatement (fits : Answers expression [.tier .assignment] bound) :
    Answers (printStatement expression)
      [.tier .assignment, .token .semicolon (by decide) .noSemicolonAfterValue] bound :=
  .bind fits fun _ => .bind (.expect .semicolon _ (by decide)) fun _ => .pure _

theorem answers_ifStatement (fits : Answers expression [.tier .assignment] bound)
    (branches : Answers branch [.statement] bound) :
    Answers (ifStatement expression branch)
      [.token .leftParen (by decide) .noParenAfterIf, .tier .assignment,
        .token .rightParen (by decide) .noParenAfterIfCondition, .statement, .alternative]
      bound := by
  refine .bind (.expect .leftParen _ (by decide)) fun _ => .bind fits fun condition => ?_
  refine .bind (.expect .rightParen _ (by decide)) fun _ => .bind branches fun yes => ?_
  refine .accept (fun _ => rfl) (fun word => ?_) (.pure _)
  exact .bind (branches.mono (Nat.sub_le _ _)) fun no => .pure _

theorem answers_whileStatement (fits : Answers expression [.tier .assignment] bound)
    (branches : Answers branch [.statement] bound) :
    Answers (whileStatement expression branch)
      [.token .leftParen (by decide) .noParenAfterWhile, .tier .assignment,
        .token .rightParen (by decide) .noParenAfterCondition, .statement] bound := by
  refine .bind (.expect .leftParen _ (by decide)) fun _ => .bind fits fun condition => ?_
  refine .bind (.expect .rightParen _ (by decide)) fun _ => ?_
  exact .bind branches fun body => .pure _

theorem answers_varDeclaration (fits : Answers expression [.tier .assignment] bound) :
    Answers (varDeclaration expression)
      [.token .identifier (by decide) .noVariableName, .initial,
        .token .semicolon (by decide) .noSemicolonAfterVariable] bound := by
  refine .bind (.expect .identifier _ (by decide)) fun name => ?_
  refine .accept (fun _ => rfl) (fun equals => ?_) ?_
  · refine .bind (fits.mono (Nat.sub_le _ _)) fun initial => ?_
    exact .bind (.expect .semicolon _ (by decide)) fun _ => .pure _
  · exact .bind (.expect .semicolon _ (by decide)) fun _ => .pure _

theorem answers_declaration (fits : Answers expression [.tier .assignment] bound)
    (branches : Answers branch [.statement] bound) :
    Answers (declaration expression branch) [.declaration] bound := by
  refine .recover (.accept (fun _ => rfl) (fun word => ?_) branches)
  exact answers_varDeclaration (fits.mono (Nat.sub_le _ _))

theorem answered_declarations {closing : List TokenKind} {declaration : Parser (Option Stmt)}
    {stack : List Demand}
    (goesOn : ∀ (token : Token) (rest : List Token), token.kind ∉ closing →
      advance stack (token :: rest) = some (.declaration :: stack, token :: rest))
    (answers : Answers declaration [.declaration] bound)
    (progress : ∀ tokens, tokens ≠ [] → (declaration tokens).rest.length < tokens.length)
    (enough : bound ≤ turns) {tokens : List Token} (fits : tokens.length ≤ bound) :
    Answered (declarations closing declaration turns tokens) stack tokens stack := by
  induction turns generalizing bound tokens with
  | zero =>
    obtain rfl : tokens = [] := List.length_eq_zero_iff.mp (by omega)
    exact Or.inl ⟨[], [], [], rfl, rfl, .done stack []⟩
  | succ turns ih =>
    cases tokens with
    | nil => exact Or.inl ⟨[], [], [], rfl, rfl, .done stack []⟩
    | cons token others =>
      rw [declarations_cons]
      split
      · exact Or.inl ⟨[], _, [], rfl, rfl, .done stack _⟩
      · rename_i goes
        refine (Reads.single (goesOn token others goes)).answered ?_
        refine .bind (answers (token :: others) stack fits) ?_
        intro first rest complaints done _
        -- The declaration took a token, so the turns that are left suffice for the other tokens.
        have shorter := progress (token :: others) (by simp)
        rw [done] at shorter
        simp only [List.length_cons] at shorter fits
        have fewer : Answers declaration [.declaration] rest.length := answers.mono (by omega)
        refine .bind (ih fewer (by omega) (Nat.le_refl _)) ?_
        intro later left _ _ _
        exact Or.inl ⟨_, left, [], rfl, rfl, .done stack left⟩

theorem answers_block {declaration : Parser (Option Stmt)}
    (answers : Answers declaration [.declaration] bound)
    (progress : ∀ tokens, tokens ≠ [] → (declaration tokens).rest.length < tokens.length) :
    Answers (block declaration bound) [.body] bound := by
  intro tokens stack fits
  have goesOn (token : Token) (rest : List Token) (other : token.kind ∉ [.rightBrace]) :
      advance (.body :: stack) (token :: rest) =
        some (.declaration :: .body :: stack, token :: rest) := by
    have stops : Stops [.rightBrace] (token :: rest) := by simpa [Stops] using other
    have meets : Demand.body.meet (nextKind (token :: rest)) = .become [.declaration, .body] :=
      Move.onKind_of_stops stops
    exact advance_of_become meets
  refine .bind (answered_declarations goesOn answers progress (Nat.le_refl _) fits) ?_
  intro read rest complaints done _
  have ends := declarations_end [.rightBrace] progress fits done
  cases rest with
  | nil => exact .refused (by decide) rfl rfl
  | cons token others =>
    have closes : token.kind = .rightBrace := by simpa using ends token rfl
    have meets : Demand.body.meet (some token.kind) = .take [] := by
      rw [closes]
      rfl
    refine Or.inl ⟨.block read, others, [], ?_, rfl,
      .step (advance_of_take meets) (.done stack others)⟩
    rw [bind_of_ok (expect_of_kind closes _ others)]
    rfl

theorem meet_statement {kind : TokenKind} (notIf : kind ≠ .ifWord) (notWhile : kind ≠ .whileWord)
    (notPrint : kind ≠ .printWord) (notBrace : kind ≠ .leftBrace) :
    Demand.statement.meet (some kind) = .become [.tier .assignment,
      .token .semicolon (by decide) .noSemicolonAfterExpression] := by
  simp [Demand.meet, Move.onKind, notIf, notWhile, notPrint, notBrace]

theorem answered_statement_nil (bound : Nat) (stack : List Demand) :
    Answered (statement bound []) (.statement :: stack) [] stack := by
  have missing : statement bound [] = ⟨.error .noExpression, [], []⟩ := by
    cases bound <;> rfl
  rw [missing]
  exact Or.inr ⟨_, rfl, (Reads.single rfl).refuses (refuses_expression_nil _)⟩

theorem answers_statement (bound : Nat) : Answers (statement bound) [.statement] bound := by
  induction bound with
  | zero => exact .of_nil (answered_statement_nil 0)
  | succ bound ih =>
    have fits := answers_expression bound
    intro tokens stack short
    cases tokens with
    | nil => exact answered_statement_nil (bound + 1) stack
    | cons token rest =>
      have shorter : rest.length ≤ bound := Nat.le_of_succ_le_succ short
      simp only [statement]
      split
      · rename_i word
        exact (answers_ifStatement fits ih).taken (by rw [word]; rfl) shorter
      · rename_i word
        exact (answers_whileStatement fits ih).taken (by rw [word]; rfl) shorter
      · rename_i word
        exact (answers_printStatement fits).taken (by rw [word]; rfl) shorter
      · rename_i brace
        have progress :=
          progress_declaration (consumes_expression bound) (consumes_statement bound)
        have answers := answers_block (answers_declaration fits ih) progress
        exact answers.taken (by rw [brace]; rfl) shorter
      · rename_i notIf notWhile notPrint notBrace
        have gives : advance (.statement :: stack) (token :: rest) = _ :=
          advance_of_become (meet_statement notIf notWhile notPrint notBrace)
        have answers := answers_expressionStatement (answers_expression (bound + 1))
        exact (Reads.single gives).answered (answers (token :: rest) stack short)

end

/-- A program is read to its end, or to the first token that is refused. -/
theorem program_answers (tokens : List Token) :
    let complaints := (program tokens.length tokens).complaints
    firstStop? complaints = none ∧ Reads [] tokens [] [] ∨
      ∃ complaint, firstStop? complaints = some complaint ∧ Refuses [] tokens complaint := by
  have declarations :=
    answers_declaration (answers_expression tokens.length) (answers_statement tokens.length)
  have progress :=
    progress_declaration (consumes_expression tokens.length) (consumes_statement tokens.length)
  have all : tokens.length ≤ tokens.length := Nat.le_refl _
  have answered : Answered (program tokens.length tokens) [] tokens [] :=
    answered_declarations (fun _ _ _ => rfl) declarations progress all all
  obtain ⟨statements, rest, complaints, done⟩ := program_ok tokens.length tokens
  obtain rfl := program_end done
  rw [done] at answered ⊢
  obtain ⟨_, _, _, same, smooth, reads⟩ | stopped := answered
  · cases same
    exact Or.inl ⟨smooth, reads⟩
  · exact Or.inr stopped

end Grammar

end Lox

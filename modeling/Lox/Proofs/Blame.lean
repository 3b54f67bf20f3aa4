import Lox.Proofs.Piecewise
import Lox.Proofs.Resolution

/-!
What a runtime error says. It blames a token of the source that is being run, whatever ran before
it, and the message belongs to tokens of that kind. That an operator is unknown is never among the
messages: the grammar puts none where it is not known.
-/

namespace Lox

def TokenKind.numeric : List TokenKind :=
  [.minus, .star, .slash, .greater, .greaterEqual, .less, .lessEqual]

/-- The messages, each with the tokens that it may be about. -/
inductive Suits : String → Token → Prop
  | negation {token} : token.kind = .minus → Suits "Operand must be a number." token
  | addition {token} : token.kind = .plus →
      Suits "Operands must be two numbers or two strings." token
  | numeric {token} : token.kind ∈ TokenKind.numeric → Suits "Operands must be numbers." token
  | division {token} : token.kind = .slash → Suits "Division by zero." token
  | undefined {token} : token.kind = .identifier →
      Suits ("Undefined variable '" ++ token.lexeme ++ "'.") token

namespace Suits

variable {message : String} {token : Token}

theorem kept (suits : Suits message token) :
    token.kind.isOperator ∨ token.kind = .identifier := by
  have operators : ∀ kind ∈ TokenKind.numeric, kind.isOperator := by decide
  cases suits with
  | negation kind | addition kind | division kind => exact Or.inl (by rw [kind]; rfl)
  | numeric member => exact Or.inl (operators _ member)
  | undefined kind => exact Or.inr kind

theorem ne_unknown (suits : Suits message token) (text : String) :
    message ≠ "Unknown operator" ++ text := by
  intro same
  have letters := congrArg String.toList same
  cases suits <;> simp [String.toList_append] at letters

end Suits

structure RuntimeError.Blames (error : RuntimeError) (tokens : List Token) : Prop where
  among : error.token ∈ tokens
  suits : Suits error.message error.token

theorem RuntimeError.Blames.mono {error : RuntimeError} {tokens more : List Token}
    (blames : error.Blames tokens) (fewer : tokens ⊆ more) : error.Blames more :=
  ⟨fewer blames.among, blames.suits⟩

/-! Operators blame themselves, as long as they stand where the grammar allows them. -/

theorem blames_of_applyUnary {operator : Token} {operand : Value} {error : RuntimeError}
    (known : operator.kind ∈ Tier.unary.operators)
    (failed : applyUnary operator operand = .error error) : error.Blames [operator] := by
  unfold applyUnary at failed
  split at failed
  · cases failed
  · rename_i isMinus _
    cases failed
    exact ⟨List.mem_singleton_self _, .negation isMinus⟩
  · cases failed
  · rename_i notMinus notBang _
    simp only [Tier.operators, List.mem_cons, List.not_mem_nil, or_false] at known
    rcases known with isBang | isMinus
    · exact absurd isBang notBang
    · exact absurd isMinus notMinus

theorem Tier.operator_cases {tier : Tier} (leftAssoc : tier.isLeftAssoc) {kind : TokenKind}
    (member : kind ∈ tier.operators) :
    kind = .equalEqual ∨ kind = .bangEqual ∨ kind = .plus ∨ kind ∈ TokenKind.numeric := by
  revert kind
  cases tier with
  | equality | comparison | term | factor => decide
  | _ => cases leftAssoc

theorem blames_of_applyNumeric {operator : Token} {x y : Float} {error : RuntimeError}
    (known : operator.kind ∈ TokenKind.numeric)
    (failed : applyNumeric operator x y = .error error) : error.Blames [operator] := by
  unfold applyNumeric at failed
  split at failed
  case h_3 isSlash =>
    split at failed
    · cases failed
      exact ⟨List.mem_singleton_self _, .division isSlash⟩
    · cases failed
  case h_8 => simp_all [TokenKind.numeric]
  all_goals cases failed

theorem blames_of_applyBinary {tier : Tier} (leftAssoc : tier.isLeftAssoc) {operator : Token}
    (known : operator.kind ∈ tier.operators) {left right : Value} {error : RuntimeError}
    (failed : applyBinary operator left right = .error error) : error.Blames [operator] := by
  unfold applyBinary at failed
  split at failed
  · cases failed
  · cases failed
  · rename_i isPlus
    unfold add at failed
    split at failed <;> cases failed
    exact ⟨List.mem_singleton_self _, .addition isPlus⟩
  · rename_i notEqual notUnequal notPlus
    have numeric : operator.kind ∈ TokenKind.numeric := by
      rcases Tier.operator_cases leftAssoc known with isEqual | isUnequal | isPlus | numeric
      · exact absurd isEqual notEqual
      · exact absurd isUnequal notUnequal
      · exact absurd isPlus notPlus
      · exact numeric
    split at failed
    · exact blames_of_applyNumeric numeric failed
    · cases failed
      exact ⟨List.mem_singleton_self _, .numeric numeric⟩

theorem blames_of_undefined {name : Token} (isName : name.kind = .identifier) :
    (⟨name, .undefinedVariable⟩ : RuntimeError).Blames [name] :=
  ⟨List.mem_singleton_self _, .undefined isName⟩

theorem Fits.blames {tier : Tier} {e : Expr} (fits : Fits tier e) {env after : Environment}
    {error : RuntimeError} (failed : e.eval env = (.error error, after)) :
    error.Blames e.spelling := by
  induction fits generalizing env after with
  | literal value => cases failed
  | grouping _ ih =>
    apply (ih failed).mono
    simp [Expr.spelling]
  | @var name isName =>
    simp only [Expr.eval, Environment.get, Prod.mk.injEq] at failed
    split at failed
    · cases failed.1
    · cases failed.1
      exact blames_of_undefined isName
  | unary known _ ih =>
    rw [Expr.eval] at failed
    split at failed
    · simp only [Prod.mk.injEq] at failed
      apply (blames_of_applyUnary known failed.1).mono
      simp [Expr.spelling]
    · rename_i inside
      cases failed
      apply (ih inside).mono
      simp [Expr.spelling]
  | binary leftAssoc known _ _ leftIh rightIh =>
    rw [Expr.eval] at failed
    split at failed
    · rename_i inside
      cases failed
      apply (leftIh inside).mono
      simp [Expr.spelling]
    · split at failed
      · rename_i inside
        cases failed
        apply (rightIh inside).mono
        simp [Expr.spelling]
      · simp only [Prod.mk.injEq] at failed
        apply (blames_of_applyBinary leftAssoc known failed.1).mono
        simp [Expr.spelling]
  | conditional _ _ _ conditionIh yesIh noIh =>
    rw [Expr.eval] at failed
    split at failed
    · rename_i inside
      cases failed
      apply (conditionIh inside).mono
      simp [Expr.spelling]
    · split at failed
      · exact (yesIh failed).mono fun token member => by simp [Expr.spelling, member]
      · exact (noIh failed).mono fun token member => by simp [Expr.spelling, member]
  | assign isName _ ih =>
    rw [Expr.eval] at failed
    split at failed
    · rename_i inside
      cases failed
      apply (ih inside).mono
      simp [Expr.spelling]
    · simp only [Environment.assign] at failed
      split at failed
      · rename_i unassigned
        split at unassigned
        · cases unassigned
        · cases unassigned
          cases failed
          apply (blames_of_undefined isName).mono
          simp [Expr.spelling]
      · cases failed
  | looser _ ih => exact ih failed

namespace Stmt

mutual

theorem blames (statement : Stmt) {place : Place} (shaped : Shaped place statement) {fuel : Nat}
    {state : State} {error : RuntimeError}
    (failed : (statement.exec fuel state).1 = .failed error) : error.Blames statement.spelling := by
  cases shaped with
  | expression fits =>
    obtain ⟨env, inside⟩ | ⟨_, _, _, failed⟩ := State.failed_of_evaluate failed
    · apply (fits.blames inside).mono
      simp [spelling]
    · cases failed
  | print fits =>
    obtain ⟨env, inside⟩ | ⟨_, _, _, failed⟩ := State.failed_of_evaluate failed
    · apply (fits.blames inside).mono
      simp [spelling]
    · cases failed
  | @varDecl name initial _ initialFits =>
    cases initial with
    | none => cases failed
    | some initial =>
      obtain ⟨env, inside⟩ | ⟨_, _, _, failed⟩ := State.failed_of_evaluate failed
      · exact ((initialFits initial rfl).blames inside).mono fun token member => by
          simp [spelling, member]
      · cases failed
  | @block _ body bodyShaped =>
    apply (blamesAll body bodyShaped failed).mono
    simp [spelling]
  | @ifThen _ condition yes fits yesShaped =>
    obtain ⟨env, inside⟩ | ⟨_, _, _, failed⟩ := State.failed_of_evaluate failed
    · exact (fits.blames inside).mono fun token member => by simp [spelling, member]
    · split at failed
      · exact (blames yes yesShaped failed).mono fun token member => by simp [spelling, member]
      · cases failed
  | @ifElse _ condition yes no fits yesShaped _ noShaped =>
    obtain ⟨env, inside⟩ | ⟨_, _, _, failed⟩ := State.failed_of_evaluate failed
    · exact (fits.blames inside).mono fun token member => by simp [spelling, member]
    · split at failed
      · exact (blames yes yesShaped failed).mono fun token member => by simp [spelling, member]
      · exact (blames no noShaped failed).mono fun token member => by simp [spelling, member]
  | @whileLoop _ condition body fits bodyShaped =>
    obtain ⟨head, _, ⟨env, inside⟩ | ⟨_, _, _, _, failed⟩⟩ := State.failed_of_loop failed
    · exact (fits.blames inside).mono fun token member => by simp [spelling, member]
    · exact (blames body bodyShaped failed).mono fun token member => by simp [spelling, member]

theorem blamesAll (statements : List Stmt)
    (shaped : ∀ statement ∈ statements, Shaped .listed statement) {fuel : Nat} {state : State}
    {error : RuntimeError} (failed : (execAll fuel statements state).1 = .failed error) :
    error.Blames (spellingAll statements) := by
  cases statements with
  | nil => cases failed
  | cons statement others =>
    rw [execAll] at failed
    split at failed
    · have later := fun s member => shaped s (List.mem_cons_of_mem _ member)
      apply (blamesAll others later failed).mono
      simp [spellingAll]
    · apply (blames statement (shaped statement (by simp)) failed).mono
      simp [spellingAll]

end

end Stmt

namespace Spells

variable {tokens spelling : List Token}

theorem mem_of_kept (spelled : Spells tokens spelling) {token : Token}
    (member : token ∈ spelling) (kept : token.kind.isOperator ∨ token.kind = .identifier) :
    token ∈ tokens := by
  have essence : token.essence ∈ tokens.map Token.essence := by
    rw [spelled]
    exact List.mem_map_of_mem member
  obtain ⟨original, inside, same⟩ := List.mem_map.mp essence
  rwa [← Token.eq_of_essence_eq same kept]

end Spells

namespace Segment

theorem line_of_mem_tokens {line : Nat} {segments : List Segment} {token : Token}
    (member : token ∈ tokens line segments) :
    line ≤ token.line ∧ token.line ≤ endLine line segments := by
  induction segments generalizing line with
  | nil => cases member
  | cons segment others ih =>
    rw [tokens_cons] at member
    rw [endLine, List.foldl_cons, ← endLine]
    have moved := segment.le_lineAfter line
    have ends := le_endLine (segment.lineAfter line) others
    rcases List.mem_append.mp member with isFirst | isLater
    · have lines := (token?_eq_some (Option.mem_toList.mp isFirst)).2.1
      omega
    · have bounds := ih isLater
      omega

end Segment

namespace Session

theorem accepted_of_runtime {fuel : Nat} {session : Session} {source : String}
    {error : RuntimeError}
    (failed : (session.run fuel source).1.outcome = .failed (.runtime error)) :
    Accepted session.mode source := by
  simp only [run, after, runTokens] at failed
  split at failed
  · rename_i scans
    split at failed
    · rename_i parses
      exact ⟨scans, parses⟩
    · cases failed
  · cases failed

/-- A runtime error blames a token of the source, on its line there, and with a message that suits
the token. -/
theorem runtime_error_in_source {fuel : Nat} {session : Session} {source : String}
    {error : RuntimeError}
    (failed : (session.run fuel source).1.outcome = .failed (.runtime error)) :
    error.token ∈ (scan session.mode source).tokens ∧
      1 ≤ error.token.line ∧ error.token.line ≤ 1 + source.toList.count '\n' ∧
      Suits error.message error.token ∧
      ∀ text, error.message ≠ "Unknown operator" ++ text := by
  have accepted := accepted_of_runtime failed
  have stopped : (session.execution fuel (statementsOf source)).1 = .failed error := by
    rw [(shows_run accepted fuel).outcome] at failed
    generalize (session.execution fuel (statementsOf source)).1 = outcome at failed ⊢
    cases outcome <;> cases failed
    rfl
  have blames := Stmt.blamesAll _ (fun _ member => shaped_of_mem_statements member) stopped
  have member := accepted.tolerant.spells.mem_of_kept blames.among blames.suits.kept
  have lines := Segment.line_of_mem_tokens member
  rw [Segment.endLine_ofSource] at lines
  refine ⟨?_, lines.1, lines.2, blames.suits, blames.suits.ne_unknown⟩
  rw [accepted.scan_eq]
  exact List.mem_append_left _ member

/-- A text that an earlier source has bound cannot be negated by a later one. -/
theorem runtime_error_in_second_source :
    let session := ((start .strict).run 1 "var a = \"x\";").2
    let error : RuntimeError := ⟨⟨.minus, "-", none, 2⟩, .operandNotNumber⟩
    (session.run 1 "print 1;\nprint -a;").1.outcome = .failed (.runtime error) ∧
      error.token ∈ (scan session.mode "print 1;\nprint -a;").tokens ∧
      Suits "Operand must be a number." error.token := by
  intro session error
  have failed : (session.run 1 "print 1;\nprint -a;").1.outcome = .failed (.runtime error) := by
    decide +kernel
  obtain ⟨member, -, -, suits, -⟩ := runtime_error_in_source failed
  exact ⟨failed, member, suits⟩

end Session

end Lox

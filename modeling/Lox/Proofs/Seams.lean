import Lox.Proofs.Progress

/-!
Seams: what a parser does with some tokens it also does when others follow them, as long as it does
not come to the end of the first ones; a statement that ends well may come to it. Where nothing
follows, this says that the bounds on the repetitions are never met.
-/

namespace Lox

variable {α β : Type}

def Reply.before (reply : Reply α) (tail : List Token) : Reply α :=
  { reply with rest := reply.rest ++ tail }

theorem Reply.before_nil (reply : Reply α) : reply.before [] = reply := by
  simp [before]

/-- The other reply, to the same tokens in front of a tail, is the same, unless the first one comes
to the end of its tokens. -/
def Reply.Undisturbed (tail : List Token) (reply other : Reply α) : Prop :=
  reply.rest ≠ [] ∨ tail = [] → other = reply.before tail

/-- Where the first reply is a good one, it may come to the end of its tokens. -/
def Reply.Closed (tail : List Token) (reply other : Reply α) : Prop :=
  (reply.rest ≠ [] ∨ tail = [] ∨ ∃ a, reply.result = .ok a) → other = reply.before tail

theorem Reply.Closed.undisturbed {tail : List Token} {reply other : Reply α}
    (closed : reply.Closed tail other) : reply.Undisturbed tail other :=
  fun inside => closed (inside.imp_right .inl)

namespace Parser

/-- In front of the tail the other parser does what the first one does without it. -/
structure Carries (tail : List Token) (bound : Nat) (parser other : Parser α) : Prop where
  advances : parser.Advances
  same : ∀ tokens, tokens.length ≤ bound →
    (parser tokens).Undisturbed tail (other (tokens ++ tail))

structure Closes (tail : List Token) (bound : Nat) (parser other : Parser α) : Prop where
  advances : parser.Advances
  same : ∀ tokens, tokens.length ≤ bound → (parser tokens).Closed tail (other (tokens ++ tail))

variable {tail : List Token} {bound : Nat}

theorem Advances.rest_nil {parser : Parser α} (advances : parser.Advances) :
    (parser []).rest = [] :=
  List.suffix_nil.mp (advances [])

theorem undisturbed_bind {first other : Parser α} {second next : α → Parser β}
    {tokens : List Token} (front : (first tokens).Undisturbed tail (other (tokens ++ tail)))
    (advances : ∀ a, (second a).Advances)
    (back : ∀ a middle before, first tokens = ⟨.ok a, middle, before⟩ →
      (second a middle).Undisturbed tail (next a (middle ++ tail))) :
    ((first >>= second) tokens).Undisturbed tail ((other >>= next) (tokens ++ tail)) := by
  intro inside
  cases run : first tokens with
  | mk result middle before =>
    rw [run] at front
    cases result with
    | error fault =>
      rw [bind_of_error run] at inside ⊢
      exact bind_of_error (front inside)
    | ok a =>
      rw [bind_of_ok run] at inside ⊢
      have reached : middle ≠ [] ∨ tail = [] := by
        refine inside.imp_left fun left nothing => left ?_
        rw [nothing]
        exact (advances a).rest_nil
      rw [bind_of_ok (front reached), back a middle before run inside]
      rfl

theorem Consumes.not_ok_nil {parser : Parser α} (consumes : parser.Consumes) (a : α) :
    (parser []).result ≠ .ok a := by
  intro done
  cases run : parser [] with
  | mk result rest complaints =>
    rw [run] at done
    obtain rfl : result = .ok a := done
    exact Nat.not_lt_zero _ (consumes.takes [] a rest complaints run)

namespace Carries

theorem mono {parser other : Parser α} (carries : Carries tail bound parser other) {fewer : Nat}
    (le : fewer ≤ bound) : Carries tail fewer parser other :=
  ⟨carries.advances, fun tokens fits => carries.same tokens (Nat.le_trans fits le)⟩

theorem of_nil {parser other : Parser α} (advances : parser.Advances)
    (same : other [] = parser []) : Carries tail 0 parser other := by
  refine ⟨advances, ?_⟩
  intro tokens fits inside
  obtain rfl : tokens = [] := List.length_eq_zero_iff.mp (Nat.le_zero.mp fits)
  obtain rfl : tail = [] := inside.resolve_left (absurd advances.rest_nil)
  rw [Reply.before_nil]
  exact same

theorem pure (a : α) : Carries tail bound (Pure.pure a) (Pure.pure a) :=
  ⟨.pure a, fun _ _ _ => rfl⟩

theorem complain (token : Token) (fault : SyntaxFault) :
    Carries tail bound (Parser.complain token fault) (Parser.complain token fault) :=
  ⟨.complain token fault, fun _ _ _ => rfl⟩

theorem expect (kind : TokenKind) (fault : SyntaxFault) :
    Carries tail bound (Parser.expect kind fault) (Parser.expect kind fault) := by
  refine ⟨.expect kind fault, ?_⟩
  intro tokens _ inside
  cases tokens with
  | nil =>
    obtain rfl : tail = [] := inside.resolve_left (absurd rfl)
    rfl
  | cons token rest =>
    simp only [List.cons_append, Parser.expect]
    split <;> rfl

theorem bind {first other : Parser α} {second next : α → Parser β}
    (front : Carries tail bound first other) (back : ∀ a, Carries tail bound (second a) (next a)) :
    Carries tail bound (first >>= second) (other >>= next) := by
  refine ⟨front.advances.bind fun a => (back a).advances, ?_⟩
  intro tokens fits
  refine undisturbed_bind (front.same tokens fits) (fun a => (back a).advances) ?_
  intro a middle before done
  have shorter := front.advances.length_le done
  exact (back a).same middle (by omega)

theorem accept (kinds : List TokenKind) {next other : Option Token → Parser α}
    (stays : Carries tail bound (next none) (other none))
    (goesOn : ∀ token, Carries tail (bound - 1) (next (some token)) (other (some token))) :
    Carries tail bound (Parser.accept kinds >>= next) (Parser.accept kinds >>= other) := by
  have advances : (Parser.accept kinds >>= next).Advances := by
    refine .bind (.accept kinds) ?_
    rintro (_ | token)
    · exact stays.advances
    · exact (goesOn token).advances
  refine ⟨advances, ?_⟩
  intro tokens fits inside
  cases tokens with
  | nil =>
    obtain rfl : tail = [] := inside.resolve_left (absurd advances.rest_nil)
    exact stays.same [] fits (.inr rfl)
  | cons token rest =>
    rw [List.cons_append]
    by_cases member : token.kind ∈ kinds
    · rw [accept_bind_of_mem member] at inside ⊢
      rw [accept_bind_of_mem member]
      simp only [List.length_cons] at fits
      exact (goesOn token).same rest (by omega) inside
    · have stops : ∀ others, Stops kinds (token :: others) := fun others => by simpa [Stops]
      rw [accept_bind_of_stops (stops _)] at inside ⊢
      rw [accept_bind_of_stops (stops _)]
      exact stays.same (token :: rest) fits inside

end Carries

theorem closed_bind {first other : Parser α} {second next : α → Parser β} {tokens : List Token}
    (front : (first tokens).Closed tail (other (tokens ++ tail)))
    (back : ∀ a middle before, first tokens = ⟨.ok a, middle, before⟩ →
      (second a middle).Closed tail (next a (middle ++ tail))) :
    ((first >>= second) tokens).Closed tail ((other >>= next) (tokens ++ tail)) := by
  intro inside
  cases run : first tokens with
  | mk result middle before =>
    rw [run] at front
    cases result with
    | error fault =>
      rw [bind_of_error run] at inside ⊢
      exact bind_of_error (front (by simpa using inside))
    | ok a =>
      rw [bind_of_ok run] at inside ⊢
      rw [bind_of_ok (front (.inr (.inr ⟨a, rfl⟩))), back a middle before run inside]
      rfl

namespace Closes

theorem carries {parser other : Parser α} (closes : Closes tail bound parser other) :
    Carries tail bound parser other :=
  ⟨closes.advances, fun tokens fits => (closes.same tokens fits).undisturbed⟩

theorem mono {parser other : Parser α} (closes : Closes tail bound parser other) {fewer : Nat}
    (le : fewer ≤ bound) : Closes tail fewer parser other :=
  ⟨closes.advances, fun tokens fits => closes.same tokens (Nat.le_trans fits le)⟩

theorem pure (a : α) : Closes tail bound (Pure.pure a) (Pure.pure a) :=
  ⟨.pure a, fun _ _ _ => rfl⟩

theorem expect (kind : TokenKind) (fault : SyntaxFault) :
    Closes tail bound (Parser.expect kind fault) (Parser.expect kind fault) := by
  refine ⟨.expect kind fault, ?_⟩
  intro tokens _ inside
  cases tokens with
  | nil =>
    obtain rfl : tail = [] := by simpa [Parser.expect] using inside
    rfl
  | cons token rest =>
    simp only [List.cons_append, Parser.expect]
    split <;> rfl

theorem bind {first other : Parser α} {second next : α → Parser β}
    (front : Closes tail bound first other) (back : ∀ a, Closes tail bound (second a) (next a)) :
    Closes tail bound (first >>= second) (other >>= next) := by
  refine ⟨front.advances.bind fun a => (back a).advances, ?_⟩
  intro tokens fits
  refine closed_bind (front.same tokens fits) ?_
  intro a middle before done
  have shorter := front.advances.length_le done
  exact (back a).same middle (by omega)

theorem delimited {first other : Parser α} {kind : TokenKind} {fault : SyntaxFault}
    {second next : α → Token → Parser β} (front : Carries tail bound first other)
    (back : ∀ a token, Closes tail bound (second a token) (next a token)) :
    Closes tail bound (first >>= fun a => Parser.expect kind fault >>= second a)
      (other >>= fun a => Parser.expect kind fault >>= next a) := by
  have behind : ∀ a, Closes tail bound (Parser.expect kind fault >>= second a)
      (Parser.expect kind fault >>= next a) := fun a => (expect kind fault).bind (back a)
  refine ⟨front.advances.bind fun a => (behind a).advances, ?_⟩
  intro tokens fits inside
  have whole := front.same tokens fits
  cases run : first tokens with
  | mk result middle before =>
    rw [run] at whole
    cases result with
    | error fault =>
      rw [bind_of_error run] at inside ⊢
      exact bind_of_error (whole (by simpa using inside))
    | ok a =>
      rw [bind_of_ok run] at inside ⊢
      have shorter := front.advances.length_le run
      have reached : middle ≠ [] ∨ tail = [] := by
        cases middle with
        | nil =>
          have missing : (Parser.expect kind fault >>= second a) [] = ⟨.error fault, [], []⟩ :=
            bind_of_error rfl
          exact .inr (by simpa [missing] using inside)
        | cons token rest => exact .inl (List.cons_ne_nil _ _)
      rw [bind_of_ok (whole reached), (behind a).same middle (by omega) inside]
      rfl

theorem accept {kinds : List TokenKind} {next other : Option Token → Parser α}
    (apart : Stops kinds tail ∨ (next none).Consumes)
    (stays : Closes tail bound (next none) (other none))
    (goesOn : ∀ token, Closes tail (bound - 1) (next (some token)) (other (some token))) :
    Closes tail bound (Parser.accept kinds >>= next) (Parser.accept kinds >>= other) := by
  have carries := Carries.accept kinds stays.carries fun token => (goesOn token).carries
  refine ⟨carries.advances, ?_⟩
  intro tokens fits inside
  cases tokens with
  | nil =>
    have nothing := accept_bind_of_stops (show Stops kinds [] by simp [Stops]) next
    rw [nothing] at inside ⊢
    have stops : Stops kinds tail := by
      rcases apart with stops | consumes
      · exact stops
      · rcases inside with left | rfl | ⟨a, done⟩
        · exact absurd stays.advances.rest_nil left
        · simp [Stops]
        · exact absurd done (consumes.not_ok_nil a)
    rw [List.nil_append, accept_bind_of_stops stops]
    exact stays.same [] fits inside
  | cons token others =>
    rw [List.cons_append]
    by_cases member : token.kind ∈ kinds
    · rw [accept_bind_of_mem member] at inside ⊢
      rw [accept_bind_of_mem member]
      simp only [List.length_cons] at fits
      exact (goesOn token).same _ (by omega) inside
    · have stops : ∀ others, Stops kinds (token :: others) := fun others => by simpa [Stops]
      rw [accept_bind_of_stops (stops _)] at inside ⊢
      rw [accept_bind_of_stops (stops _)]
      exact stays.same (token :: others) fits inside

end Closes

end Parser

namespace Grammar

open Lox.Parser

variable {tail : List Token} {bound turns others : Nat}

def NeedsToken (parser : Parser Expr) : Prop :=
  parser [] = ⟨.error .noExpression, [], []⟩

/-- Two parsers of the same tier, each with bounds of its own. -/
structure Twins (tail : List Token) (bound : Nat) (parser other : Parser Expr) : Prop where
  carries : Carries tail bound parser other
  consumes : parser.Consumes
  needs : NeedsToken parser
  otherNeeds : NeedsToken other

theorem Twins.mono {parser other : Parser Expr} (twins : Twins tail bound parser other)
    {fewer : Nat} (le : fewer ≤ bound) : Twins tail fewer parser other :=
  { twins with carries := twins.carries.mono le }

theorem Twins.of_nil {parser other : Parser Expr} (consumes : parser.Consumes)
    (needs : NeedsToken parser) (otherNeeds : NeedsToken other) : Twins tail 0 parser other :=
  ⟨.of_nil consumes.advances (otherNeeds.trans needs.symm), consumes, needs, otherNeeds⟩

section

variable {operand primary equality conditional : Parser Expr}

theorem needsToken_leftAssoc (kinds : List TokenKind) (needs : NeedsToken operand) (turns : Nat) :
    NeedsToken (leftAssoc kinds turns operand) :=
  bind_of_error needs

theorem needsToken_unary (needs : NeedsToken primary) (turns : Nat) :
    NeedsToken (unary primary turns) := by
  cases turns with
  | zero => exact needs
  | succ turns => exact (accept_bind_of_stops (by simp [Stops]) _).trans needs

theorem needsToken_conditional (needs : NeedsToken equality) (turns : Nat) :
    NeedsToken (Grammar.conditional equality turns) := by
  cases turns with
  | zero => exact needs
  | succ turns => exact bind_of_error needs

theorem needsToken_assignment (needs : NeedsToken conditional) (turns : Nat) :
    NeedsToken (assignment conditional turns) := by
  cases turns with
  | zero => exact needs
  | succ turns => exact bind_of_error needs

theorem needsToken_primary (inner : Parser Expr) : NeedsToken (Grammar.primary inner) := rfl

theorem needsToken_expression (bound : Nat) : NeedsToken (expression bound) := by
  cases bound with
  | zero => rfl
  | succ bound =>
    have units := needsToken_unary (needsToken_primary (expression bound)) (bound + 1)
    have factors := needsToken_leftAssoc [.slash, .star] units (bound + 1)
    have terms := needsToken_leftAssoc [.minus, .plus] factors (bound + 1)
    have comparisons :=
      needsToken_leftAssoc [.greater, .greaterEqual, .less, .lessEqual] terms (bound + 1)
    have equalities := needsToken_leftAssoc [.bangEqual, .equalEqual] comparisons (bound + 1)
    exact needsToken_assignment (needsToken_conditional equalities (bound + 1)) (bound + 1)

end

section

variable {operand operand' primary primary' equality equality' : Parser Expr}
variable {conditional conditional' inner inner' : Parser Expr}

theorem operands_nil (kinds : List TokenKind) (operand : Parser Expr) (turns : Nat) (left : Expr) :
    operands kinds operand turns left [] = ⟨.ok left, [], []⟩ := by
  cases turns <;> rfl

theorem carries_operands (kinds : List TokenKind) (tight : Carries tail bound operand operand')
    (enough : bound ≤ turns) (enough' : bound ≤ others) (left : Expr) :
    Carries tail bound (operands kinds operand turns left)
      (operands kinds operand' others left) := by
  induction bound generalizing turns others left with
  | zero =>
    refine .of_nil (advances_operands kinds tight.advances turns left) ?_
    rw [operands_nil, operands_nil]
  | succ bound ih =>
    obtain ⟨turns, rfl⟩ := Nat.exists_eq_add_one_of_ne_zero (show turns ≠ 0 by omega)
    obtain ⟨others, rfl⟩ := Nat.exists_eq_add_one_of_ne_zero (show others ≠ 0 by omega)
    have fewer : Carries tail bound operand operand' := tight.mono (Nat.le_succ _)
    refine .accept kinds (.pure left) fun operator => fewer.bind fun right => ?_
    exact ih fewer (by omega) (by omega) _

theorem twins_leftAssoc (kinds : List TokenKind) (tight : Twins tail bound operand operand')
    (enough : bound ≤ turns) (enough' : bound ≤ others) :
    Twins tail bound (leftAssoc kinds turns operand) (leftAssoc kinds others operand') where
  carries := tight.carries.bind fun first =>
    carries_operands kinds tight.carries enough enough' first
  consumes := consumes_leftAssoc kinds tight.consumes turns
  needs := needsToken_leftAssoc kinds tight.needs turns
  otherNeeds := needsToken_leftAssoc kinds tight.otherNeeds others

theorem twins_unary (tight : Twins tail bound primary primary') (enough : bound ≤ turns)
    (enough' : bound ≤ others) : Twins tail bound (unary primary turns) (unary primary' others) := by
  have consumes := consumes_unary tight.consumes
  have needs := needsToken_unary tight.needs
  have needs' := needsToken_unary tight.otherNeeds
  induction bound generalizing turns others with
  | zero => exact .of_nil (consumes turns) (needs turns) (needs' others)
  | succ bound ih =>
    obtain ⟨turns, rfl⟩ := Nat.exists_eq_add_one_of_ne_zero (show turns ≠ 0 by omega)
    obtain ⟨others, rfl⟩ := Nat.exists_eq_add_one_of_ne_zero (show others ≠ 0 by omega)
    have fewer : Twins tail bound (unary primary turns) (unary primary' others) :=
      ih (tight.mono (Nat.le_succ _)) (by omega) (by omega)
    refine ⟨?_, consumes _, needs _, needs' _⟩
    exact .accept _ tight.carries fun operator => fewer.carries.bind fun operand => .pure _

theorem twins_conditional (tight : Twins tail bound equality equality') (enough : bound ≤ turns)
    (enough' : bound ≤ others) :
    Twins tail bound (Grammar.conditional equality turns)
      (Grammar.conditional equality' others) := by
  have consumes := consumes_conditional tight.consumes
  have needs := needsToken_conditional tight.needs
  have needs' := needsToken_conditional tight.otherNeeds
  induction bound generalizing turns others with
  | zero => exact .of_nil (consumes turns) (needs turns) (needs' others)
  | succ bound ih =>
    obtain ⟨turns, rfl⟩ := Nat.exists_eq_add_one_of_ne_zero (show turns ≠ 0 by omega)
    obtain ⟨others, rfl⟩ := Nat.exists_eq_add_one_of_ne_zero (show others ≠ 0 by omega)
    have branch := tight.mono (Nat.le_succ bound)
    have fewer : Twins tail bound (Grammar.conditional equality turns)
        (Grammar.conditional equality' others) := ih branch (by omega) (by omega)
    refine ⟨tight.carries.bind fun condition => ?_, consumes _, needs _, needs' _⟩
    refine .accept _ (.pure condition) fun question => branch.carries.bind fun yes => ?_
    exact (Carries.expect _ _).bind fun _ => fewer.carries.bind fun no => .pure _

theorem twins_assignment (tight : Twins tail bound conditional conditional')
    (enough : bound ≤ turns) (enough' : bound ≤ others) :
    Twins tail bound (assignment conditional turns) (assignment conditional' others) := by
  have consumes := consumes_assignment tight.consumes
  have needs := needsToken_assignment tight.needs
  have needs' := needsToken_assignment tight.otherNeeds
  induction bound generalizing turns others with
  | zero => exact .of_nil (consumes turns) (needs turns) (needs' others)
  | succ bound ih =>
    obtain ⟨turns, rfl⟩ := Nat.exists_eq_add_one_of_ne_zero (show turns ≠ 0 by omega)
    obtain ⟨others, rfl⟩ := Nat.exists_eq_add_one_of_ne_zero (show others ≠ 0 by omega)
    have fewer : Twins tail bound (assignment conditional turns)
        (assignment conditional' others) :=
      ih (tight.mono (Nat.le_succ _)) (by omega) (by omega)
    refine ⟨tight.carries.bind fun target => ?_, consumes _, needs _, needs' _⟩
    refine .accept _ (.pure target) fun equals => fewer.carries.bind fun value => ?_
    cases target with
    | var name => exact .pure _
    | _ => exact (Carries.complain _ _).bind fun _ => .pure _

theorem carries_group (inside : Carries tail bound inner inner') :
    Carries tail bound (group inner) (group inner') :=
  inside.bind fun _ => (Carries.expect _ _).bind fun _ => .pure _

theorem twins_primary (inside : Twins tail bound inner inner') :
    Twins tail (bound + 1) (Grammar.primary inner) (Grammar.primary inner') := by
  have consumes := consumes_primary inside.consumes
  refine ⟨⟨consumes.advances, ?_⟩, consumes, needsToken_primary _, needsToken_primary _⟩
  intro tokens fits reached
  cases tokens with
  | nil =>
    obtain rfl : tail = [] := reached.resolve_left (absurd consumes.advances.rest_nil)
    rfl
  | cons token rest =>
    rw [List.cons_append]
    simp only [Grammar.primary] at reached ⊢
    split at reached
    · rename_i paren
      rw [if_pos paren, if_pos paren]
      exact (carries_group inside.carries).same rest (by simpa using fits) reached
    · rename_i other
      rw [if_neg other, if_neg other]
      cases atom? token <;> rfl

theorem twins_tiers (inside : Twins tail bound inner inner') (enough : bound < turns)
    (enough' : bound < others) :
    Twins tail (bound + 1) (tiers turns inner) (tiers others inner') := by
  have units := twins_unary (twins_primary inside) enough enough'
  have factors := twins_leftAssoc [.slash, .star] units enough enough'
  have terms := twins_leftAssoc [.minus, .plus] factors enough enough'
  have comparisons :=
    twins_leftAssoc [.greater, .greaterEqual, .less, .lessEqual] terms enough enough'
  have equalities := twins_leftAssoc [.bangEqual, .equalEqual] comparisons enough enough'
  exact twins_assignment (twins_conditional equalities enough enough') enough enough'

theorem twins_expression (enough : bound ≤ turns) (enough' : bound ≤ others) :
    Twins tail bound (expression turns) (expression others) := by
  induction bound generalizing turns others with
  | zero =>
    exact .of_nil (consumes_expression turns) (needsToken_expression turns)
      (needsToken_expression others)
  | succ bound ih =>
    obtain ⟨turns, rfl⟩ := Nat.exists_eq_add_one_of_ne_zero (show turns ≠ 0 by omega)
    obtain ⟨others, rfl⟩ := Nat.exists_eq_add_one_of_ne_zero (show others ≠ 0 by omega)
    exact twins_tiers (ih (by omega) (by omega)) enough enough'

end

section

variable {expression expression' : Parser Expr} {branch branch' : Parser Stmt}

theorem closes_expressionStatement (fits : Carries tail bound expression expression') :
    Closes tail bound (expressionStatement expression) (expressionStatement expression') :=
  .delimited fits fun _ _ => .pure _

theorem closes_printStatement (fits : Carries tail bound expression expression') :
    Closes tail bound (printStatement expression) (printStatement expression') :=
  .delimited fits fun _ _ => .pure _

theorem closes_varDeclaration (fits : Carries tail bound expression expression') :
    Closes tail bound (varDeclaration expression) (varDeclaration expression') := by
  refine (Closes.expect _ _).bind fun name => .accept (.inr ?_) ?_ fun equals => ?_
  · exact .bind (.expect _ _) fun _ => .pure _
  · exact (Closes.expect _ _).bind fun _ => .pure _
  · exact .delimited (fits.mono (Nat.sub_le _ _)) fun _ _ => .pure _

theorem closes_ifStatement (apart : Stops [.elseWord] tail)
    (fits : Carries tail bound expression expression') (branches : Closes tail bound branch branch') :
    Closes tail bound (ifStatement expression branch) (ifStatement expression' branch') := by
  refine (Closes.expect _ _).bind fun _ => .delimited fits fun condition _ => ?_
  refine branches.bind fun yes => .accept (.inl apart) (.pure _) fun word => ?_
  exact (branches.mono (Nat.sub_le _ _)).bind fun no => .pure _

theorem closes_whileStatement (fits : Carries tail bound expression expression')
    (branches : Closes tail bound branch branch') :
    Closes tail bound (whileStatement expression branch) (whileStatement expression' branch') :=
  (Closes.expect _ _).bind fun _ => .delimited fits fun _ _ => branches.bind fun _ => .pure _

theorem resume_cons_cons (token next : Token) (rest : List Token) :
    resume (token :: next :: rest) =
      if token.kind = .semicolon ∨ startsStatement next.kind then next :: rest
      else resume (next :: rest) := rfl

theorem resume_append {tokens : List Token} (tail : List Token)
    (stops : resume tokens ≠ [] ∨
      tokens ≠ [] ∧ ∀ token ∈ tokens.getLast?, token.kind = .semicolon) :
    resume (tokens ++ tail) = resume tokens ++ tail := by
  induction tokens with
  | nil => simp [resume] at stops
  | cons token rest ih =>
    cases rest with
    | nil =>
      have isLast : token.kind = .semicolon := by simpa [resume] using stops
      simp [resume, isLast]
    | cons next rest =>
      rw [List.cons_append, List.cons_append, resume_cons_cons, resume_cons_cons]
      by_cases here : token.kind = .semicolon ∨ startsStatement next.kind
      · rw [if_pos here, if_pos here]
        rfl
      · rw [resume_cons_cons, if_neg here] at stops
        rw [if_neg here, if_neg here]
        exact ih (by simpa using stops)

theorem carries_recover {parser other : Parser Stmt} (carries : Carries tail bound parser other) :
    Carries tail bound (recover parser) (recover other) := by
  refine ⟨advances_recover carries.advances, ?_⟩
  rintro tokens fits (skipped | rfl)
  · have same := carries.same tokens fits
    cases run : parser tokens with
    | mk result rest complaints =>
      rw [run] at same
      cases result with
      | ok a =>
        rw [recover_of_ok run] at skipped ⊢
        exact recover_of_ok (same (.inl skipped))
      | error fault =>
        rw [recover_of_error run] at skipped ⊢
        obtain ⟨token, others, rfl⟩ : ∃ token others, rest = token :: others := by
          cases rest with
          | nil => exact absurd rfl skipped
          | cons token others => exact ⟨token, others, rfl⟩
        rw [recover_of_error (same (.inl (List.cons_ne_nil _ _))),
          resume_append tail (.inl skipped)]
        rfl
  · have same : other (tokens ++ []) = parser tokens :=
      (carries.same tokens fits (.inr rfl)).trans (Reply.before_nil _)
    simp only [recover, same, Reply.before_nil]

theorem closes_declared (fits : Carries tail bound expression expression')
    (branches : Closes tail bound branch branch') (consumes : branch.Consumes) :
    Closes tail bound
      (accept [.varWord] >>= fun
        | some _ => varDeclaration expression
        | none => branch)
      (accept [.varWord] >>= fun
        | some _ => varDeclaration expression'
        | none => branch') :=
  .accept (.inr consumes) branches fun _ => closes_varDeclaration (fits.mono (Nat.sub_le _ _))

theorem carries_declaration (fits : Carries tail bound expression expression')
    (branches : Closes tail bound branch branch') (consumes : branch.Consumes) :
    Carries tail bound (declaration expression branch) (declaration expression' branch') :=
  carries_recover (closes_declared fits branches consumes).carries

theorem carries_declarations (closing : List TokenKind)
    {declaration declaration' : Parser (Option Stmt)}
    (fits : Carries tail bound declaration declaration')
    (progress : ∀ tokens, tokens ≠ [] → (declaration tokens).rest.length < tokens.length)
    (enough : bound ≤ turns) (enough' : bound ≤ others) :
    Carries tail bound (declarations closing declaration turns)
      (declarations closing declaration' others) := by
  have advances := advances_declarations closing fits.advances
  induction bound generalizing turns others with
  | zero =>
    refine .of_nil (advances turns) ?_
    cases turns <;> cases others <;> rfl
  | succ bound ih =>
    obtain ⟨turns, rfl⟩ := Nat.exists_eq_add_one_of_ne_zero (show turns ≠ 0 by omega)
    obtain ⟨others, rfl⟩ := Nat.exists_eq_add_one_of_ne_zero (show others ≠ 0 by omega)
    have fewer : Carries tail bound (declarations closing declaration turns)
        (declarations closing declaration' others) :=
      ih (fits.mono (Nat.le_succ _)) (by omega) (by omega)
    refine ⟨advances _, ?_⟩
    intro tokens short
    cases tokens with
    | nil =>
      intro inside
      obtain rfl : tail = [] := inside.resolve_left (absurd (advances _).rest_nil)
      rfl
    | cons token rest =>
      have whole := fits.same (token :: rest) short
      rw [List.cons_append] at whole ⊢
      rw [declarations_cons, declarations_cons]
      split
      · exact fun _ => rfl
      · have later : ∀ first, Carries tail bound
            (declarations closing declaration turns >>= fun others =>
              pure (Option.toList first ++ others))
            (declarations closing declaration' others >>= fun others =>
              pure (Option.toList first ++ others)) := fun first => fewer.bind fun _ => .pure _
        refine undisturbed_bind whole (fun first => (later first).advances) ?_
        intro first middle before done
        have shorter := progress (token :: rest) (List.cons_ne_nil _ _)
        rw [done] at shorter
        simp only [List.length_cons] at shorter short
        exact (later first).same middle (by omega)

theorem closes_block {declaration declaration' : Parser (Option Stmt)}
    (fits : Carries tail bound declaration declaration')
    (progress : ∀ tokens, tokens ≠ [] → (declaration tokens).rest.length < tokens.length)
    (enough : bound ≤ turns) (enough' : bound ≤ others) :
    Closes tail bound (block declaration turns) (block declaration' others) :=
  .delimited (carries_declarations _ fits progress enough enough') fun _ _ => .pure _

end

theorem statement_nil (turns : Nat) : statement turns [] = ⟨.error .noExpression, [], []⟩ := by
  cases turns <;> rfl

theorem closed_statement_nil (turns others : Nat) :
    (statement turns []).Closed tail (statement others tail) := by
  intro inside
  obtain rfl : tail = [] := by simpa [statement_nil] using inside
  rw [statement_nil, statement_nil]
  rfl

theorem closes_statement (apart : Stops [.elseWord] tail) (enough : bound ≤ turns)
    (enough' : bound ≤ others) : Closes tail bound (statement turns) (statement others) := by
  have advances := fun bound => (consumes_statement bound).advances
  induction bound generalizing turns others with
  | zero =>
    refine ⟨advances turns, ?_⟩
    intro tokens fits
    obtain rfl : tokens = [] := List.length_eq_zero_iff.mp (Nat.le_zero.mp fits)
    exact closed_statement_nil turns others
  | succ bound ih =>
    obtain ⟨turns, rfl⟩ := Nat.exists_eq_add_one_of_ne_zero (show turns ≠ 0 by omega)
    obtain ⟨others, rfl⟩ := Nat.exists_eq_add_one_of_ne_zero (show others ≠ 0 by omega)
    have fits : Carries tail bound (expression turns) (expression others) :=
      (twins_expression (by omega) (by omega)).carries
    have branches : Closes tail bound (statement turns) (statement others) :=
      ih (by omega) (by omega)
    refine ⟨advances _, ?_⟩
    intro tokens short
    cases tokens with
    | nil => exact closed_statement_nil _ _
    | cons token rest =>
      have shorter : rest.length ≤ bound := Nat.le_of_succ_le_succ short
      simp only [List.cons_append, statement]
      split
      · exact (closes_ifStatement apart fits branches).same rest shorter
      · exact (closes_whileStatement fits branches).same rest shorter
      · exact (closes_printStatement fits).same rest shorter
      · have declared := carries_declaration fits branches (consumes_statement turns)
        have progress := progress_declaration (consumes_expression turns) (consumes_statement turns)
        have blocks := closes_block declared progress (show bound ≤ turns by omega)
          (show bound ≤ others by omega)
        exact blocks.same rest shorter
      · exact (closes_expressionStatement (twins_expression enough enough').carries).same
          (token :: rest) short

theorem program_of_turns {tokens : List Token} (enough : tokens.length ≤ bound)
    (enough' : tokens.length ≤ turns) :
    declarations [] (declaration (expression bound) (statement bound)) turns tokens =
      program tokens.length tokens := by
  have apart : Stops [.elseWord] [] := by simp [Stops]
  have fits : Carries [] tokens.length (expression tokens.length) (expression bound) :=
    (twins_expression (Nat.le_refl _) enough).carries
  have consumes := consumes_statement tokens.length
  have declared := carries_declaration fits (closes_statement apart (Nat.le_refl _) enough) consumes
  have progress := progress_declaration (consumes_expression tokens.length) consumes
  have carries := carries_declarations [] declared progress (Nat.le_refl _) enough'
  have same := carries.same tokens (Nat.le_refl _) (.inr rfl)
  rwa [List.append_nil, Reply.before_nil] at same

end Grammar

end Lox

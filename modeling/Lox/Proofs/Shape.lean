import Lox.Proofs.Reading
import Lox.Proofs.Spelling

/-!
The shape of trees: which expression may stand in which tier of the grammar, and which statement
where. Whatever the parser returns has this shape, also after errors.
-/

namespace Lox

inductive Tier
  | assignment | conditional | equality | comparison | term | factor | unary | primary
  deriving DecidableEq

namespace Tier

def tighter : Tier → Tier
  | assignment => conditional
  | conditional => equality
  | equality => comparison
  | comparison => term
  | term => factor
  | factor => unary
  | unary => primary
  | primary => primary

def operators : Tier → List TokenKind
  | equality => [.bangEqual, .equalEqual]
  | comparison => [.greater, .greaterEqual, .less, .lessEqual]
  | term => [.minus, .plus]
  | factor => [.slash, .star]
  | unary => [.bang, .minus]
  | _ => []

def isLeftAssoc : Tier → Bool
  | equality | comparison | term | factor => true
  | _ => false

theorem isOperator_of_mem {tier : Tier} {kind : TokenKind} (member : kind ∈ tier.operators) :
    kind.isOperator := by
  have every : ∀ kind ∈ tier.operators, kind.isOperator := by
    cases tier <;> decide
  exact every kind member

end Tier

inductive Fits : Tier → Expr → Prop
  | literal (value) : Fits .primary (.literal value)
  | grouping {inner} : Fits .assignment inner → Fits .primary (.grouping inner)
  | var {name} : name.kind = .identifier → Fits .primary (.var name)
  | unary {operator operand} : operator.kind ∈ Tier.unary.operators → Fits .unary operand →
      Fits .unary (.unary operator operand)
  | binary {tier left operator right} : tier.isLeftAssoc → operator.kind ∈ tier.operators →
      Fits tier left → Fits tier.tighter right → Fits tier (.binary left operator right)
  | conditional {condition yes no} : Fits .equality condition → Fits .equality yes →
      Fits .conditional no → Fits .conditional (.conditional condition yes no)
  | assign {name value} : name.kind = .identifier → Fits .assignment value →
      Fits .assignment (.assign name value)
  | looser {tier e} : Fits tier.tighter e → Fits tier e

/-- Where a statement stands: among others in a list, or as a branch or a loop's body. -/
inductive Place
  | listed
  | branch
  deriving DecidableEq

/-- The statement ends in a conditional that could still take an alternative. -/
def Stmt.endsOpen : Stmt → Bool
  | ifThen _ _ => true
  | ifElse _ _ no => no.endsOpen
  | whileLoop _ body => body.endsOpen
  | _ => false

inductive Shaped : Place → Stmt → Prop
  | expression {place e} : Fits .assignment e → Shaped place (.expression e)
  | print {place e} : Fits .assignment e → Shaped place (.print e)
  | varDecl {name initial} : name.kind = .identifier → (∀ e ∈ initial, Fits .assignment e) →
      Shaped .listed (.varDecl name initial)
  | block {place body} : (∀ statement ∈ body, Shaped .listed statement) →
      Shaped place (.block body)
  | ifThen {place condition yes} : Fits .assignment condition → Shaped .branch yes →
      Shaped place (.ifThen condition yes)
  | ifElse {place condition yes no} : Fits .assignment condition → Shaped .branch yes →
      yes.endsOpen = false → Shaped .branch no → Shaped place (.ifElse condition yes no)
  | whileLoop {place condition body} : Fits .assignment condition → Shaped .branch body →
      Shaped place (.whileLoop condition body)

theorem Shaped.listed {place : Place} {statement : Stmt} (shaped : Shaped place statement) :
    Shaped .listed statement := by
  cases shaped with
  | expression fits => exact .expression fits
  | print fits => exact .print fits
  | varDecl name initial => exact .varDecl name initial
  | block body => exact .block body
  | ifThen condition yes => exact .ifThen condition yes
  | ifElse condition yes closed no => exact .ifElse condition yes closed no
  | whileLoop condition body => exact .whileLoop condition body

theorem Shaped.cases_listed {s : Stmt} (shaped : Shaped .listed s) :
    (∃ name initial, s = .varDecl name initial ∧ name.kind = .identifier ∧
      ∀ e ∈ initial, Fits .assignment e) ∨ Shaped .branch s := by
  cases shaped with
  | varDecl name initial => exact Or.inl ⟨_, _, rfl, name, initial⟩
  | expression fits => exact Or.inr (.expression fits)
  | print fits => exact Or.inr (.print fits)
  | block body => exact Or.inr (.block body)
  | ifThen condition yes => exact Or.inr (.ifThen condition yes)
  | ifElse condition yes closed no => exact Or.inr (.ifElse condition yes closed no)
  | whileLoop condition body => exact Or.inr (.whileLoop condition body)

namespace Grammar

open Lox.Parser

/-- Whatever the parser returns is of this kind, with regard to what it leaves. -/
def Ensures {α : Type} (parser : Parser α) (good : α → List Token → Prop) : Prop :=
  ∀ tokens a rest complaints, parser tokens = ⟨.ok a, rest, complaints⟩ → good a rest

theorem Ensures.bind {α β : Type} {first : Parser α} {second : α → Parser β}
    {good : α → List Token → Prop} {better : β → List Token → Prop} (front : Ensures first good)
    (back : ∀ a rest, good a rest → Ensures (second a) better) :
    Ensures (first >>= second) better := by
  intro tokens b rest complaints done
  obtain ⟨a, middle, before, after, firstDone, secondDone, -⟩ := bind_eq_ok done
  exact back a middle (front _ _ _ _ firstDone) _ _ _ _ secondDone

theorem Ensures.after {α β : Type} (first : Parser α) {second : α → Parser β}
    {good : β → List Token → Prop} (back : ∀ a, Ensures (second a) good) :
    Ensures (first >>= second) good :=
  .bind (fun _ _ _ _ _ => trivial : Ensures first fun _ _ => True) fun a _ _ => back a

theorem Ensures.pure {α : Type} {good : α → List Token → Prop} {a : α}
    (holds : ∀ rest, good a rest) : Ensures (Pure.pure a) good := by
  intro tokens b rest complaints done
  obtain ⟨rfl, rfl, -⟩ := pure_eq_ok done
  exact holds rest

theorem Ensures.fail {α : Type} {good : α → List Token → Prop} (fault : SyntaxFault) :
    Ensures (Parser.fail fault) good := by
  intro tokens a rest complaints done
  simp [Parser.fail] at done

theorem Ensures.accept (kinds : List TokenKind) :
    Ensures (Parser.accept kinds) fun taken rest =>
      (taken = none → Stops kinds rest) ∧ ∀ token ∈ taken, token.kind ∈ kinds := by
  intro tokens taken rest complaints done
  obtain ⟨-, ⟨rfl, rfl, stops⟩ | ⟨token, rfl, member, -⟩⟩ := accept_eq_ok done
  · exact ⟨fun _ => stops, by simp⟩
  · exact ⟨by simp, by simpa using member⟩

theorem Ensures.expect (kind : TokenKind) (fault : SyntaxFault) :
    Ensures (Parser.expect kind fault) fun token _ => token.kind = kind := by
  intro tokens token rest complaints done
  exact (expect_eq_ok done).1

theorem Ensures.complain (token : Token) (fault : SyntaxFault) :
    Ensures (Parser.complain token fault) fun _ _ => True :=
  fun _ _ _ _ _ => trivial

abbrev Yields (parser : Parser Expr) (tier : Tier) : Prop :=
  Ensures parser fun e _ => Fits tier e

theorem Yields.looser {parser : Parser Expr} {tier : Tier} (fits : Yields parser tier.tighter) :
    Yields parser tier :=
  fun tokens e rest complaints done => .looser (fits tokens e rest complaints done)

theorem fits_operands (tier : Tier) {operand : Parser Expr} (leftAssoc : tier.isLeftAssoc)
    (tight : Yields operand tier.tighter) (bound : Nat) (left : Expr) (fits : Fits tier left) :
    Yields (operands tier.operators operand bound left) tier := by
  induction bound generalizing left with
  | zero => exact .pure fun _ => fits
  | succ bound ih =>
    refine .bind (.accept _) ?_
    rintro (_ | operator) rest ⟨-, member⟩
    · exact .pure fun _ => fits
    · refine .bind tight ?_
      intro right _ rightFits
      exact ih _ (.binary leftAssoc (member operator rfl) fits rightFits)

theorem fits_leftAssoc (tier : Tier) {operand : Parser Expr} (leftAssoc : tier.isLeftAssoc)
    (tight : Yields operand tier.tighter) (bound : Nat) :
    Yields (Grammar.leftAssoc tier.operators bound operand) tier :=
  .bind tight fun first _ fits => fits_operands tier leftAssoc tight bound first (.looser fits)

theorem fits_unary {primary : Parser Expr} (tight : Yields primary .primary) (bound : Nat) :
    Yields (unary primary bound) .unary := by
  induction bound with
  | zero => exact tight.looser
  | succ bound ih =>
    refine .bind (.accept _) ?_
    rintro (_ | operator) rest ⟨-, member⟩
    · exact tight.looser
    · refine .bind ih ?_
      intro operand _ fits
      exact .pure fun _ => .unary (member operator rfl) fits

theorem fits_conditional {equality : Parser Expr} (tight : Yields equality .equality)
    (bound : Nat) : Yields (conditional equality bound) .conditional := by
  induction bound with
  | zero => exact tight.looser
  | succ bound ih =>
    refine .bind tight ?_
    intro condition _ conditionFits
    refine .bind (.accept _) ?_
    rintro (_ | question) _ -
    · exact .pure fun _ => .looser conditionFits
    · refine .bind tight ?_
      intro yes _ yesFits
      refine .bind (.expect _ _) ?_
      intro _ _ _
      refine .bind ih ?_
      intro no _ noFits
      exact .pure fun _ => .conditional conditionFits yesFits noFits

theorem name_of_fits_var {tier : Tier} {name : Token} (fits : Fits tier (.var name)) :
    name.kind = .identifier := by
  generalize same : Expr.var name = e at fits
  induction fits with
  | var kind =>
    cases same
    exact kind
  | looser _ ih => exact ih same
  | _ => cases same

theorem fits_assignment {conditional : Parser Expr} (tight : Yields conditional .conditional)
    (bound : Nat) : Yields (assignment conditional bound) .assignment := by
  induction bound with
  | zero => exact tight.looser
  | succ bound ih =>
    refine .bind tight ?_
    intro target _ targetFits
    refine .bind (.accept _) ?_
    rintro (_ | equals) _ -
    · exact .pure fun _ => .looser targetFits
    · refine .bind ih ?_
      intro value _ valueFits
      cases target with
      | var name => exact .pure fun _ => .assign (name_of_fits_var targetFits) valueFits
      | _ =>
        refine .bind (.complain _ _) ?_
        exact fun _ _ _ => .pure fun _ => .looser targetFits

theorem fits_group {inner : Parser Expr} (fits : Yields inner .assignment) :
    Yields (group inner) .primary := by
  refine .bind fits ?_
  intro e _ eFits
  exact .bind (.expect _ _) fun _ _ _ => .pure fun _ => .grouping eFits

theorem fits_atom {token : Token} {e : Expr} (found : atom? token = some e) :
    Fits .primary e := by
  unfold atom? at found
  split at found <;> simp only [Option.some.injEq, reduceCtorEq] at found <;> subst found
  · exact .literal _
  · exact .literal _
  · exact .literal _
  · exact .literal _
  · exact .literal _
  · exact .var (by assumption)

theorem fits_primary {inner : Parser Expr} (fits : Yields inner .assignment) :
    Yields (primary inner) .primary := by
  intro tokens e rest complaints done
  cases tokens with
  | nil => simp [primary, Parser.fail] at done
  | cons token others =>
    rw [primary] at done
    split at done
    · exact fits_group fits _ _ _ _ done
    · split at done
      · rename_i found
        simp only [Reply.mk.injEq, Except.ok.injEq] at done
        obtain ⟨rfl, -⟩ := done
        exact fits_atom found
      · simp [Parser.fail] at done

theorem fits_tiers {inner : Parser Expr} (fits : Yields inner .assignment) (bound : Nat) :
    Yields (tiers bound inner) .assignment := by
  have units : Yields (unary (primary inner) bound) .unary := fits_unary (fits_primary fits) bound
  have factors := fits_leftAssoc .factor rfl units bound
  have terms := fits_leftAssoc .term rfl factors bound
  have comparisons := fits_leftAssoc .comparison rfl terms bound
  have equalities := fits_leftAssoc .equality rfl comparisons bound
  exact fits_assignment (fits_conditional equalities bound) bound

theorem fits_expression (bound : Nat) : Yields (expression bound) .assignment := by
  induction bound with
  | zero => exact .fail _
  | succ bound ih => exact fits_tiers ih (bound + 1)

def Closed (statement : Stmt) (rest : List Token) : Prop :=
  statement.endsOpen → Stops [.elseWord] rest

abbrev Produces (parser : Parser Stmt) (place : Place) : Prop :=
  Ensures parser fun statement rest => Shaped place statement ∧ Closed statement rest

theorem closed_of_not_endsOpen {statement : Stmt} (closed : statement.endsOpen = false)
    (rest : List Token) : Closed statement rest := by
  intro ends
  simp [closed] at ends

section

variable {expression : Parser Expr} {branch : Parser Stmt}

theorem shaped_expressionStatement (fits : Yields expression .assignment) :
    Produces (expressionStatement expression) .branch := by
  refine .bind fits ?_
  intro e _ eFits
  refine .bind (.expect _ _) ?_
  exact fun _ _ _ => .pure fun rest => ⟨.expression eFits, closed_of_not_endsOpen rfl rest⟩

theorem shaped_printStatement (fits : Yields expression .assignment) :
    Produces (printStatement expression) .branch := by
  refine .bind fits ?_
  intro e _ eFits
  refine .bind (.expect _ _) ?_
  exact fun _ _ _ => .pure fun rest => ⟨.print eFits, closed_of_not_endsOpen rfl rest⟩

theorem shaped_varDeclaration (fits : Yields expression .assignment) :
    Produces (varDeclaration expression) .listed := by
  refine .bind (.expect _ _) ?_
  intro name _ nameKind
  refine .bind (.accept _) ?_
  rintro (_ | equals) _ -
  · refine .bind (.expect _ _) ?_
    exact fun _ _ _ => .pure fun rest =>
      ⟨.varDecl nameKind (by simp), closed_of_not_endsOpen rfl rest⟩
  · refine .bind fits ?_
    intro initial _ initialFits
    refine .bind (.expect _ _) ?_
    exact fun _ _ _ => .pure fun rest =>
      ⟨.varDecl nameKind (by simpa using initialFits), closed_of_not_endsOpen rfl rest⟩

theorem shaped_ifStatement (fits : Yields expression .assignment)
    (branches : Produces branch .branch) :
    Produces (ifStatement expression branch) .branch := by
  -- The alternative goes to the branch just read only if that branch can take none itself.
  refine .bind (.expect _ _) ?_
  intro _ _ _
  refine .bind fits ?_
  intro condition _ conditionFits
  refine .bind (.expect _ _) ?_
  intro _ _ _ tokens statement rest complaints done
  obtain ⟨yes, _, _, _, yesDone, afterYes, -⟩ := bind_eq_ok done
  obtain ⟨yesShaped, yesClosed⟩ := branches _ _ _ _ yesDone
  obtain ⟨taken, _, _, _, takenDone, afterTaken, -⟩ := bind_eq_ok afterYes
  obtain ⟨-, ⟨rfl, rfl, stops⟩ | ⟨word, rfl, isElse, rfl⟩⟩ := accept_eq_ok takenDone
  · obtain ⟨rfl, rfl, -⟩ := pure_eq_ok afterTaken
    exact ⟨.ifThen conditionFits yesShaped, fun _ => stops⟩
  · obtain ⟨no, _, _, _, noDone, afterNo, -⟩ := bind_eq_ok afterTaken
    obtain ⟨noShaped, noClosed⟩ := branches _ _ _ _ noDone
    obtain ⟨rfl, rfl, -⟩ := pure_eq_ok afterNo
    have yesEnds : yes.endsOpen = false := by
      cases ends : yes.endsOpen with
      | false => rfl
      | true => exact absurd isElse (yesClosed ends word rfl)
    exact ⟨.ifElse conditionFits yesShaped yesEnds noShaped, noClosed⟩

theorem shaped_whileStatement (fits : Yields expression .assignment)
    (branches : Produces branch .branch) :
    Produces (whileStatement expression branch) .branch := by
  refine .bind (.expect _ _) ?_
  intro _ _ _
  refine .bind fits ?_
  intro condition _ conditionFits
  refine .bind (.expect _ _) ?_
  intro _ _ _ tokens statement rest complaints done
  obtain ⟨body, _, _, _, bodyDone, afterBody, -⟩ := bind_eq_ok done
  obtain ⟨bodyShaped, bodyClosed⟩ := branches _ _ _ _ bodyDone
  obtain ⟨rfl, rfl, -⟩ := pure_eq_ok afterBody
  exact ⟨.whileLoop conditionFits bodyShaped, bodyClosed⟩

theorem shaped_recover {parser : Parser Stmt}
    (shaped : Ensures parser fun s _ => Shaped .listed s) :
    Ensures (recover parser) fun read _ => ∀ statement ∈ read, Shaped .listed statement := by
  -- What reading resumes with after a fault is no statement, so it spoils none.
  intro tokens read rest complaints done
  obtain ⟨s, rfl, run⟩ | ⟨_, _, _, rfl, -⟩ := recover_eq_ok done
  · simpa using shaped _ _ _ _ run
  · simp

theorem shaped_declaration (fits : Yields expression .assignment)
    (branches : Produces branch .branch) :
    Ensures (declaration expression branch) fun read _ =>
      ∀ statement ∈ read, Shaped .listed statement := by
  refine shaped_recover (.bind (.accept _) ?_)
  rintro (_ | word) _ - tokens statement rest complaints done
  · exact (branches _ _ _ _ done).1.listed
  · exact (shaped_varDeclaration fits _ _ _ _ done).1

theorem shaped_declarations (closing : List TokenKind) {declaration : Parser (Option Stmt)}
    (shaped : Ensures declaration fun read _ => ∀ statement ∈ read, Shaped .listed statement)
    (bound : Nat) :
    Ensures (declarations closing declaration bound) fun read _ =>
      ∀ statement ∈ read, Shaped .listed statement := by
  induction bound with
  | zero => exact .pure fun _ => by simp
  | succ bound ih =>
    intro tokens read rest complaints done
    obtain ⟨rfl, -⟩ | ⟨first, _, _, later, _, -, firstDone, laterDone, rfl, -⟩ :=
      declarations_eq_ok done
    · simp
    · intro statement member
      rcases List.mem_append.mp member with isFirst | isLater
      · exact shaped _ _ _ _ firstDone statement (Option.mem_toList.mp isFirst)
      · exact ih _ _ _ _ laterDone statement isLater

theorem shaped_block {declaration : Parser (Option Stmt)}
    (shaped : Ensures declaration fun read _ => ∀ statement ∈ read, Shaped .listed statement)
    (bound : Nat) : Produces (block declaration bound) .branch := by
  refine .bind (shaped_declarations _ shaped bound) ?_
  intro body _ bodyShaped
  refine .bind (.expect _ _) ?_
  exact fun _ _ _ => .pure fun rest => ⟨.block bodyShaped, closed_of_not_endsOpen rfl rest⟩

end

theorem shaped_statement (bound : Nat) : Produces (statement bound) .branch := by
  induction bound with
  | zero => exact .fail _
  | succ bound ih =>
    have fits : Yields (expression bound) .assignment := fits_expression bound
    intro tokens s rest complaints done
    cases tokens with
    | nil => simp [statement, Parser.fail] at done
    | cons token others =>
      simp only [statement] at done
      split at done
      · exact shaped_ifStatement fits ih _ _ _ _ done
      · exact shaped_whileStatement fits ih _ _ _ _ done
      · exact shaped_printStatement fits _ _ _ _ done
      · exact shaped_block (shaped_declaration fits ih) bound _ _ _ _ done
      · exact shaped_expressionStatement (fits_expression (bound + 1)) _ _ _ _ done

end Grammar

/-- Statements have the shape of the grammar, whatever was wrong with the tokens. -/
theorem shaped_of_mem_statements {tokens : List Token} {statement : Stmt}
    (member : statement ∈ (parse tokens).statements) : Shaped .listed statement := by
  let body := Grammar.body tokens
  have declarations := Grammar.shaped_declaration (Grammar.fits_expression body.length)
    (Grammar.shaped_statement body.length)
  have shaped := Grammar.shaped_declarations [] declarations body.length
  unfold parse at member
  cases run : Grammar.program body.length body with
  | mk result rest complaints =>
    cases result with
    | error fault => simp [body, run, Except.toOption] at member
    | ok statements =>
      have same : statement ∈ statements := by simpa [body, run, Except.toOption] using member
      exact shaped _ _ _ _ run statement same

end Lox

import Lox.Proofs.Relabelling
import Lox.Stmt.Exec

/-!
Execution of two programs of one form, side by side. It is enough to compare single steps: how
expressions are evaluated, and how variables are defined, texts printed and blocks entered and left.
-/

namespace Lox

/-- The two expressions have the same value, or fail alike, and leave related states. -/
def EvaluatesLike (blame : RuntimeError → RuntimeError) (related : State → State → Prop)
    (e other : Expr) : Prop :=
  ∀ left right, related left right →
    (other.eval right.environment).1 = (e.eval left.environment).1.mapError blame ∧
      related { left with environment := (e.eval left.environment).2 }
        { right with environment := (other.eval right.environment).2 }

structure EndsLike (blame : RuntimeError → RuntimeError) (related : State → State → Prop)
    (left right : Outcome RuntimeError × State) : Prop where
  outcome : right.1 = left.1.map blame
  state : related left.2 right.2

/-- Printing, entering a block and leaving it keep states related. -/
structure KeptBySteps (related : State → State → Prop) : Prop where
  print : ∀ {left right} (text : String), related left right →
    related (left.emit (.printed text)) (right.emit (.printed text))
  enter : ∀ {left right}, related left right → related left.enter right.enter
  leave : ∀ {left right}, related left right → related left.leave right.leave

mutual

/-- Statements of one form, whose expressions evaluate alike and whose declarations keep states
related. -/
inductive Stmt.Alike (blame : RuntimeError → RuntimeError) (related : State → State → Prop) :
    Stmt → Stmt → Prop
  | expression {e other} : EvaluatesLike blame related e other →
      Alike blame related (.expression e) (.expression other)
  | print {e other} : EvaluatesLike blame related e other →
      Alike blame related (.print e) (.print other)
  | varDecl {name renamed initial other} : Option.Rel (EvaluatesLike blame related) initial other →
      (∀ value {left right}, related left right →
        related (left.define name value) (right.define renamed value)) →
      Alike blame related (.varDecl name initial) (.varDecl renamed other)
  | block {body others} : AllAlike blame related body others →
      Alike blame related (.block body) (.block others)
  | ifThen {condition other yes otherYes} : EvaluatesLike blame related condition other →
      Alike blame related yes otherYes →
      Alike blame related (.ifThen condition yes) (.ifThen other otherYes)
  | ifElse {condition other yes otherYes no otherNo} :
      EvaluatesLike blame related condition other → Alike blame related yes otherYes →
      Alike blame related no otherNo →
      Alike blame related (.ifElse condition yes no) (.ifElse other otherYes otherNo)
  | whileLoop {condition other body otherBody} : EvaluatesLike blame related condition other →
      Alike blame related body otherBody →
      Alike blame related (.whileLoop condition body) (.whileLoop other otherBody)

inductive Stmt.AllAlike (blame : RuntimeError → RuntimeError) (related : State → State → Prop) :
    List Stmt → List Stmt → Prop
  | nil : AllAlike blame related [] []
  | cons {statement other statements others} : Alike blame related statement other →
      AllAlike blame related statements others →
      AllAlike blame related (statement :: statements) (other :: others)

end

/-- Exchanging tokens by `f` leads from related states to related states, and changes the errors by
`blame`. -/
structure Simulation (f : Token → Token) (blame : RuntimeError → RuntimeError)
    (related : State → State → Prop) : Prop where
  eval : ∀ {left right} (e : Expr), related left right →
    ((e.mapTokens f).eval right.environment).1 =
        (e.eval left.environment).1.mapError blame ∧
      related { left with environment := (e.eval left.environment).2 }
        { right with environment := ((e.mapTokens f).eval right.environment).2 }
  print : ∀ {left right} (text : String), related left right →
    related (left.emit (.printed text)) (right.emit (.printed text))
  define : ∀ {left right} (name : Token) (value : Value), related left right →
    related (left.define name value) (right.define (f name) value)
  enter : ∀ {left right}, related left right → related left.enter right.enter
  leave : ∀ {left right}, related left right → related left.leave right.leave

section

variable {f : Token → Token} {blame : RuntimeError → RuntimeError}
  {related : State → State → Prop}

theorem EndsLike.andThen {left right : Outcome RuntimeError × State}
    {next other : State → Outcome RuntimeError × State} :
    EndsLike blame related left right →
    (∀ {left right}, related left right → EndsLike blame related (next left) (other right)) →
    EndsLike blame related
      (match left with
        | (.finished, state) => next state
        | stopped => stopped)
      (match right with
        | (.finished, state) => other state
        | stopped => stopped) := by
  intro ends goesOn
  obtain ⟨outcome, state⟩ := left
  obtain ⟨otherOutcome, otherState⟩ := right
  obtain ⟨outcomes, states⟩ := ends
  simp only at outcomes states
  subst outcomes
  cases outcome with
  | finished => exact goesOn states
  | failed error => exact ⟨rfl, states⟩
  | outOfFuel => exact ⟨rfl, states⟩

theorem EvaluatesLike.evaluate {e other : Expr} {left right : State}
    {next goesOn : Value → State → Outcome RuntimeError × State}
    (alike : EvaluatesLike blame related e other) (same : related left right)
    (rest : ∀ value {left right}, related left right →
      EndsLike blame related (next value left) (goesOn value right)) :
    EndsLike blame related (left.evaluate e next) (right.evaluate other goesOn) := by
  obtain ⟨results, states⟩ := alike _ _ same
  unfold State.evaluate
  rcases done : e.eval left.environment with ⟨result, env⟩
  rcases otherDone : other.eval right.environment with ⟨otherResult, otherEnv⟩
  rw [done, otherDone] at results states
  cases result with
  | ok value =>
    obtain rfl : otherResult = .ok value := results
    exact rest value states
  | error error =>
    obtain rfl : otherResult = .error (blame error) := results
    exact ⟨rfl, states⟩

theorem EvaluatesLike.loop {condition other : Expr}
    {body otherBody : State → Outcome RuntimeError × State}
    (alike : EvaluatesLike blame related condition other)
    (bodies : ∀ {left right}, related left right →
      EndsLike blame related (body left) (otherBody right)) (fuel : Nat) {left right : State}
    (same : related left right) :
    EndsLike blame related (left.loop condition body fuel) (right.loop other otherBody fuel) := by
  induction fuel generalizing left right with
  | zero => exact ⟨rfl, same⟩
  | succ fuel ih =>
    apply alike.evaluate same
    intro value left right same
    split
    · exact (bodies same).andThen ih
    · exact ⟨rfl, same⟩

mutual

theorem Stmt.Alike.exec {statement other : Stmt} (alike : Stmt.Alike blame related statement other)
    (steps : KeptBySteps related) (fuel : Nat) {left right : State} (same : related left right) :
    EndsLike blame related (statement.exec fuel left) (other.exec fuel right) := by
  cases alike with
  | expression e => exact e.evaluate same fun _ _ _ same => ⟨rfl, same⟩
  | print e => exact e.evaluate same fun value _ _ same => ⟨rfl, steps.print value.text same⟩
  | varDecl initial define =>
    cases initial with
    | none => exact ⟨rfl, define .nil same⟩
    | some initial => exact initial.evaluate same fun value _ _ same => ⟨rfl, define value same⟩
  | block body =>
    have inside := body.execAll steps fuel (steps.enter same)
    exact ⟨inside.outcome, steps.leave inside.state⟩
  | ifThen condition yes =>
    apply condition.evaluate same
    intro value left right same
    split
    · exact yes.exec steps fuel same
    · exact ⟨rfl, same⟩
  | ifElse condition yes no =>
    apply condition.evaluate same
    intro value left right same
    split
    · exact yes.exec steps fuel same
    · exact no.exec steps fuel same
  | whileLoop condition body =>
    exact condition.loop (fun same => body.exec steps fuel same) fuel same

theorem Stmt.AllAlike.execAll {statements others : List Stmt}
    (alike : Stmt.AllAlike blame related statements others) (steps : KeptBySteps related)
    (fuel : Nat) {left right : State} (same : related left right) :
    EndsLike blame related (Stmt.execAll fuel statements left)
      (Stmt.execAll fuel others right) := by
  cases alike with
  | nil => exact ⟨rfl, same⟩
  | cons statement others =>
    exact (statement.exec steps fuel same).andThen fun same => others.execAll steps fuel same

end

namespace Simulation

theorem steps (simulation : Simulation f blame related) : KeptBySteps related :=
  ⟨simulation.print, simulation.enter, simulation.leave⟩

theorem evaluates (simulation : Simulation f blame related) (e : Expr) :
    EvaluatesLike blame related e (e.mapTokens f) :=
  fun _ _ same => simulation.eval e same

mutual

theorem alike (simulation : Simulation f blame related) (statement : Stmt) :
    statement.Alike blame related (statement.mapTokens f) := by
  cases statement with
  | expression e => exact .expression (simulation.evaluates e)
  | print e => exact .print (simulation.evaluates e)
  | varDecl name initial =>
    refine .varDecl ?_ fun value _ _ same => simulation.define name value same
    cases initial with
    | none => exact .none
    | some initial => exact .some (simulation.evaluates initial)
  | block body => exact .block (simulation.allAlike body)
  | ifThen condition yes =>
    exact .ifThen (simulation.evaluates condition) (simulation.alike yes)
  | ifElse condition yes no =>
    exact .ifElse (simulation.evaluates condition) (simulation.alike yes) (simulation.alike no)
  | whileLoop condition body =>
    exact .whileLoop (simulation.evaluates condition) (simulation.alike body)

theorem allAlike (simulation : Simulation f blame related) (statements : List Stmt) :
    Stmt.AllAlike blame related statements (Stmt.mapTokensAll f statements) := by
  cases statements with
  | nil => exact .nil
  | cons statement others =>
    exact .cons (simulation.alike statement) (simulation.allAlike others)

end

theorem execAll (simulation : Simulation f blame related) (fuel : Nat) (statements : List Stmt)
    {left right : State} (same : related left right) :
    EndsLike blame related (Stmt.execAll fuel statements left)
      (Stmt.execAll fuel (Stmt.mapTokensAll f statements) right) :=
  (simulation.allAlike statements).execAll simulation.steps fuel same

end Simulation

end

end Lox

import Lox.Proofs.Exchange
import Lox.Proofs.Histories
import Lox.Proofs.Piecewise

/-!
Layout has no meaning: sources with the same tokens, up to the lines on which these stand, are
parsed alike and run alike.
-/

namespace Lox

theorem Expr.text_mapTokens {f : Token → Token} (lexemes : ∀ token, (f token).lexeme = token.lexeme)
    (e : Expr) : (e.mapTokens f).text = e.text := by
  induction e with
  | literal value => rfl
  | _ => simp_all [mapTokens, text]

namespace Stmt

variable {f : Token → Token}

mutual

theorem text_mapTokens (lexemes : ∀ token, (f token).lexeme = token.lexeme) (statement : Stmt) :
    (statement.mapTokens f).text = statement.text := by
  have inner := Expr.text_mapTokens lexemes
  cases statement with
  | expression e | print e => simp only [mapTokens, text, inner]
  | varDecl name initial => cases initial <;> simp [mapTokens, text, inner, lexemes]
  | block body => rw [mapTokens, text, text, bodyText_mapTokens lexemes body]
  | ifThen condition yes => simp only [mapTokens, text, inner, text_mapTokens lexemes yes]
  | ifElse condition yes no =>
    simp only [mapTokens, text, inner, text_mapTokens lexemes yes, text_mapTokens lexemes no]
  | whileLoop condition body => simp only [mapTokens, text, inner, text_mapTokens lexemes body]

theorem bodyText_mapTokens (lexemes : ∀ token, (f token).lexeme = token.lexeme)
    (statements : List Stmt) : bodyText (mapTokensAll f statements) = bodyText statements := by
  cases statements with
  | nil => rfl
  | cons statement others =>
    rw [mapTokensAll, bodyText, bodyText, text_mapTokens lexemes statement,
      bodyText_mapTokens lexemes others]

end

end Stmt

abbrev Token.unplaced : Token → Token := Token.onLine fun _ => 0

def Failure.unplaced : Failure → Failure
  | parse errors => parse (errors.map (ParseError.mapToken Token.unplaced))
  | runtime error => runtime (error.onLine fun _ => 0)
  | failure => failure

theorem scan_ends (source : String) :
    ∃ token ∈ (scan .tolerant source).tokens, token.kind = .eof :=
  ⟨_, List.mem_append_right _ (List.mem_singleton_self _), rfl⟩

theorem parse_unplaced {first second : List Token}
    (firstEnds : ∃ token ∈ first, token.kind = .eof)
    (secondEnds : ∃ token ∈ second, token.kind = .eof)
    (same : first.map Token.unplaced = second.map Token.unplaced) :
    (parse first).mapTokens Token.unplaced = (parse second).mapTokens Token.unplaced := by
  have kinds := Token.kind_onLine fun _ => 0
  rw [← parse_map kinds (fun _ => rfl) firstEnds, same, parse_map kinds (fun _ => rfl) secondEnds]

theorem map_text_of_unplaced {first second : List Stmt}
    (same : first.map (Stmt.mapTokens Token.unplaced) =
      second.map (Stmt.mapTokens Token.unplaced)) :
    first.map Stmt.text = second.map Stmt.text := by
  have texts : ∀ statements : List Stmt,
      (statements.map (Stmt.mapTokens Token.unplaced)).map Stmt.text =
        statements.map Stmt.text := by
    intro statements
    rw [List.map_map]
    exact List.map_congr_left fun s _ => s.text_mapTokens (Token.lexeme_onLine _)
  rw [← texts first, same, texts]

theorem State.Follows.eq_of_empty {left right : State} (follows : State.Follows #[] left right) :
    right = left := by
  obtain ⟨environment, events⟩ := left
  obtain ⟨sameEnvironment, sameEvents⟩ := follows
  cases right
  simp_all

namespace Session

theorem execution_unplaced (fuel : Nat) (session : Session) (statements : List Stmt) :
    session.execution fuel (statements.map (Stmt.mapTokens Token.unplaced)) =
      ((session.execution fuel statements).1.map (RuntimeError.onLine fun _ => 0),
        (session.execution fuel statements).2) := by
  have start : State.Follows #[] ⟨session.environment, #[]⟩ ⟨session.environment, #[]⟩ :=
    ⟨rfl, by simp⟩
  have ends := (simulation_onLine (fun _ => 0) #[]).execAll fuel statements start
  rw [Stmt.mapTokensAll_eq_map] at ends
  exact Prod.ext ends.outcome ends.state.eq_of_empty

/-- The same is printed and bound, and the same fails up to lines. -/
structure Alike (left right : Run × Session) : Prop where
  output : left.1.output = right.1.output
  outcome : left.1.outcome.map Failure.unplaced = right.1.outcome.map Failure.unplaced
  session : left.2 = right.2

theorem Alike.after {left right : Run × Session} (alike : Alike left right)
    {events others : List Event} (silent : events.filterMap Event.output? = [])
    (otherSilent : others.filterMap Event.output? = []) :
    Alike (Session.after events left) (Session.after others right) where
  output := by
    have outputs := alike.output
    simpa [Session.after, Run.output, silent, otherSilent] using outputs
  outcome := alike.outcome
  session := alike.session

theorem alike_runStatements {first second : List Stmt}
    (same : first.map (Stmt.mapTokens Token.unplaced) =
      second.map (Stmt.mapTokens Token.unplaced)) (fuel : Nat) (session : Session) :
    Alike (session.runStatements fuel first) (session.runStatements fuel second) := by
  have firstShown := shows_runStatements fuel session first
  have secondShown := shows_runStatements fuel session second
  have executions := execution_unplaced fuel session first
  rw [same, execution_unplaced] at executions
  obtain ⟨outcomes, states⟩ := Prod.mk.inj executions
  have unplaced : Failure.unplaced ∘ Failure.runtime =
      Failure.runtime ∘ RuntimeError.onLine fun _ => 0 := rfl
  constructor
  · rw [firstShown.output, secondShown.output, states]
  · rw [firstShown.outcome, secondShown.outcome, Outcome.map_map, Outcome.map_map, unplaced,
      ← Outcome.map_map, ← Outcome.map_map, outcomes]
  · rw [firstShown.session, secondShown.session, states]

theorem alike_runTokens {first second : List Token}
    (same : (parse first).mapTokens Token.unplaced = (parse second).mapTokens Token.unplaced)
    (fuel : Nat) (session : Session) :
    Alike (session.runTokens fuel first) (session.runTokens fuel second) := by
  have statements := congrArg Program.statements same
  have errors := congrArg Program.errors same
  simp only [Program.mapTokens] at statements errors
  simp only [runTokens]
  refine Alike.after ?_ rfl rfl
  cases firstErrors : (parse first).errors with
  | nil =>
    have clean : (parse second).errors = [] := by simpa [firstErrors] using errors.symm
    simpa only [clean] using alike_runStatements statements fuel session
  | cons error others =>
    rw [firstErrors] at errors
    cases secondErrors : (parse second).errors with
    | nil => simp [secondErrors] at errors
    | cons otherError later =>
      rw [secondErrors] at errors
      exact ⟨rfl, by simp only [Outcome.map, Failure.unplaced, errors], rfl⟩

/-- Sources whose tokens differ in their lines alone are parsed to the same program up to lines,
with the same texts; and each session runs them alike, also where they fail. -/
theorem run_of_same_tokens {first second : String}
    (firstScans : (scan .tolerant first).errors = [])
    (secondScans : (scan .tolerant second).errors = [])
    (same : (scan .tolerant first).tokens.map Token.unplaced =
      (scan .tolerant second).tokens.map Token.unplaced) (fuel : Nat) (session : Session) :
    let program := parse (scan .tolerant first).tokens
    let other := parse (scan .tolerant second).tokens
    (program.statements.map (Stmt.mapTokens Token.unplaced) =
        other.statements.map (Stmt.mapTokens Token.unplaced) ∧
      program.statements.map Stmt.text = other.statements.map Stmt.text ∧
      program.errors.map (fun error => (error.token.unplaced, error.message)) =
        other.errors.map (fun error => (error.token.unplaced, error.message))) ∧
    (session.run fuel first).1.output = (session.run fuel second).1.output ∧
    (session.run fuel first).1.outcome.map Failure.unplaced =
      (session.run fuel second).1.outcome.map Failure.unplaced ∧
    (session.run fuel first).2 = (session.run fuel second).2 := by
  intro program other
  have parsed : program.mapTokens Token.unplaced = other.mapTokens Token.unplaced :=
    parse_unplaced (scan_ends first) (scan_ends second) same
  have statements := congrArg Program.statements parsed
  have errors := congrArg (fun p => p.errors.map fun error => (error.token, error.message)) parsed
  simp only [Program.mapTokens, List.map_map] at statements errors
  have alike : Alike (session.run fuel first) (session.run fuel second) := by
    rw [run_of_scans firstScans, run_of_scans secondScans]
    refine (alike_runTokens parsed fuel session).after ?_ ?_
    · simp [List.filterMap_map, Event.output?]
    · simp [List.filterMap_map, Event.output?]
  exact ⟨⟨statements, map_text_of_unplaced statements, errors⟩, alike.output, alike.outcome,
    alike.session⟩

/-- The same failure, on the third line and on the first. -/
theorem run_over_three_lines :
    let spread := "print 1;\nprint // no value\n-a;"
    let dense := "print 1; print -a;"
    (scan .tolerant spread).errors = [] ∧ (scan .tolerant dense).errors = [] ∧
      (scan .tolerant spread).tokens.map Token.unplaced =
        (scan .tolerant dense).tokens.map Token.unplaced ∧
      ((start .strict).run 1 spread).1.outcome =
        .failed (.runtime ⟨.name "a" 3, .undefinedVariable⟩) ∧
      ((start .strict).run 1 spread).1.outcome.map Failure.unplaced =
        ((start .strict).run 1 dense).1.outcome.map Failure.unplaced := by
  intro spread dense
  have spreadScans : (scan .tolerant spread).errors = [] := by decide +kernel
  have denseScans : (scan .tolerant dense).errors = [] := by decide +kernel
  have same : (scan .tolerant spread).tokens.map Token.unplaced =
      (scan .tolerant dense).tokens.map Token.unplaced := by decide +kernel
  obtain ⟨-, -, outcomes, -⟩ := run_of_same_tokens spreadScans denseScans same 1 (start .strict)
  exact ⟨spreadScans, denseScans, same, by decide +kernel, outcomes⟩

end Session

end Lox

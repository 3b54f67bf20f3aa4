import Lox.Proofs.Concatenation
import Lox.Proofs.Relining
import Lox.Proofs.RoundTrip
import Lox.Session

/-!
Running two sources one after the other is running them as one, with a newline between them: the
same is printed and bound, and the same fails, on a line that is counted on from the first source.
-/

namespace Lox

namespace Segment

theorem kind_ne_eof_of_mem_tokens {line : Nat} {source : List Char} {token : Token}
    (member : token ∈ tokens line (ofSource source)) : token.kind ≠ .eof :=
  ((segmentation_ofSource source).lexeme_of_mem_tokens member).kind_ne_eof

end Segment

theorem spells_of_clean {tokens : List Token} {last : Token}
    (genuine : ∀ token ∈ tokens, token.Genuine) (notEnd : ∀ token ∈ tokens, token.kind ≠ .eof)
    (isEnd : last.kind = .eof) (clean : (parse (tokens ++ [last])).errors = []) :
    Spells tokens (Stmt.spellingAll (parse (tokens ++ [last])).statements) := by
  have genuineAll : ∀ token ∈ tokens ++ [last], token.Genuine := by
    intro token member
    rcases List.mem_append.mp member with inside | atEnd
    · exact genuine token inside
    · rw [List.mem_singleton.mp atEnd]
      exact Token.genuine_of_not_literal (by simp [isEnd])
  have body := Grammar.body_append_end notEnd isEnd []
  have spelled := (accounted_parse genuineAll).2.mpr clean
  rwa [body] at spelled

theorem parse_append {first second : List Token} {firstEnd secondEnd last : Token}
    (firstSpells : Spells first (Stmt.spellingAll (parse (first ++ [firstEnd])).statements))
    (secondSpells : Spells second (Stmt.spellingAll (parse (second ++ [secondEnd])).statements))
    (f : Nat → Nat) (isEnd : last.kind = .eof) :
    parse (first ++ second.map (Token.onLine f) ++ [last]) =
      ⟨(parse (first ++ [firstEnd])).statements ++
        Stmt.mapTokensAll (Token.onLine f) (parse (second ++ [secondEnd])).statements, []⟩ := by
  refine parse_of_spells ?_ ?_ isEnd []
  · intro statement member
    rcases List.mem_append.mp member with inFirst | inSecond
    · exact shaped_of_mem_statements inFirst
    · rw [Stmt.mapTokensAll_eq_map] at inSecond
      obtain ⟨original, inside, rfl⟩ := List.mem_map.mp inSecond
      exact (shaped_of_mem_statements inside).mapTokens (Token.kind_onLine f)
  · rw [Stmt.spellingAll_append]
    exact firstSpells.append ((secondSpells.onLine f).trans (Stmt.spellingAll_onLine f _))

structure Accepted (mode : ScanMode) (source : String) : Prop where
  scans : (scan mode source).errors = []
  parses : (parse (scan mode source).tokens).errors = []

def statementsOf (source : String) : List Stmt :=
  (parse (scan .tolerant source).tokens).statements

namespace Accepted

theorem scan_eq {mode : ScanMode} {source : String} (accepted : Accepted mode source) :
    scan mode source = scan .tolerant source :=
  scan_of_tolerant (scan_of_clean accepted.scans)

theorem tolerant {mode : ScanMode} {source : String} (accepted : Accepted mode source) :
    Accepted .tolerant source :=
  ⟨scan_of_clean accepted.scans, accepted.scan_eq ▸ accepted.parses⟩

theorem of_tolerant {source : String} (accepted : Accepted .tolerant source) (mode : ScanMode) :
    Accepted mode source := by
  have same : scan mode source = _ := scan_of_tolerant accepted.scans
  exact ⟨same ▸ accepted.scans, same ▸ accepted.parses⟩

theorem spells {source : String} (accepted : Accepted .tolerant source) :
    Spells (Segment.tokens 1 (Segment.ofSource source.toList))
      (Stmt.spellingAll (statementsOf source)) :=
  spells_of_clean (fun _ => Segment.genuine_of_mem_tokens)
    (fun _ => Segment.kind_ne_eof_of_mem_tokens) rfl accepted.parses

end Accepted

theorem parse_append_newline {first second : String} (firstAccepted : Accepted .tolerant first)
    (secondAccepted : Accepted .tolerant second) :
    parse (scan .tolerant (first ++ "\n" ++ second)).tokens =
      ⟨statementsOf first ++
        Stmt.mapTokensAll (Token.onLine (· + linesBefore first)) (statementsOf second), []⟩ := by
  have closed := Segment.not_isOpen_of_errors_eq_nil firstAccepted.scans
  rw [scan_append_newline closed]
  exact parse_append firstAccepted.spells secondAccepted.spells _ rfl

theorem Accepted.append_newline {first second : String} (firstAccepted : Accepted .tolerant first)
    (secondAccepted : Accepted .tolerant second) :
    Accepted .tolerant (first ++ "\n" ++ second) := by
  have closed := Segment.not_isOpen_of_errors_eq_nil firstAccepted.scans
  have firstErrors : Segment.errors 1 (Segment.ofSource first.toList) = [] := firstAccepted.scans
  have secondErrors : Segment.errors 1 (Segment.ofSource second.toList) = [] :=
    secondAccepted.scans
  constructor
  · rw [scan_append_newline closed, firstErrors, secondErrors]
    rfl
  · rw [parse_append_newline firstAccepted secondAccepted]

namespace Stmt

theorem execAll_follows (fuel : Nat) (statements : List Stmt) {before : Array Event}
    {left right : State} (follows : State.Follows before left right) :
    (execAll fuel statements right).1 = (execAll fuel statements left).1 ∧
      State.Follows before (execAll fuel statements left).2 (execAll fuel statements right).2 := by
  have ends := (simulation_onLine id before).execAll fuel statements follows
  rw [show Token.onLine id = id from rfl, mapTokensAll_id] at ends
  exact ⟨ends.outcome.trans (Outcome.map_id _), ends.state⟩

end Stmt

def State.output (state : State) : List String := state.events.toList.filterMap Event.output?

theorem State.Follows.output {before : Array Event} {left right : State}
    (follows : Follows before left right) :
    right.output = before.toList.filterMap Event.output? ++ left.output := by
  rw [State.output, follows.events, Array.toList_append, List.filterMap_append]
  rfl

namespace Session

def execution (fuel : Nat) (session : Session) (statements : List Stmt) :
    Outcome RuntimeError × State :=
  Stmt.execAll fuel statements ⟨session.environment, #[]⟩

theorem execution_append_of_stopped {fuel : Nat} {session : Session} {first : List Stmt}
    (stopped : (session.execution fuel first).1 ≠ .finished) (second : List Stmt) :
    session.execution fuel (first ++ second) = session.execution fuel first := by
  rw [execution] at stopped
  rw [execution, execution, Stmt.execAll_append]
  generalize Stmt.execAll fuel first _ = reached at stopped ⊢
  obtain ⟨_ | error | _, state⟩ := reached
  · exact absurd rfl stopped
  · rfl
  · rfl

theorem execution_append_of_finished {fuel : Nat} {session : Session} {first : List Stmt}
    (finished : (session.execution fuel first).1 = .finished) (f : Nat → Nat)
    (second : List Stmt) :
    EndsLike (RuntimeError.onLine f)
      (State.Follows (session.execution fuel first).2.events)
      (execution fuel { session with environment := (session.execution fuel first).2.environment }
        second)
      (session.execution fuel (first ++ Stmt.mapTokensAll (Token.onLine f) second)) := by
  rw [execution] at finished
  simp only [execution, Stmt.execAll_append]
  generalize Stmt.execAll fuel first _ = reached at finished ⊢
  obtain ⟨outcome, state⟩ := reached
  obtain rfl : outcome = .finished := finished
  exact (simulation_onLine f state.events).execAll fuel second ⟨rfl, by simp⟩

/-- What a run shows of an execution: all but the log. -/
structure Shows (session : Session) (execution : Outcome RuntimeError × State)
    (result : Run × Session) : Prop where
  output : result.1.output = execution.2.output
  outcome : result.1.outcome = execution.1.map .runtime
  session : result.2 = { session with environment := execution.2.environment }

theorem Shows.after {session : Session} {execution : Outcome RuntimeError × State}
    {result : Run × Session} (shown : Shows session execution result) {events : List Event}
    (silent : events.filterMap Event.output? = []) :
    Shows session execution (Session.after events result) where
  output := by
    rw [← shown.output]
    simp [Session.after, Run.output, silent]
  outcome := shown.outcome
  session := shown.session

theorem shows_runStatements (fuel : Nat) (session : Session) (statements : List Stmt) :
    Shows session (session.execution fuel statements)
      (session.runStatements fuel statements) := by
  have follows : State.Follows #[.interpreting statements.length] ⟨session.environment, #[]⟩
      (State.emit ⟨session.environment, #[]⟩ (.interpreting statements.length)) :=
    ⟨rfl, rfl⟩
  obtain ⟨outcomes, states⟩ := Stmt.execAll_follows fuel statements follows
  have texts : (statements.map fun s => Event.statement s.text).filterMap Event.output? = [] := by
    simp [List.filterMap_map, Event.output?]
  constructor
  · show (_ ++ _ : List Event).filterMap Event.output? = _
    rw [List.filterMap_append, texts]
    exact states.output
  · exact congrArg (Outcome.map Failure.runtime) outcomes
  · exact congrArg (Session.mk session.mode) states.environment

theorem shows_run {session : Session} {source : String} (accepted : Accepted session.mode source)
    (fuel : Nat) :
    Shows session (session.execution fuel (statementsOf source)) (session.run fuel source) := by
  have scans := accepted.tolerant.scans
  have parses := accepted.tolerant.parses
  simp only [run, accepted.scan_eq, scans, runTokens, parses]
  refine ((shows_runStatements fuel session _).after ?_).after ?_
  · rfl
  · simp [List.filterMap_map, Event.output?]

end Session

def Failure.onLine (f : Nat → Nat) : Failure → Failure
  | runtime error => runtime (error.onLine f)
  | failure => failure

namespace Session

/-- Two sources in turn, or one below the other: the second one is reached under the same condition,
starts from the same variables, and fails in the same way but on a later line. -/
theorem run_append_newline {session : Session} {first second : String}
    (firstAccepted : Accepted session.mode first) (secondAccepted : Accepted session.mode second)
    (fuel : Nat) :
    Accepted session.mode (first ++ "\n" ++ second) ∧
      ((session.run fuel first).1.outcome ≠ .finished →
        (session.run fuel (first ++ "\n" ++ second)).1.output =
            (session.run fuel first).1.output ∧
          (session.run fuel (first ++ "\n" ++ second)).1.outcome =
            (session.run fuel first).1.outcome ∧
          (session.run fuel (first ++ "\n" ++ second)).2 = (session.run fuel first).2) ∧
      ((session.run fuel first).1.outcome = .finished →
        (session.run fuel (first ++ "\n" ++ second)).1.output =
            (session.run fuel first).1.output ++
              ((session.run fuel first).2.run fuel second).1.output ∧
          (session.run fuel (first ++ "\n" ++ second)).1.outcome =
            ((session.run fuel first).2.run fuel second).1.outcome.map
              (Failure.onLine (· + linesBefore first)) ∧
          (session.run fuel (first ++ "\n" ++ second)).2 =
            ((session.run fuel first).2.run fuel second).2) := by
  have accepted : Accepted session.mode (first ++ "\n" ++ second) :=
    (firstAccepted.tolerant.append_newline secondAccepted.tolerant).of_tolerant _
  have statements : statementsOf (first ++ "\n" ++ second) = _ :=
    congrArg Program.statements
      (parse_append_newline firstAccepted.tolerant secondAccepted.tolerant)
  have whole := shows_run accepted fuel
  have front := shows_run firstAccepted fuel
  refine ⟨accepted, ?_, ?_⟩
  · intro stopped
    rw [front.outcome] at stopped
    have reached : (session.execution fuel (statementsOf first)).1 ≠ .finished := by
      intro finished
      rw [finished] at stopped
      exact stopped rfl
    rw [statements, execution_append_of_stopped reached] at whole
    exact ⟨whole.output.trans front.output.symm, whole.outcome.trans front.outcome.symm,
      whole.session.trans front.session.symm⟩
  · intro finished
    have reached : (session.execution fuel (statementsOf first)).1 = .finished := by
      rw [front.outcome] at finished
      cases outcome : (session.execution fuel (statementsOf first)).1 <;>
        simp_all [Outcome.map]
    have ends := execution_append_of_finished reached (· + linesBefore first) (statementsOf second)
    have nextAccepted : Accepted (session.run fuel first).2.mode second := by
      rw [front.session]
      exact secondAccepted
    have rest := shows_run nextAccepted fuel
    rw [front.session] at rest ⊢
    rw [statements] at whole
    refine ⟨?_, ?_, ?_⟩
    · rw [whole.output, ends.state.output, front.output, rest.output]
      rfl
    · rw [whole.outcome, ends.outcome, rest.outcome, Outcome.map_map, Outcome.map_map]
      rfl
    · rw [whole.session, ends.state.environment, rest.session]

/-- The second source fails on its second line, which is the third line of both. -/
theorem run_declaration_then_use :
    Accepted .strict "var a;" ∧ Accepted .strict "print a;\nb;" ∧
      ((start .strict).run 1 ("var a;" ++ "\n" ++ "print a;\nb;")).1.output = ["nil"] ∧
      ((start .strict).run 1 ("var a;" ++ "\n" ++ "print a;\nb;")).1.outcome =
        .failed (.runtime ⟨.name "b" 3, .undefinedVariable⟩) := by
  have first : Accepted (start .strict).mode "var a;" :=
    ⟨by decide +kernel, by decide +kernel⟩
  have second : Accepted (start .strict).mode "print a;\nb;" :=
    ⟨by decide +kernel, by decide +kernel⟩
  obtain ⟨-, -, joined⟩ := run_append_newline first second 1
  obtain ⟨output, outcome, -⟩ := joined (by decide +kernel)
  exact ⟨first, second, output.trans (by decide +kernel), outcome.trans (by decide +kernel)⟩

end Session

end Lox

import Lox.Proofs.Bindings
import Lox.Proofs.Histories

/-!
What a run writes to its log. Each stage reports what it hands on, and after a stage that failed
there are no further messages. An execution reports each scope that it enters and leaves, with the
depth that it has reached then; and however it ends, it has left every scope that it entered.
-/

namespace Lox

namespace Event

def isMessage (event : Event) : Bool := event.log?.isSome

/-- The depth reached with a message at the given depth, if an execution may give it there. -/
def depthAfter? (depth : Nat) : Event → Option Nat
  | defined _ _ => some depth
  | entered inside => if inside = depth + 1 then some inside else none
  | left outside => if 1 ≤ outside ∧ outside + 1 = depth then some outside else none
  | _ => none

/-- The messages of an execution that begins at the first depth and ends at the second. -/
def Leads (depth : Nat) (messages : List Event) (reached : Nat) : Prop :=
  messages.foldlM depthAfter? depth = some reached

instance (depth : Nat) (messages : List Event) (reached : Nat) :
    Decidable (Leads depth messages reached) :=
  inferInstanceAs (Decidable (_ = _))

theorem Leads.nil (depth : Nat) : Leads depth [] depth := rfl

theorem Leads.append {depth middle reached : Nat} {messages others : List Event}
    (front : Leads depth messages middle) (back : Leads middle others reached) :
    Leads depth (messages ++ others) reached := by
  unfold Leads at front back ⊢
  rw [List.foldlM_append, front]
  exact back

end Event

open Event (Leads)

def State.Logged (before after : State) : Prop :=
  ∃ since, after.events.toList = before.events.toList ++ since ∧
    Leads before.environment.depth (since.filter Event.isMessage) after.environment.depth

namespace State.Logged

variable {before middle after state : State}

theorem of_silent (events : after.events = before.events)
    (depth : after.environment.depth = before.environment.depth) : Logged before after :=
  ⟨[], by rw [events, List.append_nil], depth ▸ .nil _⟩

theorem trans (first : Logged before middle) (second : Logged middle after) :
    Logged before after := by
  obtain ⟨since, events, leads⟩ := first
  obtain ⟨more, later, goesOn⟩ := second
  refine ⟨since ++ more, ?_, ?_⟩
  · rw [later, events, List.append_assoc]
  · rw [List.filter_append]
    exact leads.append goesOn

theorem of_message {event : Event} (events : after.events = before.events.push event)
    (message : event.isMessage)
    (leads : event.depthAfter? before.environment.depth = some after.environment.depth) :
    Logged before after := by
  refine ⟨[event], by rw [events, Array.toList_push], ?_⟩
  simp [Leads, message, leads]

theorem printed (state : State) (text : String) : Logged state (state.emit (.printed text)) :=
  ⟨[.printed text], by simp [emit], rfl⟩

theorem define (state : State) (name : Token) (value : Value) :
    Logged state (state.define name value) :=
  of_message rfl rfl rfl

theorem enter (state : State) : Logged state state.enter :=
  of_message rfl rfl (if_pos rfl)

theorem leave {outside : Nat} (inside : state.environment.depth = outside + 1)
    (some : 1 ≤ outside) : Logged state state.leave := by
  have reached : state.environment.pop.depth = outside := by
    rw [Environment.depth_pop, inside, if_neg (by omega), Nat.add_sub_cancel]
  refine of_message rfl rfl (if_pos ?_)
  rw [reached, inside]
  exact ⟨some, rfl⟩

theorem block (inside : Logged state.enter after)
    (depth : after.environment.depth = state.enter.environment.depth) :
    Logged state after.leave :=
  ((enter state).trans inside).trans (leave depth (Nat.le_add_left _ _))

end State.Logged

open State (Logged)

namespace State

theorem logged_evaluate {state : State} {e : Expr}
    {next : Value → State → Outcome RuntimeError × State}
    (goesOn : ∀ value state, Logged state (next value state).2) :
    Logged state (state.evaluate e next).2 := by
  have depth : (e.eval state.environment).2.depth = state.environment.depth := by
    simpa [Environment.names, Environment.scopes, Environment.depth] using
      congrArg List.length (e.names_eval state.environment)
  exact holds_evaluate (Logged state) (.of_silent rfl depth) fun value next evaluated =>
    evaluated.trans (goesOn value next)

theorem logged_andThen {before : State} {run : Outcome RuntimeError × State}
    {next : State → Outcome RuntimeError × State} (first : Logged before run.2)
    (goesOn : ∀ state, Logged state (next state).2) :
    Logged before
      (match run with
        | (.finished, state) => next state
        | stopped => stopped).2 :=
  holds_andThen (Logged before) first fun state logged => logged.trans (goesOn state)

theorem logged_loop {condition : Expr} {body : State → Outcome RuntimeError × State}
    (bodies : ∀ state, Logged state (body state).2) (fuel : Nat) (state : State) :
    Logged state (state.loop condition body fuel).2 := by
  induction fuel generalizing state with
  | zero => exact .of_silent rfl rfl
  | succ fuel ih =>
    refine logged_evaluate fun value state => ?_
    split
    · exact logged_andThen (bodies state) ih
    · exact .of_silent rfl rfl

end State

namespace Stmt

mutual

theorem logged_exec (fuel : Nat) (statement : Stmt) (state : State) :
    Logged state (statement.exec fuel state).2 := by
  cases statement with
  | expression e => exact State.logged_evaluate fun _ _ => .of_silent rfl rfl
  | print e => exact State.logged_evaluate fun value state => .printed state value.text
  | varDecl name initial =>
    cases initial with
    | none => exact .define state name .nil
    | some initial => exact State.logged_evaluate fun value state => .define state name value
  | block body =>
    -- the depths agree on every way out, so the block is left to where it was entered
    exact (logged_execAll fuel body state.enter).block (grows_execAll fuel body state.enter).depth
  | ifThen condition yes =>
    refine State.logged_evaluate fun value state => ?_
    split
    · exact logged_exec fuel yes state
    · exact .of_silent rfl rfl
  | ifElse condition yes no =>
    refine State.logged_evaluate fun value state => ?_
    split
    · exact logged_exec fuel yes state
    · exact logged_exec fuel no state
  | whileLoop condition body => exact State.logged_loop (logged_exec fuel body) fuel state

theorem logged_execAll (fuel : Nat) (statements : List Stmt) (state : State) :
    Logged state (execAll fuel statements state).2 := by
  cases statements with
  | nil => exact .of_silent rfl rfl
  | cons statement others =>
    exact State.logged_andThen (logged_exec fuel statement state) (logged_execAll fuel others)

end

end Stmt

def Run.messages (run : Run) : List Event := run.events.filter Event.isMessage

theorem Run.logs_eq (run : Run) : run.logs.map some = run.messages.map Event.log? := by
  rw [logs, messages]
  induction run.events with
  | nil => rfl
  | cons event others ih =>
    cases text : event.log? with
    | none => simpa [text, Event.isMessage] using ih
    | some text => simpa [text, Event.isMessage] using ih

/-- The messages of a run over a source of so many lines: its stages, up to the first one that
fails, and then the execution, which begins and ends among the globals. -/
inductive RunLog (mode : ScanMode) (lines : Nat) (scan : Scan) (program : Program) :
    List Event → Prop
  | aborted : mode = .strict → scan.errors ≠ [] → RunLog mode lines scan program []
  | unscanned : mode = .tolerant → scan.errors ≠ [] →
      RunLog mode lines scan program [.scanned scan.tokens.length lines]
  | unparsed : scan.errors = [] → program.errors ≠ [] →
      RunLog mode lines scan program
        [.scanned scan.tokens.length lines, .accepted scan.tokens.length,
          .parsed program.statements.length program.errors.length]
  | executed {steps} : scan.errors = [] → program.errors = [] → Leads 1 steps 1 →
      RunLog mode lines scan program
        ([.scanned scan.tokens.length lines, .accepted scan.tokens.length,
            .parsed program.statements.length 0] ++
          (program.statements.map (.statement ·.text) ++
            .interpreting program.statements.length :: steps))

theorem lines?_tolerant (source : String) :
    (scan .tolerant source).lines? = some (1 + source.toList.count '\n') := by
  have whole : scan .tolerant source = _ := Scan.tolerant_eq (Segment.ofSource source.toList)
  rw [Scan.lines?, whole, List.getLast?_concat, Segment.endLine_ofSource]
  rfl

theorem lines?_strict_of_errors {source : String} (failed : (scan .strict source).errors ≠ []) :
    (scan .strict source).lines? = none := by
  cases errors : (scan .tolerant source).errors with
  | nil =>
    rw [scan_of_tolerant errors] at failed
    exact absurd errors failed
  | cons error others =>
    rw [scan_strict_of_error errors]
    rfl

namespace Session

theorem messages_after (events : List Event) (result : Run × Session) :
    (after events result).1.messages = events.filter Event.isMessage ++ result.1.messages := by
  simp [after, Run.messages]

theorem messages_scanned (count : Nat) (lines : List Nat) :
    (lines.map (Event.scanned count ·)).filter Event.isMessage =
      lines.map (Event.scanned count ·) := by
  simp [List.filter_eq_self, Event.isMessage, Event.log?]

theorem messages_runStatements (fuel : Nat) (session : Session) (statements : List Stmt) :
    ∃ steps, Leads session.environment.depth steps
        (session.runStatements fuel statements).2.environment.depth ∧
      (session.runStatements fuel statements).1.messages =
        statements.map (.statement ·.text) ++ .interpreting statements.length :: steps := by
  obtain ⟨since, events, leads⟩ := Stmt.logged_execAll fuel statements
    (State.emit ⟨session.environment, #[]⟩ (.interpreting statements.length))
  refine ⟨since.filter Event.isMessage, leads, ?_⟩
  have texts : (statements.map fun s => Event.statement s.text).filter Event.isMessage =
      statements.map fun s => Event.statement s.text := by
    simp [List.filter_eq_self, Event.isMessage, Event.log?]
  show (_ ++ (execute fuel statements ⟨session.environment, #[]⟩).2.events.toList).filter _ = _
  rw [execute, events, List.filter_append, List.filter_append, texts]
  rfl

abbrev Logs (mode : ScanMode) (source : String) : List Event → Prop :=
  RunLog mode (1 + source.toList.count '\n') (scan mode source) (parse (scan mode source).tokens)

theorem logs_of_scan_error (fuel : Nat) {session : Session} {source : String}
    (failed : (scan session.mode source).errors ≠ []) :
    Logs session.mode source (session.run fuel source).1.messages := by
  have messages : (session.run fuel source).1.messages =
      (scan session.mode source).lines?.toList.map
        (.scanned (scan session.mode source).tokens.length ·) := by
    obtain ⟨error, others, errors⟩ := List.exists_cons_of_ne_nil failed
    simp only [run, errors]
    rw [messages_after, messages_scanned]
    exact List.append_nil _
  rw [messages]
  cases mode : session.mode with
  | strict =>
    rw [mode] at failed
    rw [lines?_strict_of_errors failed]
    exact .aborted rfl failed
  | tolerant =>
    rw [mode] at failed
    rw [lines?_tolerant]
    exact .unscanned rfl failed

theorem messages_of_parse_error (fuel : Nat) (session : Session) {tokens : List Token}
    (failed : (parse tokens).errors ≠ []) :
    (session.runTokens fuel tokens).1.messages =
      [.accepted tokens.length,
        .parsed (parse tokens).statements.length (parse tokens).errors.length] := by
  obtain ⟨error, others, errors⟩ := List.exists_cons_of_ne_nil failed
  simp only [runTokens, errors]
  rw [messages_after]
  rfl

theorem messages_of_parsed (fuel : Nat) (session : Session) {tokens : List Token}
    (parsed : (parse tokens).errors = []) :
    ∃ steps, Leads session.environment.depth steps
        (session.runTokens fuel tokens).2.environment.depth ∧
      (session.runTokens fuel tokens).1.messages =
        [.accepted tokens.length, .parsed (parse tokens).statements.length 0] ++
          ((parse tokens).statements.map (.statement ·.text) ++
            .interpreting (parse tokens).statements.length :: steps) := by
  obtain ⟨steps, leads, messages⟩ := session.messages_runStatements fuel (parse tokens).statements
  refine ⟨steps, ?_, ?_⟩
  · simp only [runTokens, parsed]
    exact leads
  · simp only [runTokens, parsed]
    rw [messages_after, messages]
    rfl

theorem logs_of_scanned (fuel : Nat) {session : Session} {source : String}
    (scanned : (scan session.mode source).errors = [])
    (atGlobals : session.environment.depth = 1) :
    Logs session.mode source (session.run fuel source).1.messages := by
  have lines : (scan session.mode source).lines? = some (1 + source.toList.count '\n') := by
    rw [scan_of_tolerant (scan_of_clean scanned), lines?_tolerant]
  have whole : session.run fuel source =
      after [.scanned (scan session.mode source).tokens.length (1 + source.toList.count '\n')]
        (session.runTokens fuel (scan session.mode source).tokens) := by
    simp only [run, scanned, lines]
    rfl
  have depth := (session.depth_run fuel source).trans atGlobals
  rw [whole] at depth ⊢
  rw [messages_after]
  by_cases parsed : (parse (scan session.mode source).tokens).errors = []
  · obtain ⟨steps, leads, messages⟩ := messages_of_parsed fuel session parsed
    rw [atGlobals, show (session.runTokens fuel _).2.environment.depth = 1 from depth] at leads
    rw [messages]
    exact .executed scanned parsed leads
  · rw [messages_of_parse_error fuel session parsed]
    exact .unparsed scanned parsed

/-- A session that stands among its globals, as every session does at its start, logs each run in
this form and stands there again. -/
theorem run_logged (fuel : Nat) {session : Session} (atGlobals : session.environment.depth = 1)
    (source : String) :
    let run := (session.run fuel source).1
    RunLog session.mode (1 + source.toList.count '\n') (scan session.mode source)
        (parse (scan session.mode source).tokens) run.messages ∧
      run.logs.map some = run.messages.map Event.log? ∧
      (session.run fuel source).2.environment.depth = 1 := by
  intro run
  refine ⟨?_, run.logs_eq, (session.depth_run fuel source).trans atGlobals⟩
  by_cases scanned : (scan session.mode source).errors = []
  · exact logs_of_scanned fuel scanned atGlobals
  · exact logs_of_scan_error fuel scanned

/-- The loop fails in its second turn, two blocks deep, and both are left. -/
theorem run_logged_until_failure :
    let session : Session := ⟨.strict, ⟨⟨[("a", .string "x")], by decide⟩, []⟩⟩
    let source := "// twice\nwhile (a) { var b = a; { print b + b; a = true; } }"
    let run := (session.run 3 source).1
    session.environment.depth = 1 ∧
      run.failure? = some (.runtime ⟨⟨.plus, "+", none, 2⟩, .operandsNotAddable⟩) ∧
      RunLog .strict 2 (scan .strict source) (parse (scan .strict source).tokens) run.messages ∧
      run.messages = [.scanned 23 2, .accepted 23, .parsed 1 0,
        .statement "(while a (block (var b a) (block (print (+ b b)) (; (= a true)))))",
        .interpreting 1, .entered 2, .defined "b" (.string "x"), .entered 3, .left 2, .left 1,
        .entered 2, .defined "b" (.bool true), .entered 3, .left 2, .left 1] := by
  intro session source run
  have atGlobals : session.environment.depth = 1 := rfl
  have lines : 1 + source.toList.count '\n' = 2 := by decide +kernel
  obtain ⟨logged, -, -⟩ := run_logged 3 atGlobals source
  rw [lines] at logged
  exact ⟨atGlobals, by decide +kernel, logged, by decide +kernel⟩

end Session

end Lox

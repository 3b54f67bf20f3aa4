import Lox.Proofs.BigStep.Expression
import Lox.Proofs.Fuel
import Lox.Proofs.Piecewise

/-!
The semantics of statements as rules: how an execution ends, which texts it prints and which
environment it leaves. An execution that ends does so by these rules, and one that they derive ends.
-/

namespace Lox

def Stmt.leading? : Stmt → Option Expr
  | expression e | print e => some e
  | varDecl _ initial => initial
  | block _ => none
  | ifThen condition _ | ifElse condition _ _ | whileLoop condition _ => some condition

mutual

/-- A loop tests its condition again after each turn. An error ends everything, and what was printed
and bound before it remains. -/
inductive Executes :
    Stmt → Environment → Except RuntimeError Unit → List String → Environment → Prop
  | fails {statement e env error after} : statement.leading? = some e →
      Evaluates e env (.error error) after → Executes statement env (.error error) [] after
  | expression {e env value after} : Evaluates e env (.ok value) after →
      Executes (.expression e) env (.ok ()) [] after
  | print {e env value after} : Evaluates e env (.ok value) after →
      Executes (.print e) env (.ok ()) [value.text] after
  | declare {name env} :
      Executes (.varDecl name none) env (.ok ()) [] (env.define name.lexeme .nil)
  | define {name e env value after} : Evaluates e env (.ok value) after →
      Executes (.varDecl name (some e)) env (.ok ()) [] (after.define name.lexeme value)
  | block {body env result texts after} : ExecutesAll body env.push result texts after →
      Executes (.block body) env result texts after.pop
  | ifYes {condition yes env value middle result texts after} :
      Evaluates condition env (.ok value) middle → value.isTruthy = true →
      Executes yes middle result texts after →
      Executes (.ifThen condition yes) env result texts after
  | ifNo {condition yes env value after} :
      Evaluates condition env (.ok value) after → value.isTruthy = false →
      Executes (.ifThen condition yes) env (.ok ()) [] after
  | elseYes {condition yes no env value middle result texts after} :
      Evaluates condition env (.ok value) middle → value.isTruthy = true →
      Executes yes middle result texts after →
      Executes (.ifElse condition yes no) env result texts after
  | elseNo {condition yes no env value middle result texts after} :
      Evaluates condition env (.ok value) middle → value.isTruthy = false →
      Executes no middle result texts after →
      Executes (.ifElse condition yes no) env result texts after
  | whileEnds {condition body env value after} :
      Evaluates condition env (.ok value) after → value.isTruthy = false →
      Executes (.whileLoop condition body) env (.ok ()) [] after
  | whileFails {condition body env value middle error texts after} :
      Evaluates condition env (.ok value) middle → value.isTruthy = true →
      Executes body middle (.error error) texts after →
      Executes (.whileLoop condition body) env (.error error) texts after
  | whileTurn {condition body env value middle texts next result more after} :
      Evaluates condition env (.ok value) middle → value.isTruthy = true →
      Executes body middle (.ok ()) texts next →
      Executes (.whileLoop condition body) next result more after →
      Executes (.whileLoop condition body) env result (texts ++ more) after

inductive ExecutesAll :
    List Stmt → Environment → Except RuntimeError Unit → List String → Environment → Prop
  | nil {env} : ExecutesAll [] env (.ok ()) [] env
  | fails {statement others env error texts after} :
      Executes statement env (.error error) texts after →
      ExecutesAll (statement :: others) env (.error error) texts after
  | cons {statement others env texts middle result more after} :
      Executes statement env (.ok ()) texts middle → ExecutesAll others middle result more after →
      ExecutesAll (statement :: others) env result (texts ++ more) after

end

def Outcome.ofResult {ε : Type} : Except ε Unit → Outcome ε
  | .ok () => .finished
  | .error error => .failed error

namespace State

/-! What the steps of an execution print. -/

@[simp] theorem output_printed (state : State) (text : String) :
    (state.emit (.printed text)).output = state.output ++ [text] := by
  simp [output, emit, Event.output?]

@[simp] theorem output_interpreting (state : State) (count : Nat) :
    (state.emit (.interpreting count)).output = state.output := by
  simp [output, emit, Event.output?]

@[simp] theorem output_define (state : State) (name : Token) (value : Value) :
    (state.define name value).output = state.output := by
  simp [output, define, emit, Event.output?]

@[simp] theorem output_enter (state : State) : state.enter.output = state.output := by
  simp [output, enter, emit, Event.output?]

@[simp] theorem output_leave (state : State) : state.leave.output = state.output := by
  simp [output, leave, emit, Event.output?]

end State

/-- However the run ends, if it does, the rules allow it and what was printed since. -/
def Derived (allowed : Except RuntimeError Unit → List String → Environment → Prop)
    (before : List String) (run : Outcome RuntimeError × State) : Prop :=
  ∀ result, run.1 = .ofResult result →
    ∃ texts, allowed result texts run.2.environment ∧ run.2.output = before ++ texts

namespace Derived

variable {allowed : Except RuntimeError Unit → List String → Environment → Prop}
  {before : List String}

theorem finished {state : State} {texts : List String}
    (derived : allowed (.ok ()) texts state.environment) (output : state.output = before ++ texts) :
    Derived allowed before (.finished, state) := by
  rintro (error | _) ends
  · cases ends
  · exact ⟨texts, derived, output⟩

theorem failed {state : State} {error : RuntimeError} {texts : List String}
    (derived : allowed (.error error) texts state.environment)
    (output : state.output = before ++ texts) :
    Derived allowed before (.failed error, state) := by
  rintro (error | _) ends
  · cases ends
    exact ⟨texts, derived, output⟩
  · cases ends

theorem mono {run : Outcome RuntimeError × State}
    {other : Except RuntimeError Unit → List String → Environment → Prop}
    (derived : Derived other before run)
    (more : ∀ {result texts after}, other result texts after → allowed result texts after) :
    Derived allowed before run := by
  intro result ends
  obtain ⟨texts, holds, output⟩ := derived result ends
  exact ⟨texts, more holds, output⟩

theorem evaluate {state : State} {e : Expr} {next : Value → State → Outcome RuntimeError × State}
    (fails : ∀ {error after}, Evaluates e state.environment (.error error) after →
      allowed (.error error) [] after)
    (goesOn : ∀ {value after}, Evaluates e state.environment (.ok value) after →
      Derived allowed state.output (next value { state with environment := after })) :
    Derived allowed state.output (state.evaluate e next) := by
  have evaluated := e.evaluates_eval state.environment
  unfold State.evaluate
  generalize e.eval state.environment = run at evaluated ⊢
  obtain ⟨error | value, after⟩ := run
  · exact failed (fails evaluated) (List.append_nil _).symm
  · exact goesOn evaluated

theorem andThen {run : Outcome RuntimeError × State}
    {next : State → Outcome RuntimeError × State}
    {first : Except RuntimeError Unit → List String → Environment → Prop} :
    Derived first before run →
    (∀ {error texts after}, first (.error error) texts after →
      allowed (.error error) texts after) →
    (∀ {texts state}, first (.ok ()) texts state.environment →
      Derived (fun result more => allowed result (texts ++ more)) state.output (next state)) →
    Derived allowed before
      (match run with
        | (.finished, state) => next state
        | stopped => stopped) := by
  intro derived fails goesOn result ends
  obtain ⟨_ | error | _, state⟩ := run
  · obtain ⟨texts, holds, output⟩ := derived (.ok ()) rfl
    obtain ⟨more, rest, outputs⟩ := goesOn holds result ends
    refine ⟨texts ++ more, rest, ?_⟩
    rw [outputs, output, List.append_assoc]
  · obtain ⟨texts, holds, output⟩ := derived (.error error) rfl
    obtain rfl : result = .error error := by cases result <;> cases ends; rfl
    exact ⟨texts, fails holds, output⟩
  · cases result <;> cases ends

theorem loop {condition : Expr} {body : Stmt} {run : State → Outcome RuntimeError × State}
    (bodies : ∀ state, Derived (Executes body state.environment) state.output (run state))
    (turns : Nat) (state : State) :
    Derived (Executes (.whileLoop condition body) state.environment) state.output
      (state.loop condition run turns) := by
  -- on the turns that are left; the body keeps all of the fuel
  induction turns generalizing state with
  | zero => rintro (error | _) ends <;> cases ends
  | succ turns ih =>
    apply evaluate
    · exact fun failed => .fails rfl failed
    · intro value middle evaluated
      split
      · rename_i holds
        apply (bodies _).andThen
        · exact .whileFails evaluated holds
        · intro texts next turn
          exact (ih next).mono (.whileTurn evaluated holds turn)
      · rename_i ends
        exact finished (.whileEnds evaluated (by simpa using ends)) (List.append_nil _).symm

end Derived

namespace Stmt

mutual

theorem derived_exec (fuel : Nat) (statement : Stmt) (state : State) :
    Derived (Executes statement state.environment) state.output (statement.exec fuel state) := by
  cases statement with
  | expression e =>
    apply Derived.evaluate
    · exact .fails rfl
    · intro value after evaluated
      exact .finished (.expression evaluated) (List.append_nil _).symm
  | print e =>
    apply Derived.evaluate
    · exact .fails rfl
    · intro value after evaluated
      exact .finished (.print evaluated) (State.output_printed _ _)
  | varDecl name initial =>
    cases initial with
    | none => exact .finished .declare (by simp)
    | some e =>
      apply Derived.evaluate
      · exact .fails rfl
      · intro value after evaluated
        refine .finished (.define evaluated) ?_
        rw [State.output_define, List.append_nil]
        rfl
  | block body =>
    intro result ends
    obtain ⟨texts, inside, output⟩ := derived_execAll fuel body state.enter result ends
    refine ⟨texts, .block inside, ?_⟩
    rw [State.output_enter] at output
    exact (State.output_leave _).trans output
  | ifThen condition yes =>
    apply Derived.evaluate
    · exact .fails rfl
    · intro value after evaluated
      split
      · rename_i holds
        exact (derived_exec fuel yes _).mono (.ifYes evaluated holds)
      · rename_i fails
        exact .finished (.ifNo evaluated (by simpa using fails)) (List.append_nil _).symm
  | ifElse condition yes no =>
    apply Derived.evaluate
    · exact .fails rfl
    · intro value after evaluated
      split
      · rename_i holds
        exact (derived_exec fuel yes _).mono (.elseYes evaluated holds)
      · rename_i fails
        exact (derived_exec fuel no _).mono (.elseNo evaluated (by simpa using fails))
  | whileLoop condition body => exact Derived.loop (derived_exec fuel body) fuel state

theorem derived_execAll (fuel : Nat) (statements : List Stmt) (state : State) :
    Derived (ExecutesAll statements state.environment) state.output
      (execAll fuel statements state) := by
  cases statements with
  | nil => exact .finished .nil (List.append_nil _).symm
  | cons statement others =>
    apply (derived_exec fuel statement state).andThen
    · exact .fails
    · intro texts middle first
      exact (derived_execAll fuel others middle).mono (.cons first)

end

end Stmt

namespace Outcome

variable {ε : Type}

theorem ofResult_ne_outOfFuel (result : Except ε Unit) : ofResult result ≠ .outOfFuel := by
  cases result <;> exact nofun

theorem exists_eq_ofResult {outcome : Outcome ε} (ended : outcome ≠ .outOfFuel) :
    ∃ result, outcome = .ofResult result := by
  cases outcome with
  | finished => exact ⟨.ok (), rfl⟩
  | failed error => exact ⟨.error error, rfl⟩
  | outOfFuel => contradiction

end Outcome

theorem Stmt.exec_whileLoop (condition : Expr) (body : Stmt) (fuel : Nat) (state : State) :
    (whileLoop condition body).exec (fuel + 1) state =
      state.evaluate condition fun value state =>
        if value.isTruthy then
          match body.exec (fuel + 1) state with
          | (.finished, state) => state.loop condition (body.exec (fuel + 1)) fuel
          | stopped => stopped
        else (.finished, state) := rfl

structure Ends (run : Outcome RuntimeError × State) (before : List String)
    (result : Except RuntimeError Unit) (texts : List String) (after : Environment) : Prop where
  outcome : run.1 = .ofResult result
  environment : run.2.environment = after
  output : run.2.output = before ++ texts

namespace Ends

variable {run : Outcome RuntimeError × State} {before texts : List String}
  {result : Except RuntimeError Unit} {after : Environment}

theorem refines {other : Outcome RuntimeError × State} (ends : Ends run before result texts after)
    (refines : Refines run other) : Ends other before result texts after := by
  rwa [refines.eq (ends.outcome ▸ Outcome.ofResult_ne_outOfFuel result)]

theorem stop {error : RuntimeError} {next : State → Outcome RuntimeError × State} :
    Ends run before (.error error) texts after → Ends
      (match run with
        | (.finished, state) => next state
        | stopped => stopped)
      before (.error error) texts after := by
  intro first
  obtain ⟨outcome, state⟩ := run
  obtain rfl : outcome = .failed error := first.outcome
  exact first

theorem andThen {middle : Environment} {more : List String}
    {next : State → Outcome RuntimeError × State} :
    Ends run before (.ok ()) texts middle →
    (∀ state : State, state.environment = middle →
      Ends (next state) state.output result more after) → Ends
      (match run with
        | (.finished, state) => next state
        | stopped => stopped)
      before result (texts ++ more) after := by
  intro first rest
  obtain ⟨outcome, state⟩ := run
  obtain rfl : outcome = .finished := first.outcome
  have second := rest state first.environment
  refine ⟨second.outcome, second.environment, second.output.trans ?_⟩
  rw [show state.output = before ++ texts from first.output, List.append_assoc]

theorem evaluate {state : State} {e : Expr} {value : Value} {middle : Environment}
    {next : Value → State → Outcome RuntimeError × State}
    (evaluated : Evaluates e state.environment (.ok value) middle)
    (rest : Ends (next value { state with environment := middle }) before result texts after) :
    Ends (state.evaluate e next) before result texts after := by
  rwa [State.evaluate, evaluated.eval_eq]

theorem evaluateFails {state : State} {e : Expr} {error : RuntimeError}
    {next : Value → State → Outcome RuntimeError × State}
    (failed : Evaluates e state.environment (.error error) after) :
    Ends (state.evaluate e next) state.output (.error error) [] after := by
  rw [State.evaluate, failed.eval_eq]
  exact ⟨rfl, rfl, (List.append_nil _).symm⟩

theorem leading {statement : Stmt} {state : State} {e : Expr} {error : RuntimeError}
    (begins : statement.leading? = some e)
    (failed : Evaluates e state.environment (.error error) after) :
    Ends (statement.exec 1 state) state.output (.error error) [] after := by
  -- A loop may need fuel to test its condition at all.
  cases statement with
  | block body => cases begins
  | varDecl name initial =>
    obtain rfl : initial = some e := begins
    exact evaluateFails failed
  | whileLoop condition body =>
    obtain rfl : condition = e := Option.some.inj begins
    rw [Stmt.exec_whileLoop]
    exact evaluateFails failed
  | expression | print | ifThen | ifElse =>
    cases begins
    exact evaluateFails failed

end Ends

mutual

theorem Executes.ends {statement : Stmt} {env after : Environment}
    {result : Except RuntimeError Unit} {texts : List String} :
    Executes statement env result texts after → ∃ fuel, ∀ state : State,
      state.environment = env → Ends (statement.exec fuel state) state.output result texts after
  | .fails begins failed => by
    refine ⟨1, ?_⟩
    rintro state rfl
    exact .leading begins failed
  | .expression evaluated => by
    refine ⟨0, ?_⟩
    rintro state rfl
    exact .evaluate evaluated ⟨rfl, rfl, (List.append_nil _).symm⟩
  | .print evaluated => by
    refine ⟨0, ?_⟩
    rintro state rfl
    exact .evaluate evaluated ⟨rfl, rfl, State.output_printed _ _⟩
  | .declare => by
    refine ⟨0, ?_⟩
    rintro state rfl
    exact ⟨rfl, rfl, by simp [Stmt.exec]⟩
  | .define evaluated => by
    refine ⟨0, ?_⟩
    rintro state rfl
    exact .evaluate evaluated ⟨rfl, rfl, (State.output_define _ _ _).trans (List.append_nil _).symm⟩
  | .block inside => by
    obtain ⟨fuel, ends⟩ := inside.ends
    refine ⟨fuel, ?_⟩
    rintro state rfl
    obtain ⟨outcome, environment, output⟩ := ends state.enter rfl
    refine ⟨outcome, congrArg Environment.pop environment, (State.output_leave _).trans ?_⟩
    rw [output, State.output_enter]
  | .ifYes evaluated holds branch => by
    obtain ⟨fuel, ends⟩ := branch.ends
    refine ⟨fuel, ?_⟩
    rintro state rfl
    apply Ends.evaluate evaluated
    rw [if_pos holds]
    exact ends _ rfl
  | .ifNo evaluated fails => by
    refine ⟨0, ?_⟩
    rintro state rfl
    apply Ends.evaluate evaluated
    rw [if_neg (by simp [fails])]
    exact ⟨rfl, rfl, (List.append_nil _).symm⟩
  | .elseYes evaluated holds branch => by
    obtain ⟨fuel, ends⟩ := branch.ends
    refine ⟨fuel, ?_⟩
    rintro state rfl
    apply Ends.evaluate evaluated
    rw [if_pos holds]
    exact ends _ rfl
  | .elseNo evaluated fails branch => by
    obtain ⟨fuel, ends⟩ := branch.ends
    refine ⟨fuel, ?_⟩
    rintro state rfl
    apply Ends.evaluate evaluated
    rw [if_neg (by simp [fails])]
    exact ends _ rfl
  | .whileEnds evaluated fails => by
    refine ⟨1, ?_⟩
    rintro state rfl
    rw [Stmt.exec_whileLoop]
    apply Ends.evaluate evaluated
    rw [if_neg (by simp [fails])]
    exact ⟨rfl, rfl, (List.append_nil _).symm⟩
  | .whileFails evaluated holds turn => by
    obtain ⟨fuel, ends⟩ := turn.ends
    refine ⟨fuel + 1, ?_⟩
    rintro state rfl
    rw [Stmt.exec_whileLoop]
    apply Ends.evaluate evaluated
    rw [if_pos holds]
    exact ((ends _ rfl).refines (Stmt.refines_exec (Nat.le_succ fuel) _ _)).stop
  | .whileTurn evaluated holds turn rest => by
    obtain ⟨fuel, ends⟩ := turn.ends
    obtain ⟨more, endsAfter⟩ := rest.ends
    -- the fuel of a loop is also that of each turn
    refine ⟨max fuel more + 1, ?_⟩
    rintro state rfl
    rw [Stmt.exec_whileLoop]
    apply Ends.evaluate evaluated
    rw [if_pos holds]
    apply ((ends _ rfl).refines (Stmt.refines_exec (by omega) _ _)).andThen
    intro next same
    exact (endsAfter next same).refines
      (Refines.loop _ (Stmt.refines_exec (by omega) _) (by omega) next)

theorem ExecutesAll.ends {statements : List Stmt} {env after : Environment}
    {result : Except RuntimeError Unit} {texts : List String} :
    ExecutesAll statements env result texts after → ∃ fuel, ∀ state : State,
      state.environment = env →
        Ends (Stmt.execAll fuel statements state) state.output result texts after
  | .nil => by
    refine ⟨0, ?_⟩
    rintro state rfl
    exact ⟨rfl, rfl, (List.append_nil _).symm⟩
  | .fails first => by
    obtain ⟨fuel, ends⟩ := first.ends
    refine ⟨fuel, ?_⟩
    rintro state rfl
    exact (ends state rfl).stop
  | .cons first rest => by
    obtain ⟨fuel, ends⟩ := first.ends
    obtain ⟨more, endsAfter⟩ := rest.ends
    refine ⟨max fuel more, ?_⟩
    rintro state rfl
    apply ((ends state rfl).refines (Stmt.refines_exec (by omega) _ _)).andThen
    intro next same
    exact (endsAfter next same).refines (Stmt.refines_execAll (by omega) _ next)

end

theorem derived_execute (fuel : Nat) (statements : List Stmt) (start : State) :
    Derived (ExecutesAll statements start.environment) start.output
      (execute fuel statements start) := by
  have derived := Stmt.derived_execAll fuel statements (start.emit (.interpreting statements.length))
  rwa [State.output_interpreting] at derived

theorem ends_execute_iff {statements : List Stmt} {start : State}
    {result : Except RuntimeError Unit} {texts : List String} {after : Environment} :
    (∃ fuel, Ends (execute fuel statements start) start.output result texts after) ↔
      ExecutesAll statements start.environment result texts after := by
  constructor
  · rintro ⟨fuel, outcome, environment, output⟩
    obtain ⟨printed, derived, outputs⟩ := derived_execute fuel statements start result outcome
    obtain rfl := List.append_cancel_left (outputs.symm.trans output)
    exact environment ▸ derived
  · intro derived
    obtain ⟨fuel, ends⟩ := derived.ends
    refine ⟨fuel, ?_⟩
    rw [← State.output_interpreting start statements.length]
    exact ends _ rfl

/-- What an execution does, if it ends, is what the rules derive, with enough fuel for all that they
derive. Further fuel changes nothing, and none is enough just when they derive nothing. -/
theorem execution_iff_derivable (statements : List Stmt) (start : State) :
    (∀ result texts after,
      (∃ fuel final, execute fuel statements start = (.ofResult result, final) ∧
        final.output = start.output ++ texts ∧ final.environment = after) ↔
      ExecutesAll statements start.environment result texts after) ∧
    (∀ fuel more, fuel ≤ more → (execute fuel statements start).1 ≠ .outOfFuel →
      execute more statements start = execute fuel statements start) ∧
    ((∀ fuel, (execute fuel statements start).1 = .outOfFuel) ↔
      ¬∃ result texts after, ExecutesAll statements start.environment result texts after) := by
  refine ⟨?_, fun fuel more enough => (refines_execute enough statements start).eq, ?_⟩
  · intro result texts after
    rw [← ends_execute_iff]
    constructor
    · rintro ⟨fuel, final, ends, output, environment⟩
      exact ⟨fuel, by rw [ends], by rw [ends, environment], by rw [ends, output]⟩
    · rintro ⟨fuel, outcome, environment, output⟩
      exact ⟨fuel, _, Prod.ext outcome rfl, output, environment⟩
  · constructor
    · rintro exhausted ⟨result, texts, after, derived⟩
      obtain ⟨fuel, ends⟩ := ends_execute_iff.mpr derived
      exact Outcome.ofResult_ne_outOfFuel result (ends.outcome.symm.trans (exhausted fuel))
    · intro underivable fuel
      apply Classical.byContradiction
      intro ended
      obtain ⟨result, outcome⟩ := Outcome.exists_eq_ofResult ended
      obtain ⟨texts, derived, -⟩ := derived_execute fuel statements start result outcome
      exact underivable ⟨result, texts, _, derived⟩

/-- What a loop has printed and assigned remains when an error in its body ends it. -/
theorem derivable_of_failing_loop :
    let name (lexeme : String) : Token := ⟨.identifier, lexeme, none, 1⟩
    let body : Stmt := .block
      [.print (.var (name "a")), .expression (.assign (name "a") (.literal (.string "y"))),
        .print (.var (name "b"))]
    ExecutesAll [.whileLoop (.var (name "a")) body] (Environment.empty.define "a" (.string "x"))
      (.error ⟨name "b", .undefinedVariable⟩) ["x"]
      (Environment.empty.define "a" (.string "y")) := by
  intro name body
  have derivable := (execution_iff_derivable [.whileLoop (.var (name "a")) body]
    ⟨Environment.empty.define "a" (.string "x"), #[]⟩).1
  apply (derivable _ _ _).mp
  exact ⟨1, _, Prod.ext (by decide +kernel) rfl, by decide +kernel, by decide +kernel⟩

end Lox

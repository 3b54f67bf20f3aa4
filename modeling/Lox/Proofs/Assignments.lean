import Lox.Stmt.Exec

/-!
Which names a program assigns to. An evaluation changes its environment by assignments to these
names and by nothing else.
-/

namespace Lox

def Expr.assigned : Expr → List String
  | literal _ | var _ => []
  | grouping inner => inner.assigned
  | unary _ operand => operand.assigned
  | binary left _ right => left.assigned ++ right.assigned
  | assign name value => name.lexeme :: value.assigned
  | conditional condition yes no => condition.assigned ++ (yes.assigned ++ no.assigned)

namespace Stmt

mutual

def assigned : Stmt → List String
  | expression e => e.assigned
  | print e => e.assigned
  | varDecl _ none => []
  | varDecl _ (some initial) => initial.assigned
  | block body => assignedAll body
  | ifThen condition yes => condition.assigned ++ yes.assigned
  | ifElse condition yes no => condition.assigned ++ (yes.assigned ++ no.assigned)
  | whileLoop condition body => condition.assigned ++ body.assigned

def assignedAll : List Stmt → List String
  | [] => []
  | statement :: others => statement.assigned ++ assignedAll others

end

end Stmt

/-- What every assignment keeps is kept by the evaluation, also where it fails. -/
theorem Expr.kept_eval (e : Expr) (keeps : Environment → Environment → Prop)
    (refl : ∀ env, keeps env env)
    (trans : ∀ {before middle after}, keeps before middle → keeps middle after → keeps before after)
    (assigns : ∀ {name : Token} {value before after}, name.lexeme ∈ e.assigned →
      before.assign name value = .ok after → keeps before after) (env : Environment) :
    keeps env (e.eval env).2 := by
  induction e generalizing env with
  | literal value => exact refl env
  | grouping inner ih => exact ih assigns env
  | unary operator operand ih =>
    have inside := ih assigns env
    rw [eval]
    generalize operand.eval env = run at inside ⊢
    obtain ⟨_ | value, after⟩ := run <;> exact inside
  | binary left operator right leftIh rightIh =>
    have before := leftIh (fun member => assigns (List.mem_append_left _ member)) env
    rw [eval]
    generalize left.eval env = run at before ⊢
    obtain ⟨_ | first, middle⟩ := run
    · exact before
    · have after := rightIh (fun member => assigns (List.mem_append_right _ member)) middle
      simp only
      generalize right.eval middle = run at after ⊢
      obtain ⟨_ | second, after⟩ := run <;> exact trans before after
  | var name => exact refl env
  | assign name value ih =>
    have inside := ih (fun member => assigns (List.mem_cons_of_mem _ member)) env
    rw [eval]
    generalize value.eval env = run at inside ⊢
    obtain ⟨_ | value, middle⟩ := run
    · exact inside
    · cases assigned : middle.assign name value with
      | error error => simpa only [assigned] using inside
      | ok changed =>
        simpa only [assigned] using trans inside (assigns List.mem_cons_self assigned)
  | conditional condition yes no conditionIh yesIh noIh =>
    have before := conditionIh (fun member => assigns (List.mem_append_left _ member)) env
    rw [eval]
    generalize condition.eval env = run at before ⊢
    obtain ⟨_ | value, middle⟩ := run
    · exact before
    · simp only
      split
      · exact trans before (yesIh (fun member =>
          assigns (List.mem_append_right _ (List.mem_append_left _ member))) middle)
      · exact trans before (noIh (fun member =>
          assigns (List.mem_append_right _ (List.mem_append_right _ member))) middle)

/-! What holds when a part has been executed holds in the end, if what comes next keeps it. -/

namespace State

variable (holds : State → Prop)

theorem holds_evaluate {state : State} {e : Expr}
    {next : Value → State → Outcome RuntimeError × State}
    (evaluated : holds { state with environment := (e.eval state.environment).2 })
    (goesOn : ∀ value state, holds state → holds (next value state).2) :
    holds (state.evaluate e next).2 := by
  unfold evaluate
  generalize e.eval state.environment = run at evaluated ⊢
  obtain ⟨_ | value, env⟩ := run
  · exact evaluated
  · exact goesOn value { state with environment := env } evaluated

theorem holds_andThen {run : Outcome RuntimeError × State}
    {next : State → Outcome RuntimeError × State} (first : holds run.2)
    (goesOn : ∀ state, holds state → holds (next state).2) :
    holds
      (match run with
        | (.finished, state) => next state
        | stopped => stopped).2 := by
  obtain ⟨_ | error | _, state⟩ := run
  · exact goesOn state first
  · exact first
  · exact first

end State

end Lox

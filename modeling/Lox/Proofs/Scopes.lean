import Lox.Proofs.Assignments
import Lox.Session

/-!
What happens to the scopes during an execution, however it ends. Expressions change values only, and
each block that was entered is left; so all that remains is what was declared outside blocks, in the
innermost scope.
-/

namespace Lox

namespace Scope

theorem isSome_lookup_iff {name : String} {bindings : List (String × Value)} :
    (bindings.lookup name).isSome ↔ name ∈ bindings.map (·.1) := by
  induction bindings with
  | nil => simp
  | cons binding others ih =>
    obtain ⟨first, old⟩ := binding
    by_cases same : name = first
    · simp [same]
    · have unequal : (name == first) = false := by simpa using same
      simp [List.lookup_cons, unequal, same, ih]

theorem contains_iff {scope : Scope} {name : String} :
    scope.contains name ↔ name ∈ scope.names :=
  isSome_lookup_iff

theorem names_set (scope : Scope) (name : String) (value : Value) :
    (scope.set name value).names =
      if name ∈ scope.names then scope.names else scope.names ++ [name] :=
  names_bind name value scope.bindings

theorem names_set_of_contains {scope : Scope} {name : String} (bound : scope.contains name)
    (value : Value) : (scope.set name value).names = scope.names := by
  rw [names_set, if_pos (contains_iff.mp bound)]

theorem mem_names_set {scope : Scope} {name other : String} {value : Value} :
    other ∈ (scope.set name value).names ↔ other ∈ scope.names ∨ other = name := by
  rw [names_set]
  split
  · rename_i bound
    constructor
    · exact Or.inl
    · rintro (inside | rfl)
      · exact inside
      · exact bound
  · simp

end Scope

namespace Environment

/-- The names bound in each scope, from the innermost one outwards. -/
def names (env : Environment) : List (List String) := env.scopes.map Scope.names

theorem names_of_rebind? {name : String} {value : Value} {scopes changed : List Scope}
    (found : rebind? name value scopes = some changed) :
    changed.map Scope.names = scopes.map Scope.names := by
  induction scopes generalizing changed with
  | nil => simp [rebind?] at found
  | cons scope others ih =>
    rw [rebind?] at found
    split at found
    · rename_i bound
      cases found
      rw [List.map_cons, Scope.names_set_of_contains bound, List.map_cons]
    · obtain ⟨tail, tailFound, rfl⟩ := Option.map_eq_some_iff.mp found
      rw [List.map_cons, ih tailFound, List.map_cons]

theorem names_of_update? {env changed : Environment} {name : String} {value : Value}
    (found : env.update? name value = some changed) : changed.names = env.names := by
  unfold update? at found
  split at found
  · rename_i bound
    cases found
    simp [names, scopes, define, Scope.names_set_of_contains bound]
  · obtain ⟨enclosing, rebound, rfl⟩ := Option.map_eq_some_iff.mp found
    simp [names, scopes, names_of_rebind? rebound]

theorem names_of_assign {env changed : Environment} {name : Token} {value : Value}
    (done : env.assign name value = .ok changed) : changed.names = env.names := by
  unfold assign at done
  split at done
  · rename_i found
    cases done
    exact names_of_update? found
  · cases done

end Environment

theorem Expr.names_eval (e : Expr) (env : Environment) : (e.eval env).2.names = env.names :=
  e.kept_eval (fun before after => after.names = before.names) (fun _ => rfl)
    (fun first second => second.trans first) (fun _ => Environment.names_of_assign) env

def Stmt.declared : Stmt → List String
  | varDecl name _ => [name.lexeme]
  | ifThen _ yes => yes.declared
  | ifElse _ yes no => yes.declared ++ no.declared
  | whileLoop _ body => body.declared
  | _ => []

/-- No name was lost, and only the innermost scope has gained any, all of them among `names`. -/
structure Environment.Grows (names : List String) (before after : Environment) : Prop where
  enclosing : after.enclosing.map Scope.names = before.enclosing.map Scope.names
  kept : before.innermost.names ⊆ after.innermost.names
  gained : after.innermost.names ⊆ before.innermost.names ++ names

namespace Environment.Grows

variable {names : List String} {before middle after : Environment}

theorem of_names (names : List String) (same : after.names = before.names) :
    Grows names before after := by
  obtain ⟨innermost, enclosing⟩ := List.cons.inj same
  refine ⟨enclosing, ?_, ?_⟩
  · rw [innermost]
    exact List.Subset.refl _
  · rw [innermost]
    exact List.subset_append_left _ _

theorem trans (first : Grows names before middle) (second : Grows names middle after) :
    Grows names before after where
  enclosing := second.enclosing.trans first.enclosing
  kept := List.Subset.trans first.kept second.kept
  gained := by
    intro name member
    rcases List.mem_append.mp (second.gained member) with inMiddle | declared
    · exact first.gained inMiddle
    · exact List.mem_append_right _ declared

theorem mono {more : List String} (grows : Grows names before after) (fewer : names ⊆ more) :
    Grows more before after where
  enclosing := grows.enclosing
  kept := grows.kept
  gained := List.Subset.trans grows.gained (List.append_subset.mpr
    ⟨List.subset_append_left _ _, List.subset_append_of_subset_right _ fewer⟩)

theorem define (env : Environment) (name : String) (value : Value) :
    Grows [name] env (env.define name value) where
  enclosing := rfl
  kept := fun _ member => Scope.mem_names_set.mpr (Or.inl member)
  gained := fun other member => by
    simpa [or_comm] using Scope.mem_names_set.mp member

theorem depth (grows : Grows names before after) : after.depth = before.depth := by
  simpa [Environment.depth] using congrArg List.length grows.enclosing

theorem names_pop (inside : Grows names before.push after) : after.pop.names = before.names := by
  have enclosing : after.enclosing.map Scope.names = before.names := inside.enclosing
  rcases after with ⟨innermost, _ | ⟨outer, others⟩⟩
  · simp [Environment.names, scopes] at enclosing
  · exact enclosing

end Environment.Grows

open Environment (Grows)

namespace State

variable {names : List String}

theorem grows_evaluate {state : State} {e : Expr}
    {next : Value → State → Outcome RuntimeError × State}
    (goesOn : ∀ value state,
      Grows names state.environment (next value state).2.environment) :
    Grows names state.environment (state.evaluate e next).2.environment := by
  refine holds_evaluate (fun after => Grows names state.environment after.environment) ?_ ?_
  · exact .of_names names (e.names_eval state.environment)
  · exact fun value next evaluated => evaluated.trans (goesOn value next)

theorem grows_andThen {before : Environment} {run : Outcome RuntimeError × State}
    {next : State → Outcome RuntimeError × State}
    (first : Grows names before run.2.environment)
    (goesOn : ∀ state, Grows names state.environment (next state).2.environment) :
    Grows names before
      (match run with
        | (.finished, state) => next state
        | stopped => stopped).2.environment :=
  holds_andThen (fun after => Grows names before after.environment) first fun state grown =>
    grown.trans (goesOn state)

theorem grows_loop {condition : Expr} {body : State → Outcome RuntimeError × State}
    (bodyGrows : ∀ state, Grows names state.environment (body state).2.environment) (fuel : Nat)
    (state : State) :
    Grows names state.environment (state.loop condition body fuel).2.environment := by
  induction fuel generalizing state with
  | zero => exact .of_names names rfl
  | succ fuel ih =>
    refine grows_evaluate fun value state => ?_
    split
    · exact grows_andThen (bodyGrows state) ih
    · exact .of_names names rfl

end State

namespace Stmt

mutual

theorem grows_exec (fuel : Nat) (statement : Stmt) (state : State) :
    Grows statement.declared state.environment (statement.exec fuel state).2.environment := by
  cases statement with
  | expression e => exact State.grows_evaluate fun _ _ => .of_names _ rfl
  | print e => exact State.grows_evaluate fun _ _ => .of_names _ rfl
  | varDecl name initial =>
    cases initial with
    | none => exact .define _ _ _
    | some initial => exact State.grows_evaluate fun _ _ => .define _ _ _
  | block body => exact .of_names _ (grows_execAll fuel body state.enter).names_pop
  | ifThen condition yes =>
    refine State.grows_evaluate fun value state => ?_
    split
    · exact grows_exec fuel yes state
    · exact .of_names _ rfl
  | ifElse condition yes no =>
    refine State.grows_evaluate fun value state => ?_
    split
    · exact (grows_exec fuel yes state).mono (List.subset_append_left _ _)
    · exact (grows_exec fuel no state).mono (List.subset_append_right _ _)
  | whileLoop condition body => exact State.grows_loop (grows_exec fuel body) fuel state

theorem grows_execAll (fuel : Nat) (statements : List Stmt) (state : State) :
    Grows (statements.flatMap declared) state.environment
      (execAll fuel statements state).2.environment := by
  cases statements with
  | nil => exact .of_names _ rfl
  | cons statement others =>
    have first := (grows_exec fuel statement state).mono
      (List.subset_append_left _ (others.flatMap declared))
    exact State.grows_andThen first fun next =>
      (grows_execAll fuel others next).mono (List.subset_append_right _ _)

end

/-- Blocks leave all scopes with the names they had, also where they fail. -/
theorem names_exec_block (fuel : Nat) (body : List Stmt) (state : State) :
    ((block body).exec fuel state).2.environment.names = state.environment.names :=
  (grows_execAll fuel body state.enter).names_pop

end Stmt

namespace Session

theorem depth_run (fuel : Nat) (session : Session) (source : String) :
    (session.run fuel source).2.environment.depth = session.environment.depth := by
  unfold run runTokens
  simp only [after]
  split
  · split
    · exact (Stmt.grows_execAll fuel _ _).depth
    · rfl
  · rfl

theorem depth_runAll (fuel : Nat) (session : Session) (sources : List String) :
    (session.runAll fuel sources).2.environment.depth = session.environment.depth := by
  induction sources generalizing session with
  | nil => rfl
  | cons source others ih => exact (ih _).trans (session.depth_run fuel source)

end Session

/-- However executions end, they restore the scopes, up to what was declared outside blocks. So each
run of a session starts with the globals alone, whatever became of the runs before it. -/
theorem scopes_restored (fuel : Nat) :
    (∀ statements (state : State),
      let after := (execute fuel statements state).2.environment
      after.depth = state.environment.depth ∧
        Grows (statements.flatMap Stmt.declared) state.environment after) ∧
    (∀ body (state : State),
      ((Stmt.block body).exec fuel state).2.environment.names = state.environment.names) ∧
    ∀ mode sources, ((Session.start mode).runAll fuel sources).2.environment.depth = 1 := by
  refine ⟨?_, Stmt.names_exec_block fuel, fun mode sources => Session.depth_runAll fuel _ sources⟩
  intro statements state
  have grows := Stmt.grows_execAll fuel statements (state.emit (.interpreting statements.length))
  exact ⟨grows.depth, grows⟩

end Lox

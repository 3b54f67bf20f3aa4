import Lox.Proofs.Scopes
import Lox.Proofs.Shape

/-!
Static resolution of names. A declaration makes its name visible to the statements after it, up to
the end of the block; what is visible at an occurrence is just what is bound whenever an execution
comes to it. So an execution fails for want of a variable at the unresolved occurrences it comes to,
and nowhere else.
-/

namespace Lox

/-- A place where a variable is read or assigned. The path says which child to go to at each node;
of a list of statements, 0 is the first one and 1 all others. -/
structure Occurrence where
  path : List Nat
  name : Token

namespace Occurrence

def below (child : Nat) (occurrence : Occurrence) : Occurrence :=
  { occurrence with path := child :: occurrence.path }

@[simp] theorem name_below (child : Nat) (occurrence : Occurrence) :
    (occurrence.below child).name = occurrence.name := rfl

@[simp] theorem below_mem_map {child other : Nat} {occurrence : Occurrence}
    {occurrences : List Occurrence} :
    occurrence.below child ∈ occurrences.map (below other) ↔
      child = other ∧ occurrence ∈ occurrences := by
  obtain ⟨path, name⟩ := occurrence
  constructor
  · intro member
    obtain ⟨⟨_, _⟩, inside, same⟩ := List.mem_map.mp member
    simp only [below, mk.injEq, List.cons.injEq] at same
    obtain ⟨⟨rfl, rfl⟩, rfl⟩ := same
    exact ⟨rfl, inside⟩
  · rintro ⟨rfl, inside⟩
    exact List.mem_map_of_mem inside

@[simp] theorem here_not_mem_map {name : Token} {child : Nat} {occurrences : List Occurrence} :
    ⟨[], name⟩ ∉ occurrences.map (below child) := by
  simp [below]

def unlessVisible (visible : List String) (name : Token) : List Occurrence :=
  if name.lexeme ∈ visible then [] else [⟨[], name⟩]

@[simp] theorem below_not_mem_unlessVisible {child : Nat} {occurrence : Occurrence}
    {visible : List String} {name : Token} :
    occurrence.below child ∉ unlessVisible visible name := by
  unfold unlessVisible
  split <;> simp [below]

@[simp] theorem here_mem_unlessVisible {visible : List String} {name : Token} :
    ⟨[], name⟩ ∈ unlessVisible visible name ↔ name.lexeme ∉ visible := by
  unfold unlessVisible
  split <;> simp_all

end Occurrence

open Occurrence (below unlessVisible)

def Expr.unresolved (visible : List String) : Expr → List Occurrence
  | literal _ => []
  | grouping inner => (inner.unresolved visible).map (below 0)
  | unary _ operand => (operand.unresolved visible).map (below 0)
  | binary left _ right =>
    (left.unresolved visible).map (below 0) ++ (right.unresolved visible).map (below 1)
  | var name => unlessVisible visible name
  | assign name value => (value.unresolved visible).map (below 0) ++ unlessVisible visible name
  | conditional condition yes no =>
    (condition.unresolved visible).map (below 0) ++ (yes.unresolved visible).map (below 1) ++
      (no.unresolved visible).map (below 2)

namespace Stmt

mutual

def unresolved (visible : List String) : Stmt → List Occurrence
  | expression e => (e.unresolved visible).map (below 0)
  | print e => (e.unresolved visible).map (below 0)
  | varDecl _ none => []
  | varDecl _ (some initial) => (initial.unresolved visible).map (below 0)
  | block body => (unresolvedAll visible body).map (below 0)
  | ifThen condition yes =>
    (condition.unresolved visible).map (below 0) ++ (yes.unresolved visible).map (below 1)
  | ifElse condition yes no =>
    (condition.unresolved visible).map (below 0) ++ (yes.unresolved visible).map (below 1) ++
      (no.unresolved visible).map (below 2)
  | whileLoop condition body =>
    (condition.unresolved visible).map (below 0) ++ (body.unresolved visible).map (below 1)

/-- What a statement declares is visible in those after it, but not in its initial value. -/
def unresolvedAll (visible : List String) : List Stmt → List Occurrence
  | [] => []
  | statement :: others =>
    (statement.unresolved visible).map (below 0) ++
      (unresolvedAll (statement.declared ++ visible) others).map (below 1)

end

end Stmt

/-- The evaluation comes to an occurrence, and is about to read or assign its variable in the
environment reached by then. -/
inductive Expr.Reaches : Expr → Environment → Occurrence → Environment → Prop
  | grouping {inner env occurrence reached} : Reaches inner env occurrence reached →
      Reaches (.grouping inner) env (occurrence.below 0) reached
  | unary {operator operand env occurrence reached} : Reaches operand env occurrence reached →
      Reaches (.unary operator operand) env (occurrence.below 0) reached
  | left {left operator right env occurrence reached} : Reaches left env occurrence reached →
      Reaches (.binary left operator right) env (occurrence.below 0) reached
  | right {left operator right env first middle occurrence reached} :
      left.eval env = (.ok first, middle) → Reaches right middle occurrence reached →
      Reaches (.binary left operator right) env (occurrence.below 1) reached
  | var {name env} : Reaches (.var name) env ⟨[], name⟩ env
  | value {name value env occurrence reached} : Reaches value env occurrence reached →
      Reaches (.assign name value) env (occurrence.below 0) reached
  | assign {name value env v reached} : value.eval env = (.ok v, reached) →
      Reaches (.assign name value) env ⟨[], name⟩ reached
  | condition {condition yes no env occurrence reached} : Reaches condition env occurrence reached →
      Reaches (.conditional condition yes no) env (occurrence.below 0) reached
  | yes {condition yes no env v middle occurrence reached} :
      condition.eval env = (.ok v, middle) → v.isTruthy = true →
      Reaches yes middle occurrence reached →
      Reaches (.conditional condition yes no) env (occurrence.below 1) reached
  | no {condition yes no env v middle occurrence reached} :
      condition.eval env = (.ok v, middle) → v.isTruthy = false →
      Reaches no middle occurrence reached →
      Reaches (.conditional condition yes no) env (occurrence.below 2) reached

inductive State.Turns (condition : Expr) (body : Stmt) : State → State → Prop
  | none (state) : Turns condition body state state
  | turn {state value env fuel next last} :
      condition.eval state.environment = (.ok value, env) → value.isTruthy = true →
      body.exec fuel { state with environment := env } = (.finished, next) →
      Turns condition body next last → Turns condition body state last

namespace Stmt

mutual

/-- The execution comes to an occurrence, as in an evaluation. No fuel bounds how far it may go. -/
inductive Reaches : Stmt → State → Occurrence → Environment → Prop
  | expression {e state occurrence reached} : e.Reaches state.environment occurrence reached →
      Reaches (.expression e) state (occurrence.below 0) reached
  | print {e state occurrence reached} : e.Reaches state.environment occurrence reached →
      Reaches (.print e) state (occurrence.below 0) reached
  | initial {name initial state occurrence reached} :
      initial.Reaches state.environment occurrence reached →
      Reaches (.varDecl name (some initial)) state (occurrence.below 0) reached
  | block {body state occurrence reached} : ReachesAll body state.enter occurrence reached →
      Reaches (.block body) state (occurrence.below 0) reached
  | ifCondition {condition yes state occurrence reached} :
      condition.Reaches state.environment occurrence reached →
      Reaches (.ifThen condition yes) state (occurrence.below 0) reached
  | ifYes {condition yes state value env occurrence reached} :
      condition.eval state.environment = (.ok value, env) → value.isTruthy = true →
      Reaches yes { state with environment := env } occurrence reached →
      Reaches (.ifThen condition yes) state (occurrence.below 1) reached
  | elseCondition {condition yes no state occurrence reached} :
      condition.Reaches state.environment occurrence reached →
      Reaches (.ifElse condition yes no) state (occurrence.below 0) reached
  | elseYes {condition yes no state value env occurrence reached} :
      condition.eval state.environment = (.ok value, env) → value.isTruthy = true →
      Reaches yes { state with environment := env } occurrence reached →
      Reaches (.ifElse condition yes no) state (occurrence.below 1) reached
  | elseNo {condition yes no state value env occurrence reached} :
      condition.eval state.environment = (.ok value, env) → value.isTruthy = false →
      Reaches no { state with environment := env } occurrence reached →
      Reaches (.ifElse condition yes no) state (occurrence.below 2) reached
  | whileCondition {condition body state head occurrence reached} :
      State.Turns condition body state head →
      condition.Reaches head.environment occurrence reached →
      Reaches (.whileLoop condition body) state (occurrence.below 0) reached
  | whileBody {condition body state head value env occurrence reached} :
      State.Turns condition body state head →
      condition.eval head.environment = (.ok value, env) → value.isTruthy = true →
      Reaches body { head with environment := env } occurrence reached →
      Reaches (.whileLoop condition body) state (occurrence.below 1) reached

inductive ReachesAll : List Stmt → State → Occurrence → Environment → Prop
  | first {statement others state occurrence reached} :
      Reaches statement state occurrence reached →
      ReachesAll (statement :: others) state (occurrence.below 0) reached
  | others {statement others state fuel next occurrence reached} :
      statement.exec fuel state = (.finished, next) → ReachesAll others next occurrence reached →
      ReachesAll (statement :: others) state (occurrence.below 1) reached

end

end Stmt

namespace Environment

def boundNames (env : Environment) : List String := env.names.flatten

theorem find?_eq_none_iff {env : Environment} {name : String} :
    env.find? name = none ↔ name ∉ env.boundNames := by
  simp only [find?, List.findSome?_eq_none_iff, boundNames, names, List.mem_flatten, List.mem_map,
    not_exists, not_and]
  constructor
  · rintro unbound _ ⟨scope, member, rfl⟩ bound
    have found := Scope.contains_iff.mpr bound
    simp [Scope.contains, unbound scope member] at found
  · intro unbound scope member
    have missing := mt Scope.contains_iff.mp (unbound _ ⟨scope, member, rfl⟩)
    simpa [Scope.contains] using missing

theorem rebind?_eq_none_iff {name : String} {value : Value} {scopes : List Scope} :
    rebind? name value scopes = none ↔ ∀ scope ∈ scopes, scope.get? name = none := by
  induction scopes with
  | nil => simp [rebind?]
  | cons scope others ih =>
    rw [rebind?]
    split
    · rename_i bound
      obtain ⟨old, found⟩ := Option.isSome_iff_exists.mp bound
      simp [found]
    · rename_i unbound
      have missing : scope.get? name = none := by simpa [Scope.contains] using unbound
      simp [missing, ih]

theorem get_and_assign_of_unbound {env : Environment} {name : Token}
    (unbound : env.find? name.lexeme = none) :
    env.get name = .error ⟨name, .undefinedVariable⟩ ∧
      ∀ value, env.assign name value = .error ⟨name, .undefinedVariable⟩ := by
  refine ⟨by simp [get, unbound], fun value => ?_⟩
  have everywhere : ∀ scope ∈ env.scopes, scope.get? name.lexeme = none :=
    List.findSome?_eq_none_iff.mp unbound
  have outside : env.innermost.contains name.lexeme = false := by
    simp [Scope.contains, everywhere env.innermost (by simp [scopes])]
  have enclosing : rebind? name.lexeme value env.enclosing = none :=
    rebind?_eq_none_iff.mpr fun scope member => everywhere scope (by simp [scopes, member])
  simp [assign, update?, outside, enclosing]

theorem unbound_of_get {env : Environment} {name : Token} {error : RuntimeError}
    (failed : env.get name = .error error) :
    error.token = name ∧ env.find? name.lexeme = none := by
  unfold get at failed
  split at failed
  · cases failed
  · cases failed
    exact ⟨rfl, by assumption⟩

theorem unbound_of_assign {env : Environment} {name : Token} {value : Value} {error : RuntimeError}
    (failed : env.assign name value = .error error) :
    error.token = name ∧ env.find? name.lexeme = none := by
  unfold assign at failed
  split at failed
  · cases failed
  · rename_i missing
    cases failed
    refine ⟨rfl, List.findSome?_eq_none_iff.mpr ?_⟩
    unfold update? at missing
    split at missing
    · cases missing
    · rename_i outside
      have inner : env.innermost.get? name.lexeme = none := by
        simpa [Scope.contains] using outside
      have enclosing := rebind?_eq_none_iff.mp (Option.map_eq_none_iff.mp missing)
      simpa [scopes, inner] using enclosing

theorem mem_boundNames {env : Environment} {name : String} :
    name ∈ env.boundNames ↔
      name ∈ env.innermost.names ∨ name ∈ (env.enclosing.map Scope.names).flatten := by
  simp [boundNames, names, scopes]

theorem Grows.boundNames {names : List String} {before after : Environment}
    (grows : Grows names before after) {name : String} (bound : name ∈ after.boundNames) :
    name ∈ before.boundNames ∨ name ∈ names := by
  rw [mem_boundNames] at bound ⊢
  rcases bound with inner | outer
  · rcases List.mem_append.mp (grows.gained inner) with kept | declared
    · exact Or.inl (Or.inl kept)
    · exact Or.inr declared
  · exact Or.inl (Or.inr (grows.enclosing ▸ outer))

theorem Grows.boundNames_kept {names : List String} {before after : Environment}
    (grows : Grows names before after) {name : String} (bound : name ∈ before.boundNames) :
    name ∈ after.boundNames := by
  rw [mem_boundNames] at bound ⊢
  rcases bound with inner | outer
  · exact Or.inl (grows.kept inner)
  · exact Or.inr (grows.enclosing ▸ outer)

theorem mem_boundNames_define (env : Environment) (name : String) (value : Value) :
    name ∈ (env.define name value).boundNames :=
  mem_boundNames.mpr (Or.inl (Scope.mem_names_set.mpr (Or.inr rfl)))

/-- Just the names that are visible are bound. -/
def Sees (visible : List String) (env : Environment) : Prop :=
  ∀ name, name ∈ env.boundNames ↔ name ∈ visible

namespace Sees

variable {visible : List String} {env : Environment}

theorem of_names {other : Environment} (sees : Sees visible env) (same : other.names = env.names) :
    Sees visible other := by
  intro name
  rw [boundNames, same]
  exact sees name

theorem eval {e : Expr} {result : Except RuntimeError Value} {after : Environment}
    (sees : Sees visible env) (done : e.eval env = (result, after)) : Sees visible after := by
  have kept := e.names_eval env
  rw [done] at kept
  exact sees.of_names kept

theorem enter {state : State} (sees : Sees visible state.environment) :
    Sees visible state.enter.environment :=
  fun name => sees name

theorem unbound_iff (sees : Sees visible env) (name : String) :
    env.find? name = none ↔ name ∉ visible :=
  find?_eq_none_iff.trans (not_congr (sees name))

end Sees

end Environment

open Environment (Sees)

theorem Shaped.declared_eq_nil {statement : Stmt} (shaped : Shaped .branch statement) :
    statement.declared = [] := by
  generalize isBranch : Place.branch = place at shaped
  induction shaped with
  | varDecl _ _ => cases isBranch
  | ifThen _ _ yes => exact yes rfl
  | ifElse _ _ _ _ yes no => simp [Stmt.declared, yes rfl, no rfl]
  | whileLoop _ _ body => exact body rfl
  | _ => rfl

theorem State.finished_of_evaluate {state next : State} {e : Expr}
    {goesOn : Value → State → Outcome RuntimeError × State}
    (done : state.evaluate e goesOn = (.finished, next)) :
    ∃ value env, e.eval state.environment = (.ok value, env) ∧
      goesOn value { state with environment := env } = (.finished, next) := by
  unfold evaluate at done
  split at done
  · exact ⟨_, _, by assumption, done⟩
  · cases done

theorem Shaped.bound_of_finished {place : Place} {statement : Stmt}
    (shaped : Shaped place statement) {fuel : Nat} {state next : State}
    (done : statement.exec fuel state = (.finished, next)) {name : String}
    (declared : name ∈ statement.declared) : name ∈ next.environment.boundNames := by
  obtain ⟨token, initial, rfl, -⟩ | branch := Shaped.cases_listed shaped.listed
  · obtain rfl := List.mem_singleton.mp declared
    cases initial with
    | none =>
      cases done
      exact Environment.mem_boundNames_define _ _ _
    | some initial =>
      obtain ⟨value, env, -, defined⟩ := State.finished_of_evaluate done
      cases defined
      exact Environment.mem_boundNames_define _ _ _
  · rw [branch.declared_eq_nil] at declared
    cases declared

theorem Environment.Sees.exec {visible : List String} {place : Place} {statement : Stmt}
    {state next : State} (sees : Sees visible state.environment) (shaped : Shaped place statement)
    {fuel : Nat} (done : statement.exec fuel state = (.finished, next)) :
    Sees (statement.declared ++ visible) next.environment := by
  have grows := statement.grows_exec fuel state
  rw [done] at grows
  intro name
  rw [List.mem_append, ← sees name]
  constructor
  · intro bound
    exact (grows.boundNames bound).symm
  · rintro (declared | before)
    · exact shaped.bound_of_finished done declared
    · exact grows.boundNames_kept before

theorem Environment.Sees.turns {visible : List String} {condition : Expr} {body : Stmt}
    {state head : State} (turns : State.Turns condition body state head)
    (shaped : Shaped .branch body) (sees : Sees visible state.environment) :
    Sees visible head.environment := by
  induction turns with
  | none state => exact sees
  | turn evaluated _ done _ ih =>
    have inside := sees.eval evaluated
    have after := Sees.exec inside shaped done
    rw [shaped.declared_eq_nil] at after
    exact ih after

theorem Expr.Reaches.unresolved_iff {e : Expr} {env reached : Environment}
    {occurrence : Occurrence} (reaches : e.Reaches env occurrence reached) {visible : List String}
    (sees : Sees visible env) :
    occurrence ∈ e.unresolved visible ↔ reached.find? occurrence.name.lexeme = none := by
  induction reaches with
  | grouping _ ih | unary _ ih | left _ ih | value _ ih | condition _ ih =>
    simpa [unresolved] using ih sees
  | right evaluated _ ih => simpa [unresolved] using ih (sees.eval evaluated)
  | yes evaluated _ _ ih | no evaluated _ _ ih =>
    simpa [unresolved] using ih (sees.eval evaluated)
  | var => simpa [unresolved] using (sees.unbound_iff _).symm
  | assign evaluated => simpa [unresolved] using ((sees.eval evaluated).unbound_iff _).symm

namespace Stmt

mutual

theorem unresolved_iff (statement : Stmt) {visible : List String} {place : Place} {state : State}
    {occurrence : Occurrence} {reached : Environment} (shaped : Shaped place statement)
    (sees : Sees visible state.environment)
    (reaches : statement.Reaches state occurrence reached) :
    occurrence ∈ statement.unresolved visible ↔
      reached.find? occurrence.name.lexeme = none := by
  cases statement with
  | expression e | print e =>
    cases reaches with
    | _ reaches => simpa [unresolved] using reaches.unresolved_iff sees
  | varDecl name initial =>
    cases reaches with
    | initial reaches => simpa [unresolved] using reaches.unresolved_iff sees
  | block body =>
    cases shaped with
    | block shaped =>
    cases reaches with
    | block reaches => simpa [unresolved] using unresolvedAll_iff body shaped sees.enter reaches
  | ifThen condition yes =>
    cases shaped with
    | ifThen _ yesShaped =>
    cases reaches with
    | ifCondition reaches => simpa [unresolved] using reaches.unresolved_iff sees
    | ifYes evaluated _ reaches =>
      simpa [unresolved] using unresolved_iff yes yesShaped (sees.eval evaluated) reaches
  | ifElse condition yes no =>
    cases shaped with
    | ifElse _ yesShaped _ noShaped =>
    cases reaches with
    | elseCondition reaches => simpa [unresolved] using reaches.unresolved_iff sees
    | elseYes evaluated _ reaches =>
      simpa [unresolved] using unresolved_iff yes yesShaped (sees.eval evaluated) reaches
    | elseNo evaluated _ reaches =>
      simpa [unresolved] using unresolved_iff no noShaped (sees.eval evaluated) reaches
  | whileLoop condition body =>
    cases shaped with
    | whileLoop _ bodyShaped =>
    cases reaches with
    | whileCondition turns reaches =>
      simpa [unresolved] using reaches.unresolved_iff (sees.turns turns bodyShaped)
    | whileBody turns evaluated _ reaches =>
      have inside := (Sees.turns turns bodyShaped sees).eval evaluated
      simpa [unresolved] using unresolved_iff body bodyShaped inside reaches

theorem unresolvedAll_iff (statements : List Stmt) {visible : List String} {state : State}
    {occurrence : Occurrence} {reached : Environment}
    (shaped : ∀ statement ∈ statements, Shaped .listed statement)
    (sees : Sees visible state.environment)
    (reaches : ReachesAll statements state occurrence reached) :
    occurrence ∈ unresolvedAll visible statements ↔
      reached.find? occurrence.name.lexeme = none := by
  cases statements with
  | nil => cases reaches
  | cons statement others =>
    have first := shaped statement (by simp)
    cases reaches with
    | first reaches => simpa [unresolvedAll] using unresolved_iff statement first sees reaches
    | others done reaches =>
      have later := fun s member => shaped s (List.mem_cons_of_mem _ member)
      simpa [unresolvedAll] using unresolvedAll_iff others later (sees.exec first done) reaches

end

end Stmt

def FoundUnbound (reaches : Occurrence → Environment → Prop) (error : RuntimeError) : Prop :=
  ∃ occurrence env, reaches occurrence env ∧ occurrence.name = error.token ∧
    env.find? occurrence.name.lexeme = none

theorem FoundUnbound.below {inner outer : Occurrence → Environment → Prop} {error : RuntimeError}
    (child : Nat) (found : FoundUnbound inner error)
    (goesOn : ∀ {occurrence env}, inner occurrence env → outer (occurrence.below child) env) :
    FoundUnbound outer error := by
  obtain ⟨occurrence, env, reaches, unbound⟩ := found
  exact ⟨occurrence.below child, env, goesOn reaches, unbound⟩

theorem fault_of_applyUnary {operator : Token} {operand : Value} {error : RuntimeError}
    (failed : applyUnary operator operand = .error error) :
    error.fault ≠ .undefinedVariable := by
  unfold applyUnary at failed
  split at failed <;> cases failed <;> simp

theorem fault_of_applyNumeric {operator : Token} {x y : Float} {error : RuntimeError}
    (failed : applyNumeric operator x y = .error error) : error.fault ≠ .undefinedVariable := by
  unfold applyNumeric at failed
  split at failed
  case h_3 => split at failed <;> cases failed; simp
  all_goals cases failed
  simp

theorem fault_of_applyBinary {operator : Token} {left right : Value} {error : RuntimeError}
    (failed : applyBinary operator left right = .error error) :
    error.fault ≠ .undefinedVariable := by
  unfold applyBinary at failed
  split at failed
  · cases failed
  · cases failed
  · unfold add at failed
    split at failed <;> cases failed
    simp
  · split at failed
    · exact fault_of_applyNumeric failed
    · cases failed
      simp

theorem Expr.foundUnbound {e : Expr} {env after : Environment} {error : RuntimeError}
    (failed : e.eval env = (.error error, after)) (undefined : error.fault = .undefinedVariable) :
    FoundUnbound (e.Reaches env) error := by
  induction e generalizing env after with
  | literal value => cases failed
  | grouping inner ih => exact (ih failed).below 0 .grouping
  | unary operator operand ih =>
    rw [eval] at failed
    split at failed
    · simp only [Prod.mk.injEq] at failed
      exact absurd undefined (fault_of_applyUnary failed.1)
    · rename_i inside
      cases failed
      exact (ih inside).below 0 .unary
  | binary left operator right leftIh rightIh =>
    rw [eval] at failed
    split at failed
    · rename_i inside
      cases failed
      exact (leftIh inside).below 0 .left
    · rename_i first
      split at failed
      · rename_i inside
        cases failed
        exact (rightIh inside).below 1 (.right first)
      · simp only [Prod.mk.injEq] at failed
        exact absurd undefined (fault_of_applyBinary failed.1)
  | var name =>
    simp only [eval, Prod.mk.injEq] at failed
    obtain ⟨blamed, unbound⟩ := Environment.unbound_of_get failed.1
    exact ⟨_, _, .var, blamed.symm, unbound⟩
  | assign name value ih =>
    rw [eval] at failed
    split at failed
    · rename_i inside
      cases failed
      exact (ih inside).below 0 .value
    · rename_i evaluated
      split at failed
      · rename_i assigned
        cases failed
        obtain ⟨blamed, unbound⟩ := Environment.unbound_of_assign assigned
        exact ⟨_, _, .assign evaluated, blamed.symm, unbound⟩
      · cases failed
  | conditional condition yes no conditionIh yesIh noIh =>
    rw [eval] at failed
    split at failed
    · rename_i inside
      cases failed
      exact (conditionIh inside).below 0 .condition
    · rename_i evaluated
      split at failed
      · rename_i holds
        exact (yesIh failed).below 1 (.yes evaluated holds)
      · rename_i fails
        exact (noIh failed).below 2 (.no evaluated (by simpa using fails))

theorem State.failed_of_evaluate {state : State} {e : Expr}
    {goesOn : Value → State → Outcome RuntimeError × State} {error : RuntimeError}
    (failed : (state.evaluate e goesOn).1 = .failed error) :
    (∃ env, e.eval state.environment = (.error error, env)) ∨
      ∃ value env, e.eval state.environment = (.ok value, env) ∧
        (goesOn value { state with environment := env }).1 = .failed error := by
  unfold evaluate at failed
  split at failed
  · exact Or.inr ⟨_, _, by assumption, failed⟩
  · cases failed
    exact Or.inl ⟨_, by assumption⟩

theorem State.failed_of_loop {condition : Expr} {body : Stmt} {fuel turns : Nat} {state : State}
    {error : RuntimeError}
    (failed : (state.loop condition (body.exec fuel) turns).1 = .failed error) :
    ∃ head, Turns condition body state head ∧
      ((∃ env, condition.eval head.environment = (.error error, env)) ∨
        ∃ value env, condition.eval head.environment = (.ok value, env) ∧ value.isTruthy = true ∧
          (body.exec fuel { head with environment := env }).1 = .failed error) := by
  induction turns generalizing state with
  | zero => cases failed
  | succ turns ih =>
    rw [loop] at failed
    obtain inCondition | ⟨value, env, evaluated, failed⟩ := failed_of_evaluate failed
    · exact ⟨state, .none state, Or.inl inCondition⟩
    · split at failed
      · rename_i holds
        split at failed
        · rename_i done
          obtain ⟨head, turns, failed⟩ := ih failed
          exact ⟨head, .turn evaluated holds done turns, failed⟩
        · exact ⟨state, .none state, Or.inr ⟨value, env, evaluated, holds, failed⟩⟩
      · cases failed

namespace Stmt

mutual

theorem foundUnbound (statement : Stmt) {fuel : Nat} {state : State} {error : RuntimeError}
    (failed : (statement.exec fuel state).1 = .failed error)
    (undefined : error.fault = .undefinedVariable) :
    FoundUnbound (statement.Reaches state) error := by
  cases statement with
  | expression e =>
    obtain ⟨env, inside⟩ | ⟨_, _, _, failed⟩ := State.failed_of_evaluate failed
    · exact (Expr.foundUnbound inside undefined).below 0 .expression
    · cases failed
  | print e =>
    obtain ⟨env, inside⟩ | ⟨_, _, _, failed⟩ := State.failed_of_evaluate failed
    · exact (Expr.foundUnbound inside undefined).below 0 .print
    · cases failed
  | varDecl name initial =>
    cases initial with
    | none => cases failed
    | some initial =>
      obtain ⟨env, inside⟩ | ⟨_, _, _, failed⟩ := State.failed_of_evaluate failed
      · exact (Expr.foundUnbound inside undefined).below 0 .initial
      · cases failed
  | block body => exact (foundUnboundAll body failed undefined).below 0 .block
  | ifThen condition yes =>
    obtain ⟨env, inside⟩ | ⟨value, env, evaluated, failed⟩ := State.failed_of_evaluate failed
    · exact (Expr.foundUnbound inside undefined).below 0 .ifCondition
    · split at failed
      · rename_i holds
        exact (foundUnbound yes failed undefined).below 1 (.ifYes evaluated holds)
      · cases failed
  | ifElse condition yes no =>
    obtain ⟨env, inside⟩ | ⟨value, env, evaluated, failed⟩ := State.failed_of_evaluate failed
    · exact (Expr.foundUnbound inside undefined).below 0 .elseCondition
    · split at failed
      · rename_i holds
        exact (foundUnbound yes failed undefined).below 1 (.elseYes evaluated holds)
      · rename_i fails
        exact (foundUnbound no failed undefined).below 2 (.elseNo evaluated (by simpa using fails))
  | whileLoop condition body =>
    obtain ⟨head, turns, ⟨env, inside⟩ | ⟨value, env, evaluated, holds, failed⟩⟩ :=
      State.failed_of_loop failed
    · exact (Expr.foundUnbound inside undefined).below 0 (.whileCondition turns)
    · exact (foundUnbound body failed undefined).below 1 (.whileBody turns evaluated holds)

theorem foundUnboundAll (statements : List Stmt) {fuel : Nat} {state : State}
    {error : RuntimeError} (failed : (execAll fuel statements state).1 = .failed error)
    (undefined : error.fault = .undefinedVariable) :
    FoundUnbound (ReachesAll statements state) error := by
  cases statements with
  | nil => cases failed
  | cons statement others =>
    rw [execAll] at failed
    split at failed
    · rename_i done
      exact (foundUnboundAll others failed undefined).below 1 (.others done)
    · exact (foundUnbound statement failed undefined).below 0 .first

end

end Stmt

/-- Let the names be visible that are bound at the start. Then an execution that fails for want of a
variable has come to an unresolved occurrence of the name it blames; an execution that comes to an
unresolved occurrence can neither read nor assign; and if there is none, it never fails so. -/
theorem undefined_iff_unresolved (fuel : Nat) (tokens : List Token) (state : State) :
    let statements := (parse tokens).statements
    let start := state.emit (.interpreting statements.length)
    let unresolved := Stmt.unresolvedAll state.environment.boundNames statements
    (∀ error, (execute fuel statements state).1 = .failed error →
      error.fault = .undefinedVariable → ∃ occurrence ∈ unresolved,
        occurrence.name = error.token ∧ ∃ env, Stmt.ReachesAll statements start occurrence env) ∧
    (∀ occurrence ∈ unresolved, ∀ env, Stmt.ReachesAll statements start occurrence env →
      env.get occurrence.name = .error ⟨occurrence.name, .undefinedVariable⟩ ∧
        ∀ value, env.assign occurrence.name value =
          .error ⟨occurrence.name, .undefinedVariable⟩) ∧
    (unresolved = [] → ∀ error, (execute fuel statements state).1 = .failed error →
      error.fault ≠ .undefinedVariable) := by
  intro statements start unresolved
  have shaped : ∀ statement ∈ statements, Shaped .listed statement :=
    fun _ member => shaped_of_mem_statements member
  have sees : Sees state.environment.boundNames start.environment := fun _ => Iff.rfl
  have blamed : ∀ error, (execute fuel statements state).1 = .failed error →
      error.fault = .undefinedVariable → ∃ occurrence ∈ unresolved,
        occurrence.name = error.token ∧
          ∃ env, Stmt.ReachesAll statements start occurrence env := by
    intro error failed undefined
    obtain ⟨occurrence, env, reaches, name, unbound⟩ :=
      Stmt.foundUnboundAll statements failed undefined
    have missing := (Stmt.unresolvedAll_iff statements shaped sees reaches).mpr unbound
    exact ⟨occurrence, missing, name, env, reaches⟩
  refine ⟨blamed, ?_, ?_⟩
  · intro occurrence missing env reaches
    have unbound := (Stmt.unresolvedAll_iff statements shaped sees reaches).mp missing
    exact Environment.get_and_assign_of_unbound unbound
  · intro none error failed undefined
    obtain ⟨occurrence, missing, -⟩ := blamed error failed undefined
    rw [none] at missing
    cases missing

/-- A name is visible neither before its declaration nor in its own initial value. -/
example :
    let a := Token.name "a" 1
    (Stmt.unresolvedAll [] [.print (.var a), .varDecl a (some (.var a)), .print (.var a)]).map
      (·.path) = [[0, 0], [1, 0, 0]] := by
  decide

end Lox

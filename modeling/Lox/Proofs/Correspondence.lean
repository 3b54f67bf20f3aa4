import Lox.Proofs.Resolution
import Lox.Proofs.Simulation

/-!
Programs under other names for their variables, in environments that correspond under these names.
An execution reaches its variables through a few operations only, so what these make of two
environments decides what executions make of them.
-/

namespace Lox

def Token.rename (r : String → String) (token : Token) : Token :=
  { token with lexeme := r token.lexeme }

/-- Gives each variable its new name. Operators keep their lexemes. -/
def Expr.rename (r : String → String) : Expr → Expr
  | literal value => literal value
  | grouping inner => grouping (inner.rename r)
  | unary operator operand => unary operator (operand.rename r)
  | binary left operator right => binary (left.rename r) operator (right.rename r)
  | var name => var (name.rename r)
  | assign name value => assign (name.rename r) (value.rename r)
  | conditional condition yes no => conditional (condition.rename r) (yes.rename r) (no.rename r)

def Expr.mentioned : Expr → List String
  | literal _ => []
  | grouping inner => inner.mentioned
  | unary _ operand => operand.mentioned
  | binary left _ right => left.mentioned ++ right.mentioned
  | var name => [name.lexeme]
  | assign name value => name.lexeme :: value.mentioned
  | conditional condition yes no => condition.mentioned ++ (yes.mentioned ++ no.mentioned)

namespace Stmt

mutual

def rename (r : String → String) : Stmt → Stmt
  | expression e => expression (e.rename r)
  | print e => print (e.rename r)
  | varDecl name initial => varDecl (name.rename r) (initial.map (·.rename r))
  | block body => block (renameAll r body)
  | ifThen condition yes => ifThen (condition.rename r) (yes.rename r)
  | ifElse condition yes no => ifElse (condition.rename r) (yes.rename r) (no.rename r)
  | whileLoop condition body => whileLoop (condition.rename r) (body.rename r)

def renameAll (r : String → String) : List Stmt → List Stmt
  | [] => []
  | statement :: others => statement.rename r :: renameAll r others

end

theorem renameAll_eq_map (r : String → String) (statements : List Stmt) :
    renameAll r statements = statements.map (rename r) := by
  induction statements with
  | nil => rfl
  | cons statement others ih => rw [renameAll, ih, List.map_cons]

mutual

def mentioned : Stmt → List String
  | expression e => e.mentioned
  | print e => e.mentioned
  | varDecl name none => [name.lexeme]
  | varDecl name (some initial) => name.lexeme :: initial.mentioned
  | block body => mentionedAll body
  | ifThen condition yes => condition.mentioned ++ yes.mentioned
  | ifElse condition yes no => condition.mentioned ++ (yes.mentioned ++ no.mentioned)
  | whileLoop condition body => condition.mentioned ++ body.mentioned

def mentionedAll : List Stmt → List String
  | [] => []
  | statement :: others => statement.mentioned ++ mentionedAll others

end

end Stmt

/-- Only an undefined variable is told by its name. -/
def RuntimeError.rename (r : String → String) (error : RuntimeError) : RuntimeError :=
  if error.fault = .undefinedVariable then { error with token := error.token.rename r } else error

def Event.rename (r : String → String) : Event → Event
  | defined name value => defined (r name) value
  | event => event

/-- Environments that are alike as far as the names go, those of the second one being the new ones.
Nothing that is done under these names tells them apart or makes them differ. -/
structure Correspondence (r : String → String) (names : List String)
    (related : Environment → Environment → Prop) : Prop where
  depth : ∀ {left right}, related left right → right.depth = left.depth
  find? : ∀ {left right name}, name ∈ names → related left right →
    right.find? (r name) = left.find? name
  update? : ∀ {left right name} (value : Value), name ∈ names → related left right →
    Option.Rel related (left.update? name value) (right.update? (r name) value)
  define : ∀ {left right name} (value : Value), name ∈ names → related left right →
    related (left.define name value) (right.define (r name) value)
  push : ∀ {left right}, related left right → related left.push right.push
  pop : ∀ {left right}, related left right → related left.pop right.pop

/-- The same value, or the same error up to the renaming, with related environments. -/
inductive Answers (r : String → String) (related : Environment → Environment → Prop) :
    Except RuntimeError Value × Environment → Except RuntimeError Value × Environment → Prop
  | value {value left right} : related left right →
      Answers r related (.ok value, left) (.ok value, right)
  | error {error left right} : related left right →
      Answers r related (.error error, left) (.error (error.rename r), right)

section

variable {r : String → String} {names : List String}
  {related : Environment → Environment → Prop} {left right : Environment}

theorem Answers.of_known {result : Except RuntimeError Value}
    (known : ∀ error, result = .error error → error.fault ≠ .undefinedVariable)
    (same : related left right) : Answers r related (result, left) (result, right) := by
  cases result with
  | ok value => exact .value same
  | error error =>
    have kept : error.rename r = error := if_neg (known error rfl)
    have answer : Answers r related (.error error, left) (.error (error.rename r), right) :=
      .error same
    rwa [kept] at answer

namespace Correspondence

variable (correspondence : Correspondence r names related)

include correspondence

theorem get {name : Token} (inside : name.lexeme ∈ names) (same : related left right) :
    Answers r related (left.get name, left) (right.get (name.rename r), right) := by
  have found : right.find? (name.rename r).lexeme = left.find? name.lexeme :=
    correspondence.find? inside same
  rw [Environment.get, Environment.get, found]
  cases left.find? name.lexeme with
  | some value => exact .value same
  | none => exact .error same

theorem assign {name : Token} (inside : name.lexeme ∈ names) (value : Value)
    (same : related left right) :
    Answers r related ((Expr.assign name (.literal value)).eval left)
      ((Expr.assign (name.rename r) (.literal value)).eval right) := by
  have updated : Option.Rel related (left.update? name.lexeme value)
    (right.update? (name.rename r).lexeme value) := correspondence.update? value inside same
  simp only [Expr.eval, Environment.assign]
  generalize left.update? name.lexeme value = leftAfter,
    right.update? (name.rename r).lexeme value = rightAfter at updated ⊢
  cases updated with
  | some after => exact .value after
  | none => exact .error same

theorem eval (e : Expr) (inside : e.mentioned ⊆ names) (same : related left right) :
    Answers r related (e.eval left) ((e.rename r).eval right) := by
  -- By induction on the expression; what was related before a part is evaluated is so after it.
  induction e generalizing left right with
  | literal value => exact .value same
  | grouping inner ih => exact ih inside same
  | unary operator operand ih =>
    have operands := ih inside same
    rw [Expr.rename, Expr.eval, Expr.eval]
    generalize operand.eval left = run, (operand.rename r).eval right = other at operands ⊢
    cases operands with
    | value after => exact .of_known (fun _ => fault_of_applyUnary) after
    | error after => exact .error after
  | binary first operator second firstIh secondIh =>
    obtain ⟨inFirst, inSecond⟩ := List.append_subset.mp inside
    have firsts := firstIh inFirst same
    rw [Expr.rename, Expr.eval, Expr.eval]
    generalize first.eval left = run, (first.rename r).eval right = other at firsts ⊢
    cases firsts with
    | error middle => exact .error middle
    | @value value leftMiddle rightMiddle middle =>
      have seconds := secondIh inSecond middle
      simp only
      generalize second.eval leftMiddle = run, (second.rename r).eval rightMiddle = other
        at seconds ⊢
      cases seconds with
      | value after => exact .of_known (fun _ => fault_of_applyBinary) after
      | error after => exact .error after
  | var name => exact correspondence.get (inside (List.mem_singleton_self _)) same
  | assign name value ih =>
    obtain ⟨inName, inValue⟩ := List.cons_subset.mp inside
    have values := ih inValue same
    rw [Expr.rename, Expr.eval, Expr.eval]
    generalize value.eval left = run, (value.rename r).eval right = other at values ⊢
    cases values with
    | value after => exact correspondence.assign inName _ after
    | error after => exact .error after
  | conditional condition yes no conditionIh yesIh noIh =>
    obtain ⟨inCondition, inBranches⟩ := List.append_subset.mp inside
    obtain ⟨inYes, inNo⟩ := List.append_subset.mp inBranches
    have conditions := conditionIh inCondition same
    rw [Expr.rename, Expr.eval, Expr.eval]
    generalize condition.eval left = run, (condition.rename r).eval right = other at conditions ⊢
    cases conditions with
    | error after => exact .error after
    | value after =>
      simp only
      split
      · exact yesIh inYes after
      · exact noIh inNo after

end Correspondence

end

/-- Corresponding environments, and the same events up to the renaming. -/
structure State.Corresponds (r : String → String) (related : Environment → Environment → Prop)
    (left right : State) : Prop where
  environment : related left.environment right.environment
  events : right.events = left.events.map (Event.rename r)

section

variable {r : String → String} {names : List String}
  {related : Environment → Environment → Prop}

namespace State.Corresponds

variable {left right : State} (same : State.Corresponds r related left right)

include same

theorem emit (event : Event) :
    State.Corresponds r related (left.emit event) (right.emit (event.rename r)) :=
  ⟨same.environment, by simp [State.emit, same.events]⟩

theorem define (correspondence : Correspondence r names related) {name : Token}
    (inside : name.lexeme ∈ names) (value : Value) :
    State.Corresponds r related (left.define name value) (right.define (name.rename r) value) :=
  ⟨correspondence.define value inside same.environment, (same.emit (.defined _ value)).events⟩

theorem enter (correspondence : Correspondence r names related) :
    State.Corresponds r related left.enter right.enter := by
  have inside := correspondence.push same.environment
  have depth : right.environment.push.depth = left.environment.push.depth :=
    correspondence.depth inside
  exact ⟨inside, by simp [State.enter, State.emit, same.events, depth, Event.rename]⟩

theorem leave (correspondence : Correspondence r names related) :
    State.Corresponds r related left.leave right.leave := by
  have outside := correspondence.pop same.environment
  have depth : right.environment.pop.depth = left.environment.pop.depth :=
    correspondence.depth outside
  exact ⟨outside, by simp [State.leave, State.emit, same.events, depth, Event.rename]⟩

end State.Corresponds

namespace Correspondence

theorem evaluates (correspondence : Correspondence r names related) {e : Expr}
    (inside : e.mentioned ⊆ names) :
    EvaluatesLike (RuntimeError.rename r) (State.Corresponds r related) e (e.rename r) := by
  intro left right same
  have answers := correspondence.eval e inside same.environment
  generalize e.eval left.environment = run, (e.rename r).eval right.environment = other
    at answers ⊢
  cases answers with
  | value after => exact ⟨rfl, after, same.events⟩
  | error after => exact ⟨rfl, after, same.events⟩

theorem steps (correspondence : Correspondence r names related) :
    KeptBySteps (State.Corresponds r related) where
  print text same := same.emit (.printed text)
  enter same := same.enter correspondence
  leave same := same.leave correspondence

mutual

theorem alike (correspondence : Correspondence r names related) (statement : Stmt)
    (inside : statement.mentioned ⊆ names) :
    statement.Alike (RuntimeError.rename r) (State.Corresponds r related)
      (statement.rename r) := by
  cases statement with
  | expression e => exact .expression (correspondence.evaluates inside)
  | print e => exact .print (correspondence.evaluates inside)
  | varDecl name initial =>
    cases initial with
    | none =>
      exact .varDecl .none fun value _ _ same =>
        same.define correspondence (inside (List.mem_singleton_self _)) value
    | some initial =>
      obtain ⟨inName, inInitial⟩ := List.cons_subset.mp inside
      exact .varDecl (.some (correspondence.evaluates inInitial)) fun value _ _ same =>
        same.define correspondence inName value
  | block body => exact .block (correspondence.allAlike body inside)
  | ifThen condition yes =>
    obtain ⟨inCondition, inYes⟩ := List.append_subset.mp inside
    exact .ifThen (correspondence.evaluates inCondition) (correspondence.alike yes inYes)
  | ifElse condition yes no =>
    obtain ⟨inCondition, inBranches⟩ := List.append_subset.mp inside
    obtain ⟨inYes, inNo⟩ := List.append_subset.mp inBranches
    exact .ifElse (correspondence.evaluates inCondition) (correspondence.alike yes inYes)
      (correspondence.alike no inNo)
  | whileLoop condition body =>
    obtain ⟨inCondition, inBody⟩ := List.append_subset.mp inside
    exact .whileLoop (correspondence.evaluates inCondition) (correspondence.alike body inBody)

theorem allAlike (correspondence : Correspondence r names related) (statements : List Stmt)
    (inside : Stmt.mentionedAll statements ⊆ names) :
    Stmt.AllAlike (RuntimeError.rename r) (State.Corresponds r related) statements
      (Stmt.renameAll r statements) := by
  cases statements with
  | nil => exact .nil
  | cons statement others =>
    obtain ⟨inFirst, inOthers⟩ := List.append_subset.mp inside
    exact .cons (correspondence.alike statement inFirst) (correspondence.allAlike others inOthers)

end

theorem execute (correspondence : Correspondence r names related) (fuel : Nat)
    (statements : List Stmt) (inside : Stmt.mentionedAll statements ⊆ names) {left right : State}
    (same : State.Corresponds r related left right) :
    EndsLike (RuntimeError.rename r) (State.Corresponds r related)
      (Lox.execute fuel statements left)
      (Lox.execute fuel (Stmt.renameAll r statements) right) := by
  have counts : (Stmt.renameAll r statements).length = statements.length := by
    rw [Stmt.renameAll_eq_map, List.length_map]
  rw [Lox.execute, Lox.execute, counts]
  exact (correspondence.allAlike statements inside).execAll correspondence.steps fuel
    (same.emit (.interpreting _))

end Correspondence

end

end Lox

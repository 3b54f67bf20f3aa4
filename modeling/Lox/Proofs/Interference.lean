import Lox.Proofs.Bindings
import Lox.Proofs.Correspondence
import Lox.Scan

/-!
What a program does not mention does not matter to it, and what it neither declares nor assigns to
stays as it is.
-/

namespace Lox

theorem Expr.rename_id (e : Expr) : e.rename id = e := by
  induction e with
  | _ => simp_all [rename, Token.rename]

namespace Stmt

mutual

theorem rename_id (statement : Stmt) : statement.rename id = statement := by
  have inner := Expr.rename_id
  cases statement with
  | expression e | print e => simp only [rename, inner]
  | varDecl name initial => cases initial <;> simp [rename, Token.rename, inner]
  | block body => rw [rename, renameAll_id body]
  | ifThen condition yes => rw [rename, inner, yes.rename_id]
  | ifElse condition yes no => rw [rename, inner, yes.rename_id, no.rename_id]
  | whileLoop condition body => rw [rename, inner, body.rename_id]

theorem renameAll_id (statements : List Stmt) : renameAll id statements = statements := by
  cases statements with
  | nil => rfl
  | cons statement others => rw [renameAll, statement.rename_id, renameAll_id others]

end

end Stmt

theorem RuntimeError.rename_id : RuntimeError.rename id = id := by
  funext error
  unfold rename
  split <;> rfl

theorem Event.rename_id : Event.rename id = id := by
  funext event
  cases event <;> rfl

/-- As many scopes, and in each of them the same bindings of these names. -/
structure Environment.AgreeOn (names : List String) (left right : Environment) : Prop where
  depth : right.depth = left.depth
  bindings : ∀ name ∈ names, right.bindings name = left.bindings name

namespace Environment.AgreeOn

variable {names : List String} {left right : Environment}

theorem push (agree : AgreeOn names left right) : AgreeOn names left.push right.push where
  depth := congrArg (· + 1) agree.depth
  bindings name member := by rw [bindings_push, bindings_push, agree.bindings name member]

theorem pop (agree : AgreeOn names left right) : AgreeOn names left.pop right.pop where
  depth := by rw [depth_pop, depth_pop, agree.depth]
  bindings name member := by
    rw [bindings_pop, bindings_pop, agree.depth, agree.bindings name member]

theorem define (agree : AgreeOn names left right) (name : String) (value : Value) :
    AgreeOn names (left.define name value) (right.define name value) := by
  refine ⟨agree.depth, fun other member => ?_⟩
  by_cases same : other = name
  · subst same
    rw [bindings_define_self, bindings_define_self, agree.bindings other member]
  · rw [bindings_define_other same, bindings_define_other same, agree.bindings other member]

theorem find? (agree : AgreeOn names left right) {name : String} (member : name ∈ names) :
    right.find? name = left.find? name := by
  rw [find?_eq_findSome?_bindings, find?_eq_findSome?_bindings, agree.bindings name member]

theorem update? (agree : AgreeOn names left right) {name : String} (member : name ∈ names)
    (value : Value) :
    Option.Rel (AgreeOn names) (left.update? name value) (right.update? name value) := by
  have own : (right.update? name value).map (Environment.bindings name) =
      (left.update? name value).map (Environment.bindings name) := by
    rw [bindings_update?, bindings_update?, agree.bindings name member]
  cases leftFound : left.update? name value with
  | none =>
    rw [leftFound] at own
    rw [Option.map_eq_none_iff.mp own]
    exact .none
  | some leftAfter =>
    rw [leftFound] at own
    obtain ⟨rightAfter, rightFound, same⟩ := Option.map_eq_some_iff.mp own
    rw [rightFound]
    refine .some ⟨?_, fun other inside => ?_⟩
    · rw [depth_of_update? leftFound, depth_of_update? rightFound, agree.depth]
    · by_cases isName : other = name
      · rw [isName, same]
      · rw [bindings_of_update?_other leftFound isName, bindings_of_update?_other rightFound isName,
          agree.bindings other inside]

end Environment.AgreeOn

open Environment (AgreeOn Spares)

theorem correspondence_agreeOn (names : List String) :
    Correspondence id names (AgreeOn names) where
  depth := AgreeOn.depth
  find? member agree := agree.find? member
  update? value member agree := agree.update? member value
  define value _ agree := agree.define _ value
  push := AgreeOn.push
  pop := AgreeOn.pop

theorem Stmt.bindings_execAll (fuel : Nat) {statements : List Stmt} {name : String}
    (unassigned : name ∉ assignedAll statements) (undeclared : name ∉ statements.flatMap declared)
    (state : State) :
    (execAll fuel statements state).2.environment.bindings name =
      state.environment.bindings name := by
  have spared : Spares 0 name state.environment (execAll fuel statements state).2.environment :=
    spares_execAll fuel statements (fun member => absurd member undeclared)
      fun member => absurd member unassigned
  exact spared.beyond

/-- Environments that agree on all names that a program mentions cannot be told apart by it: it shows
the same in both, ends in the same way and after as many turns of its loops, and they still agree.
And a name that it neither assigns to nor declares outside blocks keeps its bindings in all scopes,
however the execution ends. -/
theorem unmentioned_names_are_inert (statements : List Stmt) (fuel : Nat) (events : Array Event) :
    (∀ left right, AgreeOn (Stmt.mentionedAll statements) left right →
      let first := execute fuel statements ⟨left, events⟩
      let second := execute fuel statements ⟨right, events⟩
      second.1 = first.1 ∧ second.2.events = first.2.events ∧
        AgreeOn (Stmt.mentionedAll statements) first.2.environment second.2.environment) ∧
    ∀ env name, name ∉ Stmt.assignedAll statements → name ∉ statements.flatMap Stmt.declared →
      (execute fuel statements ⟨env, events⟩).2.environment.bindings name =
        env.bindings name := by
  constructor
  · intro left right agree
    have start : State.Corresponds id (AgreeOn (Stmt.mentionedAll statements)) ⟨left, events⟩
        ⟨right, events⟩ := ⟨agree, by rw [Event.rename_id, Array.map_id]⟩
    have ends := (correspondence_agreeOn _).execute fuel statements (List.Subset.refl _) start
    rw [Stmt.renameAll_id] at ends
    obtain ⟨outcome, environment, shown⟩ := ends
    rw [RuntimeError.rename_id, Outcome.map_id] at outcome
    rw [Event.rename_id, Array.map_id] at shown
    exact ⟨outcome, shown, environment⟩
  · intro env name unassigned undeclared
    exact Stmt.bindings_execAll fuel unassigned undeclared (State.emit ⟨env, events⟩ _)

/-- A loop whose body declares a variable, and then a failure. The environments differ in the order of
the globals and in two names that do not occur. -/
theorem unmentioned_names_are_inert_in_loop :
    let statements := (parse (scan .tolerant
      "while (a < 2) { var b = a; a = b + 1; print b; } print c;").tokens).statements
    let left : Environment := ⟨⟨[("d", .nil)], by decide⟩,
      [⟨[("a", .number 0), ("b", .bool true)], by decide⟩]⟩
    let right : Environment :=
      ⟨.empty, [⟨[("b", .bool true), ("e", .string "globe"), ("a", .number 0)], by decide⟩]⟩
    AgreeOn (Stmt.mentionedAll statements) left right ∧
      (execute 3 statements ⟨left, #[]⟩).1 = .failed ⟨.name "c" 1, .undefinedVariable⟩ ∧
      (execute 3 statements ⟨right, #[]⟩).1 = (execute 3 statements ⟨left, #[]⟩).1 ∧
      (execute 3 statements ⟨right, #[]⟩).2.events = (execute 3 statements ⟨left, #[]⟩).2.events ∧
      "b" ∉ Stmt.assignedAll statements ∧ "b" ∉ statements.flatMap Stmt.declared ∧
      (execute 3 statements ⟨right, #[]⟩).2.environment.bindings "b" = right.bindings "b" := by
  intro statements left right
  have agree : AgreeOn (Stmt.mentionedAll statements) left right := ⟨rfl, by decide +kernel⟩
  have unassigned : "b" ∉ Stmt.assignedAll statements := by decide +kernel
  have undeclared : "b" ∉ statements.flatMap Stmt.declared := by decide +kernel
  obtain ⟨alike, inert⟩ := unmentioned_names_are_inert statements 3 #[]
  obtain ⟨outcome, events, -⟩ := alike left right agree
  exact ⟨agree, by decide +kernel, outcome, events, unassigned, undeclared,
    inert right "b" unassigned undeclared⟩

end Lox

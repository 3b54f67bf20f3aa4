import Lox.Grammar.Program
import Lox.Proofs.Scopes
import Lox.Scan

/-!
A declaration shields what its name is bound to further out. Once a name is bound in one of the
innermost scopes, assignments to it reach no other scope; and before that, no scope changes to whose
names nothing is assigned.
-/

namespace Lox

namespace Environment

def Covers (inner : Nat) (name : String) (env : Environment) : Prop :=
  ∃ names ∈ env.names.take inner, name ∈ names

def beyond (inner : Nat) (name : String) (env : Environment) : List (Option Value) :=
  (env.scopes.drop inner).map (·.get? name)

theorem rebind?_scopes (env : Environment) (name : String) (value : Value) :
    rebind? name value env.scopes = (env.update? name value).map scopes := by
  unfold update?
  rw [scopes, rebind?]
  split
  · rfl
  · rw [Option.map_map]
    rfl

theorem get?_of_rebind? {name other : String} {value : Value} {scopes changed : List Scope}
    (found : rebind? other value scopes = some changed) {inner : Nat}
    (covered : other = name → ∃ names ∈ (scopes.map Scope.names).take inner, name ∈ names) :
    (changed.drop inner).map (·.get? name) = (scopes.drop inner).map (·.get? name) := by
  induction scopes generalizing changed inner with
  | nil => cases found
  | cons scope others ih =>
    rw [rebind?] at found
    split at found
    · cases found
      cases inner with
      | zero =>
        have different : name ≠ other := fun same => by simpa using covered same.symm
        rw [List.drop_zero, List.map_cons, Scope.get?_set_other different]
        rfl
      | succ inner => rfl
    · rename_i unbound
      obtain ⟨tail, tailFound, rfl⟩ := Option.map_eq_some_iff.mp found
      cases inner with
      | zero =>
        have different : other ≠ name := fun same => by simpa using covered same
        have same : (tail.drop 0).map _ = (others.drop 0).map _ :=
          ih tailFound fun same => absurd same different
        exact congrArg (scope.get? name :: ·) same
      | succ inner =>
        refine ih tailFound fun same => ?_
        obtain ⟨names, member, bound⟩ := covered same
        rcases List.mem_cons.mp member with rfl | later
        · exact absurd (Scope.contains_iff.mpr (same ▸ bound)) unbound
        · exact ⟨names, later, bound⟩

/-- Beyond the innermost scopes the name keeps its bindings, and within them it stays bound. -/
structure Spares (inner : Nat) (name : String) (before after : Environment) : Prop where
  beyond : after.beyond inner name = before.beyond inner name
  covers : before.Covers inner name → after.Covers inner name

namespace Spares

variable {inner : Nat} {name : String} {before middle after : Environment}

theorem refl (env : Environment) : Spares inner name env env := ⟨rfl, id⟩

theorem trans (first : Spares inner name before middle) (second : Spares inner name middle after) :
    Spares inner name before after :=
  ⟨second.beyond.trans first.beyond, second.covers ∘ first.covers⟩

theorem of_assign {token : Token} {value : Value}
    (assigned : before.assign token value = .ok after)
    (covered : token.lexeme = name → before.Covers inner name) :
    Spares inner name before after := by
  have names := names_of_assign assigned
  refine ⟨?_, by rw [Covers, Covers, names]; exact id⟩
  unfold assign at assigned
  split at assigned
  · rename_i found
    cases assigned
    have rebound := rebind?_scopes before token.lexeme value
    rw [found] at rebound
    exact get?_of_rebind? rebound covered
  · cases assigned

theorem define {other : String} (apart : other = name → 0 < inner) (value : Value) :
    Spares inner name before (before.define other value) := by
  have grows := Grows.define before other value
  cases inner with
  | zero =>
    have different : name ≠ other := fun same => absurd (apart same.symm) (Nat.lt_irrefl 0)
    refine ⟨?_, by rintro ⟨_, member, _⟩; cases member⟩
    simp [Environment.beyond, scopes, Environment.define, Scope.get?_set_other different]
  | succ inner =>
    refine ⟨rfl, ?_⟩
    rintro ⟨names, member, bound⟩
    rcases List.mem_cons.mp member with rfl | outer
    · exact ⟨_, List.mem_cons_self, grows.kept bound⟩
    · exact ⟨names, List.mem_cons_of_mem _ outer, bound⟩

theorem block {names : List String} (inside : Spares (inner + 1) name before.push after)
    (grows : Grows names before.push after) : Spares inner name before after.pop := by
  have same := grows.names_pop
  refine ⟨?_, by rw [Covers, Covers, same]; exact id⟩
  have beyond : (after.enclosing.drop inner).map (·.get? name) = before.beyond inner name :=
    inside.beyond
  rcases after with ⟨innermost, _ | ⟨outer, others⟩⟩
  · have length := congrArg List.length grows.enclosing
    simp [push, scopes] at length
  · exact beyond

end Spares

end Environment

open Environment (Covers Spares Grows)

theorem Expr.spares_eval {inner : Nat} {name : String} (e : Expr) {env : Environment}
    (covered : name ∈ e.assigned → env.Covers inner name) :
    Spares inner name env (e.eval env).2 := by
  refine e.kept_eval (fun before after =>
    (name ∈ e.assigned → before.Covers inner name) → Spares inner name before after)
    ?_ ?_ ?_ env covered
  · exact fun env _ => .refl env
  · intro before middle after first second covered
    exact (first covered).trans (second fun member => (first covered).covers (covered member))
  · intro target value before after member assigned covered
    exact .of_assign assigned fun same => covered (same ▸ member)

namespace State

variable {inner : Nat} {name : String}

theorem spares_evaluate {state : State} {e : Expr}
    {next : Value → State → Outcome RuntimeError × State}
    (covered : name ∈ e.assigned → state.environment.Covers inner name)
    (goesOn : ∀ value state', Spares inner name state.environment state'.environment →
      Spares inner name state'.environment (next value state').2.environment) :
    Spares inner name state.environment (state.evaluate e next).2.environment :=
  holds_evaluate (fun after => Spares inner name state.environment after.environment)
    (e.spares_eval covered) fun value next evaluated => evaluated.trans (goesOn value next evaluated)

theorem spares_andThen {before : Environment} {run : Outcome RuntimeError × State}
    {next : State → Outcome RuntimeError × State}
    (first : Spares inner name before run.2.environment)
    (goesOn : ∀ state, Spares inner name before state.environment →
      Spares inner name state.environment (next state).2.environment) :
    Spares inner name before
      (match run with
        | (.finished, state) => next state
        | stopped => stopped).2.environment :=
  holds_andThen (fun after => Spares inner name before after.environment) first fun state spared =>
    spared.trans (goesOn state spared)

theorem spares_loop {condition : Expr} {body : State → Outcome RuntimeError × State}
    {names : List String}
    (bodies : ∀ state, (name ∈ names → state.environment.Covers inner name) →
      Spares inner name state.environment (body state).2.environment)
    (fuel : Nat) {state : State}
    (covered : name ∈ condition.assigned ++ names → state.environment.Covers inner name) :
    Spares inner name state.environment (state.loop condition body fuel).2.environment := by
  induction fuel generalizing state with
  | zero => exact .refl _
  | succ fuel ih =>
    refine spares_evaluate (fun member => covered (List.mem_append_left _ member)) ?_
    intro value next tested
    split
    · refine spares_andThen (bodies next fun member =>
        tested.covers (covered (List.mem_append_right _ member))) ?_
      intro last turned
      exact ih fun member => turned.covers (tested.covers (covered member))
    · exact .refl _

end State

namespace Stmt

variable {name : String}

mutual

theorem spares_exec (fuel : Nat) (statement : Stmt) {inner : Nat} {state : State}
    (declared : name ∈ statement.declared → 0 < inner)
    (covered : name ∈ statement.assigned → state.environment.Covers inner name) :
    Spares inner name state.environment (statement.exec fuel state).2.environment := by
  cases statement with
  | expression e => exact State.spares_evaluate covered fun _ _ _ => .refl _
  | print e => exact State.spares_evaluate covered fun _ _ _ => .refl _
  | varDecl other initial =>
    have apart : other.lexeme = name → 0 < inner := fun same =>
      declared (same ▸ List.mem_singleton_self _)
    cases initial with
    | none => exact .define apart _
    | some initial => exact State.spares_evaluate covered fun value _ _ => .define apart value
  | block body =>
    have inside : Spares (inner + 1) name state.enter.environment
        (execAll fuel body state.enter).2.environment := by
      apply spares_execAll fuel body
      · exact fun _ => Nat.succ_pos inner
      · intro member
        obtain ⟨names, inInner, bound⟩ := covered member
        exact ⟨names, List.mem_cons_of_mem _ inInner, bound⟩
    exact .block inside (grows_execAll fuel body state.enter)
  | ifThen condition yes =>
    refine State.spares_evaluate (fun member => covered (List.mem_append_left _ member)) ?_
    intro value next tested
    split
    · exact spares_exec fuel yes declared fun member =>
        tested.covers (covered (List.mem_append_right _ member))
    · exact .refl _
  | ifElse condition yes no =>
    refine State.spares_evaluate (fun member => covered (List.mem_append_left _ member)) ?_
    intro value next tested
    have branches : name ∈ yes.assigned ++ no.assigned → next.environment.Covers inner name :=
      fun member => tested.covers (covered (List.mem_append_right _ member))
    split
    · exact spares_exec fuel yes (fun member => declared (List.mem_append_left _ member))
        fun member => branches (List.mem_append_left _ member)
    · exact spares_exec fuel no (fun member => declared (List.mem_append_right _ member))
        fun member => branches (List.mem_append_right _ member)
  | whileLoop condition body =>
    exact State.spares_loop (fun state => spares_exec fuel body declared) fuel covered

theorem spares_execAll (fuel : Nat) (statements : List Stmt) {inner : Nat} {state : State}
    (declared : name ∈ statements.flatMap declared → 0 < inner)
    (covered : name ∈ assignedAll statements → state.environment.Covers inner name) :
    Spares inner name state.environment (execAll fuel statements state).2.environment := by
  cases statements with
  | nil => exact .refl _
  | cons statement others =>
    refine State.spares_andThen (spares_exec fuel statement
      (fun member => declared (List.mem_append_left _ member))
      fun member => covered (List.mem_append_left _ member)) ?_
    intro next first
    exact spares_execAll fuel others (fun member => declared (List.mem_append_right _ member))
      fun member => first.covers (covered (List.mem_append_right _ member))

end

theorem spares_declaration (fuel : Nat) {token : Token} {initial : Option Expr} {state : State}
    (unassigned : ∀ e ∈ initial, token.lexeme ∉ e.assigned) (others : List Stmt) :
    Spares 1 token.lexeme state.environment
      (execAll fuel (varDecl token initial :: others) state).2.environment := by
  have goesOn : ∀ value (state : State), Spares 1 token.lexeme state.environment
      (execAll fuel others (state.define token value)).2.environment := by
    intro value state
    have bound : (state.define token value).environment.Covers 1 token.lexeme :=
      ⟨_, List.mem_cons_self, Scope.mem_names_set.mpr (Or.inr rfl)⟩
    have defined : Spares 1 token.lexeme state.environment (state.define token value).environment :=
      .define (fun _ => Nat.one_pos) value
    exact defined.trans (spares_execAll fuel others (fun _ => Nat.one_pos) fun _ => bound)
  rw [execAll]
  cases initial with
  | none => exact goesOn .nil state
  | some e =>
    have evaluated : Spares 1 token.lexeme state.environment (e.eval state.environment).2 :=
      e.spares_eval fun member => absurd member (unassigned e rfl)
    rw [exec, State.evaluate]
    generalize e.eval state.environment = run at evaluated ⊢
    obtain ⟨_ | value, env⟩ := run
    · exact evaluated
    · exact evaluated.trans (goesOn value { state with environment := env })

end Stmt

/-- A block in which a name is declared before anything is assigned to it leaves the name as it was
in every scope around the block, however the execution ends. -/
theorem shadowing_protects {name : Token} {initial : Option Expr} {before : List Stmt}
    (unassigned : name.lexeme ∉ Stmt.assignedAll before)
    (initialUnassigned : ∀ e ∈ initial, name.lexeme ∉ e.assigned) (others : List Stmt) (fuel : Nat)
    (state : State) :
    ((Stmt.block (before ++ .varDecl name initial :: others)).exec fuel
        state).2.environment.scopes.map (·.get? name.lexeme) =
      state.environment.scopes.map (·.get? name.lexeme) := by
  have inside : Spares 1 name.lexeme state.enter.environment
      (Stmt.execAll fuel (before ++ .varDecl name initial :: others)
        state.enter).2.environment := by
    rw [Stmt.execAll_append]
    apply State.spares_andThen
    · exact Stmt.spares_execAll fuel before (fun _ => Nat.one_pos) fun member =>
        absurd member unassigned
    · exact fun next _ => Stmt.spares_declaration fuel initialUnassigned others
  have kept : Spares 0 name.lexeme state.environment
      ((Stmt.block _).exec fuel state).2.environment :=
    .block inside (Stmt.grows_execAll fuel _ state.enter)
  exact kept.beyond

/-- A loop in the block stops at a fault after it assigned to the inner variable. -/
theorem shadowing_protects_until_failure :
    let name : Token := ⟨.identifier, "a", none, 1⟩
    let initial : Option Expr := some (.var ⟨.identifier, "b", none, 1⟩)
    let before := (parse (scan .tolerant "b = a; print a;").tokens).statements
    let others := (parse (scan .tolerant
      "a = nil; { while (b) { a = false; b = -a; var a = 1; } }").tokens).statements
    let state : State :=
      ⟨⟨⟨[("b", .nil)], by decide⟩, [⟨[("a", .bool true)], by decide⟩,
        ⟨[("b", .nil), ("a", .string "globe")], by decide⟩]⟩, #[]⟩
    let run := (Stmt.block (before ++ .varDecl name initial :: others)).exec 2 state
    name.lexeme ∉ Stmt.assignedAll before ∧ (∀ e ∈ initial, name.lexeme ∉ e.assigned) ∧
      name.lexeme ∈ Stmt.assignedAll others ∧
      run.1 = .failed ⟨⟨.minus, "-", none, 1⟩, .operandNotNumber⟩ ∧
      run.2.environment.scopes.map (·.get? name.lexeme) =
        [none, some (.bool true), some (.string "globe")] := by
  intro name initial before others state run
  have unassigned : name.lexeme ∉ Stmt.assignedAll before := by decide +kernel
  have initialUnassigned : ∀ e ∈ initial, name.lexeme ∉ e.assigned := by decide +kernel
  refine ⟨unassigned, initialUnassigned, by decide +kernel, by decide +kernel, ?_⟩
  have kept := shadowing_protects unassigned initialUnassigned others 2 state
  rw [kept]
  decide +kernel

end Lox

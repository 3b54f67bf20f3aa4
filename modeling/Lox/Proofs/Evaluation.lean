import Lox.Proofs.Bindings

/-!
What the evaluation of an expression can change: the nearest bindings of the names that it assigns
to, and nothing else.
-/

namespace Lox

namespace Environment

@[simp] theorem length_names (env : Environment) : env.names.length = env.depth := by
  simp [names, scopes, depth]

theorem rebindNearest?_trans {first second : Value} {before middle after : List (Option Value)}
    (once : rebindNearest? first before = some middle)
    (again : rebindNearest? second middle = some after) :
    rebindNearest? second before = some after := by
  induction before generalizing middle after with
  | nil => cases once
  | cons binding others ih =>
    cases binding with
    | some old =>
      cases once
      exact again
    | none =>
      obtain ⟨tail, tailOnce, rfl⟩ := Option.map_eq_some_iff.mp once
      obtain ⟨last, tailAgain, rfl⟩ := Option.map_eq_some_iff.mp again
      rw [rebindNearest?, ih tailOnce tailAgain, Option.map_some]

theorem findIdx?_of_rebindNearest? {value : Value} {before after : List (Option Value)}
    (rebound : rebindNearest? value before = some after) {i : Nat}
    (differs : after[i]? ≠ before[i]?) : before.findIdx? Option.isSome = some i := by
  induction before generalizing after i with
  | nil => cases rebound
  | cons binding others ih =>
    cases binding with
    | some old =>
      cases rebound
      cases i with
      | zero => rfl
      | succ i => exact absurd rfl differs
    | none =>
      obtain ⟨tail, tailRebound, rfl⟩ := Option.map_eq_some_iff.mp rebound
      cases i with
      | zero => exact absurd rfl differs
      | succ i =>
        have found : others.findIdx? Option.isSome = some i := ih tailRebound differs
        simp [List.findIdx?_cons, found]

theorem bindings_of_assign {token : Token} {value : Value} {before after : Environment}
    (assigned : before.assign token value = .ok after) (name : String) :
    after.bindings name = before.bindings name ∨
      name = token.lexeme ∧
        rebindNearest? value (before.bindings name) = some (after.bindings name) := by
  unfold assign at assigned
  split at assigned
  · rename_i found
    cases assigned
    by_cases same : name = token.lexeme
    · subst same
      rw [← bindings_update?, found]
      exact Or.inr ⟨rfl, rfl⟩
    · exact Or.inl (bindings_of_update?_other found same)
  · cases assigned

end Environment

open Environment (rebindNearest?)

namespace Expr

theorem bindings_eval (e : Expr) (name : String) (env : Environment) :
    (e.eval env).2.bindings name = env.bindings name ∨ name ∈ e.assigned ∧
      ∃ value, rebindNearest? value (env.bindings name) =
        some ((e.eval env).2.bindings name) := by
  refine e.kept_eval (fun before after => after.bindings name = before.bindings name ∨
    name ∈ e.assigned ∧ ∃ value,
      rebindNearest? value (before.bindings name) = some (after.bindings name)) ?_ ?_ ?_ env
  · exact fun _ => Or.inl rfl
  · intro before middle after first second
    rcases first with same | ⟨member, value, once⟩
    · rwa [same] at second
    · refine Or.inr ⟨member, ?_⟩
      rcases second with same | ⟨-, last, again⟩
      · exact ⟨value, same ▸ once⟩
      · exact ⟨last, Environment.rebindNearest?_trans once again⟩
  · intro token value before after member assigned
    rcases Environment.bindings_of_assign assigned name with same | ⟨rfl, rebound⟩
    · exact Or.inl same
    · exact Or.inr ⟨member, value, rebound⟩

theorem eval_of_unassigned {e : Expr} (unassigned : e.assigned = []) (env : Environment) :
    (e.eval env).2 = env := by
  refine e.kept_eval (fun before after => after = before) (fun _ => rfl)
    (fun first second => second.trans first) ?_ env
  intro name value before after member
  rw [unassigned] at member
  cases member

theorem exec_expression (e : Expr) (fuel : Nat) (state : State) :
    ((Stmt.expression e).exec fuel state).2 =
      { state with environment := (e.eval state.environment).2 } := by
  rw [Stmt.exec, State.evaluate]
  rcases e.eval state.environment with ⟨_ | value, env⟩ <;> rfl

end Expr

/-- However an evaluation ends, nothing is printed or logged, and all scopes have the names they had.
A binding that differs afterwards is the nearest one of a name that the expression assigns to; without
assignments nothing differs. -/
theorem evaluations_only_assign (e : Expr) (env : Environment) :
    let after := (e.eval env).2
    (∀ fuel events, ((Stmt.expression e).exec fuel ⟨env, events⟩).2 = ⟨after, events⟩) ∧
    after.depth = env.depth ∧ after.names = env.names ∧
    (∀ name i, (after.bindings name)[i]? ≠ (env.bindings name)[i]? →
      name ∈ e.assigned ∧ env.scopes.findIdx? (·.contains name) = some i) ∧
    (e.assigned = [] → after = env) := by
  intro after
  have names : after.names = env.names := e.names_eval env
  refine ⟨fun fuel events => e.exec_expression fuel _, ?_, names, ?_,
    fun unassigned => e.eval_of_unassigned unassigned env⟩
  · rw [← Environment.length_names, ← Environment.length_names, names]
  · intro name i differs
    rcases e.bindings_eval name env with same | ⟨member, value, rebound⟩
    · exact absurd (congrArg (·[i]?) same) differs
    · have nearest := Environment.findIdx?_of_rebindNearest? rebound differs
      rw [Environment.bindings, List.findIdx?_map] at nearest
      exact ⟨member, nearest⟩

/-- The evaluation stops at its last assignment, for want of a variable, and keeps those before. -/
theorem evaluations_only_assign_until_failure :
    let name (lexeme : String) : Token := .name lexeme 1
    let e : Expr := .binary (.assign (name "b") (.assign (name "a") (.literal .nil)))
      ⟨.plus, "+", none, 1⟩ (.assign (name "c") (.var (name "a")))
    let env : Environment := ⟨⟨[("a", .bool true)], by decide⟩,
      [⟨[("b", .bool true), ("a", .bool false)], by decide⟩, ⟨[("b", .string "globe")], by decide⟩]⟩
    (e.eval env).1 = .error ⟨name "c", .undefinedVariable⟩ ∧
      ((e.eval env).2.bindings "b")[1]? ≠ (env.bindings "b")[1]? ∧
      "b" ∈ e.assigned ∧ env.scopes.findIdx? (·.contains "b") = some 1 ∧
      (Expr.var (name "c")).assigned = [] ∧ ((Expr.var (name "c")).eval env).2 = env := by
  intro name e env
  obtain ⟨-, -, -, nearest, -⟩ := evaluations_only_assign e env
  obtain ⟨-, -, -, -, unchanged⟩ := evaluations_only_assign (.var (name "c")) env
  have differs : ((e.eval env).2.bindings "b")[1]? ≠ (env.bindings "b")[1]? := by decide +kernel
  obtain ⟨member, innermost⟩ := nearest "b" 1 differs
  exact ⟨rfl, differs, member, innermost, rfl, unchanged rfl⟩

end Lox

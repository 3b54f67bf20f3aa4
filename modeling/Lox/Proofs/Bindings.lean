import Lox.Proofs.Shadowing

/-!
An environment as one name sees it: what the name is bound to in each scope. Each operation on the
environment has its counterpart on these lists, and an operation on one name leaves those of all
other names as they are.
-/

namespace Lox

namespace Environment

/-- What the name is bound to in each scope, from the innermost one outwards. -/
def bindings (name : String) (env : Environment) : List (Option Value) :=
  env.scopes.map (·.get? name)

def rebindNearest? (value : Value) : List (Option Value) → Option (List (Option Value))
  | [] => none
  | some _ :: others => some (some value :: others)
  | none :: others => (rebindNearest? value others).map (none :: ·)

variable {name other : String}

theorem bindings_push (name : String) (env : Environment) :
    env.push.bindings name = none :: env.bindings name := rfl

theorem depth_pop (env : Environment) :
    env.pop.depth = if env.depth = 1 then env.depth else env.depth - 1 := by
  obtain ⟨innermost, _ | ⟨outer, others⟩⟩ := env
  · rfl
  · simp [pop, depth]

theorem bindings_pop (name : String) (env : Environment) :
    env.pop.bindings name =
      if env.depth = 1 then env.bindings name else (env.bindings name).tail := by
  obtain ⟨innermost, _ | ⟨outer, others⟩⟩ := env
  · rfl
  · simp [bindings, scopes, pop, depth]

theorem bindings_define_self (name : String) (value : Value) (env : Environment) :
    (env.define name value).bindings name = some value :: (env.bindings name).tail := by
  simp [bindings, scopes, define]

theorem bindings_define_other (different : other ≠ name) (value : Value) (env : Environment) :
    (env.define name value).bindings other = env.bindings other := by
  simp [bindings, scopes, define, Scope.get?_set_other different]

theorem find?_eq_findSome?_bindings (name : String) (env : Environment) :
    env.find? name = (env.bindings name).findSome? id := by
  rw [bindings, List.findSome?_map]
  rfl

theorem rebind?_bindings (name : String) (value : Value) (scopes : List Scope) :
    (rebind? name value scopes).map (·.map (·.get? name)) =
      rebindNearest? value (scopes.map (·.get? name)) := by
  induction scopes with
  | nil => rfl
  | cons scope others ih =>
    rw [rebind?, Scope.contains, List.map_cons]
    cases found : scope.get? name with
    | some old => simp [rebindNearest?]
    | none =>
      rw [rebindNearest?, ← ih]
      cases rebind? name value others <;> simp [found]

theorem bindings_update? (name : String) (value : Value) (env : Environment) :
    (env.update? name value).map (bindings name) = rebindNearest? value (env.bindings name) := by
  rw [bindings, ← rebind?_bindings, rebind?_scopes, Option.map_map]
  rfl

theorem bindings_of_update?_other {value : Value} {env changed : Environment}
    (found : env.update? name value = some changed) (different : other ≠ name) :
    changed.bindings other = env.bindings other := by
  have rebound := rebind?_scopes env name value
  rw [found] at rebound
  have kept : (changed.scopes.drop 0).map (·.get? other) = (env.scopes.drop 0).map (·.get? other) :=
    get?_of_rebind? rebound fun same => absurd same.symm different
  exact kept

end Environment

end Lox

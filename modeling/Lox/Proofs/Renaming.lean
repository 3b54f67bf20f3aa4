import Mathlib.Data.List.Nodup
import Mathlib.Logic.Equiv.Basic
import Lox.Proofs.Correspondence
import Lox.Proofs.Piecewise

/-!
The names of variables matter only in so far as they tell variables apart. A program whose variables
are renamed does in the renamed environment what it did before, and ends in the renamed environment.
-/

namespace Lox

section

variable {r : String → String} (injective : Function.Injective r)

def Scope.rename (scope : Scope) : Scope where
  bindings := scope.bindings.map fun (name, value) => (r name, value)
  distinct := by
    have distinct := scope.distinct.map injective
    rwa [List.map_map] at distinct ⊢

def Environment.rename (env : Environment) : Environment :=
  ⟨env.innermost.rename injective, env.enclosing.map (Scope.rename injective)⟩

namespace Scope

include injective in
theorem lookup_rename (name : String) (bindings : List (String × Value)) :
    (bindings.map fun (name, value) => (r name, value)).lookup (r name) = bindings.lookup name := by
  induction bindings with
  | nil => rfl
  | cons binding others ih =>
    obtain ⟨first, old⟩ := binding
    have same : (r name == r first) = (name == first) := by
      rw [Bool.eq_iff_iff, beq_iff_eq, beq_iff_eq, injective.eq_iff]
    rw [List.map_cons, List.lookup_cons, List.lookup_cons, same, ih]

include injective in
theorem bind_rename (name : String) (value : Value) (bindings : List (String × Value)) :
    bind (r name) value (bindings.map fun (name, value) => (r name, value)) =
      (bind name value bindings).map fun (name, value) => (r name, value) := by
  induction bindings with
  | nil => rfl
  | cons binding others ih =>
    obtain ⟨first, old⟩ := binding
    rw [List.map_cons, bind, bind, ih]
    by_cases same : first = name
    · simp [same]
    · have different : r first ≠ r name := fun equal => same (injective equal)
      simp [same, different]

theorem get?_rename (scope : Scope) (name : String) :
    (scope.rename injective).get? (r name) = scope.get? name :=
  lookup_rename injective name scope.bindings

theorem contains_rename (scope : Scope) (name : String) :
    (scope.rename injective).contains (r name) = scope.contains name :=
  congrArg Option.isSome (scope.get?_rename injective name)

theorem set_rename (scope : Scope) (name : String) (value : Value) :
    (scope.rename injective).set (r name) value = (scope.set name value).rename injective :=
  Scope.ext (bind_rename injective name value scope.bindings)

end Scope

namespace Environment

theorem scopes_rename (env : Environment) :
    (env.rename injective).scopes = env.scopes.map (Scope.rename injective) := rfl

theorem depth_rename (env : Environment) : (env.rename injective).depth = env.depth := by
  simp [depth, rename]

theorem push_rename (env : Environment) :
    (env.rename injective).push = env.push.rename injective := rfl

theorem pop_rename (env : Environment) : (env.rename injective).pop = env.pop.rename injective := by
  obtain ⟨innermost, _ | ⟨outer, others⟩⟩ := env <;> rfl

theorem define_rename (env : Environment) (name : String) (value : Value) :
    (env.rename injective).define (r name) value = (env.define name value).rename injective := by
  rw [define, rename, Scope.set_rename injective]
  rfl

theorem find?_rename (env : Environment) (name : String) :
    (env.rename injective).find? (r name) = env.find? name := by
  rw [find?, scopes_rename, List.findSome?_map]
  exact congrArg (env.scopes.findSome? ·) (funext fun scope => scope.get?_rename injective name)

theorem rebind?_rename (name : String) (value : Value) (scopes : List Scope) :
    rebind? (r name) value (scopes.map (Scope.rename injective)) =
      (rebind? name value scopes).map (List.map (Scope.rename injective)) := by
  induction scopes with
  | nil => rfl
  | cons scope others ih =>
    rw [List.map_cons, rebind?, rebind?, ih, Scope.contains_rename injective,
      Scope.set_rename injective]
    split
    · rfl
    · rw [Option.map_map, Option.map_map]
      rfl

theorem update?_rename (env : Environment) (name : String) (value : Value) :
    (env.rename injective).update? (r name) value =
      (env.update? name value).map (rename injective) := by
  have rebound := rebind?_rename injective name value env.enclosing
  rw [update?, update?, define_rename injective]
  simp only [rename, Scope.contains_rename injective, rebound]
  split
  · rfl
  · rw [Option.map_map, Option.map_map]
    rfl

end Environment

theorem correspondence_rename (names : List String) :
    Correspondence r names fun left right => right = left.rename injective where
  depth := by
    rintro left _ rfl
    exact left.depth_rename injective
  find? := by
    rintro left _ name - rfl
    exact left.find?_rename injective name
  update? := by
    rintro left _ name value - rfl
    rw [left.update?_rename injective]
    cases left.update? name value with
    | none => exact .none
    | some after => exact .some rfl
  define := by
    rintro left _ name value - rfl
    exact left.define_rename injective name value
  push := by
    rintro left _ rfl
    exact left.push_rename injective
  pop := by
    rintro left _ rfl
    exact left.pop_rename injective

end

theorem Event.output?_rename (r : String → String) (event : Event) :
    (event.rename r).output? = event.output? := by
  cases event <;> rfl

theorem RuntimeError.message_rename (r : String → String) (error : RuntimeError) :
    (error.rename r).message =
      if error.fault = .undefinedVariable then "Undefined variable '" ++ r error.token.lexeme ++ "'."
      else error.message := by
  unfold rename
  split
  · rename_i undefined
    simp only [message, undefined]
    rfl
  · rfl

/-- No two variables are given one name, so the renamed program in the renamed environment goes on
as long, prints the same, leaves the renamed environment and fails alike; only what says the name of
a variable says its new one, as the error about an undefined variable does. -/
theorem renaming_carries_over {r : String → String} (injective : Function.Injective r) (fuel : Nat)
    (statements : List Stmt) (environment : Environment) :
    let run := execute fuel statements ⟨environment, #[]⟩
    let renamed := execute fuel (Stmt.renameAll r statements) ⟨environment.rename injective, #[]⟩
    renamed.1 = run.1.map (RuntimeError.rename r) ∧
      renamed.2.environment = run.2.environment.rename injective ∧
      renamed.2.output = run.2.output ∧
      renamed.2.events = run.2.events.map (Event.rename r) ∧
      ∀ error, run.1 = .failed error → (error.rename r).message =
        if error.fault = .undefinedVariable then
          "Undefined variable '" ++ r error.token.lexeme ++ "'."
        else error.message := by
  intro run renamed
  have start : State.Corresponds r (fun left right => right = left.rename injective)
      ⟨environment, #[]⟩ ⟨environment.rename injective, #[]⟩ := ⟨rfl, Array.map_empty.symm⟩
  obtain ⟨outcome, after, events⟩ :=
    (correspondence_rename injective _).execute fuel statements (List.Subset.refl _) start
  have output : renamed.2.output = run.2.output := by
    have views : Event.output? ∘ Event.rename r = Event.output? :=
      funext (Event.output?_rename r)
    rw [State.output, events, Array.toList_map, List.filterMap_map, views]
    rfl
  exact ⟨outcome, after, output, events, fun error _ => error.message_rename r⟩

/-- Two names change places, one of a global and one of no variable at all. -/
theorem renaming_carries_over_to_swapped_names :
    let swap : String ≃ String := Equiv.swap "a" "c"
    let statements := (parse (scan .tolerant
      "{ var b = a; while (b) { a = nil; b = a; } } print c;").tokens).statements
    let environment : Environment := ⟨⟨[("a", .bool true)], by decide⟩, []⟩
    Function.Injective swap ∧
      (execute 2 statements ⟨environment, #[]⟩).1 =
        .failed ⟨.name "c" 1, .undefinedVariable⟩ ∧
      (execute 2 (Stmt.renameAll swap statements) ⟨environment.rename swap.injective, #[]⟩).1 =
        .failed ⟨.name "a" 1, .undefinedVariable⟩ ∧
      (execute 2 (Stmt.renameAll swap statements)
        ⟨environment.rename swap.injective, #[]⟩).2.environment =
          ⟨⟨[("c", .nil)], by decide⟩, []⟩ := by
  intro swap statements environment
  obtain ⟨outcome, after, -⟩ := renaming_carries_over swap.injective 2 statements environment
  exact ⟨swap.injective, by decide +kernel, outcome.trans (by decide +kernel),
    after.trans (by decide +kernel)⟩

end Lox

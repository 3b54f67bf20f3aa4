import Lox.RuntimeError
import Lox.Scope

/-!
Environments: nested scopes, the innermost one in front and the globals at the far end. There is
always at least one scope.
-/

namespace Lox

structure Environment where
  innermost : Scope
  enclosing : List Scope
  deriving DecidableEq

namespace Environment

def empty : Environment := ⟨.empty, []⟩

def scopes (env : Environment) : List Scope := env.innermost :: env.enclosing

def depth (env : Environment) : Nat := env.enclosing.length + 1

def push (env : Environment) : Environment := ⟨.empty, env.scopes⟩

/-- The globals are never popped. -/
def pop (env : Environment) : Environment :=
  match env.enclosing with
  | [] => env
  | outer :: others => ⟨outer, others⟩

def define (env : Environment) (name : String) (value : Value) : Environment :=
  { env with innermost := env.innermost.set name value }

def find? (env : Environment) (name : String) : Option Value :=
  env.scopes.findSome? (·.get? name)

def rebind? (name : String) (value : Value) : List Scope → Option (List Scope)
  | [] => none
  | scope :: others =>
    if scope.contains name then some (scope.set name value :: others)
    else (rebind? name value others).map (scope :: ·)

def update? (env : Environment) (name : String) (value : Value) : Option Environment :=
  if env.innermost.contains name then some (env.define name value)
  else (rebind? name value env.enclosing).map fun enclosing => ⟨env.innermost, enclosing⟩

def get (env : Environment) (name : Token) : Except RuntimeError Value :=
  match env.find? name.lexeme with
  | some value => .ok value
  | none => .error ⟨name, .undefinedVariable⟩

/-- Assignment changes the nearest binding and never makes one. -/
def assign (env : Environment) (name : Token) (value : Value) : Except RuntimeError Environment :=
  match env.update? name.lexeme value with
  | some env => .ok env
  | none => .error ⟨name, .undefinedVariable⟩

theorem length_of_rebind? {name : String} {value : Value} {scopes changed : List Scope}
    (found : rebind? name value scopes = some changed) : changed.length = scopes.length := by
  induction scopes generalizing changed with
  | nil => simp [rebind?] at found
  | cons scope others ih =>
    rw [rebind?] at found
    split at found
    · cases found
      rfl
    · obtain ⟨tail, tailFound, rfl⟩ := Option.map_eq_some_iff.mp found
      simp [ih tailFound]

theorem depth_of_update? {env changed : Environment} {name : String} {value : Value}
    (found : env.update? name value = some changed) : changed.depth = env.depth := by
  unfold update? at found
  split at found
  · cases found
    rfl
  · obtain ⟨enclosing, rebound, rfl⟩ := Option.map_eq_some_iff.mp found
    simp [depth, length_of_rebind? rebound]

end Environment

end Lox

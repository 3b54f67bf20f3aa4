import Lox.Proofs.Bindings

/-!
Nested scopes against shallow binding, which keeps a stack of values for each name in place of a
table of names for each scope. Whatever is done with the variables, and in whatever order, both give
the same answers.
-/

namespace Lox

/-- A way of keeping variables: what can be done with them, on states of its own. -/
structure Keeping (σ : Type) where
  depth : σ → Nat
  push : σ → σ
  pop : σ → σ
  define : σ → String → Value → σ
  get : σ → Token → Except RuntimeError Value
  assign : σ → Token → Value → Except RuntimeError σ

inductive Operation
  | push
  | pop
  | define (name : String) (value : Value)
  | get (name : Token)
  | assign (name : Token) (value : Value)

namespace Keeping

variable {σ τ : Type}

/-- Gives the value that was asked for, or the error; after an error all is as it was. -/
def perform (keeping : Keeping σ) :
    Operation → σ → Except RuntimeError (Option Value) × σ
  | .push, state => (.ok none, keeping.push state)
  | .pop, state => (.ok none, keeping.pop state)
  | .define name value, state => (.ok none, keeping.define state name value)
  | .get name, state => ((keeping.get state name).map some, state)
  | .assign name value, state =>
    match keeping.assign state name value with
    | .ok changed => (.ok none, changed)
    | .error error => (.error error, state)

def observe (keeping : Keeping σ) :
    List Operation → σ → List (Nat × Except RuntimeError (Option Value))
  | [], _ => []
  | operation :: others, state =>
    let (answer, next) := keeping.perform operation state
    (keeping.depth next, answer) :: keeping.observe others next

theorem observe_view {keeping : Keeping σ} {others : Keeping τ} {view : σ → τ}
    (depth : ∀ state, others.depth (view state) = keeping.depth state)
    (step : ∀ operation state, others.perform operation (view state) =
      ((keeping.perform operation state).1, view (keeping.perform operation state).2))
    (operations : List Operation) (state : σ) :
    others.observe operations (view state) = keeping.observe operations state := by
  induction operations generalizing state with
  | nil => rfl
  | cons operation later ih => simp only [observe, step, depth, ih]

end Keeping

def Environment.keeping : Keeping Environment where
  depth := Environment.depth
  push := Environment.push
  pop := Environment.pop
  define := Environment.define
  get := Environment.get
  assign := Environment.assign

/-- For each name the values it is bound to, the nearest one in front, and with each the depth of
the scope that binds it. -/
@[ext] structure ShallowBinding where
  depth : Nat
  entries : String → List (Nat × Value)

namespace ShallowBinding

def empty : ShallowBinding := ⟨1, fun _ => []⟩

def push (shallow : ShallowBinding) : ShallowBinding :=
  { shallow with depth := shallow.depth + 1 }

def pop (shallow : ShallowBinding) : ShallowBinding :=
  if shallow.depth > 1 then
    ⟨shallow.depth - 1, fun name => (shallow.entries name).filter (·.1 ≠ shallow.depth)⟩
  else shallow

def withStack (shallow : ShallowBinding) (name : String) (stack : List (Nat × Value)) :
    ShallowBinding :=
  { shallow with entries := fun other => if other = name then stack else shallow.entries other }

def define (shallow : ShallowBinding) (name : String) (value : Value) : ShallowBinding :=
  shallow.withStack name <|
    match shallow.entries name with
    | [] => [(shallow.depth, value)]
    | (depth, old) :: others =>
      if depth = shallow.depth then (depth, value) :: others
      else (shallow.depth, value) :: (depth, old) :: others

def get (shallow : ShallowBinding) (name : Token) : Except RuntimeError Value :=
  match shallow.entries name.lexeme with
  | [] => .error ⟨name, .undefinedVariable⟩
  | (_, value) :: _ => .ok value

def assign (shallow : ShallowBinding) (name : Token) (value : Value) :
    Except RuntimeError ShallowBinding :=
  match shallow.entries name.lexeme with
  | [] => .error ⟨name, .undefinedVariable⟩
  | (depth, _) :: others => .ok (shallow.withStack name.lexeme ((depth, value) :: others))

def keeping : Keeping ShallowBinding where
  depth := depth
  push := push
  pop := pop
  define := define
  get := get
  assign := assign

end ShallowBinding

/-! The stack of a name lists its bindings in the scopes that have one. Scopes are counted from the
globals on, so a scope's depth is the number of bindings from its own one outwards. -/

namespace Environment

def stackOf : List (Option Value) → List (Nat × Value)
  | [] => []
  | none :: others => stackOf others
  | some value :: others => (others.length + 1, value) :: stackOf others

theorem depth_le_of_mem_stackOf {bindings : List (Option Value)} {entry : Nat × Value}
    (member : entry ∈ stackOf bindings) : entry.1 ≤ bindings.length := by
  induction bindings with
  | nil => cases member
  | cons binding others ih =>
    have bound : entry ∈ stackOf others → entry.1 ≤ (binding :: others).length := fun inside =>
      Nat.le_succ_of_le (ih inside)
    cases binding with
    | none => exact bound member
    | some value =>
      rcases List.mem_cons.mp member with rfl | inside
      · exact Nat.le_refl _
      · exact bound inside

theorem stackOf_tail (binding : Option Value) (others : List (Option Value)) :
    (stackOf (binding :: others)).filter (·.1 ≠ others.length + 1) = stackOf others := by
  have deeper : (stackOf others).filter (·.1 ≠ others.length + 1) = stackOf others := by
    refine List.filter_eq_self.mpr fun entry member => ?_
    have bound := depth_le_of_mem_stackOf member
    simp only [decide_eq_true_eq]
    omega
  cases binding with
  | none => exact deeper
  | some value => simpa [stackOf] using deeper

theorem stackOf_define (value : Value) (binding : Option Value) (others : List (Option Value)) :
    stackOf (some value :: others) =
      match stackOf (binding :: others) with
      | [] => [(others.length + 1, value)]
      | (depth, old) :: outer =>
        if depth = others.length + 1 then (depth, value) :: outer
        else (others.length + 1, value) :: (depth, old) :: outer := by
  -- A binding further out has a lesser depth, so it is not the one that is overwritten.
  cases binding with
  | some old => simp [stackOf]
  | none =>
    rw [stackOf, stackOf]
    cases stack : stackOf others with
    | nil => rfl
    | cons entry outer =>
      have bound : entry.1 ≤ others.length :=
        depth_le_of_mem_stackOf (stack ▸ List.mem_cons_self)
      exact (if_neg (by omega)).symm

theorem findSome?_eq_head?_stackOf (bindings : List (Option Value)) :
    bindings.findSome? id = (stackOf bindings).head?.map (·.2) := by
  induction bindings with
  | nil => rfl
  | cons binding others ih =>
    cases binding with
    | none => exact ih
    | some value => rfl

theorem stackOf_rebindNearest? (value : Value) (bindings : List (Option Value)) :
    (rebindNearest? value bindings).map stackOf =
      match stackOf bindings with
      | [] => none
      | (depth, _) :: others => some ((depth, value) :: others) := by
  induction bindings with
  | nil => rfl
  | cons binding others ih =>
    cases binding with
    | some old => rfl
    | none =>
      rw [rebindNearest?, stackOf, ← ih, Option.map_map]
      rfl

def shallow (env : Environment) : ShallowBinding :=
  ⟨env.depth, fun name => stackOf (env.bindings name)⟩

@[simp] theorem depth_shallow (env : Environment) : env.shallow.depth = env.depth := rfl

@[simp] theorem entries_shallow (env : Environment) (name : String) :
    env.shallow.entries name = stackOf (env.bindings name) := rfl

theorem shallow_empty : empty.shallow = .empty := rfl

theorem shallow_push (env : Environment) : env.push.shallow = env.shallow.push := rfl

theorem shallow_pop (env : Environment) : env.pop.shallow = env.shallow.pop := by
  obtain ⟨innermost, _ | ⟨outer, others⟩⟩ := env
  · rfl
  · ext1
    · rfl
    · funext name
      have tail := stackOf_tail (innermost.get? name) ((outer :: others).map (·.get? name))
      rw [List.length_map] at tail
      exact tail.symm

theorem shallow_eq_withStack {env changed : Environment} {name : String}
    {stack : List (Nat × Value)} (depth : changed.depth = env.depth)
    (own : stackOf (changed.bindings name) = stack)
    (others : ∀ other ≠ name, changed.bindings other = env.bindings other) :
    changed.shallow = env.shallow.withStack name stack := by
  refine ShallowBinding.ext depth (funext fun other => ?_)
  simp only [ShallowBinding.withStack, entries_shallow]
  split
  · rename_i same
    rw [same, own]
  · rename_i different
    rw [others other different]

theorem shallow_define (name : String) (value : Value) (env : Environment) :
    (env.define name value).shallow = env.shallow.define name value := by
  refine shallow_eq_withStack rfl ?_ fun other different => bindings_define_other different value env
  have own := stackOf_define value (env.innermost.get? name) (env.enclosing.map (·.get? name))
  rw [List.length_map] at own
  rw [bindings_define_self]
  exact own

theorem get_shallow (env : Environment) (name : Token) : env.shallow.get name = env.get name := by
  rw [ShallowBinding.get, get, find?_eq_findSome?_bindings, findSome?_eq_head?_stackOf,
    entries_shallow]
  cases stackOf (env.bindings name.lexeme) <;> rfl

theorem assign_shallow (env : Environment) (name : Token) (value : Value) :
    env.shallow.assign name value = (env.assign name value).map shallow := by
  have own := stackOf_rebindNearest? value (env.bindings name.lexeme)
  rw [← bindings_update?, Option.map_map] at own
  rw [ShallowBinding.assign, assign, entries_shallow]
  cases found : env.update? name.lexeme value with
  | none =>
    rw [found] at own
    cases stack : stackOf (env.bindings name.lexeme) with
    | nil => rfl
    | cons entry outer => simp [stack] at own
  | some changed =>
    rw [found] at own
    cases stack : stackOf (env.bindings name.lexeme) with
    | nil => simp [stack] at own
    | cons entry outer =>
      rw [stack] at own
      exact congrArg Except.ok (shallow_eq_withStack (depth_of_update? found)
        (Option.some.inj own) fun other => bindings_of_update?_other found).symm

/-- Each operation does the same to the environment and to its view. -/
theorem perform_shallow (operation : Operation) (env : Environment) :
    ShallowBinding.keeping.perform operation env.shallow =
      ((keeping.perform operation env).1, (keeping.perform operation env).2.shallow) := by
  cases operation with
  | push => exact congrArg _ env.shallow_push.symm
  | pop => exact congrArg _ env.shallow_pop.symm
  | define name value => exact congrArg _ (env.shallow_define name value).symm
  | get name => exact congrArg (fun answer => (answer.map some, env.shallow)) (env.get_shallow name)
  | assign name value =>
    have assigned := env.assign_shallow name value
    simp only [Keeping.perform, keeping, ShallowBinding.keeping, assigned]
    cases env.assign name value <;> rfl

end Environment

/-- Starting with no variables, the depths, the values and the errors that any sequence of
operations shows on nested scopes are those it shows on shallow binding. -/
theorem scopes_refine_shallow_binding (operations : List Operation) :
    Environment.keeping.observe operations .empty =
      ShallowBinding.keeping.observe operations .empty := by
  rw [← Environment.shallow_empty]
  exact (Keeping.observe_view Environment.depth_shallow Environment.perform_shallow operations
    .empty).symm

end Lox

import Lox.Value

/-!
A scope: the variables of one block, or the globals, in the order in which they were defined.
-/

namespace Lox

/-- No name is bound twice in a scope. -/
@[ext] structure Scope where
  bindings : List (String × Value)
  distinct : (bindings.map (·.1)).Nodup
  deriving DecidableEq

namespace Scope

def empty : Scope := ⟨[], List.nodup_nil⟩

def names (scope : Scope) : List String := scope.bindings.map (·.1)

def get? (scope : Scope) (name : String) : Option Value := scope.bindings.lookup name

def contains (scope : Scope) (name : String) : Bool := (scope.get? name).isSome

def bind (name : String) (value : Value) : List (String × Value) → List (String × Value)
  | [] => [(name, value)]
  | (other, old) :: others =>
    if other = name then (name, value) :: others else (other, old) :: bind name value others

theorem names_bind (name : String) (value : Value) (bindings : List (String × Value)) :
    (bind name value bindings).map (·.1) =
      if name ∈ bindings.map (·.1) then bindings.map (·.1) else bindings.map (·.1) ++ [name] := by
  induction bindings with
  | nil => rfl
  | cons binding others ih =>
    obtain ⟨first, old⟩ := binding
    by_cases same : first = name
    · simp [bind, same]
    · have member : name ∈ first :: others.map (·.1) ↔ name ∈ others.map (·.1) := by
        simp [Ne.symm same]
      rw [bind, if_neg same, List.map_cons, List.map_cons, ih]
      simp only [member]
      split <;> rfl

theorem distinct_bind (name : String) (value : Value) {bindings : List (String × Value)}
    (distinct : (bindings.map (·.1)).Nodup) :
    ((bind name value bindings).map (·.1)).Nodup := by
  rw [names_bind]
  split
  · exact distinct
  · rename_i fresh
    refine List.nodup_append.mpr ⟨distinct, by simp, ?_⟩
    rintro other inside _ last rfl
    exact fresh (List.mem_singleton.mp last ▸ inside)

def set (scope : Scope) (name : String) (value : Value) : Scope :=
  ⟨bind name value scope.bindings, distinct_bind name value scope.distinct⟩

theorem lookup_bind_self (name : String) (value : Value) (bindings : List (String × Value)) :
    (bind name value bindings).lookup name = some value := by
  induction bindings with
  | nil => simp [bind]
  | cons binding others ih =>
    obtain ⟨first, old⟩ := binding
    by_cases same : first = name
    · simp [bind, same]
    · have unequal : (name == first) = false := by simpa using Ne.symm same
      simp [bind, same, List.lookup_cons, unequal, ih]

theorem lookup_bind_other {name other : String} (different : other ≠ name) (value : Value)
    (bindings : List (String × Value)) :
    (bind name value bindings).lookup other = bindings.lookup other := by
  have unequal : (other == name) = false := by simpa using different
  induction bindings with
  | nil => simp [bind, List.lookup_cons, unequal]
  | cons binding others ih =>
    obtain ⟨first, old⟩ := binding
    by_cases same : first = name
    · subst same
      simp [bind, List.lookup_cons, unequal]
    · simp [bind, same, List.lookup_cons, ih]

@[simp] theorem get?_set_self (scope : Scope) (name : String) (value : Value) :
    (scope.set name value).get? name = some value :=
  lookup_bind_self name value scope.bindings

theorem get?_set_other {name other : String} (different : other ≠ name) (scope : Scope)
    (value : Value) : (scope.set name value).get? other = scope.get? other :=
  lookup_bind_other different value scope.bindings

end Scope

end Lox

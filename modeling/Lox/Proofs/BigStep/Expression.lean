import Lox.Expr.Eval

/-!
The semantics of expressions as rules: what an expression denotes in an environment, and which
environment it leaves behind. Evaluation follows these rules and no others.
-/

namespace Lox

inductive UnaryResult (operator : Token) : Value → Except RuntimeError Value → Prop
  | negate {x} : operator.kind = .minus → UnaryResult operator (.number x) (.ok (.number (-x)))
  | notNumber {value} : operator.kind = .minus → (∀ x, value ≠ .number x) →
      UnaryResult operator value (.error ⟨operator, .operandNotNumber⟩)
  | invert {value} : operator.kind = .bang →
      UnaryResult operator value (.ok (.bool !value.isTruthy))
  | unknown {value} : operator.kind ≠ .minus → operator.kind ≠ .bang →
      UnaryResult operator value (.error ⟨operator, .unknownOperator⟩)

def numericOperations : List (TokenKind × (Float → Float → Value)) :=
  [(.minus, fun x y => .number (x - y)), (.star, fun x y => .number (x * y)),
   (.greater, fun x y => .bool (x > y)), (.greaterEqual, fun x y => .bool (x ≥ y)),
   (.less, fun x y => .bool (x < y)), (.lessEqual, fun x y => .bool (x ≤ y))]

def Value.BothNumbers (left right : Value) : Prop := ∃ x y, left = .number x ∧ right = .number y

def Value.BothStrings (left right : Value) : Prop := ∃ s t, left = .string s ∧ right = .string t

open Value (BothNumbers BothStrings)

inductive NumericResult (operator : Token) (x y : Float) : Except RuntimeError Value → Prop
  | operation {operation} : (operator.kind, operation) ∈ numericOperations →
      NumericResult operator x y (.ok (operation x y))
  | divide : operator.kind = .slash → (y == 0) = false →
      NumericResult operator x y (.ok (.number (x / y)))
  | divideByZero : operator.kind = .slash → (y == 0) = true →
      NumericResult operator x y (.error ⟨operator, .divisionByZero⟩)
  | unknown : operator.kind ≠ .slash →
      (∀ operation, (operator.kind, operation) ∉ numericOperations) →
      NumericResult operator x y (.error ⟨operator, .unknownOperator⟩)

/-- Equality and addition come before the test for numbers, and that test before the ones for a zero
divisor and for unknown operators. -/
inductive BinaryResult (operator : Token) : Value → Value → Except RuntimeError Value → Prop
  | equal {left right} : operator.kind = .equalEqual →
      BinaryResult operator left right (.ok (.bool (left.equal right)))
  | unequal {left right} : operator.kind = .bangEqual →
      BinaryResult operator left right (.ok (.bool !left.equal right))
  | sum {x y} : operator.kind = .plus →
      BinaryResult operator (.number x) (.number y) (.ok (.number (x + y)))
  | join {s t} : operator.kind = .plus →
      BinaryResult operator (.string s) (.string t) (.ok (.string (s ++ t)))
  | notAddable {left right} : operator.kind = .plus → ¬BothNumbers left right →
      ¬BothStrings left right →
      BinaryResult operator left right (.error ⟨operator, .operandsNotAddable⟩)
  | notNumbers {left right} : operator.kind ∉ [.equalEqual, .bangEqual, .plus] →
      ¬BothNumbers left right →
      BinaryResult operator left right (.error ⟨operator, .operandsNotNumbers⟩)
  | numeric {x y result} : operator.kind ∉ [.equalEqual, .bangEqual, .plus] →
      NumericResult operator x y result →
      BinaryResult operator (.number x) (.number y) result

/-- Operands are evaluated from left to right, and all of them before the operator is applied; of a
conditional, one branch is; an assignment looks for its variable after it has a value for it. What
follows an error is not evaluated. -/
inductive Evaluates : Expr → Environment → Except RuntimeError Value → Environment → Prop
  | literal {value env} : Evaluates (.literal value) env (.ok value) env
  | grouping {inner env result after} : Evaluates inner env result after →
      Evaluates (.grouping inner) env result after
  | unary {operator operand env value result after} : Evaluates operand env (.ok value) after →
      UnaryResult operator value result → Evaluates (.unary operator operand) env result after
  | operandFails {operator operand env error after} : Evaluates operand env (.error error) after →
      Evaluates (.unary operator operand) env (.error error) after
  | binary {left operator right env first middle second result after} :
      Evaluates left env (.ok first) middle → Evaluates right middle (.ok second) after →
      BinaryResult operator first second result →
      Evaluates (.binary left operator right) env result after
  | leftFails {left operator right env error after} : Evaluates left env (.error error) after →
      Evaluates (.binary left operator right) env (.error error) after
  | rightFails {left operator right env first middle error after} :
      Evaluates left env (.ok first) middle → Evaluates right middle (.error error) after →
      Evaluates (.binary left operator right) env (.error error) after
  | var {name env value} : env.find? name.lexeme = some value →
      Evaluates (.var name) env (.ok value) env
  | unbound {name env} : env.find? name.lexeme = none →
      Evaluates (.var name) env (.error ⟨name, .undefinedVariable⟩) env
  | assign {name e env value middle after} : Evaluates e env (.ok value) middle →
      middle.update? name.lexeme value = some after →
      Evaluates (.assign name e) env (.ok value) after
  | unassignable {name e env value after} : Evaluates e env (.ok value) after →
      after.update? name.lexeme value = none →
      Evaluates (.assign name e) env (.error ⟨name, .undefinedVariable⟩) after
  | valueFails {name e env error after} : Evaluates e env (.error error) after →
      Evaluates (.assign name e) env (.error error) after
  | yes {condition yes no env value middle result after} :
      Evaluates condition env (.ok value) middle → value.isTruthy = true →
      Evaluates yes middle result after →
      Evaluates (.conditional condition yes no) env result after
  | no {condition yes no env value middle result after} :
      Evaluates condition env (.ok value) middle → value.isTruthy = false →
      Evaluates no middle result after →
      Evaluates (.conditional condition yes no) env result after
  | conditionFails {condition yes no env error after} :
      Evaluates condition env (.error error) after →
      Evaluates (.conditional condition yes no) env (.error error) after

theorem applyUnary_of_result {operator : Token} {value : Value} {result : Except RuntimeError Value}
    (derived : UnaryResult operator value result) : applyUnary operator value = result := by
  unfold applyUnary
  cases derived with
  | negate isMinus => rw [isMinus]
  | notNumber isMinus notNumber =>
    rw [isMinus]
    cases value with
    | number x => exact absurd rfl (notNumber x)
    | _ => rfl
  | invert isBang => rw [isBang]
  | unknown notMinus notBang =>
    split
    · contradiction
    · contradiction
    · contradiction
    · rfl

theorem unaryResult_apply (operator : Token) (value : Value) :
    UnaryResult operator value (applyUnary operator value) := by
  unfold applyUnary
  split
  · rename_i isMinus
    exact .negate isMinus
  · rename_i isMinus notNumber
    exact .notNumber isMinus notNumber
  · rename_i isBang
    exact .invert isBang
  · rename_i notMinus notBang _
    exact .unknown notMinus notBang

theorem add_of_not {operator : Token} {left right : Value} (notNumbers : ¬BothNumbers left right)
    (notStrings : ¬BothStrings left right) :
    add operator left right = .error ⟨operator, .operandsNotAddable⟩ := by
  unfold add
  split
  · exact absurd ⟨_, _, rfl, rfl⟩ notNumbers
  · exact absurd ⟨_, _, rfl, rfl⟩ notStrings
  · rfl

theorem applyNumeric_of_result {operator : Token} {x y : Float}
    {result : Except RuntimeError Value} (derived : NumericResult operator x y result) :
    applyNumeric operator x y = result := by
  unfold applyNumeric
  cases derived with
  | operation member =>
    simp only [numericOperations, List.mem_cons, Prod.mk.injEq, List.not_mem_nil,
      or_false] at member
    rcases member with ⟨kind, rfl⟩ | ⟨kind, rfl⟩ | ⟨kind, rfl⟩ | ⟨kind, rfl⟩ | ⟨kind, rfl⟩ |
      ⟨kind, rfl⟩ <;> rw [kind]
  | divide isSlash nonzero => simp only [isSlash, nonzero, Bool.false_eq_true, if_false]
  | divideByZero isSlash zero => simp only [isSlash, zero, if_true]
  | unknown notSlash noOperation =>
    simp only [numericOperations, List.mem_cons, Prod.mk.injEq, List.not_mem_nil, or_false,
      not_or] at noOperation
    split
    case h_3 isSlash => exact absurd isSlash notSlash
    case h_8 => rfl
    all_goals simp_all

theorem numericResult_apply (operator : Token) (x y : Float) :
    NumericResult operator x y (applyNumeric operator x y) := by
  unfold applyNumeric
  split
  case h_3 isSlash =>
    by_cases zero : (y == 0) = true
    · rw [if_pos zero]
      exact .divideByZero isSlash zero
    · rw [if_neg zero]
      exact .divide isSlash (by simpa using zero)
  case h_8 => exact .unknown (by assumption) (by simp_all [numericOperations])
  all_goals
    apply NumericResult.operation
    simp_all [numericOperations]

theorem applyBinary_of_other {operator : Token}
    (other : operator.kind ∉ [.equalEqual, .bangEqual, .plus]) (left right : Value) :
    applyBinary operator left right =
      match left, right with
      | .number x, .number y => applyNumeric operator x y
      | _, _ => .error ⟨operator, .operandsNotNumbers⟩ := by
  simp only [List.mem_cons, List.not_mem_nil, or_false, not_or] at other
  obtain ⟨notEqual, notUnequal, notPlus⟩ := other
  unfold applyBinary
  split <;> first | contradiction | rfl

theorem applyBinary_of_result {operator : Token} {left right : Value}
    {result : Except RuntimeError Value} (derived : BinaryResult operator left right result) :
    applyBinary operator left right = result := by
  cases derived with
  | notNumbers other notNumbers =>
    rw [applyBinary_of_other other]
    split
    · exact absurd ⟨_, _, rfl, rfl⟩ notNumbers
    · rfl
  | numeric other derived =>
    rw [applyBinary_of_other other]
    exact applyNumeric_of_result derived
  | notAddable isPlus notNumbers notStrings =>
    unfold applyBinary
    rw [isPlus]
    exact add_of_not notNumbers notStrings
  | equal kind | unequal kind =>
    unfold applyBinary
    rw [kind]
  | sum isPlus | join isPlus =>
    unfold applyBinary
    rw [isPlus]
    rfl

theorem binaryResult_add {operator : Token} (isPlus : operator.kind = .plus) (left right : Value) :
    BinaryResult operator left right (add operator left right) := by
  unfold add
  split
  · exact .sum isPlus
  · exact .join isPlus
  · rename_i notNumbers notStrings
    apply BinaryResult.notAddable isPlus
    · rintro ⟨x, y, rfl, rfl⟩
      exact notNumbers x y rfl rfl
    · rintro ⟨s, t, rfl, rfl⟩
      exact notStrings s t rfl rfl

theorem binaryResult_apply (operator : Token) (left right : Value) :
    BinaryResult operator left right (applyBinary operator left right) := by
  by_cases decided : operator.kind ∈ [.equalEqual, .bangEqual, .plus]
  · simp only [List.mem_cons, List.not_mem_nil, or_false] at decided
    unfold applyBinary
    rcases decided with isEqual | isUnequal | isPlus
    · rw [isEqual]
      exact .equal isEqual
    · rw [isUnequal]
      exact .unequal isUnequal
    · rw [isPlus]
      exact binaryResult_add isPlus left right
  · rw [applyBinary_of_other decided]
    split
    · exact .numeric decided (numericResult_apply operator _ _)
    · rename_i notNumbers
      apply BinaryResult.notNumbers decided
      rintro ⟨x, y, rfl, rfl⟩
      exact notNumbers x y rfl rfl

theorem Evaluates.eval_eq {e : Expr} {env after : Environment} {result : Except RuntimeError Value}
    (derived : Evaluates e env result after) : e.eval env = (result, after) := by
  induction derived with
  | literal => rfl
  | grouping _ inner => exact inner
  | unary _ applied operand => rw [Expr.eval, operand, ← applyUnary_of_result applied]
  | operandFails _ operand => rw [Expr.eval, operand]
  | binary _ _ applied left right =>
    rw [Expr.eval, left, ← applyBinary_of_result applied]
    simp only [right]
  | leftFails _ left => rw [Expr.eval, left]
  | rightFails _ _ left right => simp only [Expr.eval, left, right]
  | var found => simp only [Expr.eval, Environment.get, found]
  | unbound missing => simp only [Expr.eval, Environment.get, missing]
  | assign _ found value => simp only [Expr.eval, value, Environment.assign, found]
  | unassignable _ missing value => simp only [Expr.eval, value, Environment.assign, missing]
  | valueFails _ value => rw [Expr.eval, value]
  | yes _ holds _ condition branch => simp only [Expr.eval, condition, holds, if_true, branch]
  | no _ fails _ condition branch =>
    simp only [Expr.eval, condition, fails, Bool.false_eq_true, if_false, branch]
  | conditionFails _ condition => rw [Expr.eval, condition]

theorem Expr.evaluates_eval (e : Expr) (env : Environment) :
    Evaluates e env (e.eval env).1 (e.eval env).2 := by
  induction e generalizing env with
  | literal value => exact .literal
  | grouping inner ih => exact .grouping (ih env)
  | unary operator operand ih =>
    have inside := ih env
    rw [eval]
    generalize operand.eval env = run at inside ⊢
    obtain ⟨_ | value, after⟩ := run
    · exact .operandFails inside
    · exact .unary inside (unaryResult_apply operator value)
  | binary left operator right leftIh rightIh =>
    have before := leftIh env
    rw [eval]
    generalize left.eval env = run at before ⊢
    obtain ⟨_ | first, middle⟩ := run
    · exact .leftFails before
    · have behind := rightIh middle
      simp only
      generalize right.eval middle = run at behind ⊢
      obtain ⟨_ | second, after⟩ := run
      · exact .rightFails before behind
      · exact .binary before behind (binaryResult_apply operator first second)
  | var name =>
    simp only [eval, Environment.get]
    cases found : env.find? name.lexeme with
    | none => exact .unbound found
    | some value => exact .var found
  | assign name e ih =>
    have inside := ih env
    rw [eval]
    generalize e.eval env = run at inside ⊢
    obtain ⟨_ | value, middle⟩ := run
    · exact .valueFails inside
    · simp only [Environment.assign]
      cases found : middle.update? name.lexeme value with
      | none => exact .unassignable inside found
      | some after => exact .assign inside found
  | conditional condition yes no conditionIh yesIh noIh =>
    have before := conditionIh env
    rw [eval]
    generalize condition.eval env = run at before ⊢
    obtain ⟨_ | value, middle⟩ := run
    · exact .conditionFails before
    · simp only
      split
      · rename_i holds
        exact .yes before holds (yesIh middle)
      · rename_i fails
        exact .no before (by simpa using fails) (noIh middle)

/-- Evaluation is what the rules derive, and they derive nothing else. -/
theorem evaluates_iff {e : Expr} {env after : Environment} {result : Except RuntimeError Value} :
    Evaluates e env result after ↔ e.eval env = (result, after) := by
  constructor
  · exact Evaluates.eval_eq
  · intro run
    have derived := e.evaluates_eval env
    rwa [run] at derived

end Lox

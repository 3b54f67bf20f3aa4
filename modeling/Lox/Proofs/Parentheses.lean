import Lox.Proofs.Completeness.Statement
import Lox.Scan
import Lox.Stmt.Exec

/-!
Parentheses around every part of a program. The tokens that spell it so are still read as they
stand, in every tier of the grammar, and what they mean is what the program means without them.
-/

namespace Lox

/-- The expression in parentheses, and every part of it. The target of an assignment is no part: it
has to stay a bare name. -/
def Expr.grouped : Expr → Expr
  | literal value => grouping (literal value)
  | grouping inner => grouping (grouping inner.grouped)
  | unary operator operand => grouping (unary operator operand.grouped)
  | binary left operator right => grouping (binary left.grouped operator right.grouped)
  | var name => grouping (var name)
  | assign name value => grouping (assign name value.grouped)
  | conditional condition yes no =>
    grouping (conditional condition.grouped yes.grouped no.grouped)

namespace Stmt

mutual

def grouped : Stmt → Stmt
  | expression e => expression e.grouped
  | print e => print e.grouped
  | varDecl name initial => varDecl name (initial.map Expr.grouped)
  | block body => block (groupedAll body)
  | ifThen condition yes => ifThen condition.grouped yes.grouped
  | ifElse condition yes no => ifElse condition.grouped yes.grouped no.grouped
  | whileLoop condition body => whileLoop condition.grouped body.grouped

def groupedAll : List Stmt → List Stmt
  | [] => []
  | statement :: others => statement.grouped :: groupedAll others

end

theorem groupedAll_eq_map (statements : List Stmt) :
    groupedAll statements = statements.map grouped := by
  induction statements with
  | nil => rfl
  | cons statement others ih => rw [groupedAll, ih, List.map_cons]

end Stmt

/-! What is in parentheses may stand in every tier, and anything may stand in them. -/

theorem Fits.of_primary {e : Expr} (fits : Fits .primary e) (tier : Tier) : Fits tier e := by
  cases tier <;> repeat first | exact fits | apply Fits.looser

theorem Fits.loosest {tier : Tier} {e : Expr} (fits : Fits tier e) : Fits .assignment e := by
  cases tier <;> repeat first | exact fits | apply Fits.looser

theorem Fits.grouped {tier : Tier} {e : Expr} (fits : Fits tier e) : Fits .primary e.grouped := by
  induction fits with
  | literal value => exact .grouping (loosest (.literal value))
  | grouping _ inner => exact .grouping (loosest (.grouping inner.loosest))
  | var isName => exact .grouping (loosest (.var isName))
  | unary known _ operand => exact .grouping (loosest (.unary known (operand.of_primary _)))
  | binary leftAssoc known _ _ left right =>
    exact .grouping (loosest (.binary leftAssoc known (left.of_primary _) (right.of_primary _)))
  | conditional _ _ _ condition yes no =>
    exact .grouping (loosest
      (.conditional (condition.of_primary _) (yes.of_primary _) (no.of_primary _)))
  | assign isName _ value => exact .grouping (.assign isName value.loosest)
  | looser _ ih => exact ih

theorem Stmt.endsOpen_grouped (statement : Stmt) :
    statement.grouped.endsOpen = statement.endsOpen := by
  induction statement using Stmt.endsOpen.induct with
  | case1 condition yes => rfl
  | case2 condition yes no ih => simpa [grouped, endsOpen] using ih
  | case3 condition body ih => simpa [grouped, endsOpen] using ih
  | case4 statement _ _ _ => cases statement <;> simp_all [grouped, endsOpen]

theorem Shaped.grouped {place : Place} {statement : Stmt} (shaped : Shaped place statement) :
    Shaped place statement.grouped := by
  induction shaped with
  | expression fits => exact .expression fits.grouped.loosest
  | print fits => exact .print fits.grouped.loosest
  | varDecl isName fits =>
    refine .varDecl isName ?_
    intro e member
    obtain ⟨initial, isInitial, rfl⟩ := Option.map_eq_some_iff.mp member
    exact (fits initial isInitial).grouped.loosest
  | block _ body =>
    refine .block ?_
    rw [Stmt.groupedAll_eq_map]
    exact List.forall_mem_map.mpr body
  | ifThen condition _ yes => exact .ifThen condition.grouped.loosest yes
  | ifElse condition _ closed _ yes no =>
    exact .ifElse condition.grouped.loosest yes ((Stmt.endsOpen_grouped _).trans closed) no
  | whileLoop condition _ body => exact .whileLoop condition.grouped.loosest body

/-! Parentheses add no step to an evaluation, so nothing that is executed can tell them. -/

theorem Expr.eval_grouped (e : Expr) : e.grouped.eval = e.eval := by
  induction e with
  | _ => funext env; simp only [grouped, eval, *]

theorem State.loop_of_same_eval {condition other : Expr} (same : other.eval = condition.eval)
    (body : State → Outcome RuntimeError × State) (fuel : Nat) (state : State) :
    state.loop other body fuel = state.loop condition body fuel := by
  induction fuel generalizing state with
  | zero => rfl
  | succ fuel ih => simp only [loop, evaluate, same, ih]

namespace Stmt

mutual

theorem exec_grouped (fuel : Nat) (statement : Stmt) (state : State) :
    statement.grouped.exec fuel state = statement.exec fuel state := by
  cases statement with
  | expression e | print e => simp only [grouped, exec, State.evaluate, Expr.eval_grouped]
  | varDecl name initial =>
    cases initial with
    | none => rfl
    | some initial =>
      simp only [grouped, Option.map_some, exec, State.evaluate, Expr.eval_grouped]
  | block body => simp only [grouped, exec, execAll_grouped fuel body]
  | ifThen condition yes =>
    simp only [grouped, exec, State.evaluate, Expr.eval_grouped, exec_grouped fuel yes]
  | ifElse condition yes no =>
    simp only [grouped, exec, State.evaluate, Expr.eval_grouped, exec_grouped fuel yes,
      exec_grouped fuel no]
  | whileLoop condition body =>
    simp only [grouped, exec, exec_grouped fuel body,
      State.loop_of_same_eval (Expr.eval_grouped condition)]

theorem execAll_grouped (fuel : Nat) (statements : List Stmt) (state : State) :
    execAll fuel (groupedAll statements) state = execAll fuel statements state := by
  cases statements with
  | nil => rfl
  | cons statement others =>
    simp only [groupedAll, execAll, exec_grouped fuel statement, execAll_grouped fuel others]

end

end Stmt

/-- A parsed program whose every expression and part of one is put in parentheses is read back from
the tokens that spell it then. It prints, binds and fails like the program itself, and goes on for
as long. -/
theorem parentheses_change_nothing (tokens : List Token) :
    (∀ spelled last more,
      Spells spelled (Stmt.spellingAll (Stmt.groupedAll (parse tokens).statements)) →
      last.kind = .eof →
      parse (spelled ++ last :: more) = ⟨Stmt.groupedAll (parse tokens).statements, []⟩) ∧
    ∀ fuel state, execute fuel (Stmt.groupedAll (parse tokens).statements) state =
      execute fuel (parse tokens).statements state := by
  constructor
  · intro spelled last more spells isEnd
    refine parse_of_spells ?_ spells isEnd more
    rw [Stmt.groupedAll_eq_map]
    exact List.forall_mem_map.mpr fun statement member => (shaped_of_mem_statements member).grouped
  · intro fuel state
    rw [execute, execute, Stmt.execAll_grouped, Stmt.groupedAll_eq_map, List.length_map]

/-- The loop of `while (a > -b * 2) a = b = a / 2;`, with its condition and both assigned values in
parentheses. -/
theorem parentheses_in_loop :
    let tokens := (scan .tolerant "while (a > -b * 2) a = b = a / 2;").tokens
    let spelled := (scan .tolerant
      "while (((a) > ((-(b)) * (2)))) (a = (b = ((a) / (2))));").tokens.dropLast
    Spells spelled (Stmt.spellingAll (Stmt.groupedAll (parse tokens).statements)) ∧
      parse (spelled ++ [Token.eof 1]) = ⟨Stmt.groupedAll (parse tokens).statements, []⟩ := by
  intro tokens spelled
  have spells : Spells spelled
      (Stmt.spellingAll (Stmt.groupedAll (parse tokens).statements)) := by
    unfold Spells
    decide +kernel
  exact ⟨spells, (parentheses_change_nothing tokens).1 spelled (Token.eof 1) [] spells rfl⟩

end Lox

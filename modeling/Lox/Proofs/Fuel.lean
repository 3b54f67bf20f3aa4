import Lox.Session

/-!
Fuel only decides whether an execution ends. With more of it, an execution that has ended ends in
the same way, and so do the runs of a session.
-/

namespace Lox

/-- The second run is the first one, unless that one is out of fuel. -/
def Refines (run other : Outcome RuntimeError × State) : Prop :=
  run.1 = .outOfFuel ∨ other = run

namespace Refines

theorem refl (run : Outcome RuntimeError × State) : Refines run run := Or.inr rfl

theorem eq {run other : Outcome RuntimeError × State} (refines : Refines run other)
    (ended : run.1 ≠ .outOfFuel) : other = run :=
  refines.resolve_left ended

theorem andThen {run other : Outcome RuntimeError × State}
    {next goesOn : State → Outcome RuntimeError × State} :
    Refines run other → (∀ state, Refines (next state) (goesOn state)) → Refines
      (match run with
        | (.finished, state) => next state
        | stopped => stopped)
      (match other with
        | (.finished, state) => goesOn state
        | stopped => stopped) := by
  rintro (exhausted | rfl) rest
  · obtain ⟨outcome, state⟩ := run
    obtain rfl : outcome = .outOfFuel := exhausted
    exact Or.inl rfl
  · obtain ⟨_ | error | _, state⟩ := other
    · exact rest state
    · exact refl _
    · exact refl _

theorem evaluate (state : State) (e : Expr)
    {next goesOn : Value → State → Outcome RuntimeError × State}
    (rest : ∀ value state, Refines (next value state) (goesOn value state)) :
    Refines (state.evaluate e next) (state.evaluate e goesOn) := by
  unfold State.evaluate
  split
  · exact rest _ _
  · exact refl _

theorem loop (condition : Expr) {body other : State → Outcome RuntimeError × State}
    (bodies : ∀ state, Refines (body state) (other state)) {turns more : Nat}
    (enough : turns ≤ more) (state : State) :
    Refines (state.loop condition body turns) (state.loop condition other more) := by
  induction turns generalizing more state with
  | zero => exact Or.inl rfl
  | succ turns ih =>
    cases more with
    | zero => omega
    | succ more =>
      apply evaluate
      intro value state
      split
      · exact (bodies state).andThen (ih (by omega))
      · exact refl _

end Refines

namespace Stmt

mutual

theorem refines_exec {fuel more : Nat} (enough : fuel ≤ more) (statement : Stmt) (state : State) :
    Refines (statement.exec fuel state) (statement.exec more state) := by
  cases statement with
  | expression e | print e => exact .refl _
  | varDecl name initial => cases initial <;> exact .refl _
  | block body =>
    rcases refines_execAll enough body state.enter with exhausted | same
    · exact Or.inl exhausted
    · rw [exec, exec, same]
      exact .refl _
  | ifThen condition yes =>
    apply Refines.evaluate
    intro value state
    split
    · exact refines_exec enough yes state
    · exact .refl _
  | ifElse condition yes no =>
    apply Refines.evaluate
    intro value state
    split
    · exact refines_exec enough yes state
    · exact refines_exec enough no state
  | whileLoop condition body =>
    exact Refines.loop condition (refines_exec enough body) enough state

theorem refines_execAll {fuel more : Nat} (enough : fuel ≤ more) (statements : List Stmt)
    (state : State) :
    Refines (execAll fuel statements state) (execAll more statements state) := by
  cases statements with
  | nil => exact .refl _
  | cons statement others =>
    exact (refines_exec enough statement state).andThen (refines_execAll enough others)

end

end Stmt

theorem refines_execute {fuel more : Nat} (enough : fuel ≤ more) (statements : List Stmt)
    (start : State) : Refines (execute fuel statements start) (execute more statements start) :=
  Stmt.refines_execAll enough statements _

namespace Session

variable {fuel more : Nat}

theorem runStatements_more (enough : fuel ≤ more) {session : Session} {statements : List Stmt}
    (ended : (session.runStatements fuel statements).1.outcome ≠ .outOfFuel) :
    session.runStatements more statements = session.runStatements fuel statements := by
  rcases refines_execute enough statements ⟨session.environment, #[]⟩ with exhausted | same
  · apply absurd _ ended
    rw [runStatements]
    simp only [exhausted]
    rfl
  · rw [runStatements, runStatements, same]

theorem runTokens_more (enough : fuel ≤ more) {session : Session} {tokens : List Token}
    (ended : (session.runTokens fuel tokens).1.outcome ≠ .outOfFuel) :
    session.runTokens more tokens = session.runTokens fuel tokens := by
  simp only [runTokens] at ended ⊢
  cases parses : (parse tokens).errors with
  | cons error others => rfl
  | nil =>
    simp only [parses] at ended
    simp only [runStatements_more enough ended]

theorem run_more (enough : fuel ≤ more) {session : Session} {source : String}
    (ended : (session.run fuel source).1.outcome ≠ .outOfFuel) :
    session.run more source = session.run fuel source := by
  simp only [run] at ended ⊢
  cases scans : (scan session.mode source).errors with
  | cons error others => rfl
  | nil =>
    simp only [scans] at ended
    simp only [runTokens_more enough ended]

theorem runAll_more (enough : fuel ≤ more) {session : Session} {sources : List String}
    (ended : ∀ run ∈ (session.runAll fuel sources).1, run.outcome ≠ .outOfFuel) :
    session.runAll more sources = session.runAll fuel sources := by
  induction sources generalizing session with
  | nil => rfl
  | cons source others ih =>
    simp only [runAll, List.forall_mem_cons] at ended ⊢
    rw [run_more enough ended.1, ih ended.2]

end Session

end Lox

import Lox.Proofs.Scanning
import Lox.Session

/-!
Histories: what becomes of the sources that a session runs in turn. Sources that do not scan or
parse leave nothing behind. A strict session goes the same way as a tolerant one, and says less only
about a source that does not scan.
-/

namespace Lox

namespace Scan

theorem untilError_eq_ok_iff {line : Nat} {segments : List Segment} {tokens : List Token} :
    untilError line segments = .ok tokens ↔ Segment.errors line segments = [] ∧
      tokens = Segment.tokens line segments ++ [Token.eof (Segment.endLine line segments)] := by
  rw [untilError_eq]
  cases Segment.errors line segments <;> simp [eq_comm]

theorem untilError_eq_error_iff {line : Nat} {segments : List Segment} {error : ScanError} :
    untilError line segments = .error error ↔
      (Segment.errors line segments).head? = some error := by
  rw [untilError_eq]
  cases Segment.errors line segments <;> simp

end Scan

theorem scan_strict_of_error {source : String} {error : ScanError} {others : List ScanError}
    (errors : (scan .tolerant source).errors = error :: others) :
    scan .strict source = ⟨[], [error]⟩ := by
  have stopped := Scan.strict_eq (Segment.ofSource source.toList)
  rwa [show (Scan.tolerant (Segment.ofSource source.toList)).errors = _ from errors] at stopped

def Failure.first : Failure → Failure
  | scan errors => scan (errors.take 1)
  | failure => failure

def Run.rejected (run : Run) : Bool :=
  match run.outcome with
  | .failed (.scan _) | .failed (.parse _) => true
  | _ => false

namespace Session

structure Step where
  source : String
  run : Run
  after : Session

def step (fuel : Nat) (session : Session) (source : String) : Step where
  source := source
  run := (session.run fuel source).1
  after := (session.run fuel source).2

def history (fuel : Nat) (session : Session) : List String → List Step
  | [] => []
  | source :: others =>
    session.step fuel source :: (session.step fuel source).after.history fuel others

theorem runTokens_mode (mode other : ScanMode) (environment : Environment) (fuel : Nat)
    (tokens : List Token) :
    runTokens fuel ⟨mode, environment⟩ tokens =
      ((runTokens fuel ⟨other, environment⟩ tokens).1,
        ⟨mode, (runTokens fuel ⟨other, environment⟩ tokens).2.environment⟩) := by
  simp only [runTokens]
  cases (parse tokens).errors <;> rfl

theorem outcome_runStatements (fuel : Nat) (session : Session) (statements : List Stmt) :
    (session.runStatements fuel statements).1.outcome =
      (execute fuel statements ⟨session.environment, #[]⟩).1.map .runtime := rfl

theorem first_runTokens (fuel : Nat) (session : Session) (tokens : List Token) :
    (session.runTokens fuel tokens).1.outcome.map Failure.first =
      (session.runTokens fuel tokens).1.outcome := by
  simp only [runTokens, after]
  cases (parse tokens).errors with
  | cons error others => rfl
  | nil =>
    rw [outcome_runStatements]
    cases (execute fuel (parse tokens).statements _).1 <;> rfl

theorem run_of_scans {session : Session} {source : String}
    (scans : (scan .tolerant source).errors = []) (fuel : Nat) :
    session.run fuel source =
      after ((scan .tolerant source).lines?.toList.map
          (.scanned (scan .tolerant source).tokens.length ·))
        (session.runTokens fuel (scan .tolerant source).tokens) := by
  simp only [run, scan_of_tolerant scans, scans]

theorem output_after (events : List Event) (result : Run × Session) :
    (after events result).1.output = events.filterMap Event.output? ++ result.1.output := by
  simp [after, Run.output]

theorem output_scanned (count : Nat) (lines : List Nat) :
    (lines.map (Event.scanned count ·)).filterMap Event.output? = [] := by
  simp [List.filterMap_map, Event.output?]

theorem run_of_scan_error (session : Session) {source : String} {error : ScanError}
    {others : List ScanError} (errors : (scan session.mode source).errors = error :: others)
    (fuel : Nat) :
    (session.run fuel source).1.output = [] ∧
      (session.run fuel source).1.outcome = .failed (.scan (error :: others)) ∧
      (session.run fuel source).2 = session := by
  simp only [run, errors]
  refine ⟨?_, rfl, rfl⟩
  rw [output_after, output_scanned]
  rfl

/-- One source under both modes: only the number of scan errors can differ. -/
theorem run_modes (fuel : Nat) (environment : Environment) (source : String) :
    let strict := run fuel ⟨.strict, environment⟩ source
    let tolerant := run fuel ⟨.tolerant, environment⟩ source
    strict.1.output = tolerant.1.output ∧
      strict.1.outcome = tolerant.1.outcome.map Failure.first ∧
      ∃ next, strict.2 = ⟨.strict, next⟩ ∧ tolerant.2 = ⟨.tolerant, next⟩ := by
  intro strict tolerant
  cases errors : (scan .tolerant source).errors with
  | nil =>
    have strictRun : strict = _ := run_of_scans errors fuel
    have tolerantRun : tolerant = _ := run_of_scans errors fuel
    rw [runTokens_mode .strict .tolerant] at strictRun
    rw [runTokens_mode .tolerant .tolerant] at tolerantRun
    have firsts := first_runTokens fuel ⟨.tolerant, environment⟩ (scan .tolerant source).tokens
    generalize runTokens fuel ⟨.tolerant, environment⟩ _ = result at strictRun tolerantRun firsts
    rw [strictRun, tolerantRun]
    exact ⟨rfl, firsts.symm, _, rfl, rfl⟩
  | cons error others =>
    have stopped : (scan .strict source).errors = [error] := by rw [scan_strict_of_error errors]
    obtain ⟨strictOutput, strictOutcome, strictAfter⟩ :=
      run_of_scan_error ⟨.strict, environment⟩ stopped fuel
    obtain ⟨output, outcome, after⟩ :=
      run_of_scan_error ⟨.tolerant, environment⟩ errors fuel
    refine ⟨strictOutput.trans output.symm, ?_, environment, strictAfter, after⟩
    rw [strictOutcome, outcome]
    rfl

theorem history_modes (fuel : Nat) (environment : Environment) (sources : List String) :
    let strict := history fuel ⟨.strict, environment⟩ sources
    let tolerant := history fuel ⟨.tolerant, environment⟩ sources
    strict.map (·.run.output) = tolerant.map (·.run.output) ∧
      strict.map (·.run.outcome) = tolerant.map (·.run.outcome.map Failure.first) ∧
      strict.map (·.after.environment) = tolerant.map (·.after.environment) := by
  induction sources generalizing environment with
  | nil => exact ⟨rfl, rfl, rfl⟩
  | cons source others ih =>
    obtain ⟨output, outcome, next, strictAfter, tolerantAfter⟩ :=
      run_modes fuel environment source
    obtain ⟨outputs, outcomes, environments⟩ := ih next
    simp only [history, step, List.map_cons, strictAfter, tolerantAfter]
    rw [output, outcome, outputs, outcomes, environments]
    exact ⟨rfl, rfl, rfl⟩

theorem run_of_rejected {fuel : Nat} {session : Session} {source : String}
    (rejected : (session.run fuel source).1.rejected) :
    (session.run fuel source).1.output = [] ∧ (session.run fuel source).2 = session := by
  cases scans : (scan session.mode source).errors with
  | cons error others =>
    obtain ⟨output, -, after⟩ := run_of_scan_error session scans fuel
    exact ⟨output, after⟩
  | nil =>
    simp only [run, runTokens, scans] at rejected ⊢
    cases parses : (parse (scan session.mode source).tokens).errors with
    | cons error others =>
      refine ⟨?_, rfl⟩
      rw [output_after, output_scanned, output_after]
      rfl
    | nil =>
      simp only [parses, after, Run.rejected, outcome_runStatements] at rejected
      generalize (execute fuel _ _).1 = outcome at rejected
      cases outcome <;> cases rejected

def executed (steps : List Step) : List Step := steps.filter (!·.run.rejected)

theorem history_executed (fuel : Nat) (session : Session) (sources : List String) :
    let kept := executed (session.history fuel sources)
    session.history fuel (kept.map Step.source) = kept ∧
      (session.runAll fuel (kept.map Step.source)).2 = (session.runAll fuel sources).2 ∧
      kept.flatMap (·.run.output) = (session.history fuel sources).flatMap (·.run.output) := by
  induction sources generalizing session with
  | nil => exact ⟨rfl, rfl, rfl⟩
  | cons source others ih =>
    obtain ⟨same, final, outputs⟩ := ih (session.run fuel source).2
    by_cases rejected : (session.run fuel source).1.rejected
    · -- the session goes on as if the source had never been there
      obtain ⟨output, after⟩ := run_of_rejected rejected
      have kept : executed (session.history fuel (source :: others)) =
          executed (session.history fuel others) := by
        simp [executed, history, step, rejected, after]
      rw [after] at same final outputs
      dsimp only
      rw [kept]
      simp only [history, step, runAll, List.flatMap_cons, output, after]
      exact ⟨same, final, outputs⟩
    · have kept : executed (session.history fuel (source :: others)) =
          session.step fuel source :: executed ((session.run fuel source).2.history fuel others) := by
        simp [executed, history, step, rejected]
      dsimp only
      rw [kept]
      refine ⟨congrArg _ same, final, ?_⟩
      rw [history, List.flatMap_cons, List.flatMap_cons]
      exact congrArg _ outputs

/-- A strict scan ends well just when a tolerant one has no errors, with the same tokens, and at the
first error otherwise. So the histories of a strict and of a tolerant session differ in the number
of scan errors alone; and a history without the runs that did not scan or parse is that of the
other sources alone. -/
theorem modes_agree_and_rejected_leave_no_trace (fuel : Nat) :
    (∀ source : String,
      let strict := Scan.untilError 1 (Segment.ofSource source.toList)
      (∀ tokens, strict = .ok tokens ↔ (scan .tolerant source).errors = [] ∧
        tokens = (scan .tolerant source).tokens) ∧
      ∀ error, strict = .error error ↔
        (scan .tolerant source).errors.head? = some error) ∧
    (∀ environment sources,
      let strict := history fuel ⟨.strict, environment⟩ sources
      let tolerant := history fuel ⟨.tolerant, environment⟩ sources
      strict.map (·.run.output) = tolerant.map (·.run.output) ∧
        strict.map (·.run.outcome) = tolerant.map (·.run.outcome.map Failure.first) ∧
        strict.map (·.after.environment) = tolerant.map (·.after.environment)) ∧
    ∀ (session : Session) sources,
      let kept := executed (session.history fuel sources)
      session.history fuel (kept.map Step.source) = kept ∧
        (session.runAll fuel (kept.map Step.source)).2 = (session.runAll fuel sources).2 ∧
        kept.flatMap (·.run.output) = (session.history fuel sources).flatMap (·.run.output) := by
  refine ⟨?_, history_modes fuel, history_executed fuel⟩
  intro source
  exact ⟨fun _ => Scan.untilError_eq_ok_iff, fun _ => Scan.untilError_eq_error_iff⟩

end Session

end Lox

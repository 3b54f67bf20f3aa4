import Lox.Proofs.Fuel
import Lox.Proofs.Histories
import Lox.Proofs.Lines
import Lox.Proofs.Resolution

/-!
The prompt as a session: it runs the lines before the one that ends it, one after the other, and
shows what they print and how they fail.
-/

namespace Lox

namespace Session

theorem runAll_append (fuel : Nat) (session : Session) (first second : List String) :
    session.runAll fuel (first ++ second) =
      ((session.runAll fuel first).1 ++ ((session.runAll fuel first).2.runAll fuel second).1,
        ((session.runAll fuel first).2.runAll fuel second).2) := by
  induction first generalizing session with
  | nil => rfl
  | cons source others ih =>
    simp only [List.cons_append, runAll, ih]

theorem bound_run {fuel : Nat} {session : Session} {source name : String}
    (bound : name ∈ session.environment.boundNames) :
    name ∈ (session.run fuel source).2.environment.boundNames := by
  -- only an execution can change the environment, and it only adds names
  unfold run runTokens
  simp only [after]
  split
  · split
    · exact (Stmt.grows_execAll fuel _ _).boundNames_kept bound
    · exact bound
  · exact bound

theorem bound_runAll {fuel : Nat} {session : Session} {sources : List String} {name : String}
    (bound : name ∈ session.environment.boundNames) :
    name ∈ (session.runAll fuel sources).2.environment.boundNames := by
  induction sources generalizing session with
  | nil => exact bound
  | cons source others ih => exact ih (bound_run bound)

end Session

namespace Prompt

inductive Ending
  | endOfInput
  | exit
  | notText

namespace Ending

def complaints : Ending → List String
  | notText => ["stream did not contain valid UTF-8"]
  | _ => []

def status : Ending → ExitStatus
  | notText => .ioError
  | _ => .success

def code : Ending → Nat
  | notText => 74
  | _ => 0

end Ending

/-- The texts that are run, those of the lines before the first one that ends the prompt. -/
inductive Processed : List (List UInt8) → List String → Ending → Prop
  | endOfInput : Processed [] [] .endOfInput
  | exit {line others} : Reads line .exit → Processed (line :: others) [] .exit
  | notText {line others} : Reads line .notText → Processed (line :: others) [] .notText
  | source {line text others sources ending} : Reads line (.source text) →
      Processed others sources ending → Processed (line :: others) (text :: sources) ending

theorem exists_processed (lines : List (List UInt8)) :
    ∃ sources ending, Processed lines sources ending := by
  induction lines with
  | nil => exact ⟨[], _, .endOfInput⟩
  | cons line others ih =>
    have reads := reads_ofBytes line
    cases read : Line.ofBytes line with
    | exit => exact ⟨[], _, .exit (read ▸ reads)⟩
    | notText => exact ⟨[], _, .notText (read ▸ reads)⟩
    | source text =>
      obtain ⟨sources, ending, later⟩ := ih
      exact ⟨text :: sources, ending, .source (read ▸ reads) later⟩

def transcript (runs : List Run) (ending : Ending) : Transcript where
  stdout := String.join (runs.map fun run => "> " ++ asLines run.output) ++ "> "
  stderr := asLines (runs.filterMap (·.failure?.map Failure.text) ++ ending.complaints)
  status := ending.status

theorem asLines_append (first second : List String) :
    asLines (first ++ second) = asLines first ++ asLines second := by
  rw [asLines, List.map_append, String.join_append]
  rfl

theorem asLines_errors_cons (run : Run) (runs : List Run) (texts : List String) :
    asLines ((run :: runs).filterMap (·.failure?.map Failure.text) ++ texts) =
      run.stderr ++ asLines (runs.filterMap (·.failure?.map Failure.text) ++ texts) := by
  rw [Run.stderr, ← asLines_append, List.filterMap_cons]
  cases run.failure?.map Failure.text <;> rfl

theorem transcript_cons (run : Run) (runs : List Run) (ending : Ending) :
    transcript (run :: runs) ending =
      ⟨mark ++ run.stdout ++ (transcript runs ending).stdout,
        run.stderr ++ (transcript runs ending).stderr, ending.status⟩ := by
  simp only [transcript, asLines_errors_cons, List.map_cons, String.join_cons, String.append_assoc]
  rfl

theorem answer_of_processed {lines : List (List UInt8)} {sources : List String} {ending : Ending}
    (processed : Processed lines sources ending) (fuel : Nat) (session : Session) :
    answer fuel session lines = transcript (session.runAll fuel sources).1 ending := by
  induction processed generalizing session with
  | endOfInput => rfl
  | exit reads =>
    rw [answer, react, ofBytes_of_reads reads]
    rfl
  | notText reads =>
    rw [answer, react, ofBytes_of_reads reads]
    rfl
  | source reads _ ih =>
    rw [answer, react, ofBytes_of_reads reads]
    simp only [ih, Session.runAll, transcript_cons, afterMark, String.append_assoc]
    rfl

theorem run_of_processed {stdin : ByteArray} {lines : List (List UInt8)} {sources : List String}
    {ending : Ending} (division : Lines stdin.data.toList lines)
    (processed : Processed lines sources ending) (fuel : Nat) (mode : ScanMode) :
    run fuel mode stdin =
      transcript ((Session.start mode).runAll fuel sources).1 ending := by
  rw [run, splitLines_of_lines division, answer_of_processed processed]

/-- All that the runs print and all their errors are shown, and only the last of the three endings
makes the program fail. -/
structure Performs (fuel : Nat) (mode : ScanMode) (stdin : ByteArray) (runs : List Run)
    (ending : Ending) : Prop where
  stdout : (run fuel mode stdin).stdout =
    String.join (runs.map fun run => "> " ++ asLines run.output) ++ "> "
  stderr : (run fuel mode stdin).stderr =
    asLines (runs.filterMap (·.failure?.map Failure.text) ++ ending.complaints)
  code : (run fuel mode stdin).status.code = ending.code
  enough : (∀ ran ∈ runs, ran.outcome ≠ .outOfFuel) →
    ∀ more, fuel ≤ more → run more mode stdin = run fuel mode stdin

theorem performs_runAll {stdin : ByteArray} {lines : List (List UInt8)} {sources : List String}
    {ending : Ending} (division : Lines stdin.data.toList lines)
    (processed : Processed lines sources ending) (fuel : Nat) (mode : ScanMode) :
    Performs fuel mode stdin ((Session.start mode).runAll fuel sources).1 ending := by
  have shown := run_of_processed division processed
  constructor
  · rw [shown]
    rfl
  · rw [shown]
    rfl
  · rw [shown]
    cases ending <;> rfl
  · intro ended more enough
    rw [shown, shown, Session.runAll_more enough ended]

end Prompt

/-- What lines leave for the lines behind them: one that is not executed changes nothing, and what
is bound stays bound. -/
structure Session.Persists (fuel : Nat) (session : Session) : Prop where
  rejected : ∀ before source, ((session.runAll fuel before).2.run fuel source).1.rejected →
    (session.runAll fuel (before ++ [source])).2 = (session.runAll fuel before).2
  bound : ∀ before others name,
    (session.runAll fuel before).2.environment.find? name ≠ none →
      (session.runAll fuel (before ++ others)).2.environment.find? name ≠ none

theorem Session.persists (fuel : Nat) (session : Session) : session.Persists fuel where
  rejected before source rejected := by
    have kept := (run_of_rejected rejected).2
    rw [runAll_append]
    exact kept
  bound before others name bound := by
    rw [ne_eq, Environment.find?_eq_none_iff, Classical.not_not] at bound ⊢
    rw [runAll_append]
    exact bound_runAll bound

open Prompt (Lines Processed Performs)

/-- The lines of the input up to the end, to `exit` or to one that is not a text, are run in one
session. -/
theorem prompt_runs_a_session (fuel : Nat) (mode : ScanMode) (stdin : ByteArray) :
    (∃ lines sources ending, Lines stdin.data.toList lines ∧ Processed lines sources ending) ∧
      (∀ lines sources ending, Lines stdin.data.toList lines → Processed lines sources ending →
        Performs fuel mode stdin ((Session.start mode).runAll fuel sources).1 ending) ∧
      (Session.start mode).Persists fuel := by
  obtain ⟨sources, ending, processed⟩ :=
    Prompt.exists_processed (Prompt.splitLines stdin.data.toList)
  refine ⟨⟨_, sources, ending, Prompt.lines_splitLines _, processed⟩, ?_, Session.persists _ _⟩
  intro lines sources ending division processed
  exact Prompt.performs_runAll division processed fuel mode

/-- Blank lines are read as well, an error is shown and not final, and what follows `exit` is not
read any more. -/
theorem prompt_runs_until_exit :
    let lines := ["var a = \"x\";\n", "print b;\n", "\n", "print a;\n", " exit\t\n", "print a;"].map
      (·.toByteArray.data.toList)
    let stdin : ByteArray := ⟨lines.flatten.toArray⟩
    let result := Prompt.run 1 .strict stdin
    Lines stdin.data.toList lines ∧
      Processed lines ["var a = \"x\";", "print b;", "", "print a;"] .exit ∧
      result.stdout = "> > > > x\n> " ∧
      result.stderr = "Undefined variable 'b'.\n[line 1]\n" ∧ result.status.code = 0 := by
  intro lines stdin result
  have division : Lines stdin.data.toList lines := by
    have split : Prompt.splitLines stdin.data.toList = lines := by decide +kernel
    exact split ▸ Prompt.lines_splitLines _
  have reads (line : String) {read : Prompt.Line}
      (same : Prompt.Line.ofBytes line.toByteArray.data.toList = read) :
      Prompt.Reads line.toByteArray.data.toList read :=
    same ▸ Prompt.reads_ofBytes _
  have processed : Processed lines ["var a = \"x\";", "print b;", "", "print a;"] .exit :=
    .source (reads _ (by decide +kernel)) <| .source (reads _ (by decide +kernel)) <|
      .source (reads _ (by decide +kernel)) <| .source (reads _ (by decide +kernel)) <|
      .exit (reads _ (by decide +kernel))
  obtain ⟨-, law, -⟩ := prompt_runs_a_session 1 .strict stdin
  have performs := law lines _ .exit division processed
  exact ⟨division, processed, performs.stdout.trans (by decide +kernel),
    performs.stderr.trans (by decide +kernel), performs.code⟩

end Lox

import Lox.Prompt
import Lox.Script

/-!
The command line: switches, and at most one script to run instead of the prompt. Arguments are taken
from left to right, and the first that asks for help or for the version, or that cannot be accepted,
decides.
-/

namespace Lox.CommandLine

structure Options where
  strict : Bool
  verbosity : Nat
  script : Option String
  deriving DecidableEq

def Options.default : Options := ⟨false, 0, none⟩

def Options.mode (options : Options) : ScanMode :=
  if options.strict then .strict else .tolerant

inductive Notice
  | help
  | version
  | misuse (complaint : String)
  deriving DecidableEq

abbrev Step := Except Notice Options

def unexpected (argument : String) : Step :=
  .error (.misuse ("unexpected argument '" ++ argument ++ "' found"))

def longSwitch (options : Options) (argument : String) : Step :=
  match argument with
  | "--strict" =>
    if options.strict then
      .error (.misuse "the argument '--strict' cannot be used multiple times")
    else .ok { options with strict := true }
  | "--verbose" => .ok { options with verbosity := options.verbosity + 1 }
  | "--help" => .error .help
  | "--version" => .error .version
  | _ => unexpected argument

def shortSwitches (options : Options) : List Char → Step
  | [] => .ok options
  | 'v' :: letters => shortSwitches { options with verbosity := options.verbosity + 1 } letters
  | 'h' :: _ => .error .help
  | 'V' :: _ => .error .version
  | letter :: _ => unexpected ("-" ++ String.singleton letter)

def positional (options : Options) (argument : String) : Step :=
  if argument = "" then .error (.misuse "a value is required for '[SCRIPT]' but none was supplied")
  else
    match options.script with
    | none => .ok { options with script := some argument }
    | some _ => unexpected argument

/-- A lone dash is the name of a script. -/
def step (options : Options) (argument : String) : Step :=
  match argument.toList with
  | '-' :: '-' :: _ => longSwitch options argument
  | '-' :: letter :: letters => shortSwitches options (letter :: letters)
  | _ => positional options argument

def positionals (options : Options) : List String → Step
  | [] => .ok options
  | argument :: others =>
    match positional options argument with
    | .ok options => positionals options others
    | .error notice => .error notice

def parseFrom (options : Options) : List String → Step
  | [] => .ok options
  | "--" :: others => positionals options others
  | argument :: others =>
    match step options argument with
    | .ok options => parseFrom options others
    | .error notice => .error notice

def parse (arguments : List String) : Step :=
  parseFrom .default arguments

def versionText : String := "loxwalk 0.1.0\n"

def usageText : String := "Usage: loxwalk [OPTIONS] [SCRIPT]\n"

def helpText : String :=
  "A tree-walking interpreter for Lox. Runs SCRIPT, or starts a prompt when no script is " ++
  "given\n\n" ++
  usageText ++
  "\nArguments:\n  [SCRIPT]\n" ++
  "\nOptions:\n" ++
  "      --strict      Stop at the first scan error instead of reporting all of them\n" ++
  "  -v, --verbose...  Increase log verbosity (-v info, -vv debug, -vvv trace). RUST_LOG " ++
  "takes precedence\n" ++
  "  -h, --help        Print help\n" ++
  "  -V, --version     Print version\n"

def misuseText (complaint : String) : String :=
  "error: " ++ complaint ++ "\n\n" ++ usageText ++ "\nFor more information, try '--help'.\n"

def Notice.transcript : Notice → Transcript
  | help => ⟨helpText, "", .success⟩
  | version => ⟨versionText, "", .success⟩
  | misuse complaint => ⟨"", misuseText complaint, .usageError⟩

inductive Use
  | notice (notice : Notice)
  | script (mode : ScanMode) (path : String)
  | prompt (mode : ScanMode)
  deriving DecidableEq

def use (arguments : List String) : Use :=
  match parse arguments with
  | .error notice => .notice notice
  | .ok options =>
    match options.script with
    | some path => .script options.mode path
    | none => .prompt options.mode

/-- All that is written, given the files that can be read and all of the input. -/
def run (fuel : Nat) (files : String → Script.Contents) (stdin : ByteArray)
    (arguments : List String) : Transcript :=
  match use arguments with
  | .notice notice => notice.transcript
  | .script mode path => Script.run fuel mode path (files path)
  | .prompt mode => Prompt.run fuel mode stdin

end Lox.CommandLine

import Lox.CommandLine

/-!
The program: reads the arguments, files and lines that the library asks for, and writes what it
answers.
-/

namespace Lox.Main

partial def readLine (stdin : IO.FS.Stream) (line : ByteArray) : IO ByteArray := do
  match (← stdin.read 1).data.back? with
  | none => return line
  | some byte =>
    if byte = Prompt.newline then return line.push byte
    else readLine stdin (line.push byte)

def write (stdout stderr : String) : IO Unit := do
  (← IO.getStdout).putStr stdout
  (← IO.getStdout).flush
  (← IO.getStderr).putStr stderr

def exitCode (status : ExitStatus) : UInt32 := status.code.toUInt32

def finish (transcript : Transcript) : IO UInt32 := do
  write transcript.stdout transcript.stderr
  return exitCode transcript.status

partial def prompt (session : Session) : IO UInt32 := do
  write Prompt.mark ""
  let line ← readLine (← IO.getStdin) .empty
  if line.isEmpty then return ← finish Prompt.atEnd
  match Prompt.react Session.ampleFuel session line.data.toList with
  | .stop last => finish last
  | .goOn run next =>
    write run.stdout run.stderr
    prompt next

def contents (path : String) : IO Script.Contents := do
  match ← (IO.FS.readBinFile path).toBaseIO with
  | .ok bytes => return .ok bytes
  | .error (.noFileOrDirectory ..) => return .error Script.notFound
  | .error reason => return .error (toString reason)

def run (arguments : List String) : IO UInt32 := do
  match CommandLine.use arguments with
  | .notice notice => finish notice.transcript
  | .script mode path => finish (Script.run Session.ampleFuel mode path (← contents path))
  | .prompt mode => prompt (Session.start mode)

end Lox.Main

def main (arguments : List String) : IO UInt32 := Lox.Main.run arguments

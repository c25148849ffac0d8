import Stepwise.CommandLine.Program

/-!
The program as it runs: files are read before they are needed, and events are written as they come.
-/

namespace Stepwise.CommandLine

def readTextFile (path : String) : IO (Except FileFault String) := do
  try
    return .ok (← IO.FS.readFile path)
  catch
    | .inappropriateType .. => return .error (.directory path)
    | _ => return .error (.missing path)

def readFiles : List String → IO Files
  | [] => return fun path => .error (.missing path)
  | path :: rest => do
      let plain := Files.plainPath path
      let content ← readTextFile plain
      let others ← readFiles rest
      return fun wanted => if wanted = plain then content else others wanted

def filesOfLine (line : String) : List String :=
  match Request.read line with
  | .session (.load path) => [path]
  | _ => []

def writeEvents (verbose : Bool) (events : List Event) : IO Unit :=
  for event in events.filter (Event.isShown verbose) do
    IO.print event.printedText
    IO.eprint event.complainedText

def exitCode : Attempt Nat → IO UInt32
  | .ok code => return code.toUInt32
  | .error fault => do
      IO.eprintln fault.message
      return 1

partial def converseWithUser (verbose : Bool) (s : Session) : IO UInt32 := do
  if !s.running then return 0
  IO.print prompt
  (← IO.getStdout).flush
  let line ← (← IO.getStdin).getLine
  if line.isEmpty then
    IO.println ""
    return 0
  let files ← readFiles (filesOfLine line)
  let answer := s.respond files line
  writeEvents verbose (answerEvents answer)
  match answer.said with
  | .ok _ => converseWithUser verbose answer.session
  | .error fault => exitCode (.error fault)

def filesOfOptions (options : Options) : IO Files := do
  let named := options.rules.toList ++ options.script.toList
  let files ← readFiles named
  match options.script.map files.read with
  | some (.ok script) => readFiles (named ++ (Script.linesOf script).flatMap filesOfLine)
  | _ => return files

end Stepwise.CommandLine

open Stepwise CommandLine in
def main (arguments : List String) : IO UInt32 := do
  match readOptions arguments with
  | .error stop =>
      let outcome := Outcome.ofStop stop
      writeEvents false outcome.events
      exitCode outcome.exit
  | .ok options =>
      match course (← filesOfOptions options) options with
      | .finished outcome =>
          writeEvents options.verbose outcome.events
          exitCode outcome.exit
      | .conversing before s =>
          writeEvents options.verbose before
          converseWithUser options.verbose s

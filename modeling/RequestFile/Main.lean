import RequestFile.Cli.Arguments

/-!
The command line program: it reads the source that a job needs, runs the job and writes its outcome.
-/

namespace RequestFile

/-- The fault behind an error of the system. -/
def ReadFault.ofError (e : IO.Error) : ReadFault :=
  match e with
  | .noFileOrDirectory .. => missing
  | .inappropriateType _ code _ => if code = 21 then directory else noDirectory
  | e => ⟨toString e, 1⟩

/-- The bytes of a source outside of the command line. -/
def Source.fetch : Source → IO (Except ReadFault ByteArray)
  | .inline _ => return .ok .empty
  | .stdin => attempt (do (← IO.getStdin).readBinToEnd)
  | .file path => attempt (IO.FS.readBinFile path)
where
  /-- The bytes of an action, or why there are none. -/
  attempt (action : IO ByteArray) : IO (Except ReadFault ByteArray) := do
    try
      return .ok (← action)
    catch e =>
      return .error (.ofError e)

/-- Writes an outcome and gives its exit code. -/
def Outcome.write (o : Outcome) : IO UInt32 := do
  IO.print o.output
  IO.eprint o.errors
  return o.code.toUInt32

/-- Output goes to a terminal: both outputs do. -/
def onTerminal : IO Bool := do
  return (← (← IO.getStdout).isTty) && (← (← IO.getStderr).isTty)

end RequestFile

open RequestFile in
/-- Runs a command line. -/
def main (arguments : List String) : IO UInt32 := do
  match Job.ofArguments arguments with
  | .error stop => stop.outcome.write
  | .ok job =>
    let bytes ← match job.source? with
      | some source => source.fetch
      | none => pure (.ok .empty)
    (job.run (← onTerminal) bytes).write

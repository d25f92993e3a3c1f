import SpeechRom.CommandLine.Run

/-!
The program on a real machine.
-/

namespace SpeechRom

/-- Whether a code stands for an error number. Some calls give the number with its sign turned. -/
def isErrorNumber (number code : UInt32) : Bool := code == number || 0 - code == number

/-- The failure behind an error of the operating system. -/
def faultOf (error : IO.Error) : FileFault :=
  match error with
  | .noFileOrDirectory .. => .missing
  | .permissionDenied .. => .denied
  | .inappropriateType _ code _ =>
    if isErrorNumber 21 code then .isDirectory else .notDirectory
  | .invalidArgument _ code _ =>
    if isErrorNumber 36 code then .nameTooLong else .other (toString error)
  | other => .other (toString other)

/-- The result of an action on files. -/
def guarded {α : Type} (action : IO α) : IO (Except FileFault α) := do
  try
    return .ok (← action)
  catch error =>
    return .error (faultOf error)

/-- The machine as the host of a run. -/
def machine : CommandLine.Host IO where
  read path := guarded do return (← IO.FS.readBinFile path).data
  write path text := guarded (IO.FS.writeFile path text)
  print text := do
    let out ← IO.getStdout
    out.putStr text
    out.flush
  report line := IO.eprintln line
  clock := IO.monoNanosNow

end SpeechRom

/-- Carries out the command line and exits with its status. -/
def main (words : List String) : IO UInt32 := do
  let names := ["RUST_LOG", "CLICOLOR", "CLICOLOR_FORCE", "NO_COLOR"]
  let values ← names.mapM fun name => do return (name, ← IO.getEnv name)
  let surroundings :=
    SpeechRom.CommandLine.Surroundings.ofVariables
      (fun name => (values.lookup name).join) (← (← IO.getStdout).isTty)
  let status ← SpeechRom.CommandLine.run SpeechRom.machine surroundings words
  return status.toUInt32

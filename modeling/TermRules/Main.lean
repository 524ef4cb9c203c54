import TermRules.Command.Outcome

/-!
The program: it reads files of the machine, prints what the command gives and ends with its code.
-/

namespace TermRules

/-- What stands at a path of the machine, by the system's answer to reading it. -/
def lookAt (p : Path) : IO Look := do
  try
    return .file (← IO.FS.readBinFile p.text).toList
  catch
    | .inappropriateType _ 21 _ => return .directory
    | .inappropriateType _ _ _ => return .notDirectory
    | .permissionDenied _ number reason => return .refused number.toNat reason
    | _ => return .missing

def machine : Disk IO where
  workingDirectory := return .ofText (← IO.currentDir).toString
  look := lookAt

end TermRules

def main (arguments : List String) : IO UInt32 := do
  let outcome ← TermRules.Invocation.runArguments TermRules.machine arguments
  IO.print outcome.output
  if let some cause := outcome.fault then
    IO.eprintln cause.message
  return outcome.exitCode.toUInt32

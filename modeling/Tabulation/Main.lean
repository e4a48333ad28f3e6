import Tabulation.CommandLine.Commands

/-! The program: arguments and files in, lines and an exit code out. -/
namespace Tabulation

def usageText : String :=
  "Usage: catalog [--config FILE] [--entity TYPE]\n" ++
  "       explain [--config FILE] --query FILE [--scope TYPE:ID]... [--user LOGIN]\n" ++
  "       run [--config FILE] --query FILE [--scope TYPE:ID]... [--user LOGIN]\n" ++
  "           [--size N [--page N]]"

/-- Reads a file of the system. A failure to open it names the path. -/
def readSystemFile (path : String) : IO (Except FileFault String) := do
  try
    return .ok (← IO.FS.readFile path)
  catch
    | .noFileOrDirectory .. => return .error .notFound
    | .inappropriateType (some _) .. => return .error .notDirectory
    | .inappropriateType none .. => return .error .isDirectory
    | .invalidArgument .. => return .error .nameTooLong
    | .permissionDenied .. => return .error (.other "Permission denied (os error 13)")
    | .userError _ => return .error (.other "stream did not contain valid UTF-8")
    | e => return .error (.other (toString e))

/-- A random identifier of five groups of hexadecimal digits. -/
def newExecutionId : IO String := do
  let mut groups : List String := []
  for width in [8, 4, 4, 4, 12] do
    let mut group := ""
    for _ in List.range width do
      group := group.push (Json.hexDigit (← IO.rand 0 15))
    groups := groups ++ [group]
  return "-".intercalate groups

def writeEntry (stamp : Journal.Stamp) (entry : Journal.Entry) : IO Unit :=
  if entry.severity.isTrouble then IO.eprint (entry.text stamp)
  else IO.print (entry.text stamp)

def runProgram (arguments : List String) : IO UInt32 := do
  match CommandLine.read arguments with
  | .error usage =>
    if usage = .asked then IO.println usageText else IO.eprintln usageText
    return UInt32.ofNat usage.exitCode
  | .ok command =>
    let executionId ← newExecutionId
    let started ← IO.monoMsNow
    let (failure, progress) ← CommandLine.perform readSystemFile .info command
    let stamp := ⟨executionId, s!"{(← IO.monoMsNow) - started}"⟩
    progress.entries.forM (writeEntry stamp)
    progress.output.forM IO.println
    match failure with
    | none => return 0
    | some e =>
      IO.eprintln e.display
      return 1

end Tabulation

def main (arguments : List String) : IO UInt32 := Tabulation.runProgram arguments

import PaneTiling.CommandLine.Words
import PaneTiling.CommandLine.Run

/-!
The program: files are read and written here, and everything else is left to the library.
-/

namespace PaneTiling

/-- What stands at a path. Whatever is there but cannot be read counts as a folder. -/
def lookUp (path : String) : IO Files.Entry := do
  match ← (IO.FS.readBinFile path).toBaseIO with
  | .ok contents => return .file contents
  | .error (.noFileOrDirectory ..) => return .missing
  | .error _ => return .folder

def put (r : Replacement) : IO Bool := do
  try
    IO.FS.createDirAll (Files.above r.path)
    IO.FS.writeBinFile r.draft r.contents
    IO.FS.rename r.draft r.path
    return true
  catch _ => return false

def settingsFor (i : Invocation) (home : String) : IO (Except RunError (Settings Float)) := do
  match i.settingsOn home (← lookUp (i.settingsPath home)) with
  | .error e => return .error e
  | .ok (settings, replacement) =>
    let done ← match replacement with
      | some replacement => put replacement
      | none => pure true
    return i.settledSettings settings done

def answer (i : Invocation) (home : String) : IO (Except RunError Report) := do
  match ← settingsFor i home with
  | .error e => return .error e
  | .ok settings =>
    let path := i.sessionPath settings home
    return i.reportOn settings path (← lookUp path)

def run (words : List String) : IO UInt32 := do
  match CommandLine.read words with
  | .error e =>
    if e.exitCode = 0 then IO.print e.text else IO.eprint e.text
    return UInt32.ofNat e.exitCode
  | .ok i =>
    let home := (← IO.getEnv "HOME").getD "."
    match ← answer i home with
    | .ok report =>
      IO.print report.text
      return UInt32.ofNat report.exitCode
    | .error e =>
      IO.eprintln ("tilepane: error: " ++ e.message)
      return 1

end PaneTiling

def main (words : List String) : IO UInt32 := PaneTiling.run words

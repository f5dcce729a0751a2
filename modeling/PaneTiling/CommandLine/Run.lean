import PaneTiling.CommandLine.Basic
import PaneTiling.Session.Report
import PaneTiling.Session.Storage
import PaneTiling.Settings.Storage

/-!
Answering a command line: the settings are loaded, then the session, and then the report is made.
-/

namespace PaneTiling

structure Report where
  text : String
  exitCode : Nat
deriving DecidableEq, Repr, Inhabited

inductive RunError
  /-- The settings cannot be used; a path is told if they were asked for by path. -/
  | settings (path : Option String)
  | session (error : SessionError)
  | noSession (path : String)
deriving DecidableEq, Repr, Inhabited

def RunError.message : RunError → String
  | settings (some path) => "Failed to load config from " ++ Text.quoted path
  | settings none => "Failed to load config"
  | session error => error.message
  | noSession path => "No saved session at " ++ Text.quoted path

namespace Invocation

def sessionPath (i : Invocation) (settings : Settings Float) (home : String) : String :=
  i.session.getD (settings.sessionPath home)

def report (i : Invocation) (settings : Settings Float) (session : Session Float) : Report :=
  match i.command with
  | .layout width height gap =>
    ⟨session.layoutReport (.clamped 0 0 width height) (gap.getD settings.paneGap), 0⟩
  | .check => ⟨session.restoreReport, if session.isRestorable then 0 else 1⟩

def reportOn (i : Invocation) (settings : Settings Float) (path : String) (entry : Files.Entry) :
    Except RunError Report :=
  match Session.ofEntry path entry with
  | .ok (some session) => .ok (i.report settings session)
  | .ok none => .error (.noSession path)
  | .error error => .error (.session error)

def settingsPath (i : Invocation) (home : String) : String := i.config.getD (Settings.path home)

/-- The settings to use, from what stands at their path, and what is to be put there before they are
used. -/
def settingsOn (i : Invocation) (home : String) (entry : Files.Entry) :
    Except RunError (Settings Float × Option Replacement) :=
  let found := match i.config with
    | some _ => (Settings.ofEntry entry).map (·, none)
    | none => Settings.ofUsualEntry home entry
  found.mapError fun _ => .settings i.config

def settledSettings (i : Invocation) (settings : Settings Float) (done : Bool) :
    Except RunError (Settings Float) :=
  if done then .ok settings else .error (.settings i.config)

def loadSettings (i : Invocation) (files : Files) (home : String) :
    Except RunError (Settings Float × Files) := do
  let (settings, replacement) ← i.settingsOn home (files.look (i.settingsPath home))
  let (done, after) := (replacement.map files.replace).getD (true, files)
  return (← i.settledSettings settings done, after)

def run (i : Invocation) (settings : Settings Float) (files : Files) (home : String) :
    Except RunError Report :=
  let path := i.sessionPath settings home
  i.reportOn settings path (files.look path)

end Invocation

end PaneTiling

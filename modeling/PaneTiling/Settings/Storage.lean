import PaneTiling.Settings.Document
import PaneTiling.Files
import PaneTiling.Text.Blank

/-!
Settings files. A blank file holds the standard settings, and settings with a fault are neither read
nor written.
-/

namespace PaneTiling

inductive SettingsError
  /-- A file could not be read or written. -/
  | inaccessible
  | malformed
  | faulty (fault : SettingsFault Float)
deriving BEq, Repr, Inhabited

namespace Settings

/-- Settings are only taken or given away if they have no fault. -/
def checked (s : Settings Float) : Except SettingsError (Settings Float) :=
  match s.fault? with
  | some fault => .error (.faulty fault)
  | none => .ok s

def ofFileText (text : String) : Except SettingsError (Settings Float) :=
  if Text.isBlank text then checked standard
  else
    match ofText? text with
    | some s => checked s
    | none => .error .malformed

def ofEntry : Files.Entry → Except SettingsError (Settings Float)
  | .file contents =>
    match String.fromUTF8? contents with
    | some text => ofFileText text
    | none => .error .inaccessible
  | .missing | .folder => .error .inaccessible

def load (files : Files) (path : String) : Except SettingsError (Settings Float) :=
  ofEntry (files.look path)

def savedText (s : Settings Float) : Except SettingsError String := s.checked.map text

def draftPath (path : String) : String := Files.withEnding path "yaml.tmp"

def replacement (s : Settings Float) (path : String) : Except SettingsError Replacement :=
  s.savedText.map fun text => ⟨draftPath path, path, text.toUTF8⟩

def saving (s : Settings Float) (files : Files) (path : String) :
    Except SettingsError Unit × Files :=
  match s.replacement path with
  | .error fault => (.error fault, files)
  | .ok replacement =>
    match files.replace replacement with
    | (true, after) => (.ok (), after)
    | (false, left) => (.error .inaccessible, left)

/-- The settings to use, from what stands in their usual place, and what is to be put there before
they are used. -/
def ofUsualEntry (home : String) :
    Files.Entry → Except SettingsError (Settings Float × Option Replacement)
  | .missing => do return (standard, some (← standard.replacement (path home)))
  | entry => do return (← ofEntry entry, none)

end Settings

end PaneTiling

import PaneTiling.Session.Document
import PaneTiling.Files
import PaneTiling.Text.Blank
import PaneTiling.Text.Quoted

/-!
Session files. A missing or blank file holds no session.
-/

namespace PaneTiling

inductive SessionError
  | unreadable (path : String)
  | malformed (path : String)
deriving DecidableEq, Repr, Inhabited

def SessionError.message : SessionError → String
  | unreadable path => "Failed to read session state from " ++ Text.quoted path
  | malformed path => "Failed to parse session state from " ++ Text.quoted path

namespace Session

def ofFileText (path text : String) : Except SessionError (Option (Session Float)) :=
  if Text.isBlank text then .ok none
  else
    match ofText? text with
    | some session => .ok (some session)
    | none => .error (.malformed path)

def ofEntry (path : String) : Files.Entry → Except SessionError (Option (Session Float))
  | .missing => .ok none
  | .folder => .error (.unreadable path)
  | .file contents =>
    match String.fromUTF8? contents with
    | some text => ofFileText path text
    | none => .error (.unreadable path)

def load (files : Files) (path : String) : Except SessionError (Option (Session Float)) :=
  ofEntry path (files.look path)

/-- Saving goes through a draft beside the file, so that the file is never left half written. -/
def draftPath (path : String) : String := Files.withEnding path "json.tmp"

def save (session : Session Float) (files : Files) (path : String) : Bool × Files :=
  files.replace ⟨draftPath path, path, session.text.toUTF8⟩

end Session

end PaneTiling

import PaneTiling.Settings.Basic
import PaneTiling.Yaml.Reader
import PaneTiling.Yaml.Printer

/-!
Settings as YAML documents: one mapping from names to scalars. A name that is left out has its
standard value, and a name that is not known is passed over.
-/

namespace PaneTiling

/-- Widths are written with their point kept, and with an exponent from 1e16 up and below 1e-5. -/
def Decimal.Style.settings : Decimal.Style where
  positional power := -5 ≤ power && power ≤ 15
  keepsPoint := true
  plusExponent := false
  tie := .even
  nan := ".nan".toList
  infinite negative := signText negative ++ ".inf".toList

namespace Settings

def line (value : String) : List Char := value.toList ++ ['\n']

def floatLine (x : Float) : List Char := Decimal.Style.settings.render x ++ ['\n']

def chars (s : Settings Float) : List Char :=
  Yaml.entryText "pane_gap" (floatLine s.paneGap)
    ++ Yaml.entryText "divider_hit_width" (floatLine s.dividerHitWidth)
    ++ Yaml.entryText "suspend_after_secs" (line (toString s.suspendAfterSecs))
    ++ Yaml.entryText "destroy_after_secs" (line (toString s.destroyAfterSecs))
    ++ Yaml.entryText "restore_session" (line (if s.restoreSession then "true" else "false"))
    ++ (s.sessionFile.map fun path =>
      Yaml.entryText "session_file" (Yaml.valueText path.toList)).getD []
    ++ Yaml.entryText "log_level" (line s.logLevel.name)

def text (s : Settings Float) : String := String.ofList s.chars

def field? {β : Type} (entries : List (Yaml.Scalar × Yaml)) (name : String)
    (read : Yaml.Scalar → Option β) (standard : β) : Option β :=
  match entries.filter fun (key, _) => key.text = name.toList with
  | [] => some standard
  | [(_, value)] => value.scalar?.bind read
  | _ => none

def sessionFile? (value : Yaml.Scalar) : Option (Option String) :=
  some (if value.isNull then none else some (String.ofList value.text))

def logLevel? (value : Yaml.Scalar) : Option LogLevel := LogLevel.ofName? (String.ofList value.text)

def ofEntries? (entries : List (Yaml.Scalar × Yaml)) : Option (Settings Float) := do
  let base : Settings Float := standard
  return {
    paneGap := ← field? entries "pane_gap" (·.float?) base.paneGap
    dividerHitWidth := ← field? entries "divider_hit_width" (·.float?) base.dividerHitWidth
    suspendAfterSecs := ← field? entries "suspend_after_secs" (·.nat64?) base.suspendAfterSecs
    destroyAfterSecs := ← field? entries "destroy_after_secs" (·.nat64?) base.destroyAfterSecs
    restoreSession := ← field? entries "restore_session" (·.bool?) base.restoreSession
    sessionFile := ← field? entries "session_file" sessionFile? base.sessionFile
    logLevel := ← field? entries "log_level" logLevel? base.logLevel
  }

/-- The settings that a document holds. A document without a value holds the standard ones. -/
def ofYaml? : Yaml → Option (Settings Float)
  | .scalar ⟨true, []⟩ => some standard
  | .mapping entries => ofEntries? entries
  | _ => none

def ofText? (text : String) : Option (Settings Float) :=
  (Yaml.ofChars? text.toList).bind ofYaml?

end Settings

end PaneTiling

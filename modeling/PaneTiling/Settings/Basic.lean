import PaneTiling.Scalar
import PaneTiling.Decimal.Style

/-!
What a user can set: the gap between panes, how wide a divider is to the pointer, when idle tabs are
given up, and where the session is kept.
-/

namespace PaneTiling

inductive LogLevel
  | off
  | error
  | warn
  | info
  | debug
  | trace
deriving DecidableEq, Repr, Inhabited

namespace LogLevel

def all : List LogLevel := [off, error, warn, info, debug, trace]

def name : LogLevel → String
  | off => "off"
  | error => "error"
  | warn => "warn"
  | info => "info"
  | debug => "debug"
  | trace => "trace"

def ofName? (name : String) : Option LogLevel := all.find? (·.name = name)

end LogLevel

structure Settings (α : Type) where
  paneGap : α
  dividerHitWidth : α
  suspendAfterSecs : Nat
  destroyAfterSecs : Nat
  restoreSession : Bool
  sessionFile : Option String
  logLevel : LogLevel
deriving BEq, Repr

inductive SettingsFault (α : Type)
  | paneGap (gap : α)
  | dividerHitWidth (width gap : α)
  | destroyAfterSecs (destroy suspend : Nat)
deriving BEq, DecidableEq, Repr, Inhabited

def SettingsFault.message : SettingsFault Float → String
  | paneGap gap =>
    "Config validation error: pane_gap must be a non-negative number, got "
      ++ Decimal.messageText gap
  | dividerHitWidth width gap =>
    "Config validation error: divider_hit_width (" ++ Decimal.messageText width
      ++ ") must be at least pane_gap (" ++ Decimal.messageText gap ++ ")"
  | destroyAfterSecs destroy suspend =>
    "Config validation error: destroy_after_secs (" ++ toString destroy
      ++ ") must not be shorter than suspend_after_secs (" ++ toString suspend ++ ")"

namespace Settings

variable {α : Type} [Scalar α]

def standard : Settings α where
  paneGap := 4.0
  dividerHitWidth := 8.0
  suspendAfterSecs := 300
  destroyAfterSecs := 1800
  restoreSession := true
  sessionFile := none
  logLevel := .off

instance : Inhabited (Settings α) := ⟨standard⟩

def fault? (s : Settings α) : Option (SettingsFault α) :=
  if !Scalar.isFinite s.paneGap || decide (s.paneGap < 0) then some (.paneGap s.paneGap)
  else if !Scalar.isFinite s.dividerHitWidth || decide (s.dividerHitWidth < s.paneGap) then
    some (.dividerHitWidth s.dividerHitWidth s.paneGap)
  else if s.destroyAfterSecs < s.suspendAfterSecs then
    some (.destroyAfterSecs s.destroyAfterSecs s.suspendAfterSecs)
  else none

/-- How much wider a divider is to the pointer than to the eye, on either side. -/
def hitPadding (s : Settings α) : α := max (s.dividerHitWidth - s.paneGap) 0 / 2.0

def folder (home : String) : String := home ++ "/.config/tilepane"

def path (home : String) : String := folder home ++ "/config.yaml"

def sessionPath (s : Settings α) (home : String) : String :=
  s.sessionFile.getD (folder home ++ "/session.json")

end Settings

end PaneTiling

import PaneTiling.Session.Basic
import PaneTiling.Json.Reader
import PaneTiling.Json.Printer
import PaneTiling.Decimal.Scaled
import PaneTiling.Decimal.Style

/-!
Sessions as JSON documents. A record is written as an object and may also be read from an array of
its fields in order; a node of a pane tree is always an object, and one with a tab is a leaf
whatever else it holds.
-/

namespace PaneTiling

/-- Shares are written with their point kept, and with an exponent from 1e16 up and below 1e-5. -/
def Decimal.Style.session : Decimal.Style where
  positional power := -5 ≤ power && power ≤ 15
  keepsPoint := true
  plusExponent := true
  tie := .even
  nan := "null".toList
  infinite _ := "null".toList

namespace PaneTree

def axisText : Axis → String
  | .row => "row"
  | .col => "col"

mutual

def toJson : PaneTree Float → Json
  | leaf tab => .object [(some "tab_id", .string tab.text)]
  | split axis slots =>
    .object [(some "direction", .string (axisText axis)),
      (some "children", .array (slotsToJson slots))]

def slotsToJson : List (PaneTree Float × Float) → List Json
  | [] => []
  | (tree, share) :: rest =>
    .object [(some "pane", tree.toJson),
        (some "ratio", .number (Decimal.Style.session.render share))]
      :: slotsToJson rest

end

end PaneTree

namespace Json

/-- Arrays and objects may be nested this deep, except in a field that is passed over. -/
def maxDepth : Nat := 127

def float? : Json → Option Float
  | number literal => (Decimal.Numeral.ofChars? literal).bind (·.scaled?)
  | _ => none

mutual

def isSound : Json → Bool
  | number literal => (number literal).float?.isSome
  | string text => text.isSome
  | array items => itemsSound items
  | object fields => fieldsSound fields
  | _ => true

def itemsSound : List Json → Bool
  | [] => true
  | item :: rest => item.isSound && itemsSound rest

def fieldsSound : List (Option String × Json) → Bool
  | [] => true
  | (key, value) :: rest => key.isSome && value.isSound && fieldsSound rest

end

def axis? : Json → Option Axis
  | string (some "row") => some .row
  | string (some "col") => some .col
  | object [(some "row", null)] => some .row
  | object [(some "col", null)] => some .col
  | _ => none

def node? : Nat → Json → Option (PaneTree Float)
  | room + 1, object fields =>
    match (object fields).record ["tab_id"] with
    | some [some (string (some tab))] => some (.leaf ⟨tab⟩)
    | _ => do
      let [some direction, some children] ← (object fields).record ["direction", "children"] | none
      let axis ← direction.axis?
      let slots ← (← children.items?).mapM fun child => do
        let [some pane, some ratio] ← child.record ["pane", "ratio"] | none
        return (← node? room pane, ← ratio.float?)
      return .split axis slots
  | _, _ => none

/-- A pane tree is read whole, so nothing in it may be broken or nested too deep. It stands within
three levels of the session. -/
def paneTree? (value : Json) : Option (PaneTree Float) :=
  if value.isSound ∧ value.depth + 3 ≤ maxDepth then value.node? maxDepth else none

def savedTab? (value : Json) : Option SavedTab := do
  let [some id, some title, some url, pinned] ← value.record ["id", "title", "url", "pinned"] | none
  return ⟨⟨← id.text?⟩, ← title.text?, ← url.text?, ← pinned.elim (some false) bool?⟩

def savedWorkspace? (value : Json) : Option (SavedWorkspace Float) := do
  let [some id, some name, some tabs, active, tree] ←
    value.record ["id", "name", "tabs", "active_tab_id", "pane_layout"] | none
  return {
    id := ← (← id.text?) |> Uuid.ofString?
    name := ← name.text?
    tabs := ← (← tabs.items?).mapM savedTab?
    active := ← optional (fun value => value.text?.map TabId.mk) active
    tree := ← optional paneTree? tree
  }

def session? (value : Json) : Option (Session Float) := do
  let [some savedAt, some workspaces, front] ←
    value.record ["saved_at", "workspaces", "active_workspace"] | none
  return {
    savedAt := ← savedAt.text?
    workspaces := ← (← workspaces.items?).mapM savedWorkspace?
    front := ← optional nat64? front
  }

end Json

def SavedTab.toJson (tab : SavedTab) : Json :=
  .object [(some "id", .string tab.id.text), (some "title", .string tab.title),
    (some "url", .string tab.url), (some "pinned", .bool tab.pinned)]

def SavedWorkspace.toJson (saved : SavedWorkspace Float) : Json :=
  .object <|
    [(some "id", .string saved.id.text), (some "name", .string saved.name),
      (some "tabs", .array (saved.tabs.map (·.toJson)))]
    ++ (saved.active.map fun tab => (some "active_tab_id", Json.string tab.text)).toList
    ++ (saved.tree.map fun tree => (some "pane_layout", tree.toJson)).toList

namespace Session

def toJson (session : Session Float) : Json :=
  .object <|
    [(some "saved_at", .string session.savedAt),
      (some "workspaces", .array (session.workspaces.map (·.toJson)))]
    ++ (session.front.map fun index =>
      (some "active_workspace", Json.number (Nat.toDigits 10 index))).toList

def text (session : Session Float) : String := String.ofList (session.toJson.pretty 0)

def ofText? (text : String) : Option (Session Float) :=
  (Json.ofChars? text.toList).bind Json.session?

end Session

end PaneTiling

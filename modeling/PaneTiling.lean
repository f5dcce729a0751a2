import PaneTiling.Main
import PaneTiling.Window.Action
import PaneTiling.Proofs.Navigation
import PaneTiling.Proofs.PaneTree.Leaves
import PaneTiling.Proofs.PaneTree.Shape
import PaneTiling.Proofs.PaneTree.Paths
import PaneTiling.Proofs.PaneTree.Rewriting
import PaneTiling.Proofs.Workspace.Rules
import PaneTiling.Proofs.Workspace.Edits
import PaneTiling.Proofs.Workspace.Opening
import PaneTiling.Proofs.Workspace.Restoring
import PaneTiling.Proofs.Workspace.LivePanes
import PaneTiling.Proofs.Workspace.ShownTabs
import PaneTiling.Proofs.Window.Lookup
import PaneTiling.Proofs.Window.Run
import PaneTiling.Proofs.Window.Opening
import PaneTiling.Proofs.Window.Refusals
import PaneTiling.Proofs.Window.Change
import PaneTiling.Proofs.Window.Front
import PaneTiling.Proofs.Window.Soundness
import PaneTiling.Proofs.Window.Dropping
import PaneTiling.Proofs.Window.LivePanes
import PaneTiling.Proofs.Window.Presentation
import PaneTiling.Proofs.PaneTree.Shares
import PaneTiling.Proofs.PaneTree.Acceptance
import PaneTiling.Proofs.PaneTree.Tiling
import PaneTiling.Proofs.PaneTree.Borders
import PaneTiling.Proofs.PaneTree.EditSites
import PaneTiling.Proofs.PaneTree.Insertion
import PaneTiling.Proofs.PaneTree.Locality
import PaneTiling.Proofs.Workspace.Leaving
import PaneTiling.Proofs.Window.Leaving
import PaneTiling.Proofs.Window.ShownTabs
import PaneTiling.Proofs.Window.Outlines
import PaneTiling.Proofs.Window.DragHome
import PaneTiling.Proofs.Window.DividerDrag
import PaneTiling.Proofs.Workspace.Recovery
import PaneTiling.Proofs.Window.Recovery
import PaneTiling.Proofs.PaneTree.Resizing
import PaneTiling.Proofs.Window.SteadyDrag
import PaneTiling.Proofs.Window.FrameBatches
import PaneTiling.Proofs.PaneTree.Areas
import PaneTiling.Proofs.PaneTree.BorderShift
import PaneTiling.Proofs.PaneTree.Dividers
import PaneTiling.Proofs.PaneTree.Containment
import PaneTiling.Proofs.DropZone
import PaneTiling.Proofs.Window.Reports
import PaneTiling.Proofs.PaneTree.Drift
import PaneTiling.Proofs.Workspace.Strip
import PaneTiling.Proofs.Window.Strips
import PaneTiling.Proofs.Window.Addressing
import PaneTiling.Proofs.Decimal.Numeral
import PaneTiling.Proofs.Decimal.Rendering
import PaneTiling.Proofs.Json.Lexing
import PaneTiling.Proofs.Json.Reading
import PaneTiling.Proofs.Uuid
import PaneTiling.Proofs.Files
import PaneTiling.Proofs.Session.Trees
import PaneTiling.Proofs.Session.Documents
import PaneTiling.Proofs.PaneTree.Removal
import PaneTiling.Proofs.PaneTree.Undoing
import PaneTiling.Proofs.LiveEdges
import PaneTiling.Proofs.Window.Idle
import PaneTiling.Proofs.PaneTree.Segments
import PaneTiling.Proofs.NearestPane
import PaneTiling.Proofs.Window.FocusMoves
import PaneTiling.Proofs.Settings.Documents

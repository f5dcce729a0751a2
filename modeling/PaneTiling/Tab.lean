import PaneTiling.PaneTree.Basic

/-!
Tabs. A tab's tier says how much of its page is held in memory: all of it, a suspended page, or
nothing but what the tab strip shows.
-/

namespace PaneTiling

/-- Milliseconds since a moment that is fixed for the run. -/
abbrev Instant := Int

/-- What the clock shows each time that an operation looks at it. -/
structure Clock where
  reading : Nat → Instant

namespace Clock

def still (now : Instant) : Clock := ⟨fun _ => now⟩

instance (n : Nat) : OfNat Clock n := ⟨still n⟩

instance : Coe Clock Instant := ⟨fun clock => clock.reading 0⟩

def later (clock : Clock) : Clock := ⟨fun n => clock.reading (n + 1)⟩

end Clock

inductive MemoryTier
  | active
  | suspended
  | destroyed
deriving DecidableEq, Repr, Inhabited

structure Tab where
  id : TabId
  title : String
  url : String
  tier : MemoryTier
  pinned : Bool
  playingMedia : Bool
  lastActive : Instant
deriving DecidableEq, Repr, Inhabited

namespace Tab

def fresh (id : TabId) (title url : String) (now : Instant) : Tab :=
  ⟨id, title, url, .active, false, false, now⟩

def internalSchemes : List String := ["about:", "tilepane://"]

def isInternal (tab : Tab) : Bool :=
  internalSchemes.any fun scheme => scheme.toList.isPrefixOf tab.url.toList

/-- Only a live page that is not internal is offered as the second pane of a split. -/
def isSplitCandidate (tab : Tab) : Bool := !tab.isInternal && tab.tier == .active

def touch (now : Instant) (tab : Tab) : Tab := { tab with tier := .active, lastActive := now }

end Tab

/-- The tab used last; of several used at the same time the one furthest back in the list. -/
def latestTab? (tabs : List Tab) : Option Tab :=
  tabs.foldl (fun best tab =>
    match best with
    | none => some tab
    | some old => if old.lastActive ≤ tab.lastActive then some tab else best) none

def modifyTab (id : TabId) (change : Tab → Tab) : List Tab → List Tab
  | [] => []
  | tab :: rest => if tab.id = id then change tab :: rest else tab :: modifyTab id change rest

theorem map_id_modifyTab (id : TabId) (change : Tab → Tab) (tabs : List Tab)
    (hid : ∀ tab, (change tab).id = tab.id) :
    (modifyTab id change tabs).map (·.id) = tabs.map (·.id) := by
  induction tabs with
  | nil => rfl
  | cons tab rest ih => by_cases h : tab.id = id <;> simp [modifyTab, h, hid, ih]

end PaneTiling

import PaneTiling.Proofs.Session.Trees
import PaneTiling.Proofs.Files
import PaneTiling.Session.Storage

/-!
Saved sessions come back. What is written of a tab, a workspace or a session is read back from its
value, whether or not the fields that may be left out are there; and what is saved to a file is
loaded from it.
-/

namespace PaneTiling

theorem text?_string (text : Option String) : (Json.string text).text? = text := rfl

theorem items?_array (items : List Json) : (Json.array items).items? = some items := rfl

theorem optional_map {β : Type} {write : β → Json} {read : Json → Option β} {field : Option β}
    (hwrite : ∀ item ∈ field, write item ≠ .null)
    (hread : ∀ item ∈ field, read (write item) = some item) :
    Json.optional read (field.map write) = some field := by
  cases field with
  | none => rfl
  | some item =>
    have hvalue := hread item rfl
    rw [Option.map_some, Json.optional, hvalue, Option.map_some]
    exact hwrite item rfl

namespace SavedTab

theorem savedTab?_toJson (tab : SavedTab) : Json.savedTab? tab.toJson = some tab := by
  simp [Json.savedTab?, toJson, Json.record, Json.text?, Json.bool?]

theorem printable_toJson (tab : SavedTab) : tab.toJson.Printable := by
  simp [toJson, Json.Printable, Json.FieldsPrintable]

end SavedTab

namespace SavedWorkspace

structure Readable (saved : SavedWorkspace Float) : Prop where
  readsBack : ∀ tree ∈ saved.tree, tree.ReadsBack
  nesting_le : ∀ tree ∈ saved.tree, tree.nesting ≤ 41

def tabToJson (tab : TabId) : Json := .string tab.text

theorem record_toJson (saved : SavedWorkspace Float) :
    saved.toJson.record ["id", "name", "tabs", "active_tab_id", "pane_layout"] =
      some [some (.string saved.id.text), some (.string saved.name),
        some (.array (saved.tabs.map (·.toJson))), saved.active.map tabToJson,
        saved.tree.map (·.toJson)] := by
  obtain ⟨id, name, tabs, active, tree⟩ := saved
  cases active <;> cases tree <;> simp [toJson, Json.record, tabToJson]

theorem savedWorkspace?_toJson {saved : SavedWorkspace Float} (h : saved.Readable) :
    Json.savedWorkspace? saved.toJson = some saved := by
  have htabs : (saved.tabs.map (·.toJson)).mapM Json.savedTab? = some saved.tabs :=
    mapM_map_eq_some fun tab _ => tab.savedTab?_toJson
  have hactive : Json.optional (fun value => value.text?.map TabId.mk)
      (saved.active.map tabToJson) = some saved.active :=
    optional_map (fun _ _ => nofun) fun _ _ => rfl
  have htree : Json.optional Json.paneTree? (saved.tree.map (·.toJson)) = some saved.tree := by
    refine optional_map (fun tree _ => ?_) fun tree htree =>
      PaneTree.paneTree?_toJson (h.readsBack tree htree) (h.nesting_le tree htree)
    cases tree <;> nofun
  simp [Json.savedWorkspace?, record_toJson, text?_string, items?_array, Uuid.ofString?_text, htabs,
    hactive, htree]

theorem printable_toJson {saved : SavedWorkspace Float} (h : saved.Readable) :
    saved.toJson.Printable := by
  have htabs : Json.ItemsPrintable (saved.tabs.map (·.toJson)) :=
    Json.itemsPrintable_iff.2 (List.forall_mem_map.2 fun tab _ => tab.printable_toJson)
  have htree : ∀ tree ∈ saved.tree, tree.toJson.Printable := fun tree htree =>
    PaneTree.printable_toJson (h.readsBack tree htree)
  obtain ⟨id, name, tabs, active, tree⟩ := saved
  cases active <;> cases tree <;>
    simp_all [toJson, Json.Printable, Json.FieldsPrintable]

end SavedWorkspace

namespace Session

variable {session : Session Float}

def placeToJson (place : Nat) : Json := .number (Nat.toDigits 10 place)

theorem record_toJson (session : Session Float) :
    session.toJson.record ["saved_at", "workspaces", "active_workspace"] =
      some [some (.string session.savedAt), some (.array (session.workspaces.map (·.toJson))),
        session.front.map placeToJson] := by
  obtain ⟨savedAt, workspaces, front⟩ := session
  cases front <;> simp [toJson, Json.record, placeToJson]

theorem nat64?_placeToJson {place : Nat} (h : place < 2 ^ 64) :
    (placeToJson place).nat64? = some place := by
  have hdigits : (Nat.toDigits 10 place).all Char.isDigit = true :=
    List.all_eq_true.2 fun c hc => Decimal.isDigit_of_mem_toDigits hc
  rw [placeToJson, Json.nat64?, Decimal.digitsValue_toDigits, if_pos ⟨hdigits, h⟩]

theorem session?_toJson (hworkspaces : ∀ saved ∈ session.workspaces, saved.Readable)
    (hfront : ∀ place ∈ session.front, place < 2 ^ 64) :
    Json.session? session.toJson = some session := by
  have hall : (session.workspaces.map (·.toJson)).mapM Json.savedWorkspace? =
      some session.workspaces :=
    mapM_map_eq_some fun saved hsaved =>
      SavedWorkspace.savedWorkspace?_toJson (hworkspaces saved hsaved)
  have hplace : Json.optional Json.nat64? (session.front.map placeToJson) = some session.front :=
    optional_map (fun _ _ => nofun) fun place hplace => nat64?_placeToJson (hfront place hplace)
  simp [Json.session?, record_toJson, text?_string, items?_array, hall, hplace]

theorem printable_toJson (hworkspaces : ∀ saved ∈ session.workspaces, saved.Readable) :
    session.toJson.Printable := by
  have hall : Json.ItemsPrintable (session.workspaces.map (·.toJson)) :=
    Json.itemsPrintable_iff.2 (List.forall_mem_map.2 fun saved hsaved =>
      SavedWorkspace.printable_toJson (hworkspaces saved hsaved))
  obtain ⟨savedAt, workspaces, front⟩ := session
  cases front <;>
    simp_all [toJson, Json.Printable, Json.FieldsPrintable, Decimal.isNumber_toDigits]

theorem ofText?_text (hworkspaces : ∀ saved ∈ session.workspaces, saved.Readable)
    (hfront : ∀ place ∈ session.front, place < 2 ^ 64) :
    ofText? session.text = some session := by
  rw [ofText?, text, String.toList_ofList, Json.ofChars?_pretty (printable_toJson hworkspaces),
    Option.bind_some, session?_toJson hworkspaces hfront]

theorem isBlank_text (session : Session Float) : Text.isBlank session.text = false := by
  simp [Text.isBlank, text, toJson, Json.pretty, Text.isBlankChar, Text.blankRanges]

theorem load_of_save {files after : Files} {path : String}
    (hworkspaces : ∀ saved ∈ session.workspaces, saved.Readable)
    (hfront : ∀ place ∈ session.front, place < 2 ^ 64)
    (hsave : session.save files path = (true, after)) : load after path = .ok (some session) := by
  unfold save at hsave
  have hlook := Files.look_replace hsave
  simp only [load, hlook, ofEntry, Files.fromUTF8?_toUTF8, ofFileText, isBlank_text,
    ofText?_text hworkspaces hfront, Bool.false_eq_true, if_false]

def EveryTree (P : PaneTree Float → Prop) (session : Session Float) : Prop :=
  ∀ saved ∈ session.workspaces, ∀ tree ∈ saved.tree, P tree

/-- A session is saved wherever no file is in the way of the folders above it and no folder in the
way of its draft or of its file. What is saved is loaded again, whatever its texts are, if its
shares are finite and each is found again in the text that is written for it, and no splits are
nested more than three deep; and no tree of at most four leaves nests them deeper. -/
theorem load_save {session : Session Float} {files : Files} {path : String}
    (hfinite : session.EveryTree (·.EverySplit fun shares => ∀ share ∈ shares, share.isFinite))
    (hreads : session.EveryTree
      (·.EverySplit fun shares => ∀ share ∈ shares, share.isFinite → Decimal.ReadsBack share))
    (hnesting : session.EveryTree (·.nesting ≤ 3))
    (hfront : ∀ place ∈ session.front, place < 2 ^ 64) :
    ((∃ after, session.save files path = (true, after)) ↔ files.Takes (draftPath path) path) ∧
      (∀ after, session.save files path = (true, after) →
        load after path = .ok (some session)) ∧
      ∀ tree : PaneTree Float, tree.Branching 2 → tree.leafCount ≤ 4 → tree.nesting ≤ 3 := by
  refine ⟨Files.exists_replace_iff, fun after hsave => ?_, fun tree htree hleaves => ?_⟩
  · refine load_of_save (fun saved hsaved => ⟨fun tree htree => ?_, fun tree htree => ?_⟩) hfront
      hsave
    · exact fun place axis slots hnode share hshare =>
        hreads saved hsaved tree htree place axis slots hnode share hshare
          (hfinite saved hsaved tree htree place axis slots hnode share hshare)
    · exact Nat.le_trans (hnesting saved hsaved tree htree) (by decide)
  · have hdeep := PaneTree.nesting_lt_leafCount htree
    omega

def stackedPanes : PaneTree Float :=
  .split .row [(.leaf ⟨"a"⟩, 0.6), (.split .col [(.leaf ⟨"b"⟩, 0.25), (.leaf ⟨"c"⟩, 0.75)], 0.4)]

theorem everySplit_stackedPanes {P : Float → Prop}
    (h : ∀ share ∈ [0.6, 0.4, 0.25, 0.75], P share) :
    stackedPanes.EverySplit fun shares => ∀ share ∈ shares, P share := by
  simp only [List.forall_mem_cons] at h
  simp [stackedPanes, PaneTree.everySplit_split, PaneTree.everySplit_leaf, PaneTree.sharesOf, h]

def stackedSession : Session Float :=
  ⟨"2025-01-01T00:00:00Z",
    [⟨⟨0x6f1c1f6e4b0e4a8f9d7e2f4d8f0b9a11⟩, "say \"hi\"\n",
        [⟨⟨"a"⟩, "", "https://a.test", true⟩, ⟨⟨"b"⟩, "\\é\t", "about:blank", false⟩,
          ⟨⟨"c"⟩, "\x01", "", false⟩],
        some ⟨"b"⟩, some stackedPanes⟩,
      ⟨⟨1⟩, "", [], none, none⟩],
    some 1⟩

theorem everyTree_stackedSession {P : PaneTree Float → Prop} (h : P stackedPanes) :
    stackedSession.EveryTree P := by
  simpa [EveryTree, stackedSession] using h

/-- A home folder, from a folder below which a session was saved before; its draft was left. -/
def leftovers : Files where
  folder := ["home", "me", "notes"]
  folders := []
  entries := [(["home", "me", ".config", "tilepane", "session.json"], "\x7b".toUTF8),
    (["home", "me", ".config", "tilepane", "session.json.tmp"], "".toUTF8)]

theorem takes_leftovers :
    leftovers.Takes (draftPath "/home/me/.config/tilepane/session.json")
      "/home/me/.config/tilepane/session.json" := by
  rw [Files.takes_iff]
  exact ⟨by decide +kernel,
    ⟨["home", "me", ".config", "tilepane", "session.json.tmp"], by decide +kernel⟩,
    ⟨["home", "me", ".config", "tilepane", "session.json"], by decide +kernel⟩⟩

theorem takes_leftovers_relative :
    leftovers.Takes (draftPath "new/./a/../session.json") "new/./a/../session.json" := by
  rw [Files.takes_iff]
  exact ⟨by decide +kernel, ⟨["home", "me", "notes", "new", "session.json.tmp"], by decide +kernel⟩,
    ⟨["home", "me", "notes", "new", "session.json"], by decide +kernel⟩⟩

theorem load_save_stackedSession :
    (∃ after, stackedSession.save leftovers "/home/me/.config/tilepane/session.json" =
        (true, after) ∧
      load after "/home/me/.config/tilepane/session.json" = .ok (some stackedSession)) ∧
    ∃ after, stackedSession.save leftovers "new/./a/../session.json" = (true, after) ∧
      load after "new/./a/../session.json" = .ok (some stackedSession) := by
  have hfinite := everyTree_stackedSession
    (everySplit_stackedPanes (P := fun share => share.isFinite) (by decide +kernel))
  have hreads := everyTree_stackedSession
    (everySplit_stackedPanes (P := fun share => share.isFinite → Decimal.ReadsBack share) (by
      unfold Decimal.ReadsBack
      decide +kernel))
  have hnesting := everyTree_stackedSession (P := (·.nesting ≤ 3)) (by decide)
  have hround (path : String) (htakes : leftovers.Takes (draftPath path) path) :
      ∃ after, stackedSession.save leftovers path = (true, after) ∧
        load after path = .ok (some stackedSession) := by
    obtain ⟨hsaves, hloads, -⟩ := @load_save stackedSession leftovers path hfinite hreads hnesting
      (by rintro _ ⟨⟩; decide)
    obtain ⟨after, hsave⟩ := hsaves.2 htakes
    exact ⟨after, hsave, hloads after hsave⟩
  exact ⟨hround _ takes_leftovers, hround _ takes_leftovers_relative⟩

end Session

end PaneTiling

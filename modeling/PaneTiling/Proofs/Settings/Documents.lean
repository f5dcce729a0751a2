import PaneTiling.Proofs.Yaml.Documents
import PaneTiling.Proofs.Yaml.Numbers
import PaneTiling.Proofs.Files
import PaneTiling.Settings.Storage

/-!
Saved settings come back. The text of settings has one entry for each field, its values stand
without quotes or are quoted as they need to be, and every field is read from its own entry; and
what is saved to a file is loaded from it.
-/

namespace PaneTiling.Settings

open Yaml (Entry Stands)

variable {s : Settings Float}

def ReadsBack (x : Float) : Prop := Yaml.floatOf? (Decimal.Style.settings.render x) = some x

def plainEntry (name : String) (text : List Char) : Entry := ⟨name.toList, text, ⟨true, text⟩⟩

def switchText (on : Bool) : List Char := (if on then "true" else "false").toList

def entries (s : Settings Float) (path : Option Entry) : List Entry :=
  [plainEntry "pane_gap" (Decimal.Style.settings.render s.paneGap),
    plainEntry "divider_hit_width" (Decimal.Style.settings.render s.dividerHitWidth),
    plainEntry "suspend_after_secs" (Nat.toDigits 10 s.suspendAfterSecs),
    plainEntry "destroy_after_secs" (Nat.toDigits 10 s.destroyAfterSecs),
    plainEntry "restore_session" (switchText s.restoreSession)] ++ path.toList ++
    [plainEntry "log_level" s.logLevel.name.toList]

/-- An entry for a path: whatever is in it, the value is that path and not null. -/
structure IsPathEntry (path : String) (e : Entry) : Prop where
  line : e.line = Yaml.entryText "session_file" (Yaml.valueText path.toList)
  key : e.key = "session_file".toList
  stands : Stands e.written e.value
  text : e.value.text = path.toList
  notNull : e.value.isNull = false

theorem exists_isPathEntry {path : String} (h : ∀ c ∈ path.toList, Yaml.isBreak c = false) :
    ∃ e, IsPathEntry path e := by
  obtain ⟨written, value, hvalue, hstands, htext, hnull⟩ := Yaml.exists_valueText h
  refine ⟨⟨"session_file".toList, written, value⟩, ?_, rfl, hstands, htext, hnull⟩
  simp [Entry.line, Yaml.entryText, hvalue]

theorem line_plainEntry (name : String) (text : List Char) :
    (plainEntry name text).line = Yaml.entryText name (text ++ ['\n']) := by
  simp [plainEntry, Entry.line, Yaml.entryText]

theorem chars_eq {path : Option Entry} (hpath : Option.Rel IsPathEntry s.sessionFile path) :
    s.chars = (s.entries path).flatMap Entry.line := by
  have hfile : (s.sessionFile.map fun path =>
      Yaml.entryText "session_file" (Yaml.valueText path.toList)).getD [] =
        path.toList.flatMap Entry.line := by
    generalize s.sessionFile = file at hpath
    cases hpath with
    | none => rfl
    | some hpath => simp [hpath.line]
  simp only [chars, entries, hfile, List.flatMap_append, List.flatMap_cons, List.flatMap_nil,
    line_plainEntry, floatLine, Settings.line, switchText, Nat.toString_eq_repr, Nat.toList_repr,
    List.append_assoc, List.append_nil]

theorem fits_plainEntry {name : String} {text : List Char}
    (hname : Yaml.isPlain name.toList = true) (hne : name.toList ≠ [])
    (htext : Yaml.isPlain text = true) (htext_ne : text ≠ []) : (plainEntry name text).Fits :=
  ⟨hname, hne, Yaml.stands_plain htext htext_ne⟩

theorem fits_entries {path : Option Entry} (hpath : Option.Rel IsPathEntry s.sessionFile path)
    (hgap : ReadsBack s.paneGap) (hwidth : ReadsBack s.dividerHitWidth) :
    ∀ e ∈ s.entries path, e.Fits := by
  have hnumber {name : String} (hname : Yaml.isPlain name.toList = true) (hne : name.toList ≠ [])
      {x : Float} (hx : ReadsBack x) : (plainEntry name (Decimal.Style.settings.render x)).Fits :=
    fits_plainEntry hname hne (Yaml.isPlain_of_floatOf? hx).1 (Yaml.isPlain_of_floatOf? hx).2
  have hsecs {name : String} (hname : Yaml.isPlain name.toList = true) (hne : name.toList ≠ [])
      (secs : Nat) : (plainEntry name (Nat.toDigits 10 secs)).Fits :=
    fits_plainEntry hname hne (Yaml.isPlain_toDigits secs) Nat.toDigits_ne_nil
  intro e he
  simp only [entries, List.mem_append, List.mem_cons, Option.mem_toList, List.not_mem_nil,
    or_false] at he
  rcases he with ((rfl | rfl | rfl | rfl | rfl) | hfile) | rfl
  · exact hnumber (by decide) (by decide) hgap
  · exact hnumber (by decide) (by decide) hwidth
  · exact hsecs (by decide) (by decide) _
  · exact hsecs (by decide) (by decide) _
  · refine fits_plainEntry (by decide) (by decide) ?_ ?_ <;> cases s.restoreSession <;> decide
  · generalize s.sessionFile = file at hpath
    cases hpath with
    | none => cases hfile
    | some hpath =>
      cases hfile
      exact ⟨by rw [hpath.key]; decide, by rw [hpath.key]; decide, hpath.stands⟩
  · refine fits_plainEntry (by decide) (by decide) ?_ ?_ <;> cases s.logLevel <;> decide

theorem sessionFile?_pathEntry {path : String} {e : Entry} (h : IsPathEntry path e) :
    sessionFile? e.value = some (some path) := by
  simp [sessionFile?, h.notNull, h.text]

theorem ofEntries?_entries {path : Option Entry} (hpath : Option.Rel IsPathEntry s.sessionFile path)
    (hgap : ReadsBack s.paneGap) (hwidth : ReadsBack s.dividerHitWidth)
    (hsuspend : s.suspendAfterSecs < 2 ^ 64) (hdestroy : s.destroyAfterSecs < 2 ^ 64) :
    ofEntries? ((s.entries path).map Entry.member) = some s := by
  have hgap : (Yaml.Scalar.mk true (Decimal.Style.settings.render s.paneGap)).float? =
      some s.paneGap := hgap
  have hwidth : (Yaml.Scalar.mk true (Decimal.Style.settings.render s.dividerHitWidth)).float? =
      some s.dividerHitWidth := hwidth
  have hsuspend := Yaml.nat64?_toDigits hsuspend
  have hdestroy := Yaml.nat64?_toDigits hdestroy
  have hrestore : (Yaml.Scalar.mk true (switchText s.restoreSession)).bool? =
      some s.restoreSession := by
    cases s.restoreSession <;> rfl
  have hlevel : logLevel? ⟨true, s.logLevel.name.toList⟩ = some s.logLevel := by
    cases s.logLevel <;> decide
  cases hfile : s.sessionFile with
  | none =>
    rw [hfile] at hpath
    cases hpath
    simp [ofEntries?, field?, entries, plainEntry, Entry.member, Yaml.scalar?, hgap, hwidth,
      hsuspend, hdestroy, hrestore, hlevel, standard, ← hfile]
  | some file =>
    rw [hfile] at hpath
    cases hpath with
    | some hpath =>
      have hread := sessionFile?_pathEntry hpath
      simp [ofEntries?, field?, entries, plainEntry, Entry.member, Yaml.scalar?, hgap, hwidth,
        hsuspend, hdestroy, hrestore, hlevel, hpath.key, hread, ← hfile]

/-- What a document must be able to hold: each width is found again in its text, times have at most
64 bits, and the path stands on one line. -/
structure Storable (s : Settings Float) : Prop where
  readsBack : ∀ x ∈ [s.paneGap, s.dividerHitWidth], x.isFinite → ReadsBack x
  suspend_lt : s.suspendAfterSecs < 2 ^ 64
  destroy_lt : s.destroyAfterSecs < 2 ^ 64
  unbroken : ∀ file ∈ s.sessionFile, ∀ c ∈ file.toList, Yaml.isBreak c = false

theorem isFinite_of_fault? (h : s.fault? = none) :
    s.paneGap.isFinite = true ∧ s.dividerHitWidth.isFinite = true := by
  unfold fault? at h
  split at h
  · cases h
  · rename_i hgap
    split at h
    · cases h
    · rename_i hwidth
      simp only [Bool.or_eq_true, not_or, Bool.not_eq_true', Bool.not_eq_false] at hgap hwidth
      exact ⟨hgap.1, hwidth.1⟩

theorem Storable.exists_pathEntry (h : s.Storable) :
    ∃ path, Option.Rel IsPathEntry s.sessionFile path := by
  have hfile := h.unbroken
  generalize s.sessionFile = file at hfile
  cases file with
  | none => exact ⟨none, .none⟩
  | some file =>
    obtain ⟨e, he⟩ := exists_isPathEntry (hfile file rfl)
    exact ⟨some e, .some he⟩

theorem ofText?_text (h : s.Storable) (hfault : s.fault? = none) : ofText? s.text = some s := by
  obtain ⟨path, hpath⟩ := h.exists_pathEntry
  have hreads := h.readsBack
  rw [List.forall_mem_cons, List.forall_mem_singleton] at hreads
  have hgap := hreads.1 (isFinite_of_fault? hfault).1
  have hwidth := hreads.2 (isFinite_of_fault? hfault).2
  have hne : s.entries path ≠ [] := by simp [entries]
  rw [ofText?, text, String.toList_ofList, chars_eq hpath,
    Yaml.ofChars?_lines hne (fits_entries hpath hgap hwidth), Option.bind_some, ofYaml?,
    ofEntries?_entries hpath hgap hwidth h.suspend_lt h.destroy_lt]

theorem isBlank_text (s : Settings Float) : Text.isBlank s.text = false := by
  simp [Text.isBlank, text, chars, Yaml.entryText, Text.isBlankChar, Text.blankRanges]

theorem saving_of_fault {fault : SettingsFault Float} (h : s.fault? = some fault) (files : Files)
    (path : String) : s.saving files path = (.error (.faulty fault), files) := by
  simp [saving, replacement, savedText, checked, h, Except.map]

theorem saving_eq_ok_iff {files after : Files} {path : String} :
    s.saving files path = (.ok (), after) ↔
      s.fault? = none ∧ files.replace ⟨draftPath path, path, s.text.toUTF8⟩ = (true, after) := by
  cases hfault : s.fault? with
  | some fault => simp [saving_of_fault hfault]
  | none =>
    have hready : s.replacement path = .ok ⟨draftPath path, path, s.text.toUTF8⟩ := by
      rw [replacement, savedText, checked, hfault]
      rfl
    simp only [saving, hready, true_and]
    rcases files.replace ⟨draftPath path, path, s.text.toUTF8⟩ with ⟨_ | _, left⟩ <;> simp

theorem load_of_saving {files after : Files} {path : String} (h : s.Storable)
    (hsaving : s.saving files path = (.ok (), after)) : load after path = .ok s := by
  obtain ⟨hfault, hreplace⟩ := saving_eq_ok_iff.1 hsaving
  have hlook := Files.look_replace hreplace
  simp only [load, hlook, ofEntry, Files.fromUTF8?_toUTF8, ofFileText, isBlank_text,
    ofText?_text h hfault, checked, hfault, Bool.false_eq_true, if_false]

/-- Settings without a fault are saved wherever no file is in the way of the folders above their
path and no folder in the way of the draft or of the file, and what is saved is loaded again,
whatever the path in them is taken for without its quotes. Settings with a fault are turned down
with it and no file changes. -/
theorem load_saving (s : Settings Float) (files : Files) (path : String) :
    ((∃ after, s.saving files path = (.ok (), after)) ↔
        s.fault? = none ∧ files.Takes (draftPath path) path) ∧
      (s.Storable → ∀ after, s.saving files path = (.ok (), after) → load after path = .ok s) ∧
      ∀ fault, s.fault? = some fault → s.saving files path = (.error (.faulty fault), files) := by
  refine ⟨?_, fun h after => load_of_saving h,
    fun fault hfault => saving_of_fault hfault files path⟩
  simp only [saving_eq_ok_iff, exists_and_left, Files.exists_replace_iff]

/-- A path that would be read as an entry with a comment if it stood without quotes. -/
def oddSettings : Settings Float :=
  { (standard : Settings Float) with
    paneGap := 0.1
    dividerHitWidth := 1e22
    destroyAfterSecs := 18446744073709551615
    sessionFile := some "it's: \"null\" #1\ufeff"
    logLevel := .trace }

theorem storable_oddSettings : oddSettings.Storable := by
  refine ⟨?_, by decide, by decide, ?_⟩
  · unfold ReadsBack
    decide +kernel
  · have hline : (oddSettings.sessionFile.all fun file =>
        file.toList.all (!Yaml.isBreak ·)) = true := by
      decide
    intro file hfile c hc
    rw [Option.mem_def.1 hfile, Option.all_some] at hline
    simpa using List.all_eq_true.1 hline c hc

def leftovers : Files where
  folder := ["home", "me", "notes"]
  folders := []
  entries := [(["home", "me", ".config", "tilepane", "config.yaml"], "\x7b".toUTF8),
    (["home", "me", ".config", "tilepane", "config.yaml.tmp"], "".toUTF8)]

theorem takes_leftovers :
    leftovers.Takes (draftPath (Settings.path "/home/me")) (Settings.path "/home/me") := by
  rw [Files.takes_iff]
  exact ⟨by decide +kernel,
    ⟨["home", "me", ".config", "tilepane", "config.yaml.tmp"], by decide +kernel⟩,
    ⟨["home", "me", ".config", "tilepane", "config.yaml"], by decide +kernel⟩⟩

theorem takes_leftovers_relative :
    leftovers.Takes (draftPath "nested/config.yaml") "nested/config.yaml" := by
  rw [Files.takes_iff]
  exact ⟨by decide +kernel,
    ⟨["home", "me", "notes", "nested", "config.yaml.tmp"], by decide +kernel⟩,
    ⟨["home", "me", "notes", "nested", "config.yaml"], by decide +kernel⟩⟩

theorem load_saving_oddSettings :
    (∃ after, oddSettings.saving leftovers (Settings.path "/home/me") = (.ok (), after) ∧
      load after (Settings.path "/home/me") = .ok oddSettings) ∧
    (∃ after, oddSettings.saving leftovers "nested/config.yaml" = (.ok (), after) ∧
      load after "nested/config.yaml" = .ok oddSettings) ∧
    ({ oddSettings with dividerHitWidth := 0 } : Settings Float).saving leftovers
      "nested/config.yaml" = (.error (.faulty (.dividerHitWidth 0 0.1)), leftovers) := by
  have hround (path : String) (htakes : leftovers.Takes (draftPath path) path) :
      ∃ after, oddSettings.saving leftovers path = (.ok (), after) ∧
        load after path = .ok oddSettings := by
    obtain ⟨hsaved, hloaded, -⟩ := load_saving oddSettings leftovers path
    obtain ⟨after, hafter⟩ := hsaved.2 ⟨by decide +kernel, htakes⟩
    exact ⟨after, hafter, hloaded storable_oddSettings after hafter⟩
  obtain ⟨-, -, hfaulty⟩ :=
    load_saving { oddSettings with dividerHitWidth := 0 } leftovers "nested/config.yaml"
  exact ⟨hround _ takes_leftovers, hround _ takes_leftovers_relative,
    hfaulty _ (by decide +kernel)⟩

end PaneTiling.Settings
